import Webserv.ResponseHandler.Upload

/-!
# Uploads on the disk

`_handlePost` truncates the file before it writes the first byte, and leaves it as it is when a
`write` fails.

## Main results

* `writeLoop_eq` — what the loop of `write` calls leaves in the file.
* `failedUpload_iff` — **when a failed upload has changed nothing.**
-/

namespace Webserv

open Bytes

/-! ### Files -/

/-- The contents of the files, by their paths. -/
abbrev Disk := Bytes → Option Bytes

namespace Disk

/-- `open` with `O_CREAT | O_TRUNC`. -/
def truncate (disk : Disk) (path : Bytes) : Disk := Function.update disk path (some [])

/-- `write` at the end of a file. -/
def append (disk : Disk) (path bs : Bytes) : Disk :=
  Function.update disk path ((disk path).map (· ++ bs))

end Disk

/-- The loop of `write` calls in `_handlePost`, on the bytes that are left. -/
def writeLoop (path : Bytes) : List ℕ → Bytes → Disk → Disk
  | _, [], disk => disk
  | [], _ :: _, disk => disk
  | n :: takes, b :: data, disk =>
      if n = 0 then disk
      else writeLoop path takes ((b :: data).drop n) (disk.append path ((b :: data).take n))

/-- The files behind `_handlePost`. -/
def diskAfterPost (env : Env) (req : HttpRequest) (loc : Location) (disk : Disk) : Disk :=
  if loc.upload.isEmpty then disk
  else
    let path := cStr (withSlash loc.upload ++ uploadName env req)
    match env.fs.create path with
    | .error _ => disk
    | .ok _ => writeLoop path env.fs.writes (uploadData req) (disk.truncate path)

/-- The bytes that the `write` calls take. -/
def written : List ℕ → Bytes → Bytes
  | _, [] => []
  | [], _ :: _ => []
  | n :: takes, b :: data =>
      if n = 0 then [] else (b :: data).take n ++ written takes ((b :: data).drop n)

/-- **What the loop leaves in the file.** -/
theorem writeLoop_eq (path : Bytes) : ∀ (takes : List ℕ) (data : Bytes) {content : Bytes}
    {disk : Disk}, disk path = some content →
      writeLoop path takes data disk =
        Function.update disk path (some (content ++ written takes data)) := by
  intro takes
  induction takes with
  | nil =>
    intro data content disk h
    cases data with
    | nil => simp [writeLoop, written, ← h]
    | cons b data => simp [writeLoop, written, ← h]
  | cons n takes ih =>
    intro data content disk h
    cases data with
    | nil => simp [writeLoop, written, ← h]
    | cons b data =>
      rw [writeLoop, written]
      by_cases hn : n = 0
      · simp [hn, ← h]
      · -- one call adds to the file, and the rest of the loop adds to that
        have hcontent : disk.append path ((b :: data).take n) path =
            some (content ++ (b :: data).take n) := by
          simp [Disk.append, h]
        rw [if_neg hn, if_neg hn, ih _ hcontent, Disk.append, Function.update_idem,
          List.append_assoc]

/-- The calls take everything when the loop comes to its end. -/
theorem written_eq_iff : ∀ (takes : List ℕ) (data : Bytes),
    written takes data = data ↔ writesAll takes data.length = true := by
  intro takes
  induction takes with
  | nil =>
    intro data
    cases data with
    | nil => simp [written, writesAll]
    | cons b data => simp [written, writesAll]
  | cons n takes ih =>
    intro data
    cases data with
    | nil => simp [written, writesAll]
    | cons b data =>
      rw [written, List.length_cons, writesAll]
      by_cases hn : n = 0
      · simp [hn]
      · have hlen : (b :: data).length - n = ((b :: data).drop n).length := List.length_drop.symm
        rw [if_neg hn, if_neg hn, ← List.length_cons (a := b), hlen, ← ih]
        constructor
        · intro h
          exact List.append_cancel_left (h.trans (List.take_append_drop n (b :: data)).symm)
        · intro h
          rw [h, List.take_append_drop]

/-! ### Answers -/

/-- What is appended to a write buffer when blocks are put into it up to the first that finds no
room. -/
def appended (wb : ByteQueue) (blocks : List Bytes) : Bytes :=
  (wb.appendAll blocks).1.items.drop wb.size

@[simp] theorem appended_nil (wb : ByteQueue) : appended wb [] = [] := by
  simp [appended, Fifo.size_eq]

theorem appended_cons (wb : ByteQueue) {block : Bytes} (hne : block ≠ []) (blocks : List Bytes) :
    appended wb (block :: blocks) =
      if wb.limit < wb.size + block.length then []
      else block ++ appended (wb.push block) blocks := by
  unfold appended
  rw [Fifo.appendAll]
  by_cases hroom : wb.limit < wb.size + block.length
  · rw [Fifo.append_eq_none_iff.mpr ⟨hne, hroom⟩, if_pos hroom]
    simp [Fifo.size_eq]
  · rw [Fifo.append_eq_some_iff.mpr ⟨Or.inr (Nat.le_of_not_lt hroom), rfl⟩, if_neg hroom]
    obtain ⟨done, -, -, hdone, -⟩ := Fifo.appendAll_spec blocks (wb.push block)
    dsimp only
    rw [hdone, Fifo.size_push, ← List.drop_drop]
    simp [Fifo.size_eq]

/-- The head of the response to an upload. -/
def uploadedHead (env : Env) (req : HttpRequest) : Bytes :=
  writeHeaders env 201 (ascii "text/html") uploadedBody.length
    (ascii "Location: " ++ (withSlash req.path ++ uploadName env req) ++ crlf) req

/-- The path of an upload, as `open` sees it. -/
def uploadPath (env : Env) (req : HttpRequest) (loc : Location) : Bytes :=
  cStr (withSlash loc.upload ++ uploadName env req)

/-- What says 201 to the client is a head that finds room. -/
theorem statusCode_handlePost (env : Env) (req : HttpRequest) (loc : Location) (cfg : Server)
    (wb : ByteQueue) :
    statusCode (appended wb (handlePost env req loc cfg []).blocks) = ascii "201" ↔
      loc.upload ≠ [] ∧ (∃ u, env.fs.create (uploadPath env req loc) = .ok u) ∧
        written env.fs.writes (uploadData req) = uploadData req ∧
          wb.size + (uploadedHead env req).length ≤ wb.limit := by
  -- an error page has another status line, and so has nothing at all
  have herror : ∀ code, code = 405 ∨ code = 500 →
      statusCode (appended wb [sendErrorInternal env code req cfg]) ≠ ascii "201" := by
    intro code hcode
    have hhead : ∀ bs, statusCode bs = decimal code → bs ≠ [] := by
      rintro bs hstatus rfl
      rcases hcode with rfl | rfl <;> exact absurd hstatus (by decide)
    rw [appended_cons wb (hhead _ (statusCode_sendErrorInternal env code req cfg)), appended_nil,
      List.append_nil]
    split
    · decide
    · rw [statusCode_sendErrorInternal]
      rcases hcode with rfl | rfl <;> decide
  unfold handlePost uploadPath
  by_cases hupload : loc.upload = []
  · rw [if_pos (by simpa using hupload)]
    exact iff_of_false (herror 405 (Or.inl rfl)) (fun h => h.1 hupload)
  · rw [if_neg (by simpa using hupload)]
    dsimp only
    cases hcreate : env.fs.create (cStr (withSlash loc.upload ++ uploadName env req)) with
    | error e => exact iff_of_false (herror 500 (Or.inr rfl)) (by simp)
    | ok u =>
      dsimp only
      cases hwrites : writesAll env.fs.writes (uploadData req).length with
      | false =>
        have hpartial : ¬ written env.fs.writes (uploadData req) = uploadData req := by
          rw [written_eq_iff, hwrites]
          exact Bool.false_ne_true
        exact iff_of_false (herror 500 (Or.inr rfl)) (fun h => hpartial h.2.2.1)
      | true =>
        -- everything is written: the page is queued, unless it finds no room
        have hhead : uploadedHead env req ≠ [] := by
          intro h
          have hstatus := statusCode_writeHeaders env 201 (ascii "text/html") uploadedBody.length
            (ascii "Location: " ++ (withSlash req.path ++ uploadName env req) ++ crlf) req []
          rw [List.append_nil, show writeHeaders _ _ _ _ _ _ = [] from h] at hstatus
          exact absurd hstatus (by decide)
        have hwhole := (written_eq_iff _ _).mpr hwrites
        simp only [Bool.not_true, Bool.false_eq_true, if_false]
        rw [page, show writeHeaders _ _ _ _ _ _ = uploadedHead env req from rfl,
          appended_cons wb hhead]
        by_cases hroom : wb.limit < wb.size + (uploadedHead env req).length
        · rw [if_pos hroom]
          exact iff_of_false (by decide) (fun h => absurd h.2.2.2 (Nat.not_le.mpr hroom))
        · rw [if_neg hroom, uploadedHead, statusCode_writeHeaders]
          exact iff_of_true (by decide) ⟨hupload, ⟨u, trivial⟩, hwhole, Nat.le_of_not_lt hroom⟩

/-- What becomes of the files. -/
theorem diskAfterPost_eq (env : Env) (req : HttpRequest) (loc : Location) (disk : Disk) :
    diskAfterPost env req loc disk =
      if loc.upload ≠ [] ∧ (env.fs.create (uploadPath env req loc)).isOk then
        Function.update disk (uploadPath env req loc)
          (some (written env.fs.writes (uploadData req)))
      else disk := by
  unfold diskAfterPost uploadPath
  by_cases hupload : loc.upload = []
  · simp [hupload]
  · rw [if_neg (by simpa using hupload)]
    dsimp only
    cases env.fs.create (cStr (withSlash loc.upload ++ uploadName env req)) with
    | error e => simp [Except.isOk, Except.toBool]
    | ok u =>
      dsimp only
      rw [writeLoop_eq _ _ _ (show disk.truncate _ _ = some [] from Function.update_self _ _ _),
        Disk.truncate, Function.update_idem]
      simp [hupload, Except.isOk, Except.toBool]

/-- **When an upload that is not answered with 201 has changed nothing**: nothing was opened, or all
was written and the answer finds room, or the file had the bytes that were written. -/
theorem failedUpload_iff (env : Env) (req : HttpRequest) (loc : Location) (cfg : Server)
    (wb : ByteQueue) (disk : Disk) :
    (statusCode (appended wb (handlePost env req loc cfg []).blocks) ≠ ascii "201" →
        diskAfterPost env req loc disk = disk) ↔
      loc.upload = [] ∨ (∃ e, env.fs.create (uploadPath env req loc) = .error e) ∨
        written env.fs.writes (uploadData req) = uploadData req ∧
          wb.size + (uploadedHead env req).length ≤ wb.limit ∨
        disk (uploadPath env req loc) = some (written env.fs.writes (uploadData req)) := by
  rw [ne_eq, statusCode_handlePost, diskAfterPost_eq]
  by_cases hupload : loc.upload = []
  · simp [hupload]
  · cases hcreate : env.fs.create (uploadPath env req loc) with
    | error e => simp [Except.isOk, Except.toBool]
    | ok u =>
      have hopened : loc.upload ≠ [] ∧ (Except.ok u : Except Errno Unit).isOk = true :=
        ⟨hupload, rfl⟩
      rw [if_pos hopened, Function.update_eq_self_iff, or_iff_right hupload]
      constructor
      · intro h
        by_cases hdone : written env.fs.writes (uploadData req) = uploadData req ∧
            wb.size + (uploadedHead env req).length ≤ wb.limit
        · exact Or.inr (Or.inl hdone)
        · exact Or.inr (Or.inr (h fun hcreated => hdone hcreated.2.2).symm)
      · rintro (⟨e, he⟩ | hdone | hsame) hfailed
        · cases he
        · exact absurd ⟨hupload, ⟨u, rfl⟩, hdone⟩ hfailed
        · exact hsame.symm

/-- A `write` that fails behind the first byte. -/
private def failingWrites : Env :=
  ⟨{ FileSystem.empty with create := fun _ => .ok (), writes := [1, 0] }, 0, 0⟩

/-- **A write that fails** leaves a part of the upload where another file was. -/
theorem not_failedUpload : ¬ ∀ (env : Env) (req : HttpRequest) (loc : Location) (cfg : Server)
    (wb : ByteQueue) (disk : Disk),
    statusCode (appended wb (handlePost env req loc cfg []).blocks) ≠ ascii "201" →
      diskAfterPost env req loc disk = disk := by
  intro h
  have hsame := h failingWrites { HttpRequest.new 100 with body := ⟨ascii "new", 100⟩ }
    { Location.empty with upload := ascii "/up" } Server.empty (Fifo.new 1000)
    (fun path => if path = ascii "/up/upload_0_0" then some (ascii "old") else none)
    (by decide +kernel)
  have hpath := congrFun hsame (ascii "/up/upload_0_0")
  exact absurd hpath (by decide +kernel)

end Webserv
