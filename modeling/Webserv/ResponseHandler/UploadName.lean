import Webserv.ResponseHandler.Confinement

/-!
# The file an upload is written to

`_handlePost` opens the upload directory with a name behind it, which is the last component of the
form's file name or one of its own making.  `open` sees the path up to its first NUL.

## Main results

* `OneComponent` — a directory with one component behind it.
* `uploadPath_iff` — **when the path that is opened is of that kind.**
-/

namespace Webserv

open Bytes Path

/-- A directory and one component behind it, which is not one of the two dots. -/
def OneComponent (dir path : Bytes) : Prop :=
  ∃ name, path = dir ++ name ∧ name ≠ [] ∧ SLASH ∉ name ∧ name ≠ dot ∧ name ≠ dotDot

/-- A file name whose last component, up to its first NUL, is nothing or dots. -/
def HostileName (raw : Bytes) : Prop :=
  ∃ front seg stem rest, raw = front ++ seg ∧ seg = stem ++ 0 :: rest ∧ SLASH ∉ seg ∧ 92 ∉ seg ∧
    (front = [] ∨ front.getLast? = some SLASH ∨ front.getLast? = some 92) ∧
    (stem = [] ∨ stem = dot ∨ stem = dotDot)

/-- The last component of a file name, for either kind of slash. -/
def baseName (raw : Bytes) : Bytes :=
  (raw.reverse.takeWhile fun b => b != SLASH && b != 92).reverse

theorem sanitizeFilename_eq (raw : Bytes) : sanitizeFilename raw =
    if baseName raw = dot ∨ baseName raw = dotDot then [] else baseName raw := rfl

/-- A file name is cut in front of its last component. -/
theorem baseName_spec (raw : Bytes) :
    ∃ front, raw = front ++ baseName raw ∧ SLASH ∉ baseName raw ∧ 92 ∉ baseName raw ∧
      (front = [] ∨ front.getLast? = some SLASH ∨ front.getLast? = some 92) := by
  have hall : ∀ b ∈ baseName raw, (b != SLASH && b != 92) = true :=
    fun b hb => List.all_eq_true.mp List.all_takeWhile b (List.mem_reverse.mp hb)
  refine ⟨(raw.reverse.dropWhile fun b => b != SLASH && b != 92).reverse, ?_, ?_, ?_, ?_⟩
  · rw [baseName, ← List.reverse_append, List.takeWhile_append_dropWhile, List.reverse_reverse]
  · exact fun hmem => absurd (hall _ hmem) (by simp)
  · exact fun hmem => absurd (hall _ hmem) (by simp)
  · have hhead := List.head?_dropWhile_not (fun b => b != SLASH && b != 92) raw.reverse
    rw [List.getLast?_reverse]
    cases hdrop : raw.reverse.dropWhile fun b => b != SLASH && b != 92 with
    | nil => exact Or.inl rfl
    | cons b bs =>
      rw [hdrop, List.head?_cons] at hhead
      right
      have hb : b = SLASH ∨ b = 92 := by
        by_cases hslash : b = SLASH
        · exact Or.inl hslash
        · exact Or.inr (by simpa [hslash] using hhead)
      simpa using hb

theorem baseName_append {front seg : Bytes} (hslash : SLASH ∉ seg) (hback : 92 ∉ seg)
    (hfront : front = [] ∨ front.getLast? = some SLASH ∨ front.getLast? = some 92) :
    baseName (front ++ seg) = seg := by
  have hall : ∀ b ∈ seg.reverse, (b != SLASH && b != 92) = true := by
    intro b hb
    rw [List.mem_reverse] at hb
    have hne : b ≠ SLASH ∧ b ≠ 92 := ⟨fun h => hslash (h ▸ hb), fun h => hback (h ▸ hb)⟩
    simpa using hne
  have hstop : front.reverse.takeWhile (fun b => b != SLASH && b != 92) = [] := by
    rcases hfront with rfl | hlast | hlast
    · rfl
    · obtain ⟨front, rfl⟩ := List.getLast?_eq_some_iff.mp hlast
      simp
    · obtain ⟨front, rfl⟩ := List.getLast?_eq_some_iff.mp hlast
      simp
  rw [baseName, List.reverse_append, List.takeWhile_append_of_pos hall, hstop, List.append_nil,
    List.reverse_reverse]

/-- A file name is hostile when its last component begins so. -/
theorem hostileName_iff (raw : Bytes) : HostileName raw ↔
    ∃ stem rest, baseName raw = stem ++ 0 :: rest ∧ (stem = [] ∨ stem = dot ∨ stem = dotDot) := by
  constructor
  · rintro ⟨front, seg, stem, rest, rfl, hseg, hslash, hback, hfront, hstem⟩
    exact ⟨stem, rest, (baseName_append hslash hback hfront).trans hseg, hstem⟩
  · rintro ⟨stem, rest, hbase, hstem⟩
    obtain ⟨front, hraw, hslash, hback, hfront⟩ := baseName_spec raw
    exact ⟨front, baseName raw, stem, rest, hraw, hbase, hslash, hback, hfront, hstem⟩

/-- What a name looks like that is another one up to its first NUL. -/
theorem cStr_eq_iff_of_ne {s stem : Bytes} (hne : s ≠ stem) (hstem : 0 ∉ stem) :
    cStr s = stem ↔ ∃ rest, s = stem ++ 0 :: rest := by
  constructor
  · intro h
    by_cases hnul : 0 ∈ s
    · obtain ⟨front, rest, rfl, hfront⟩ := List.eq_append_cons_of_mem hnul
      have hcut : cStr (0 :: rest) = [] := by simp [cStr]
      rw [cStr_append hfront, hcut, List.append_nil] at h
      exact ⟨rest, by rw [h]⟩
    · rw [cStr_of_notMem hnul] at h
      exact absurd h hne
  · rintro ⟨rest, rfl⟩
    rw [cStr_append hstem]
    simp [cStr]

/-- The name of an upload is made here, or it is the last component of the form's file name. -/
theorem uploadName_cases (env : Env) (req : HttpRequest) :
    0 ∉ uploadName env req ∧ (∀ file, formFile req = some file → ¬ HostileName file.filename) ∨
      ∃ file, formFile req = some file ∧ uploadName env req = baseName file.filename := by
  have hdecimal : ∀ n, 0 ∉ decimal n := notMem_decimal (by decide)
  have hmade :
      0 ∉ ascii "upload_" ++ decimal env.now ++ ascii "_" ++ decimal env.uploadCounter := by
    simp only [List.mem_append, not_or]
    exact ⟨⟨⟨by decide, hdecimal _⟩, by decide⟩, hdecimal _⟩
  unfold uploadName
  cases hform : formFile req with
  | none => exact Or.inl ⟨hmade, by simp⟩
  | some file =>
    dsimp only [Option.elim_some]
    rw [sanitizeFilename_eq]
    by_cases hdots : baseName file.filename = dot ∨ baseName file.filename = dotDot
    · left
      rw [if_pos hdots]
      refine ⟨hmade, ?_⟩
      rintro file' ⟨⟩ hhostile
      obtain ⟨stem, rest, hbase, -⟩ := (hostileName_iff _).mp hhostile
      have hmem : 0 ∈ baseName file.filename := by simp [hbase]
      rcases hdots with hdots | hdots
      · rw [hdots] at hmem
        exact absurd hmem (by decide)
      · rw [hdots] at hmem
        exact absurd hmem (by decide)
    · rw [if_neg hdots]
      by_cases hempty : baseName file.filename = []
      · left
        rw [hempty]
        refine ⟨hmade, ?_⟩
        rintro file' ⟨⟩ hhostile
        obtain ⟨stem, rest, hbase, -⟩ := (hostileName_iff _).mp hhostile
        simp [hempty] at hbase
      · right
        rw [if_neg (by simpa using hempty)]
        exact ⟨file, rfl, rfl⟩

/-- The name that the kernel sees is a component of its own, unless the form's file name is
hostile. -/
theorem cStr_uploadName_iff (env : Env) (req : HttpRequest) :
    (cStr (uploadName env req) ≠ [] ∧ cStr (uploadName env req) ≠ dot ∧
        cStr (uploadName env req) ≠ dotDot) ↔
      ∀ file, formFile req = some file → ¬ HostileName file.filename := by
  obtain ⟨-, hne, hdot, hdotDot⟩ := uploadName_spec env req
  rcases uploadName_cases env req with ⟨hnul, hfile⟩ | ⟨file, hform, hname⟩
  · have hwhole : cStr (uploadName env req) = uploadName env req := by
      have happend := @cStr_append (uploadName env req) [] hnul
      simpa [cStr] using happend
    rw [hwhole]
    exact iff_of_true ⟨hne, hdot, hdotDot⟩ hfile
  · rw [ne_eq, ne_eq, ne_eq, cStr_eq_iff_of_ne hne (by simp), cStr_eq_iff_of_ne hdot (by decide),
      cStr_eq_iff_of_ne hdotDot (by decide), hform, hname]
    simp only [Option.some.injEq, forall_eq', hostileName_iff, not_exists, not_and, not_or]
    constructor
    · rintro ⟨hnil, hone, htwo⟩ stem rest hbase
      exact ⟨fun h => hnil rest (h ▸ hbase), fun h => hone rest (h ▸ hbase),
        fun h => htwo rest (h ▸ hbase)⟩
    · intro h
      exact ⟨fun rest hbase => (h [] rest hbase).1 rfl,
        fun rest hbase => (h dot rest hbase).2.1 rfl,
        fun rest hbase => (h dotDot rest hbase).2.2 rfl⟩

/-- **When an upload opens one component below its directory**: the directory's name has no NUL,
and neither has the form's file name where it would leave nothing or dots. -/
theorem uploadPath_iff (env : Env) (req : HttpRequest) (loc : Location) (cfg : Server) :
    (∀ path, FsCall.create path ∈ (handlePost env req loc cfg []).calls →
        OneComponent (withSlash loc.upload) (cStr path)) ↔
      loc.upload = [] ∨ 0 ∉ loc.upload ∧
        ∀ file, formFile req = some file → ¬ HostileName file.filename := by
  by_cases hupload : loc.upload = []
  · refine iff_of_true ?_ (Or.inl hupload)
    simp [handlePost, hupload, Reply.error]
  · have hcalls : (handlePost env req loc cfg []).calls =
        [.create (withSlash loc.upload ++ uploadName env req)] := by
      unfold handlePost
      rw [if_neg (by simpa using hupload)]
      dsimp only
      split
      · rfl
      · split
        · rfl
        · rfl
    have hnul : 0 ∈ withSlash loc.upload ↔ 0 ∈ loc.upload := by
      unfold withSlash
      split
      · exact Iff.rfl
      · simp [SLASH]
    rw [hcalls, or_iff_right hupload]
    simp only [List.mem_singleton, FsCall.create.injEq, forall_eq]
    by_cases hdir : 0 ∈ loc.upload
    · refine iff_of_false ?_ (fun h => h.1 hdir)
      rintro ⟨name, hpath, hne, -⟩
      have hle := @length_cStr_append_le _ (uploadName env req) (hnul.mpr hdir)
      have hpos := List.length_pos_of_ne_nil hne
      rw [hpath, List.length_append] at hle
      omega
    · rw [cStr_append (mt hnul.mp hdir), and_iff_right hdir, ← cStr_uploadName_iff env req]
      have hslash : SLASH ∉ cStr (uploadName env req) := fun h =>
        (uploadName_spec env req).1 ((List.takeWhile_prefix _).subset h)
      constructor
      · rintro ⟨name, hpath, hne, -, hdot, hdotDot⟩
        rw [List.append_cancel_left hpath]
        exact ⟨hne, hdot, hdotDot⟩
      · rintro ⟨hne, hdot, hdotDot⟩
        exact ⟨_, rfl, hne, hslash, hdot, hdotDot⟩

/-- A form with a file whose name has a NUL behind two dots. -/
private def dottedForm : HttpRequest :=
  { HttpRequest.new 1000 with
    method := ascii "POST"
    headers := (∅ : Std.TreeMap Bytes Bytes).insert (ascii "content-type")
      (ascii "multipart/form-data; boundary=b")
    body := ⟨ascii ("--b\r\nContent-Disposition: form-data; name=\"f\"; filename=\"..\x00x\"" ++
      "\r\n\r\ndata\r\n--b--"), 1000⟩ }

/-- **A NUL behind two dots**: the path that is opened is the parent of the upload directory. -/
theorem not_uploadPath : ¬ ∀ (env : Env) (req : HttpRequest) (loc : Location) (cfg : Server),
    0 ∉ loc.upload → ∀ path, FsCall.create path ∈ (handlePost env req loc cfg []).calls →
      OneComponent (withSlash loc.upload) (cStr path) := by
  intro h
  have hcalls : (handlePost ⟨FileSystem.empty, 0, 0⟩ dottedForm
      { Location.empty with upload := ascii "/up" } Server.empty []).calls =
        [.create (ascii "/up/..\x00x")] := by decide +kernel
  obtain ⟨name, hpath, -, -, -, hdotDot⟩ := h ⟨FileSystem.empty, 0, 0⟩ dottedForm
    { Location.empty with upload := ascii "/up" } Server.empty (by decide) (ascii "/up/..\x00x")
    (by rw [hcalls]; exact List.mem_singleton_self _)
  have hopened : cStr (ascii "/up/..\x00x") = withSlash (ascii "/up") ++ dotDot := by decide
  rw [hopened] at hpath
  exact hdotDot (List.append_cancel_left hpath).symm

end Webserv
