import Webserv.ResponseHandler.Framing

/-!
# Request data in response headers

The handler writes the lines of a header section as texts with their ends.  Of what it takes from
a request only the value of a Location stands in a header line: the path and the name under which
an upload was stored.  No one has looked for line ends in either.

## Main results

* `location_handle` — which answers have a Location, and what its value is.
* `intact_handle_iff` — when the header section has the lines it was written with.
-/

namespace Webserv

open Bytes HeaderSection

/-! ### The lines that are meant -/

/-- The lines that `_writeHeaders` and the error pages are to write. -/
def headerLines (env : Env) (code : ℤ) (server ct : Bytes) (cl : ℕ) (location : Option Bytes)
    (req : HttpRequest) : List Bytes :=
  frontLines env code server ct cl ++ location.toList.map (ascii "Location: " ++ ·) ++
    [ascii "Connection: " ++ connectionHeader req]

/-- The header section of the reply is to have these lines. -/
inductive Intends (env : Env) (r : Reply) : List Bytes → Prop
  | page (code : ℤ) (server ct : Bytes) (cl : ℕ) :
      Intends env r (headerLines env code server ct cl r.location r.request)
  | deleted : r.location = none → Intends env r (deletedLines env r.request)

/-- Split at its line ends, the header section has the lines that are meant, and no others. -/
def Intact (env : Env) (r : Reply) : Prop :=
  ∃ lines body, readSection [] r.blocks.flatten = some (lines, body) ∧ Intends env r lines

/-! ### What is written -/

/-- How a reply begins. -/
inductive Written (env : Env) (r : Reply) : Prop
  | page (code : ℤ) (server ct : Bytes) (cl : ℕ) (body : Bytes) (hserver : CR ∉ server)
      (hct : CR ∉ ct) : r.blocks.flatten =
        ended (frontLines env code server ct cl) ++ (locationLine r.location ++
          (ended [ascii "Connection: " ++ connectionHeader r.request] ++ (crlf ++ body))) →
      Written env r
  | deleted : r.location = none →
      readSection [] r.blocks.flatten = some (deletedLines env r.request, []) → Written env r

/-- A text that begins with `_writeHeaders`. -/
theorem written_writeHeaders {env : Env} {r : Reply} {body : List Bytes} (code : ℤ) {ct : Bytes}
    (cl : ℕ) (hct : CR ∉ ct) (h : r.blocks =
      writeHeaders env code ct cl (locationLine r.location) r.request :: body) : Written env r := by
  refine .page code (ascii "webserv/1.1") ct cl body.flatten (by decide) hct ?_
  rw [h, List.flatten_cons, writeHeaders_eq]
  simp only [List.append_assoc]

theorem written_error (env : Env) (code : ℕ) (req : HttpRequest) (cfg : Server)
    (calls : List FsCall) : Written env (.error env code req cfg calls) := by
  refine .page code (ascii "webserv/1.0") (ascii "text/html")
    (loadErrorPage env.fs code cfg).length
    (if req.method = ascii "HEAD" then [] else loadErrorPage env.fs code cfg)
    (by decide) (by decide) ?_
  show [sendErrorInternal env code req cfg].flatten = _
  rw [List.flatten_singleton, sendErrorInternal, errorHeaders_eq]
  simp only [List.append_assoc]
  rfl

/-- **Whatever the handler does, it writes such a header section.** -/
theorem written_handle (env : Env) (req : HttpRequest) (cfg : Server) :
    Written env (handle env req cfg) := by
  apply handle_cases
  case error => exact fun code path calls => written_error env code _ cfg calls
  case redirect =>
    exact fun _ path loc _ => written_writeHeaders loc.returnCode _ (by decide) rfl
  case serve =>
    -- each failure before the page is an error page
    intro _ path fsPath calls
    unfold serveStaticFile
    dsimp only
    split
    · exact written_error ..
    · split
      · exact written_error ..
      · split
        · exact written_error ..
        · exact written_writeHeaders 200 _ (CR_notMem_getMimeType fsPath) rfl
  case list =>
    intro _ path fsPath calls
    unfold sendDirectoryListing
    dsimp only
    split
    · exact written_error ..
    · exact written_writeHeaders 200 _ (by decide) rfl
  case post =>
    intro _ path loc calls
    unfold handlePost
    dsimp only
    split
    · exact written_error ..
    · split
      · exact written_error ..
      · split
        · exact written_error ..
        · exact written_writeHeaders 201 _ (by decide) rfl
  case delete =>
    intro _ path fsPath calls
    unfold handleDelete
    dsimp only
    split
    · exact written_error ..
    · refine .deleted rfl ?_
      dsimp only
      rw [List.flatten_singleton]
      exact readSection_deletedResponse env _

/-- A reply is not empty. -/
theorem flatten_handle_ne_nil (env : Env) (req : HttpRequest) (cfg : Server) :
    (handle env req cfg).blocks.flatten ≠ [] := by
  intro hnil
  cases written_handle env req cfg with
  | page code server ct cl body hserver hct h =>
    rw [hnil] at h
    simp [crlf] at h
  | deleted _ h =>
    rw [hnil] at h
    cases h

/-- **The lines are those that are meant if and only if no line ends within the Location.** -/
theorem intact_iff_of_written {env : Env} {r : Reply} (h : Written env r) :
    Intact env r ↔ ∀ url, r.location = some url → ¬ crlf <:+: url := by
  constructor
  · rintro ⟨lines, body, hread, hintends⟩ url hurl hinfix
    have hunbroken := unbroken_of_readSection hread (by simp [crlf]) (fun _ => by simp)
    cases hintends with
    | page code server ct cl =>
      refine hunbroken (ascii "Location: " ++ url) ?_ ?_
      · simp [headerLines, hurl]
      · exact hinfix.trans (List.suffix_append _ _).isInfix
    | deleted hnone =>
      rw [hnone] at hurl
      cases hurl
  · intro hplain
    cases h with
    | deleted hnone hread => exact ⟨_, [], hread, .deleted hnone⟩
    | page code server ct cl body hserver hct hblocks =>
      refine ⟨_, body, ?_, .page code server ct cl⟩
      rw [hblocks, readSection_ended (frontLines_text env code cl hserver hct)]
      have hconn := readSection_connection (CR_notMem_connectionHeader r.request) body
      cases hurl : r.location with
      | none =>
        show (readSection [] (ended _ ++ (crlf ++ body))).map _ = _
        rw [hconn]
        simp [headerLines]
      | some url =>
        have hline : ¬ crlf <:+: ascii "Location: " ++ url := by
          rw [crlf, CR_infix_append (by decide)]
          exact hplain url hurl
        show (readSection [] (ascii "Location: " ++ url ++ crlf ++ _)).map _ = _
        rw [readSection_line_of_unbroken hline (by simp), hconn]
        simp [headerLines]

/-! ### Uploads -/

/-- The location has an upload directory, and the upload can be stored there. -/
def storesAt (env : Env) (req : HttpRequest) (loc : Option Location) : Bool :=
  loc.any fun l => !l.upload.isEmpty &&
    (env.fs.create (cStr (withSlash l.upload ++ uploadName env req))).isOk &&
      writesAll env.fs.writes (uploadData req).length

/-- The location that a POST for what `stat` finds is handed to. -/
def fileUploadLocation (env : Env) (req : HttpRequest) (loc : Option Location) (cfg : Server) :
    Option Location :=
  match env.fs.stat (cStr (resolveFsPath req loc cfg)) with
  | .error _ => none
  | .ok st =>
      if req.path.getLast? = some SLASH then if st.isDir then loc else none
      else if st.isDir then cfg.matchLocation (withSlash req.path)
      else loc

/-- The location that a POST is handed to. -/
def uploadLocation (env : Env) (req : HttpRequest) (cfg : Server) : Option Location :=
  let path := normalizePath req.path
  if path.isEmpty then none
  else
    (cfg.matchLocation path).bind fun loc =>
      if !loc.allowedMethods.isEmpty && !loc.allowedMethods.contains req.method then none
      else if loc.redirectEnabled then none
      else fileUploadLocation env { req with path := path } (some loc) cfg

/-- The request is a POST whose body is stored. -/
def StoresUpload (env : Env) (req : HttpRequest) (cfg : Server) : Prop :=
  req.method = ascii "POST" ∧ storesAt env req (uploadLocation env req cfg) = true

section

variable (env : Env) (req : HttpRequest) (loc : Option Location) (fsPath : Bytes) (cfg : Server)
  (calls : List FsCall)

/-- Where an upload is found. -/
def uploadUrl : Bytes := withSlash req.path ++ uploadName env req

theorem location_serveStaticFile : (serveStaticFile env req fsPath cfg calls).location = none := by
  unfold serveStaticFile
  dsimp only
  split
  · rfl
  · split
    · rfl
    · split <;> rfl

theorem location_sendDirectoryListing :
    (sendDirectoryListing env req fsPath cfg calls).location = none := by
  unfold sendDirectoryListing
  dsimp only
  split <;> rfl

theorem location_handleDelete : (handleDelete env fsPath req cfg calls).location = none := by
  unfold handleDelete
  dsimp only
  split <;> rfl

theorem location_postTo : (postTo env req loc cfg calls).location =
    if storesAt env req loc then some (uploadUrl env req) else none := by
  cases loc with
  | none => rfl
  | some l =>
    unfold postTo handlePost storesAt
    dsimp only
    cases hupload : l.upload.isEmpty with
    | true => simp [hupload, Reply.error]
    | false =>
      simp only [Bool.false_eq_true, if_false, Option.any_some, hupload, Bool.not_false,
        Bool.true_and]
      cases env.fs.create (cStr (withSlash l.upload ++ uploadName env req)) with
      | error e => rfl
      | ok u =>
        cases writesAll env.fs.writes (uploadData req).length with
        | true => rfl
        | false => rfl

/-- A path that has its slash already. -/
theorem uploadUrl_withSlash :
    uploadUrl env { req with path := withSlash req.path } = uploadUrl env req := by
  unfold uploadUrl
  rw [withSlash, if_pos (getLast?_withSlash req.path)]
  rfl

theorem location_handleSlash : (handleSlash env req loc fsPath cfg).location =
    if req.method = ascii "POST" ∧ storesAt env req (match env.fs.stat (cStr fsPath) with
      | .error _ => none
      | .ok st => if st.isDir then loc else none) = true then some (uploadUrl env req)
        else none := by
  unfold handleSlash
  dsimp only
  cases env.fs.stat (cStr fsPath) with
  | error e => exact (if_neg fun h => Bool.false_ne_true h.2).symm
  | ok st =>
    dsimp only
    by_cases hdir : st.isDir = true
    · simp only [hdir, Bool.not_true, Bool.false_eq_true, if_false, if_true]
      by_cases hpost : req.method = ascii "POST"
      · rw [if_pos hpost, location_postTo]
        simp only [hpost, true_and]
      · refine Eq.trans ?_ (if_neg fun h => hpost h.1).symm
        rw [if_neg hpost]
        split_ifs
        · rfl
        · exact location_serveStaticFile ..
        · exact location_sendDirectoryListing ..
        · rfl
    · refine Eq.trans ?_ (if_neg fun h => ?_).symm
      · rw [if_pos (by simp [hdir])]
        rfl
      · rw [if_neg hdir] at h
        exact Bool.false_ne_true h.2

theorem location_handleDirectory : (handleDirectory env req fsPath cfg).location =
    if req.method = ascii "POST" ∧
      storesAt env req (cfg.matchLocation (withSlash req.path)) = true then
        some (uploadUrl env req) else none := by
  unfold handleDirectory
  dsimp only
  by_cases hpost : req.method = ascii "POST"
  · rw [if_pos hpost, location_postTo, uploadUrl_withSlash]
    simp only [hpost, true_and]
    rfl
  · refine Eq.trans ?_ (if_neg fun h => hpost h.1).symm
    rw [if_neg hpost]
    split_ifs
    · rfl
    · exact location_serveStaticFile ..
    · exact location_sendDirectoryListing ..
    · rfl

theorem location_handlePlain : (handlePlain env req loc fsPath cfg).location =
    if req.method = ascii "POST" ∧ storesAt env req (match env.fs.stat (cStr fsPath) with
      | .error _ => none
      | .ok st => if st.isDir then cfg.matchLocation (withSlash req.path) else loc) = true then
        some (uploadUrl env req) else none := by
  unfold handlePlain
  dsimp only
  cases env.fs.stat (cStr fsPath) with
  | error e => exact (if_neg fun h => Bool.false_ne_true h.2).symm
  | ok st =>
    dsimp only
    by_cases hdir : st.isDir = true
    · simp only [hdir, if_true]
      exact location_handleDirectory ..
    · simp only [hdir, Bool.false_eq_true, if_false]
      by_cases hpost : req.method = ascii "POST"
      · rw [if_neg (by rw [hpost]; decide), if_pos hpost, location_postTo]
        simp only [hpost, true_and]
      · refine Eq.trans ?_ (if_neg fun h => hpost h.1).symm
        rw [if_neg hpost]
        split_ifs
        · exact location_serveStaticFile ..
        · exact location_handleDelete ..
        · rfl

theorem location_handleFile : (handleFile env req loc cfg).location =
    if req.method = ascii "POST" ∧ storesAt env req (fileUploadLocation env req loc cfg) = true then
      some (uploadUrl env req) else none := by
  unfold handleFile fileUploadLocation
  dsimp only
  split
  · exact location_handleSlash ..
  · exact location_handlePlain ..

end

/-- **Which answers have a Location**: redirects, and the answers to uploads that were stored. -/
theorem location_handle (env : Env) (req : HttpRequest) (cfg : Server) :
    (∃ loc ∈ cfg.locations, ¬ StoresUpload env req cfg ∧
      (handle env req cfg).location = some loc.returnValue) ∨
    (¬ StoresUpload env req cfg ∧ (handle env req cfg).location = none) ∨
    StoresUpload env req cfg ∧ (handle env req cfg).location =
      some (uploadUrl env { req with path := normalizePath req.path }) := by
  unfold handle StoresUpload uploadLocation
  dsimp only
  cases hpath : (normalizePath req.path).isEmpty with
  | true => exact Or.inr (Or.inl ⟨fun h => Bool.false_ne_true h.2, rfl⟩)
  | false =>
    simp only [Bool.false_eq_true, if_false]
    by_cases hhead : req.method = ascii "HEAD"
    · rw [if_pos hhead]
      refine Or.inr (Or.inl ⟨fun h => ?_, rfl⟩)
      rw [hhead] at h
      exact absurd h.1 (by decide)
    · rw [if_neg hhead]
      cases hloc : cfg.matchLocation (normalizePath req.path) with
      | none =>
        refine Or.inr (Or.inl ⟨fun h => Bool.false_ne_true h.2, ?_⟩)
        dsimp only
        split
        · rfl
        · next hget =>
          rw [location_handleFile]
          refine if_neg fun h => hget ?_
          rw [show req.method = ascii "POST" from h.1]
          decide
      | some loc =>
        dsimp only [Option.bind_some]
        split_ifs with hmethod hredirect
        · exact Or.inr (Or.inl ⟨fun h => Bool.false_ne_true h.2, rfl⟩)
        · exact Or.inl ⟨loc, (Server.mem_of_matchLocation hloc).1,
            fun h => Bool.false_ne_true h.2, rfl⟩
        · rw [location_handleFile]
          by_cases hstores : req.method = ascii "POST" ∧ storesAt env req
              (fileUploadLocation env { req with path := normalizePath req.path } (some loc) cfg) =
                true
          · exact Or.inr (Or.inr ⟨hstores, if_pos hstores⟩)
          · exact Or.inr (Or.inl ⟨hstores, if_neg hstores⟩)

/-! ### Line ends in what a request brings -/

/-- A line end does not go over a slash. -/
theorem crlf_infix_slash (b : Bytes) : ∀ a : Bytes,
    crlf <:+: a ++ SLASH :: b ↔ crlf <:+: a ∨ crlf <:+: b := by
  intro a
  induction a with
  | nil =>
    rw [List.nil_append, List.infix_cons_iff, crlf, List.cons_prefix_cons]
    simp [show CR ≠ SLASH by decide]
  | cons x a ih =>
    have hfront : crlf <+: x :: (a ++ SLASH :: b) ↔ crlf <+: x :: a := by
      cases a with
      | nil => simp [crlf, List.cons_prefix_cons, show LF ≠ SLASH by decide]
      | cons y a => simp [crlf, List.cons_prefix_cons]
    rw [List.cons_append, List.infix_cons_iff, List.infix_cons_iff, hfront, ih, or_assoc]

theorem crlf_infix_withSlash (p name : Bytes) :
    crlf <:+: withSlash p ++ name ↔ crlf <:+: p ∨ crlf <:+: name := by
  have hnil : ¬ crlf <:+: [] := by simp [crlf]
  unfold withSlash
  split
  · next h =>
    obtain ⟨q, rfl⟩ := List.getLast?_eq_some_iff.mp h
    have hq := crlf_infix_slash [] q
    rw [List.append_assoc, List.singleton_append, crlf_infix_slash, hq]
    simp only [hnil, or_false]
  · rw [List.append_assoc, List.singleton_append, crlf_infix_slash]

/-- **When a header section has the lines it was written with**: if and only if neither the path
of a request whose upload is stored nor the name it is stored under has a line end in it. -/
theorem intact_handle_iff {env : Env} {req : HttpRequest} {cfg : Server}
    (hcfg : ∀ loc ∈ cfg.locations, ¬ crlf <:+: loc.returnValue) :
    Intact env (handle env req cfg) ↔ (StoresUpload env req cfg →
      ¬ crlf <:+: normalizePath req.path ∧ ¬ crlf <:+: uploadName env req) := by
  rw [intact_iff_of_written (written_handle env req cfg)]
  rcases location_handle env req cfg with
    ⟨loc, hloc, hstores, heq⟩ | ⟨hstores, heq⟩ | ⟨hstores, heq⟩
  · rw [heq]
    simp [hstores, hcfg loc hloc]
  · rw [heq]
    simp [hstores]
  · rw [heq]
    simp only [Option.some.injEq, forall_eq', hstores, forall_const, uploadUrl,
      crlf_infix_withSlash, not_or]
    exact Iff.rfl

/-- A disk with a directory at every path, to which files can be written. -/
private def writableDisk : FileSystem :=
  { FileSystem.empty with
    stat := fun _ => .ok ⟨true, false, 0⟩
    create := fun _ => .ok ()
    writes := [100] }

/-- A server with an upload location. -/
private def inboxServer : Server :=
  { Server.empty with
    root := ascii "/www"
    clientMaxBodySize := 1000
    locations := [{ Location.empty with
      path := ascii "/up"
      upload := ascii "/www/up"
      allowedMethods := [ascii "POST"] }] }

/-- A form with one file. -/
private def uploadOf (filename : String) : HttpRequest :=
  { HttpRequest.new 1000 with
    method := ascii "POST"
    path := ascii "/up/"
    version := ascii "HTTP/1.1"
    headers := Std.TreeMap.ofList
      [(ascii "content-type", ascii "multipart/form-data; boundary=B")]
    body := ⟨ascii "--B\r\nContent-Disposition: form-data; filename=\"" ++ ascii filename ++
      ascii "\"\r\n\r\nhi\r\n--B--", 1000⟩ }

theorem intact_uploadOf : Intact ⟨writableDisk, 0, 0⟩
    (handle ⟨writableDisk, 0, 0⟩ (uploadOf "a.txt")
    inboxServer) := by
  refine (intact_handle_iff (by decide)).mpr fun _ => ?_
  decide +kernel

/-- **A file name that adds a header line.** -/
theorem not_intact : ¬ Intact ⟨writableDisk, 0, 0⟩ (handle ⟨writableDisk, 0, 0⟩
    (uploadOf "a\r\nSet-Cookie: x=y") inboxServer) := by
  rw [intact_iff_of_written (written_handle _ _ _)]
  intro h
  refine h (ascii "/up/a\r\nSet-Cookie: x=y") (by decide +kernel) (by decide +kernel)

end Webserv
