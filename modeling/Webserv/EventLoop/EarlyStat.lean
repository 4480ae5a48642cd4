import Webserv.Cgi.Confinement
import Webserv.EventLoop.Gate

/-!
# The early `stat`

`_parseRequestLine` answers 403 or 404 as soon as `stat` fails on the path of the request
line, before it has seen the headers.  `NotThere` says when the dispatch of the request
would have come to one of the two as well.

## Main results

* `statusCode_reply_iff` — which answers of the handler are 403 or 404.
* `earlyStat_iff` — when the early answer is that of the dispatch.
-/

namespace Webserv

open Bytes

/-! ### Status codes -/

/-- The code is that of a file that is not there or not to be seen. -/
def Missing (code : Bytes) : Prop := code = decimal 403 ∨ code = decimal 404

theorem statusCode_deletedResponse (env : Env) (req : HttpRequest) :
    statusCode (deletedResponse env req) = ascii "204" := by
  have hline : ascii "HTTP/1.1 204 No Content\r\nServer: webserv/1.1\r\n" =
      ascii "HTTP/1.1 " ++ (ascii "204" ++
        ([SP] ++ ascii "No Content\r\nServer: webserv/1.1\r\n")) := by
    decide
  unfold deletedResponse
  rw [hline]
  simp only [List.append_assoc]
  exact statusCode_append (by decide) _

theorem missing_decimal_iff (code : ℕ) : Missing (decimal code) ↔ code = 403 ∨ code = 404 := by
  constructor
  · exact Or.imp decimal_injective decimal_injective
  · rintro (rfl | rfl)
    · exact Or.inl rfl
    · exact Or.inr rfl

theorem missing_decimalInt_iff (code : ℤ) : Missing (decimalInt code) ↔
    code = 403 ∨ code = 404 := by
  unfold decimalInt
  split
  · next hneg =>
    have hminus : ∀ n m : ℕ, 45 :: decimal n ≠ decimal m := by
      intro n m h
      have hmem : (45 : UInt8) ∈ decimal m := h ▸ List.mem_cons_self
      exact notMem_decimal (by decide) m hmem
    constructor
    · rintro (h | h)
      · exact absurd h (hminus _ _)
      · exact absurd h (hminus _ _)
    · omega
  · next hpos =>
    rw [missing_decimal_iff]
    omega

/-! ### Answers of the handler -/

/-- The status line of a reply says 403 or 404. -/
def Reply.isMissing (r : Reply) : Prop := Missing (statusCode r.blocks.flatten)

theorem isMissing_error_iff (env : Env) (code : ℕ) (req : HttpRequest) (cfg : Server)
    (calls : List FsCall) :
    (Reply.error env code req cfg calls).isMissing ↔ code = 403 ∨ code = 404 := by
  rw [Reply.isMissing, Reply.error, List.flatten_singleton, statusCode_sendErrorInternal,
    missing_decimal_iff]

theorem isMissing_page_iff (env : Env) (code : ℤ) (extra body : Bytes) (req req' : HttpRequest)
    (calls : List FsCall) (location : Option Bytes) :
    (⟨req', calls, location, page env code extra body req⟩ : Reply).isMissing ↔
      code = 403 ∨ code = 404 := by
  rw [Reply.isMissing, page, List.flatten_cons, statusCode_writeHeaders, missing_decimalInt_iff]

/-- A call that fails in a way that is the client's fault. -/
def refuses {α : Type} : Except Errno α → Prop
  | .ok _ => False
  | .error e => e ≠ .other

instance {α : Type} (r : Except Errno α) : Decidable (refuses r) :=
  match r with
  | .ok _ => isFalse id
  | .error e => inferInstanceAs (Decidable (e ≠ .other))

theorem isMissing_errno_iff (env : Env) (e : Errno) (req : HttpRequest) (cfg : Server)
    (calls : List FsCall) :
    (Reply.error env (errnoCode e) req cfg calls).isMissing ↔ e ≠ .other := by
  rw [isMissing_error_iff]
  cases e <;> simp [errnoCode]

theorem isMissing_serveStaticFile_iff (env : Env) (req : HttpRequest) (fsPath : Bytes)
    (cfg : Server)
    (calls : List FsCall) :
    (serveStaticFile env req fsPath cfg calls).isMissing ↔
      refuses (env.fs.openRead (cStr fsPath)) := by
  unfold serveStaticFile
  dsimp only
  cases env.fs.openRead (cStr fsPath) with
  | error e => exact isMissing_errno_iff env e req cfg _
  | ok content =>
    dsimp only [refuses]
    rw [iff_false]
    split
    · rw [isMissing_error_iff]
      omega
    · split
      · rw [isMissing_error_iff]
        omega
      · rw [Reply.isMissing, List.flatten_cons, statusCode_writeHeaders, missing_decimalInt_iff]
        omega

theorem isMissing_sendDirectoryListing_iff (env : Env) (req : HttpRequest) (fsPath : Bytes)
    (cfg : Server) (calls : List FsCall) :
    (sendDirectoryListing env req fsPath cfg calls).isMissing ↔
      refuses (env.fs.opendir (cStr fsPath)) := by
  unfold sendDirectoryListing
  dsimp only
  cases env.fs.opendir (cStr fsPath) with
  | error e => exact isMissing_errno_iff env e req cfg _
  | ok names =>
    dsimp only [refuses]
    rw [isMissing_page_iff, iff_false]
    omega

theorem isMissing_handleDelete_iff (env : Env) (fsPath : Bytes) (req : HttpRequest) (cfg : Server)
    (calls : List FsCall) :
    (handleDelete env fsPath req cfg calls).isMissing ↔ refuses (env.fs.remove (cStr fsPath)) := by
  unfold handleDelete
  dsimp only
  cases env.fs.remove (cStr fsPath) with
  | error e => exact isMissing_errno_iff env e req cfg _
  | ok u =>
    dsimp only [refuses]
    rw [Reply.isMissing, List.flatten_singleton, statusCode_deletedResponse, iff_false, Missing]
    decide

/-- An upload is never answered so. -/
theorem not_isMissing_postTo (env : Env) (req : HttpRequest) (loc : Option Location) (cfg : Server)
    (calls : List FsCall) : ¬ (postTo env req loc cfg calls).isMissing := by
  unfold postTo
  split
  · split
    · rw [isMissing_error_iff]
      omega
    · unfold handlePost
      dsimp only
      split
      · rw [isMissing_error_iff]
        omega
      · split
        · rw [isMissing_error_iff]
          omega
        · split
          · rw [isMissing_error_iff]
            omega
          · rw [isMissing_page_iff]
            omega
  · rw [isMissing_error_iff]
    omega

/-! ### What is not there -/

/-- There is no index file that can be read, and no listing in its place. -/
def NoIndex (env : Env) (loc : Option Location) (idxPath dir : Bytes) : Prop :=
  if env.fs.isReg idxPath then refuses (env.fs.openRead (cStr idxPath))
  else loc.any (·.autoindex) = true → refuses (env.fs.opendir (cStr dir))

/-- A path with a slash at its end: it is not that of a directory, or of one that cannot be
got. -/
def NoDirectory (env : Env) (req : HttpRequest) (loc : Option Location) (cfg : Server)
    (fsPath : Bytes) : Prop :=
  match env.fs.stat (cStr fsPath) with
  | .error _ => True
  | .ok st => st.isDir = false ∨ req.method = ascii "GET" ∧
      NoIndex env loc (fsPath ++ indexFile loc cfg) fsPath

/-- A path without a slash at its end: there is nothing, or nothing that can be got or
removed. -/
def NoFile (env : Env) (req : HttpRequest) (cfg : Server) (fsPath : Bytes) : Prop :=
  match env.fs.stat (cStr fsPath) with
  | .error _ => True
  | .ok st =>
      if st.isDir then
        let loc := cfg.matchLocation (withSlash req.path)
        req.method = ascii "GET" ∧
          NoIndex env loc (fsPath ++ [SLASH] ++ indexFile loc cfg) (withSlash fsPath)
      else
        req.method = ascii "GET" ∧ refuses (env.fs.openRead (cStr fsPath)) ∨
          req.method = ascii "DELETE" ∧ refuses (env.fs.remove (cStr fsPath))

/-- There is nothing for the request under the path it resolves to. -/
def NotFound (env : Env) (req : HttpRequest) (cfg : Server) : Prop :=
  let loc := cfg.matchLocation req.path
  let fsPath := resolveFsPath req loc cfg
  if req.path.getLast? = some SLASH then NoDirectory env req loc cfg fsPath
  else NoFile env req cfg fsPath

/-- The path of the request is resolved, its method allowed, and what the location says or
what the path leads to is not there. -/
def Unserved (env : Env) (req : HttpRequest) (cfg : Server) : Prop :=
  normalizePath req.path ≠ [] ∧
    ¬ Denied (cfg.matchLocation (normalizePath req.path)) req.method ∧
    match (cfg.matchLocation (normalizePath req.path)).filter (·.redirectEnabled) with
    | some l => l.returnCode = 403 ∨ l.returnCode = 404
    | none => NotFound env { req with path := normalizePath req.path } cfg

instance (env : Env) (loc : Option Location) (idxPath dir : Bytes) :
    Decidable (NoIndex env loc idxPath dir) := by
  unfold NoIndex
  infer_instance

instance (env : Env) (req : HttpRequest) (loc : Option Location) (cfg : Server) (fsPath : Bytes) :
    Decidable (NoDirectory env req loc cfg fsPath) := by
  unfold NoDirectory
  cases env.fs.stat (cStr fsPath) <;> infer_instance

instance (env : Env) (req : HttpRequest) (cfg : Server) (fsPath : Bytes) :
    Decidable (NoFile env req cfg fsPath) := by
  unfold NoFile
  cases env.fs.stat (cStr fsPath) <;> infer_instance

instance (env : Env) (req : HttpRequest) (cfg : Server) : Decidable (NotFound env req cfg) := by
  unfold NotFound
  infer_instance

instance (env : Env) (req : HttpRequest) (cfg : Server) : Decidable (Unserved env req cfg) := by
  unfold Unserved
  cases (cfg.matchLocation (normalizePath req.path)).filter (·.redirectEnabled) <;> infer_instance

theorem isMissing_handleSlash_iff {env : Env} {req : HttpRequest} {loc : Option Location}
    {cfg : Server} {fsPath : Bytes} :
    (handleSlash env req loc fsPath cfg).isMissing ↔ NoDirectory env req loc cfg fsPath := by
  unfold handleSlash NoDirectory
  dsimp only
  cases env.fs.stat (cStr fsPath) with
  | error e =>
    rw [isMissing_error_iff]
    simp
  | ok st =>
    dsimp only
    cases hdir : st.isDir with
    | false =>
      rw [if_pos (by simp), isMissing_error_iff]
      simp
    | true =>
      rw [if_neg (by simp)]
      simp only [Bool.true_eq_false, false_or]
      -- a directory: the three methods, and for `GET` an index file or a listing
      split
      · next hpost =>
        have hget : req.method ≠ ascii "GET" := by rw [hpost]; decide
        simp only [not_isMissing_postTo, hget, false_and]
      · split
        · next hget =>
          rw [isMissing_error_iff]
          simp [hget]
        · next hget =>
          rw [not_not] at hget
          simp only [hget, true_and]
          unfold NoIndex
          split
          · exact isMissing_serveStaticFile_iff _ _ _ _ _
          · split
            · next hauto =>
              rw [isMissing_sendDirectoryListing_iff]
              simp [hauto]
            · next hauto =>
              rw [isMissing_error_iff]
              simp [hauto]

theorem isMissing_handleDirectory_iff {env : Env} {req : HttpRequest} {cfg : Server}
    {fsPath : Bytes} :
    (handleDirectory env req fsPath cfg).isMissing ↔ req.method = ascii "GET" ∧
      NoIndex env (cfg.matchLocation (withSlash req.path))
        (fsPath ++ [SLASH] ++ indexFile (cfg.matchLocation (withSlash req.path)) cfg)
        (withSlash fsPath) := by
  unfold handleDirectory
  dsimp only
  split
  · next hpost =>
    have hget : req.method ≠ ascii "GET" := by rw [hpost]; decide
    simp only [not_isMissing_postTo, hget, false_and]
  · split
    · next hget =>
      rw [isMissing_error_iff]
      simp [hget]
    · next hget =>
      rw [not_not] at hget
      simp only [hget, true_and]
      unfold NoIndex
      split
      · exact isMissing_serveStaticFile_iff _ _ _ _ _
      · split
        · next hauto =>
          rw [isMissing_sendDirectoryListing_iff]
          simp [hauto]
        · next hauto =>
          rw [isMissing_error_iff]
          simp [hauto]

theorem isMissing_handlePlain_iff {env : Env} {req : HttpRequest} {loc : Option Location}
    {cfg : Server} {fsPath : Bytes} :
    (handlePlain env req loc fsPath cfg).isMissing ↔ NoFile env req cfg fsPath := by
  have hgd : ascii "GET" ≠ ascii "DELETE" := by decide
  have hpd : ascii "POST" ≠ ascii "DELETE" := by decide
  have hpg : ascii "POST" ≠ ascii "GET" := by decide
  unfold handlePlain NoFile
  dsimp only
  cases env.fs.stat (cStr fsPath) with
  | error e =>
    rw [isMissing_error_iff]
    simp
  | ok st =>
    dsimp only
    split
    · exact isMissing_handleDirectory_iff
    · split
      · next hget =>
        rw [isMissing_serveStaticFile_iff]
        simp [hget, hgd]
      · next hget =>
        split
        · next hpost => simp [hpost, hpd, hpg, not_isMissing_postTo]
        · split
          · next hdelete =>
            rw [isMissing_handleDelete_iff]
            simp [hdelete, hgd.symm]
          · next hdelete =>
            rw [isMissing_error_iff]
            simp [hget, hdelete]

/-- **Which answers of the handler are 403 or 404.** -/
theorem isMissing_handle_iff (env : Env) (req : HttpRequest) (cfg : Server) :
    (handle env req cfg).isMissing ↔ Unserved env req cfg := by
  unfold Unserved
  by_cases hpath : normalizePath req.path = []
  · rw [handle_of_unresolved hpath, isMissing_error_iff]
    simp [hpath]
  · by_cases hdenied : Denied (cfg.matchLocation (normalizePath req.path)) req.method
    · rw [handle_of_denied hpath hdenied, isMissing_error_iff]
      simp [hdenied]
    · simp only [hpath, hdenied, ne_eq, not_false_eq_true, true_and]
      cases hloc : (cfg.matchLocation (normalizePath req.path)).filter (·.redirectEnabled) with
      | some l =>
        obtain ⟨hl, hredirect⟩ := Option.filter_eq_some_iff.mp hloc
        rw [handle_of_redirect hpath hdenied hl hredirect, sendRedirect, isMissing_page_iff]
      | none =>
        rw [handle_of_allowed hpath hdenied hloc]
        unfold handleFile NotFound
        dsimp only
        split
        · exact isMissing_handleSlash_iff
        · exact isMissing_handlePlain_iff

/-! ### The early answer -/

/-- What a dispatch does is an answer with 403 or 404. -/
def Deed.isMissing : Deed → Prop
  | .script _ => False
  | .lost code => code = 403 ∨ code = 404
  | .reply r => r.isMissing

/-- The request is not for a script, and what it asks for is not there.  (A script whose
body is lost counts when the error on record is one of the two.) -/
def NotThere (env : Env) (a : SpoolAnswers) (c : Connection) : Prop :=
  if pathRequiresCgiBodySpool c.request c.config then
    0 < (finalizeBodyTmpFile a c.request).bodyFileWritten ∧
      (finalizeBodyTmpFile a c.request).openedFile < 0 ∧
      ((finalizeBodyTmpFile a c.request).errorCode = 403 ∨
        (finalizeBodyTmpFile a c.request).errorCode = 404)
  else Unserved env c.request c.config

instance (env : Env) (a : SpoolAnswers) (c : Connection) : Decidable (NotThere env a c) := by
  unfold NotThere
  infer_instance

theorem isMissing_deed_iff (env : Env) (a : SpoolAnswers) (c : Connection) :
    (deed env a c).isMissing ↔ NotThere env a c := by
  unfold NotThere
  cases hcgi : pathRequiresCgiBodySpool c.request c.config with
  | false =>
    rw [deed_file env a hcgi, if_neg (by simp)]
    exact isMissing_handle_iff env (cleanupBodyTmpFile c.request) c.config
  | true =>
    rw [if_pos rfl]
    rcases deed_script env a hcgi with ⟨hdeed, hlost⟩ | ⟨⟨info, hdeed⟩, hlost⟩
    · rw [hdeed]
      simp [Deed.isMissing, hlost.1, hlost.2]
    · rw [hdeed]
      simp only [Deed.isMissing, false_iff]
      exact fun h => hlost ⟨h.1, h.2.1⟩

/-- The parser is done once the early `stat` has failed. -/
theorem feed_of_stat_failed {c : Connection} {target : Bytes} {stat : StatAnswer} {e : Errno}
    (htarget : c.acceptedTarget = some target)
    (hstate : c.request.parseState = .idle ∨ c.request.parseState = .requestLine)
    (hstat : stat (cStr (pathUnderRoot c.config (c.config.matchLocation (requestPath target))
      (requestPath target))) = some e) :
    ∃ c', feed stat c = .ok c' () ∧ c'.request.parseState = .error ∧
      c'.request.errorCode = if e = .eacces then 403 else 404 := by
  -- the request line is refused with the code of the errno
  have hfail : ∀ c₁ : Connection, c₁.acceptedTarget = some target → c₁.config = c.config →
      (parseRequestLine stat c₁).request.parseState = .error ∧
        (parseRequestLine stat c₁).request.errorCode = if e = .eacces then 403 else 404 := by
    intro c₁ h₁ hconfig
    obtain ⟨req, major, minor, p, hline⟩ := parseRequestLine_of_acceptedTarget h₁
    rw [hline]
    dsimp only [acceptRequestLine, validatePath]
    rw [hconfig, hstat]
    cases e <;> exact ⟨rfl, rfl⟩
  have hlimit : ∀ c₁ : Connection,
      (applyLocationBodyLimit c₁).request.parseState = c₁.request.parseState ∧
        (applyLocationBodyLimit c₁).request.errorCode = c₁.request.errorCode := by
    intro c₁
    unfold applyLocationBodyLimit
    split
    · exact ⟨rfl, rfl⟩
    · exact ⟨rfl, rfl⟩
  -- from either state the stage comes to that line
  have hstage : (requestLineStage stat c).request.parseState = .error ∧
      (requestLineStage stat c).request.errorCode = if e = .eacces then 403 else 404 := by
    unfold requestLineStage
    rcases hstate with hidle | hline
    · have h := hfail { c with request :=
        { c.request with parseState := .requestLine } } htarget rfl
      simp only [hidle, if_true, h.1, reduceCtorEq, if_false, (hlimit _).1, (hlimit _).2]
      exact ⟨trivial, h.2⟩
    · have h := hfail c htarget rfl
      simp only [hline, if_true, h.1, reduceCtorEq, if_false, (hlimit _).1, (hlimit _).2]
      exact ⟨trivial, h.2⟩
  -- and no later stage does anything to an error
  have hheaders : headerStage (requestLineStage stat c) = requestLineStage stat c := by
    unfold headerStage
    rw [if_neg (by rw [hstage.1]; decide)]
  have hbegun : c.request.parseState.terminal = false := by
    rcases hstate with h | h
    · rw [h]; decide
    · rw [h]; decide
  refine ⟨applyLocationBodyLimit (requestLineStage stat c), ?_, ?_, ?_⟩
  · unfold feed feedBody
    rw [hheaders, hbegun, if_neg Bool.false_ne_true,
      if_neg (by rw [(hlimit _).1, hstage.1]; decide)]
  · rw [(hlimit _).1, hstage.1]
  · rw [(hlimit _).2, hstage.2]

/-- What the parser makes of the request of a client where no `stat` fails. -/
def Connection.parsed (c : Connection) : Connection := (feed (fun _ => none) c).state

/-- **When the early answer is that of the dispatch.**  The parser has answered 403 or 404,
and the dispatch of the request that the parser would have made of the same bytes answers so
exactly when what is asked for is not there. -/
theorem earlyStat_iff {env : Env} {c : Connection} {target : Bytes} {e : Errno}
    (htarget : c.acceptedTarget = some target)
    (hstate : c.request.parseState = .idle ∨ c.request.parseState = .requestLine)
    (hstat : env.fs.statAnswer (cStr (pathUnderRoot c.config
      (c.config.matchLocation (requestPath target)) (requestPath target))) = some e)
    (hd : Dispatchable c.parsed) (a : SpoolAnswers) :
    (∃ c₁, feed env.fs.statAnswer c = .ok c₁ () ∧ c₁.request.parseState = .error ∧
      c₁.request.errorCode = if e = .eacces then 403 else 404) ∧
    tryDispatchComplete env a c.parsed =
      (deed env a c.parsed).perform env (spooled a c.parsed) ∧
    ((deed env a c.parsed).isMissing ↔ NotThere env a c.parsed) :=
  ⟨feed_of_stat_failed htarget hstate hstat, tryDispatchComplete_eq env a hd,
    isMissing_deed_iff env a c.parsed⟩

/-- A server with a redirect, and no files. -/
private def redirectServer : Server :=
  { Server.empty with
    root := ascii "/www"
    clientMaxBodySize := 1000
    locations := [{ Location.empty with
      path := ascii "/old", redirectEnabled := true, returnCode := 301
      returnValue := ascii "/new" }] }

/-- A client of that server that has sent a request. -/
private def getting (path : String) : Connection :=
  { Connection.new 5 redirectServer 0 with
    readBuffer := (Fifo.new 1000).push
      (ascii "GET " ++ ascii path ++ ascii " HTTP/1.1\r\nHost: x\r\n\r\n") }

/-- A file that is not there. -/
theorem earlyStat_missing :
    (∃ c₁, feed FileSystem.empty.statAnswer (getting "/a") = .ok c₁ () ∧
      c₁.request.parseState = .error ∧ c₁.request.errorCode = 404) ∧
    (deed ⟨.empty, 0, 0⟩ .none (getting "/a").parsed).isMissing := by
  have h := @earlyStat_iff ⟨.empty, 0, 0⟩ (getting "/a") (ascii "/a") .enoent (by decide +kernel)
    (Or.inl rfl) (by decide +kernel) ⟨by decide +kernel, by decide +kernel⟩ .none
  exact ⟨h.1, h.2.2.mpr (by decide +kernel)⟩

/-- **A redirect is not followed** when there is no file under its path. -/
theorem not_earlyStat_redirect :
    (∃ c₁, feed FileSystem.empty.statAnswer (getting "/old") = .ok c₁ () ∧
      c₁.request.parseState = .error ∧ c₁.request.errorCode = 404) ∧
    Dispatchable (getting "/old").parsed ∧
    (∃ r, deed ⟨.empty, 0, 0⟩ .none (getting "/old").parsed = .reply r ∧
      statusCode r.blocks.flatten = ascii "301") ∧
    ¬ (deed ⟨.empty, 0, 0⟩ .none (getting "/old").parsed).isMissing := by
  refine ⟨?_, ⟨by decide +kernel, by decide +kernel⟩,
    ⟨_, deed_file _ _ (by decide +kernel), by decide +kernel⟩, ?_⟩
  · exact @feed_of_stat_failed (getting "/old") (ascii "/old") FileSystem.empty.statAnswer .enoent
      (by decide +kernel) (Or.inl rfl) (by decide +kernel)
  · rw [isMissing_deed_iff]
    decide +kernel

end Webserv
