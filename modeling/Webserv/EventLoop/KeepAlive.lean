import Webserv.EventLoop.Response
import Webserv.EventLoop.Serving
import Webserv.HttpParser.Labels
import Webserv.HttpParser.Selection

/-!
# Requests on one connection

When a response has been written, `setReading` makes the connection ready for the next
request.  Connections are alike that differ in their labels only; reading does the same on
both.

## Main results

* `Connection.Alike.readRequest` — two connections that are alike read requests in the same way.
* `forgetsRequest_iff` — when nothing of an answered request is left.
-/

namespace Webserv

open Bytes

/-- Two connections are alike when they differ in their labels only. -/
def Connection.Alike (c c' : Connection) : Prop := ∃ k, c' = c.relabel k

namespace Connection.Alike

variable {c c' : Connection}

/-! ### One step of a reading -/

theorem recv (h : c.Alike c') (d : Bytes) (now : ℕ) :
    (c.recv d now).Rel Connection.Alike (c'.recv d now) := by
  obtain ⟨k, rfl⟩ := h
  have hbuffer : (c.relabel k).readBuffer = c.readBuffer := rfl
  unfold Connection.recv
  rw [hbuffer]
  cases c.readBuffer.append d with
  | none => exact .bodyLimit ⟨k, rfl⟩
  | some rb => exact .ok () ⟨{ k with lastActive := now }, rfl⟩

theorem recvErased (h : c.Alike c') (d : Bytes) (head : ℕ) :
    (c.recvErased d head).Rel Connection.Alike (c'.recvErased d head) := by
  obtain ⟨k, rfl⟩ := h
  have hbuffer : (c.relabel k).readBuffer = c.readBuffer := rfl
  unfold Connection.recvErased
  rw [hbuffer]
  split
  · exact .bodyLimit ⟨k, rfl⟩
  · exact .ok _ ⟨k, rfl⟩

theorem feed (h : c.Alike c') (stat : StatAnswer) :
    (feed stat c).Rel Connection.Alike (feed stat c') := by
  obtain ⟨k, rfl⟩ := h
  rw [feed_relabel]
  cases Webserv.feed stat c with
  | ok s a => exact .ok a ⟨k, rfl⟩
  | bodyLimit s => exact .bodyLimit ⟨k, rfl⟩

theorem resumeBodyIfNeeded (h : c.Alike c') :
    (resumeBodyIfNeeded c).Alike (resumeBodyIfNeeded c') := by
  obtain ⟨k, rfl⟩ := h
  refine ⟨k, ?_⟩
  unfold Webserv.resumeBodyIfNeeded
  simp only [apply_ite (Connection.relabel · k)]
  rfl

theorem maybeCompletePostWithoutLength (h : c.Alike c') :
    (maybeCompletePostWithoutLength c).Alike (maybeCompletePostWithoutLength c') := by
  obtain ⟨k, rfl⟩ := h
  refine ⟨k, ?_⟩
  unfold Webserv.maybeCompletePostWithoutLength
  simp only [apply_ite (Connection.relabel · k)]
  rfl

/-- The number of the connection is in the name of the spool file. -/
theorem openSpoolFile_rename (env : Env) (a : SpoolAnswers) (m n : ℕ) (req : HttpRequest)
    (name : Bytes) : ∃ name', openSpoolFile env a m (req.rename name) =
      (openSpoolFile env a n req).rename name' := by
  by_cases hopened : req.opened = true
  · rw [openSpoolFile, openSpoolFile, if_pos hopened, if_pos (by exact hopened)]
    exact ⟨name, rfl⟩
  · rw [openSpoolFile, openSpoolFile, if_neg hopened, if_neg (by exact hopened)]
    cases a.openFd with
    | none => exact ⟨[], rfl⟩
    | some fd => exact ⟨_, rfl⟩

theorem flushRequestBodyToTmpFile (h : c.Alike c') (env : Env) (a : SpoolAnswers) :
    (flushRequestBodyToTmpFile env a c).Alike (flushRequestBodyToTmpFile env a c') := by
  obtain ⟨k, rfl⟩ := h
  obtain ⟨name, hopen⟩ := openSpoolFile_rename env a k.connNum c.connNum c.request
    k.request.tmpBodyPath
  have hnum : (c.relabel k).connNum = k.connNum := rfl
  have hreq : (c.relabel k).request = c.request.rename k.request.tmpBodyPath := rfl
  unfold Webserv.flushRequestBodyToTmpFile
  rw [hreq, hnum]
  dsimp only
  rw [hopen]
  generalize openSpoolFile env a c.connNum c.request = opened
  -- both take the same branch
  set renamed := c.request.rename k.request.tmpBodyPath
  by_cases hempty : c.request.body.isEmpty = true
  · have hempty' : renamed.body.isEmpty = true := hempty
    rw [if_pos hempty, if_pos hempty']
    exact ⟨k, rfl⟩
  · have hempty' : ¬ renamed.body.isEmpty = true := hempty
    rw [if_neg hempty, if_neg hempty']
    by_cases hfull : 0 < c.request.maxBodySize ∧
        c.request.bodyFileWritten + c.request.body.size > c.request.maxBodySize
    · have hfull' : 0 < renamed.maxBodySize ∧
        renamed.bodyFileWritten + renamed.body.size > renamed.maxBodySize := hfull
      rw [if_pos hfull, if_pos hfull']
      exact ⟨k, rfl⟩
    · have hfull' : ¬ (0 < renamed.maxBodySize ∧
        renamed.bodyFileWritten + renamed.body.size > renamed.maxBodySize) := hfull
      rw [if_neg hfull, if_neg hfull']
      have hwritten : (if (opened.rename name).openedFile < 0 then none
          else spoolWrites 0 a.writes (opened.rename name).body.size) =
        if opened.openedFile < 0 then none else spoolWrites 0 a.writes opened.body.size := rfl
      rw [hwritten]
      cases (if opened.openedFile < 0 then none else spoolWrites 0 a.writes opened.body.size) with
      | none => exact ⟨{ k with request := { k.request with tmpBodyPath := name } }, rfl⟩
      | some n => exact ⟨{ k with request := { k.request with tmpBodyPath := name } }, rfl⟩

/-! ### Dispatch -/

theorem isBodyFullySpooled_eq (h : c.Alike c') : isBodyFullySpooled c' = isBodyFullySpooled c := by
  obtain ⟨k, rfl⟩ := h
  rfl

theorem parseState_eq (h : c.Alike c') : c'.request.parseState = c.request.parseState := by
  obtain ⟨k, rfl⟩ := h
  rfl

theorem queue (h : c.Alike c') (blocks : List Bytes) :
    (c.queue blocks).Rel Connection.Alike (c'.queue blocks) := by
  obtain ⟨k, rfl⟩ := h
  have hbuffer : (c.relabel k).writeBuffer = c.writeBuffer := rfl
  unfold Connection.queue
  rw [hbuffer]
  cases appendBlocks c.writeBuffer blocks with
  | ok wb a => exact .ok a ⟨k, rfl⟩
  | bodyLimit wb => exact .bodyLimit ⟨k, rfl⟩

theorem sendError (h : c.Alike c') (env : Env) (code : ℕ) :
    (sendError env code c).Rel Connection.Alike (sendError env code c') := by
  have hconfig : c'.config = c.config := by
    obtain ⟨k, rfl⟩ := h
    rfl
  unfold Webserv.sendError
  rw [hconfig]
  apply (h.queue _).andThen
  rintro s _ a ⟨k, rfl⟩
  exact .ok () ⟨{ k with closeAnnounced := true }, rfl⟩

end Connection.Alike

/-- A response is queued on both. -/
theorem rel_answer {o o' : Outcome Connection Unit} (h : o.Rel Connection.Alike o') :
    (answer o).Rel Connection.Alike (answer o') := by
  apply h.andThen
  rintro s _ a ⟨k, rfl⟩
  exact .ok _ ⟨k, rfl⟩

namespace Connection.Alike

variable {c c' : Connection}

theorem respond (h : c.Alike c') (env : Env) :
    (respond env c).Rel Connection.Alike (respond env c') := by
  obtain ⟨k, rfl⟩ := h
  unfold Webserv.respond
  have hreq : cleanupBodyTmpFile (c.relabel k).request = cleanupBodyTmpFile c.request := rfl
  rw [hreq]
  apply rel_answer
  apply Connection.Alike.queue
  exact ⟨{ k with request :=
    (handle env (cleanupBodyTmpFile c.request) (c.relabel k).config).request }, rfl⟩

/-- The spool file is opened again under whichever name it has. -/
theorem finalizeBodyTmpFile_rename (a : SpoolAnswers) (req : HttpRequest) (name : Bytes) :
    finalizeBodyTmpFile a (req.rename name) = (finalizeBodyTmpFile a req).rename name := by
  unfold finalizeBodyTmpFile
  rw [apply_ite (HttpRequest.rename · name)]
  cases a.reopenFd with
  | none => rfl
  | some fd => rfl

theorem tryDispatchComplete (h : c.Alike c') (env : Env) (a : SpoolAnswers) :
    (tryDispatchComplete env a c).Rel Connection.Alike (tryDispatchComplete env a c') := by
  unfold Webserv.tryDispatchComplete
  rw [h.isBodyFullySpooled_eq, h.parseState_eq]
  split
  · exact .ok _ h
  · extract_lets c₁ c₂ c₁' c₂'
    -- the spool file is reopened under the name that each has for it
    have h₂ : c₂.Alike c₂' := by
      obtain ⟨k, rfl⟩ := h
      refine ⟨k, ?_⟩
      by_cases hspool : pathRequiresCgiBodySpool c.request c.config = true
      · have hc₂ : c₂ = { c₁ with request := finalizeBodyTmpFile a c.request } := if_pos hspool
        have hc₂' : c₂' = { c₁' with
          request := finalizeBodyTmpFile a (c.request.rename k.request.tmpBodyPath) } :=
          if_pos hspool
        rw [hc₂, hc₂', finalizeBodyTmpFile_rename]
        rfl
      · have hc₂ : c₂ = c₁ := if_neg hspool
        have hc₂' : c₂' = c₁' := if_neg hspool
        rw [hc₂, hc₂']
        rfl
    clear_value c₂ c₂'
    have hsent := rel_answer (h₂.sendError env c₂.request.errorCode)
    have hresponse := h₂.respond env
    obtain ⟨k, rfl⟩ := h₂
    have hcgi : resolveCgiRequest (c₂.relabel k).request (c₂.relabel k).config =
      resolveCgiRequest c₂.request c₂.config := rfl
    have hcode : (c₂.relabel k).request.errorCode = c₂.request.errorCode := rfl
    rw [hcgi, hcode]
    cases resolveCgiRequest c₂.request c₂.config with
    | none => exact hresponse
    | some info =>
      dsimp only
      by_cases hlost : 0 < c₂.request.bodyFileWritten ∧ c₂.request.openedFile < 0
      · have hlost' : 0 < (c₂.relabel k).request.bodyFileWritten ∧
          (c₂.relabel k).request.openedFile < 0 := hlost
        rw [if_pos hlost, if_pos hlost']
        exact hsent
      · have hlost' : ¬ (0 < (c₂.relabel k).request.bodyFileWritten ∧
          (c₂.relabel k).request.openedFile < 0) := hlost
        rw [if_neg hlost, if_neg hlost']
        exact .ok _ ⟨k, rfl⟩

/-! ### A whole reading -/

theorem spools (h : c.Alike c') :
    pathRequiresCgiBodySpool c'.request c'.config =
      pathRequiresCgiBodySpool c.request c.config := by
  obtain ⟨k, rfl⟩ := h
  rfl

/-- What is spooled where the request is for a script. -/
theorem flushIf (h : c.Alike c') (env : Env) (a : SpoolAnswers) {p p' : Prop} [Decidable p]
    [Decidable p'] (hp : p' ↔ p) :
    (if p then Webserv.flushRequestBodyToTmpFile env a c else c).Alike
      (if p' then Webserv.flushRequestBodyToTmpFile env a c' else c') := by
  by_cases hspool : p
  · rw [if_pos hspool, if_pos (hp.mpr hspool)]
    exact h.flushRequestBodyToTmpFile env a
  · rw [if_neg hspool, if_neg (hspool ∘ hp.mp)]
    exact h

theorem readAgain (h : c.Alike c') (env : Env) (a : SpoolAnswers) :
    (readAgain env a c).Rel Connection.Alike (readAgain env a c') := by
  have hcomplete := h.maybeCompletePostWithoutLength
  unfold Webserv.readAgain
  exact (hcomplete.flushIf env a (by rw [hcomplete.spools])).tryDispatchComplete env a

theorem readFed (h : c.Alike c') (env : Env) (a : SpoolAnswers) :
    (readFed env a c).Rel Connection.Alike (readFed env a c') := by
  have hstate := h.parseState_eq
  have hcode : c'.request.errorCode = c.request.errorCode := by
    obtain ⟨k, rfl⟩ := h
    rfl
  unfold Webserv.readFed
  rw [hcode, hstate]
  split
  · exact rel_answer (h.sendError env _)
  · exact (h.flushIf env a (by rw [h.spools])).maybeCompletePostWithoutLength.tryDispatchComplete
      env a

theorem readEof (h : c.Alike c') (env : Env) (a : SpoolAnswers) :
    (readEof env a c).Rel Connection.Alike (readEof env a c') := by
  have hflush := h.flushRequestBodyToTmpFile env a
  have hspools := h.spools
  have hdispatch : ({ Webserv.flushRequestBodyToTmpFile env a c with
      request := { (Webserv.flushRequestBodyToTmpFile env a c).request with
        parseState := .complete } } : Connection).Alike
      { Webserv.flushRequestBodyToTmpFile env a c' with
        request := { (Webserv.flushRequestBodyToTmpFile env a c').request with
          parseState := .complete } } := by
    obtain ⟨k, hk⟩ := hflush
    rw [hk]
    exact ⟨k, rfl⟩
  have hcond : (c'.request.parseState = .body ∧ !c'.request.chunked ∧
      c'.request.contentLength = 0 ∧ 0 < c'.request.written ∧
        pathRequiresCgiBodySpool c'.request c'.config) ↔
      (c.request.parseState = .body ∧ !c.request.chunked ∧ c.request.contentLength = 0 ∧
        0 < c.request.written ∧ pathRequiresCgiBodySpool c.request c.config) := by
    obtain ⟨k, rfl⟩ := h
    rfl
  unfold Webserv.readEof
  dsimp only
  by_cases hbody : c.request.parseState = .body ∧ !c.request.chunked ∧
      c.request.contentLength = 0 ∧ 0 < c.request.written ∧
        pathRequiresCgiBodySpool c.request c.config
  · rw [if_pos hbody, if_pos (hcond.mpr hbody)]
    apply (hdispatch.tryDispatchComplete env a).andThen
    intro s s' fate hs
    cases fate with
    | nothing => exact .ok _ hs
    | close => exact .ok _ hs
    | answered => exact .ok _ hs
    | script info => exact .ok _ hs
    | stuck => exact .ok _ hs
  · rw [if_neg hbody, if_neg (hbody ∘ hcond.mp)]
    exact .ok _ h

theorem readLoop (env : Env) : ∀ (answers : List RecvAnswer) {c c' : Connection}, c.Alike c' →
    (readLoop env c answers).Rel Connection.Alike (readLoop env c' answers) := by
  intro answers
  induction answers with
  | nil => exact fun h => h.readAgain env .none
  | cons r rest ih =>
    intro c c' h
    cases r with
    | eof a => exact h.readEof env a
    | again a => exact h.readAgain env a
    | data d a =>
      have hsame : c'.request.erased = c.request.erased := by
        obtain ⟨k, rfl⟩ := h
        rfl
      cases herased : c.request.erased with
      | true =>
        rw [readLoop_erased herased, readLoop_erased (hsame.trans herased)]
        exact h.recvErased d a.head
      | false =>
        rw [readLoop_held herased, readLoop_held (hsame.trans herased)]
        apply (h.recv d env.now).andThen
        intro c₁ c₁' _ h₁
        apply (h₁.resumeBodyIfNeeded.feed env.fs.statAnswer).andThen
        intro c₂ c₂' _ h₂
        apply (h₂.readFed env a).andThen
        intro c₃ c₃' fate h₃
        cases fate with
        | nothing => exact ih h₃
        | close => exact .ok _ h₃
        | answered => exact .ok _ h₃
        | script info => exact .ok _ h₃
        | stuck => exact .ok _ h₃

end Connection.Alike

/-- The page for a refused request is queued on both. -/
theorem rel_catchRead {o o' : Outcome Connection ReadFate} (h : o.Rel Connection.Alike o')
    (env : Env) : (catchRead env o).Rel Connection.Alike (catchRead env o') := by
  cases h with
  | ok fate h => exact .ok fate h
  | bodyLimit h =>
    obtain ⟨k, rfl⟩ := h
    exact rel_answer (Connection.Alike.sendError ⟨k, rfl⟩ env 413)

/-- The readable events of one request, each with what `recv` returns then: the client is
read until something is to be done with it. -/
def readRequest (c : Connection) : List (Env × List RecvAnswer) → Outcome Connection ReadFate
  | [] => .ok c .nothing
  | (env, answers) :: events =>
      (catchRead env (readLoop env c answers)).andThen fun c fate =>
        match fate with
        | .nothing => readRequest c events
        | fate => .ok c fate

/-- **Connections that are alike read requests in the same way.** -/
theorem Connection.Alike.readRequest : ∀ (events : List (Env × List RecvAnswer))
    {c c' : Connection}, c.Alike c' →
      (readRequest c events).Rel Connection.Alike (readRequest c' events) := by
  intro events
  induction events with
  | nil => exact fun h => .ok _ h
  | cons e events ih =>
    intro c c' h
    rw [Webserv.readRequest, Webserv.readRequest]
    apply (rel_catchRead (Connection.Alike.readLoop e.1 e.2 h) e.1).andThen
    intro c₁ c₁' fate h₁
    cases fate with
    | nothing => exact ih h₁
    | close => exact .ok _ h₁
    | answered => exact .ok _ h₁
    | script info => exact .ok _ h₁
    | stuck => exact .ok _ h₁

/-! ### The connection when a request has been read -/

section

variable {listener : Server} {servers : List Server}

/-- A spool file does not touch the server, nor the headers. -/
theorem flushRequestBodyToTmpFile_server (env : Env) (a : SpoolAnswers) (c : Connection) :
    let c' := flushRequestBodyToTmpFile env a c
    c'.configuration = c.configuration ∧ c'.config = c.config ∧
      c'.request.headers = c.request.headers ∧
      (c'.request.parseState = .error ∨ c'.request.parseState = c.request.parseState) := by
  have hopen : (openSpoolFile env a c.connNum c.request).headers = c.request.headers ∧
      ((openSpoolFile env a c.connNum c.request).parseState = .error ∨
        (openSpoolFile env a c.connNum c.request).parseState = c.request.parseState) := by
    unfold openSpoolFile
    split
    · exact ⟨rfl, Or.inr rfl⟩
    · split
      · exact ⟨rfl, Or.inr rfl⟩
      · exact ⟨rfl, Or.inl rfl⟩
  dsimp only
  unfold flushRequestBodyToTmpFile
  dsimp only
  split
  · exact ⟨rfl, rfl, rfl, Or.inr rfl⟩
  · split
    · exact ⟨rfl, rfl, rfl, Or.inl rfl⟩
    · split
      · exact ⟨rfl, rfl, hopen.1, Or.inl rfl⟩
      · exact ⟨rfl, rfl, hopen⟩

/-- Reading keeps a connection on its server. -/
theorem keptByReading_onServer : KeptByReading (OnServer listener servers) where
  recv c d now h := by
    unfold Connection.recv
    split
    · exact h
    · exact h.congr rfl rfl rfl rfl
  resume c h := by
    unfold resumeBodyIfNeeded
    dsimp only
    have hbody : c.request.parseState = .complete →
        OnServer listener servers { c with request := { c.request with parseState := .body } } := by
      intro hcomplete
      unfold OnServer at h ⊢
      rw [hcomplete] at h
      exact h
    -- only the parse state changes, from complete to body
    split_ifs with h₁
    · exact h
    · exact hbody (not_not.mp h₁)
    · exact hbody (not_not.mp h₁)
    · exact h
  feed stat c h := h.feed stat
  complete c h := by
    unfold maybeCompletePostWithoutLength
    dsimp only
    split
    · next hbody =>
      unfold OnServer at h ⊢
      rw [hbody.1] at h
      exact h
    · exact h
  flush env a c h := by
    -- the spool puts an error on record, or leaves the state as it is
    obtain ⟨hservers, hconfig, hheaders, hstate⟩ := flushRequestBodyToTmpFile_server env a c
    rcases hstate with hstate | hstate
    · exact .of_error (hservers.trans h.1) hstate
    · exact h.congr hservers hconfig hstate (by rw [hheaders])
  endOfFile env a c hbody h := by
    obtain ⟨hservers, hconfig, hheaders, -⟩ := flushRequestBodyToTmpFile_server env a c
    unfold OnServer at h ⊢
    rw [hbody] at h
    dsimp only
    rw [hservers, hconfig, hheaders]
    exact h

/-- A response does not touch the server either. -/
theorem OnServer.queue {c : Connection} (h : OnServer listener servers c) (blocks : List Bytes) :
    OnServer listener servers (c.queue blocks).state := by
  unfold Connection.queue
  cases appendBlocks c.writeBuffer blocks with
  | ok wb a => exact h.congr rfl rfl rfl rfl
  | bodyLimit wb => exact h.congr rfl rfl rfl rfl

theorem OnServer.sendError {c : Connection} (h : OnServer listener servers c) (env : Env)
    (code : ℕ) : OnServer listener servers (answer (sendError env code c)).state := by
  have hqueue := h.queue [errorResponse env code c.config]
  unfold Webserv.sendError
  cases hq : c.queue [errorResponse env code c.config] with
  | ok c' a =>
    rw [hq] at hqueue
    exact OnServer.congr hqueue rfl rfl rfl rfl
  | bodyLimit c' =>
    rw [hq] at hqueue
    exact hqueue

theorem OnServer.respond {c : Connection} (h : OnServer listener servers c) (env : Env) :
    OnServer listener servers (respond env c).state := by
  obtain ⟨path, hreq⟩ := request_handle env (cleanupBodyTmpFile c.request) c.config
  have hkept : ∀ req : HttpRequest, req = { cleanupBodyTmpFile c.request with path := path } →
      OnServer listener servers { c with request := req } := by
    rintro _ rfl
    exact h.congr rfl rfl rfl rfl
  have hqueue := (hkept _ hreq).queue (handle env (cleanupBodyTmpFile c.request) c.config).blocks
  unfold Webserv.respond
  dsimp only
  cases hq : ({ c with
      request := (handle env (cleanupBodyTmpFile c.request) c.config).request } : Connection).queue
      (handle env (cleanupBodyTmpFile c.request) c.config).blocks with
  | ok c' a =>
    rw [hq] at hqueue
    exact OnServer.congr hqueue rfl rfl rfl rfl
  | bodyLimit c' =>
    rw [hq] at hqueue
    exact hqueue

theorem OnServer.tryDispatchComplete {c : Connection} (h : OnServer listener servers c) (env : Env)
    (a : SpoolAnswers) : OnServer listener servers (tryDispatchComplete env a c).state := by
  unfold Webserv.tryDispatchComplete
  split
  · exact h
  · extract_lets c₁ c₂
    have h₂ : OnServer listener servers c₂ := by
      dsimp only [c₂]
      split
      · unfold finalizeBodyTmpFile
        split
        · exact h.congr rfl rfl rfl rfl
        · split
          · exact h.congr rfl rfl rfl rfl
          · exact .of_error h.1 rfl
      · exact h.congr rfl rfl rfl rfl
    clear_value c₂
    split
    · split
      · exact h₂.sendError env _
      · exact h₂
    · exact h₂.respond env

/-- The handler of the `try` block sets the Connection header, and no other. -/
theorem OnServer.catchRead {o : Outcome Connection ReadFate} (h : OnServer listener servers o.state)
    (env : Env) : OnServer listener servers (catchRead env o).state := by
  cases o with
  | ok c fate => exact h
  | bodyLimit c =>
    have hhost : (c.request.headers.insert (ascii "connection") (ascii "close"))[ascii "host"]? =
        c.request.headers[ascii "host"]? := by
      rw [Std.TreeMap.getElem?_insert, if_neg (by decide)]
    have hkept : ∀ req : HttpRequest, req = { c.request with
        headers := c.request.headers.insert (ascii "connection") (ascii "close") } →
        OnServer listener servers { c with request := req } := by
      rintro _ rfl
      exact OnServer.congr (c := c) h rfl rfl rfl hhost
    exact (hkept _ rfl).sendError env 413

/-- **A request that has been read is on the server it selects.** -/
theorem OnServer.readRequest : ∀ (events : List (Env × List RecvAnswer)) {c : Connection},
    OnServer listener servers c → OnServer listener servers (readRequest c events).state := by
  intro events
  induction events with
  | nil => exact fun h => h
  | cons e events ih =>
    intro c h
    have hcatch : OnServer listener servers (Webserv.catchRead e.1 (readLoop e.1 c e.2)).state := by
      have hends : EndsWith e.1 (OnServer listener servers) (readLoop e.1 c e.2) :=
        endsWith_readLoop keptByReading_onServer e.2 c h
      apply OnServer.catchRead
      cases hends with
      | nothing c₁ hc ho => rw [ho]; exact hc
      | close c₁ hc ho => rw [ho]; exact hc
      | stuck c₁ hc ho => rw [ho]; exact hc
      | threw c₁ hc ho => rw [ho]; exact hc
      | parseError c₁ hc _ ho => rw [ho]; exact hc.sendError e.1 _
      | dispatched a c₁ hc _ ho => rw [ho]; exact hc.tryDispatchComplete e.1 a
    rw [Webserv.readRequest]
    cases hc : Webserv.catchRead e.1 (readLoop e.1 c e.2) with
    | bodyLimit c₁ =>
      rw [hc] at hcatch
      exact hcatch
    | ok c₁ fate =>
      rw [hc] at hcatch
      cases fate with
      | nothing => exact ih hcatch
      | close => exact hcatch
      | answered => exact hcatch
      | script info => exact hcatch
      | stuck => exact hcatch

end

/-! ### The next request -/

/-- `addConnection`, on a listener of a program with these servers. -/
def accepted (listener : Server) (servers : List Server) (fd connNum now : ℕ) : Connection :=
  { Connection.new fd listener now with
    connNum := connNum
    configuration := servers }

/-- The connection is like one that the listener has just accepted, and whatever is sent next
is read, and answered, in the same way. -/
structure ForgetsRequest (listener : Server) (c : Connection) : Prop where
  restored : ∀ fd connNum now, (accepted listener c.configuration fd connNum now).Alike c
  sameReading : ∀ fd connNum now events,
    (readRequest (accepted listener c.configuration fd connNum now) events).Rel Connection.Alike
      (readRequest c events)

/-- The connections that wait for a request: one that has been accepted, and one whose last
response has been written. -/
inductive Waiting (listener : Server) (servers : List Server) : Connection → Prop
  | accepted (fd connNum now : ℕ) :
      Waiting listener servers (accepted listener servers fd connNum now)
  /-- `c₁` is the connection when the request has been read, `c₂` when its response has been
  written. -/
  | next {c c₁ c₂ : Connection} {events : List (Env × List RecvAnswer)} {fate : ReadFate}
      (now : ℕ) : Waiting listener servers c → readRequest c events = .ok c₁ fate →
      c₁.Serves c₂ → Waiting listener servers (c₂.setReading now)

/-- The request has not taken the connection from its listener: the server that its Host
header selects is the listener's own; `start` is the server that the connection was on
before.  For a request that is refused the configuration itself is asked. -/
def StaysOnListener (listener start : Server) (c : Connection) : Prop :=
  match c.request.parseState with
  | .idle | .requestLine | .headers => start = listener
  | .body | .complete =>
      hostServer start c.configuration c.request.headers[ascii "host"]? = listener
  | .error => c.config = listener

theorem OnServer.staysOnListener_iff {listener start : Server} {servers : List Server}
    {c : Connection} (h : OnServer start servers c) :
    c.config = listener ↔ StaysOnListener listener start c := by
  obtain ⟨hservers, hconfig⟩ := h
  unfold StaysOnListener
  cases hstate : c.request.parseState <;> rw [hstate] at hconfig <;> dsimp only at hconfig ⊢
  · rw [hconfig]
  · rw [hconfig]
  · rw [hconfig]
  · rw [hconfig, hservers]
  · rw [hconfig, hservers]

/-- A connection that waits is on a server of its own. -/
theorem Waiting.onServer {listener : Server} {servers : List Server} {c : Connection}
    (h : Waiting listener servers c) : OnServer c.config servers c := by
  induction h with
  | accepted fd connNum now => exact ⟨rfl, rfl⟩
  | @next c c₁ c₂ events fate now _ hread hserves ih =>
    have hserver := ih.readRequest events
    rw [hread] at hserver
    exact ⟨hserves.servers.trans hserver.1, rfl⟩

/-- Only the configuration outlives `reset`. -/
theorem alike_setReading (c : Connection) (fd connNum now now' : ℕ) :
    (accepted c.config c.configuration fd connNum now).Alike (c.setReading now') :=
  ⟨c.setReading now', rfl⟩

/-- **When nothing of an answered request is left.**  `c₁` is the connection when the request
has been read, `c₂` when its response has been written. -/
theorem forgetsRequest_iff {listener : Server} {servers : List Server} {now : ℕ}
    {events : List (Env × List RecvAnswer)} {c c₁ c₂ : Connection} {fate : ReadFate}
    (h : Waiting listener servers c) (hread : readRequest c events = .ok c₁ fate)
    (hserves : c₁.Serves c₂) :
    ForgetsRequest listener (c₂.setReading now) ↔ StaysOnListener listener c.config c₁ := by
  have hserver : OnServer c.config servers c₁ := by
    have hkept := h.onServer.readRequest events
    rwa [hread] at hkept
  rw [← hserver.staysOnListener_iff, ← hserves.config]
  constructor
  · intro hforgets
    obtain ⟨k, hk⟩ := hforgets.restored 0 0 0
    exact congrArg Connection.config hk
  · rintro rfl
    have halike := alike_setReading c₂
    exact ⟨fun fd connNum now' => halike fd connNum now' now,
      fun fd connNum now' events => (halike fd connNum now' now).readRequest events⟩

/-! ### Two servers -/

/-- A server with a name. -/
private def site (name : String) : Server :=
  { Server.empty with
    host := ascii "127.0.0.1"
    port := 80
    serverName := ascii name
    clientMaxBodySize := 5000 }

/-- A connection that the server `a` has accepted. -/
private def siteClient : Connection := accepted (site "a") [site "a", site "b"] 5 0 0

/-- A request for a host, in one read. -/
private def getFrom (host : String) : List (Env × List RecvAnswer) :=
  [(⟨oneFile, 0, 0⟩, [.data (ascii "GET / HTTP/1.1\r\nHost: " ++ ascii host ++ crlfcrlf) .none])]

/-- The reading has ended with a response, for a connection that passes a test. -/
def answeredWith (p : Connection → Bool) : Outcome Connection ReadFate → Bool
  | .ok c .answered => p c
  | _ => false

theorem exists_of_answeredWith {p : Connection → Bool} {o : Outcome Connection ReadFate}
    (h : answeredWith p o = true) : ∃ c, o = .ok c .answered ∧ p c = true := by
  unfold answeredWith at h
  split at h
  · exact ⟨_, rfl, h⟩
  · cases h

/-- A request for the listener's own server. -/
theorem forgetsRequest_own : ∃ c, readRequest siteClient (getFrom "a") = .ok c .answered ∧
    ForgetsRequest (site "a") (c.setReading 0) := by
  have hanswered : answeredWith (fun c => c.request.parseState = .complete ∧
      c.request.headers[ascii "host"]? = some (ascii "a"))
      (readRequest siteClient (getFrom "a")) = true := by decide +kernel
  obtain ⟨c, hread, hc⟩ := exists_of_answeredWith hanswered
  obtain ⟨hstate, hhost⟩ := of_decide_eq_true hc
  have hwaiting : Waiting (site "a") [site "a", site "b"] siteClient := .accepted 5 0 0
  have hservers : c.configuration = [site "a", site "b"] := by
    have hkept := hwaiting.onServer.readRequest (getFrom "a")
    rw [hread] at hkept
    exact hkept.1
  refine ⟨c, hread, (forgetsRequest_iff hwaiting hread (.refl c)).mpr ?_⟩
  unfold StaysOnListener
  rw [hstate, hhost, hservers]
  rfl

/-- **A request for another server** leaves the connection there: the client is answered, the
connection kept alive, and what is sent next is for the other server, unless it says
otherwise. -/
theorem not_forgetsRequest : ∃ c, Waiting (site "a") [site "a", site "b"] siteClient ∧
    readRequest siteClient (getFrom "b") = .ok c .answered ∧ c.request.keepAlive = true ∧
    ((c.sendLoop 0 [c.writeBuffer.size]).setReading 0).config.serverName = ascii "b" ∧
    ¬ ForgetsRequest (site "a") ((c.sendLoop 0 [c.writeBuffer.size]).setReading 0) := by
  have hanswered : answeredWith (fun c => c.request.keepAlive ∧ c.config.serverName = ascii "b")
      (readRequest siteClient (getFrom "b")) = true := by decide +kernel
  obtain ⟨c, hread, hc⟩ := exists_of_answeredWith hanswered
  obtain ⟨halive, hname⟩ := of_decide_eq_true hc
  have hkept : ((c.sendLoop 0 [c.writeBuffer.size]).setReading 0).config.serverName =
    ascii "b" := by
    have hconfig := (serves_sendLoop 0 [c.writeBuffer.size] c).config
    show (c.sendLoop 0 [c.writeBuffer.size]).config.serverName = ascii "b"
    rw [hconfig, hname]
  refine ⟨c, .accepted 5 0 0, hread, halive, hkept, fun h => ?_⟩
  obtain ⟨k, hk⟩ := h.restored 0 0 0
  rw [hk] at hkept
  have hlistener : (site "a").serverName = ascii "b" := hkept
  exact absurd hlistener (by decide)

end Webserv
