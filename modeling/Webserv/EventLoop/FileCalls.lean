import Webserv.HttpParser.Labels
import Webserv.EventLoop.Serving

/-!
# The calls for the body file of a request

A body for a script is kept in a file with a name and a descriptor.  The calls that the functions
of `_handleRead` make for it, in their order, and an `Account` of what is there after some calls:
the files that have been created and not been removed, and the descriptors that are open.  A
request `Holds` what is there when its fields say so.

## Main results

* `moves_readLoop` — **a reading keeps the fields of the request true**.
-/

namespace Webserv

open Bytes

/-- A call for the body file, or a moment that matters for it. -/
inductive FileCall where
  /-- A file is about to be created for the request as it is. -/
  | opening (req : HttpRequest)
  | created (path : Bytes) (fd : ℤ)
  | reopened (fd : ℤ)
  | closed (fd : ℤ)
  | removed (path : Bytes)
  /-- `closeConnection` is called for the request as it is. -/
  | dropped (req : HttpRequest)
  /-- `~EventLoop` comes to the connection with the request as it is. -/
  | destroyed (req : HttpRequest)
  /-- The request has been reset, or its connection destroyed. -/
  | ended
  /-- A handler goes on with a connection that has been freed. -/
  | freed

/-- The request has no body file. -/
def HttpRequest.FileFree (req : HttpRequest) : Prop := req.openedFile < 0 ∧ req.tmpBodyPath = []

/-- The moment is one that the code is made for. -/
def FileCall.Foreseen : FileCall → Prop
  | .opening req => req.FileFree
  | .dropped req => 0 < req.openedFile ∨ req.FileFree
  | .destroyed req => req.opened = true ∨ req.openedFile < 0
  | .freed => False
  | _ => True

instance (req : HttpRequest) : Decidable req.FileFree := inferInstanceAs (Decidable (_ ∧ _))

instance (call : FileCall) : Decidable call.Foreseen :=
  match call with
  | .opening req => inferInstanceAs (Decidable req.FileFree)
  | .dropped req => inferInstanceAs (Decidable (0 < req.openedFile ∨ req.FileFree))
  | .destroyed req => inferInstanceAs (Decidable (req.opened = true ∨ req.openedFile < 0))
  | .freed => inferInstanceAs (Decidable False)
  | .created _ _ | .reopened _ | .closed _ | .removed _ | .ended =>
      inferInstanceAs (Decidable True)

/-! ### Accounts -/

/-- What is there for the requests of a connection, and whether nothing has gone wrong. -/
structure Account where
  files : List Bytes
  descriptors : List ℤ
  right : Bool
  deriving DecidableEq

namespace Account

/-- Nothing is there. -/
def empty : Account := ⟨[], [], true⟩

/-- A descriptor that is closed has to be open, and at an end nothing may be left. -/
def record (acc : Account) : FileCall → Account
  | .created path fd => { acc with
      files := path :: acc.files
      descriptors := fd :: acc.descriptors }
  | .reopened fd => { acc with descriptors := fd :: acc.descriptors }
  | .closed fd =>
      if fd ∈ acc.descriptors then { acc with descriptors := acc.descriptors.erase fd }
      else { acc with right := false }
  | .removed path => { acc with files := acc.files.erase path }
  | .ended => if acc.files = [] ∧ acc.descriptors = [] then acc else { acc with right := false }
  | .opening _ | .dropped _ | .destroyed _ | .freed => acc

end Account

/-- The file and the descriptor of the request are there, and nothing else is. -/
structure HttpRequest.Holds (req : HttpRequest) (acc : Account) : Prop where
  files : acc.files = if req.tmpBodyPath = [] then [] else [req.tmpBodyPath]
  descriptors : acc.descriptors = if req.openedFile < 0 then [] else [req.openedFile]
  right : acc.right = true
  named : 0 ≤ req.openedFile → req.tmpBodyPath ≠ []

/-- The calls lead from what the one request holds to what the other holds. -/
def Moves (req : HttpRequest) (calls : List FileCall) (req' : HttpRequest) : Prop :=
  ∀ acc, req.Holds acc → (∀ call ∈ calls, call.Foreseen) →
    req'.Holds (calls.foldl Account.record acc)

/-! ### Calls -/

/-- The calls of `openSpoolFile`. -/
def openCalls (env : Env) (a : SpoolAnswers) (connNum : ℕ) (req : HttpRequest) : List FileCall :=
  if req.opened then []
  else .opening req :: match a.openFd with
    | none => []
    | some fd => [.created (openSpoolFile env a connNum req).tmpBodyPath fd]

/-- The calls of `flushRequestBodyToTmpFile`. -/
def flushCalls (env : Env) (a : SpoolAnswers) (c : Connection) : List FileCall :=
  if c.request.body.isEmpty then []
  else if 0 < c.request.maxBodySize ∧
      c.request.bodyFileWritten + c.request.body.size > c.request.maxBodySize then []
  else openCalls env a c.connNum c.request

/-- The calls of `cleanupBodyTmpFile`, of `HttpRequest::reset` and of `_ApiStartCgi`. -/
def cleanupCalls (req : HttpRequest) : List FileCall :=
  (if req.openedFile < 0 then [] else [.closed req.openedFile]) ++
    if req.tmpBodyPath = [] then [] else [.removed req.tmpBodyPath]

/-- The calls of `finalizeBodyTmpFile`. -/
def finalizeCalls (a : SpoolAnswers) (req : HttpRequest) : List FileCall :=
  if !req.opened || req.openedFile < 0 || req.bodyFileWritten = 0 then []
  else .closed req.openedFile :: match a.reopenFd with
    | none => []
    | some fd => [.reopened fd]

/-- The calls of `_tryDispatchComplete`, but for those of starting a script. -/
def tryDispatchCalls (a : SpoolAnswers) (c : Connection) : List FileCall :=
  if c.request.parseState ≠ .complete ∨ isBodyFullySpooled c = false then []
  else
    let c := c.setProcessing
    let calls := if pathRequiresCgiBodySpool c.request c.config then finalizeCalls a c.request
      else []
    let c := if pathRequiresCgiBodySpool c.request c.config then
        { c with request := finalizeBodyTmpFile a c.request } else c
    calls ++ match resolveCgiRequest c.request c.config with
      | some _ => []
      | none => cleanupCalls c.request

/-- The calls at the end of file. -/
def eofCalls (env : Env) (a : SpoolAnswers) (c : Connection) : List FileCall :=
  let req := c.request
  if req.parseState = .body ∧ !req.chunked ∧ req.contentLength = 0 ∧ 0 < req.written ∧
      pathRequiresCgiBodySpool req c.config then
    let calls := flushCalls env a c
    let c := flushRequestBodyToTmpFile env a c
    calls ++ tryDispatchCalls a { c with request := { c.request with parseState := .complete } }
  else []

/-- The calls when nothing more has come. -/
def againCalls (env : Env) (a : SpoolAnswers) (c : Connection) : List FileCall :=
  let c := maybeCompletePostWithoutLength c
  if pathRequiresCgiBodySpool c.request c.config then
    flushCalls env a c ++ tryDispatchCalls a (flushRequestBodyToTmpFile env a c)
  else tryDispatchCalls a c

/-- The calls behind the parser. -/
def fedCalls (env : Env) (a : SpoolAnswers) (c : Connection) : List FileCall :=
  if c.request.parseState = .error then []
  else if (c.request.parseState = .body ∨ c.request.parseState = .complete) ∧
      pathRequiresCgiBodySpool c.request c.config then
    flushCalls env a c ++ tryDispatchCalls a
      (maybeCompletePostWithoutLength (flushRequestBodyToTmpFile env a c))
  else tryDispatchCalls a (maybeCompletePostWithoutLength c)

/-- The calls of the loop of `_handleRead`. -/
def readCalls (env : Env) (c : Connection) : List RecvAnswer → List FileCall
  | [] => againCalls env .none c
  | .eof a :: _ => eofCalls env a c
  | .again a :: _ => againCalls env a c
  | .data d a :: rest =>
      if c.request.erased then []
      else
        match c.recv d env.now with
        | .bodyLimit _ => []
        | .ok c _ =>
            match feed env.fs.statAnswer (resumeBodyIfNeeded c) with
            | .bodyLimit _ => []
            | .ok c _ => fedCalls env a c ++
                match readFed env a c with
                | .ok c .nothing => readCalls env c rest
                | _ => []

/-! ### What a request holds -/

section

variable {req req' req'' : HttpRequest} {calls calls' : List FileCall} {acc : Account}
  {env : Env} {a : SpoolAnswers} {c : Connection}

theorem HttpRequest.Holds.congr (h : req.Holds acc) (hfile : req'.openedFile = req.openedFile)
    (hpath : req'.tmpBodyPath = req.tmpBodyPath) : req'.Holds acc :=
  ⟨by rw [hpath]; exact h.files, by rw [hfile]; exact h.descriptors, h.right,
    by rw [hfile, hpath]; exact h.named⟩

theorem Moves.of_eq (hfile : req'.openedFile = req.openedFile)
    (hpath : req'.tmpBodyPath = req.tmpBodyPath) : Moves req [] req' :=
  fun _ h _ => h.congr hfile hpath

theorem Moves.refl (req : HttpRequest) : Moves req [] req := .of_eq rfl rfl

/-- Before the calls the request may change in its other fields. -/
theorem Moves.behind (hfile : req'.openedFile = req.openedFile)
    (hpath : req'.tmpBodyPath = req.tmpBodyPath) (h : Moves req' calls req'') :
    Moves req calls req'' := fun acc hacc hcalls => h acc (hacc.congr hfile hpath) hcalls

theorem Moves.trans (h : Moves req calls req') (h' : Moves req' calls' req'') :
    Moves req (calls ++ calls') req'' := by
  intro acc hacc hcalls
  rw [List.foldl_append]
  rw [List.forall_mem_append] at hcalls
  exact h' _ (h acc hacc hcalls.1) hcalls.2

/-- A request without a file holds nothing. -/
theorem HttpRequest.Holds.of_free (hreq : req.FileFree) : req.Holds .empty :=
  ⟨by rw [hreq.2]; rfl, by rw [if_pos hreq.1]; rfl, rfl, fun h => absurd hreq.1 (not_lt.mpr h)⟩

theorem HttpRequest.Holds.eq_empty (h : req.Holds acc) (hreq : req.FileFree) : acc = .empty := by
  obtain ⟨hfiles, hdescriptors, hright, -⟩ := h
  rw [if_pos hreq.2] at hfiles
  rw [if_pos hreq.1] at hdescriptors
  obtain ⟨files, descriptors, right⟩ := acc
  subst hfiles hdescriptors hright
  rfl

/-- What the request holds is closed and removed. -/
theorem moves_cleanup (hreq : req'.FileFree) : Moves req (cleanupCalls req) req' := by
  intro acc hacc _
  have hempty : (cleanupCalls req).foldl Account.record acc = Account.empty := by
    obtain ⟨files, descriptors, right⟩ := acc
    obtain ⟨hfiles, hdescriptors, hright, -⟩ := hacc
    dsimp only at hfiles hdescriptors hright
    subst hfiles hdescriptors hright
    unfold cleanupCalls
    by_cases hfile : req.openedFile < 0 <;> by_cases hpath : req.tmpBodyPath = []
    all_goals simp [hfile, hpath, Account.record, Account.empty]
  rw [hempty]
  exact .of_free hreq

/-- A request that holds nothing may end. -/
theorem moves_ended (hreq : req.FileFree) : Moves req [.ended] req := by
  intro acc hacc _
  rw [hacc.eq_empty hreq]
  exact .of_free hreq

/-! ### Spooling -/

theorem moves_openSpoolFile (env : Env) (a : SpoolAnswers) (connNum : ℕ) (req : HttpRequest) :
    Moves req (openCalls env a connNum req) (openSpoolFile env a connNum req) := by
  unfold openCalls
  split
  · next hopened =>
    rw [openSpoolFile, if_pos hopened]
    exact .refl req
  · next hopened =>
    intro acc hacc hcalls
    have hfree : req.FileFree := hcalls (.opening req) List.mem_cons_self
    rw [hacc.eq_empty hfree]
    cases hfd : a.openFd with
    | none =>
      rw [openSpoolFile, if_neg hopened, hfd]
      exact .of_free ⟨neg_one_lt_zero, rfl⟩
    | some fd =>
      have hpath : (openSpoolFile env a connNum req).tmpBodyPath ≠ [] := by
        rw [openSpoolFile, if_neg hopened, hfd]
        simp
      have hfile : (openSpoolFile env a connNum req).openedFile = fd := by
        rw [openSpoolFile, if_neg hopened, hfd]
      have hpositive : ¬ (openSpoolFile env a connNum req).openedFile < 0 := by
        rw [hfile]
        exact Int.natCast_nonneg fd |>.not_gt
      refine ⟨?_, ?_, rfl, fun _ => hpath⟩
      · rw [if_neg hpath]
        rfl
      · rw [if_neg hpositive, hfile]
        rfl

theorem moves_flush (env : Env) (a : SpoolAnswers) (c : Connection) :
    Moves c.request (flushCalls env a c) (flushRequestBodyToTmpFile env a c).request := by
  have hopen := moves_openSpoolFile env a c.connNum c.request
  unfold flushCalls flushRequestBodyToTmpFile
  dsimp only
  split
  · exact .refl _
  · split
    · exact .of_eq rfl rfl
    · split
      · exact fun acc hacc hcalls => (hopen acc hacc hcalls).congr rfl rfl
      · exact fun acc hacc hcalls => (hopen acc hacc hcalls).congr rfl rfl

theorem moves_finalize (a : SpoolAnswers) (req : HttpRequest) :
    Moves req (finalizeCalls a req) (finalizeBodyTmpFile a req) := by
  unfold finalizeCalls finalizeBodyTmpFile
  split
  · exact .refl req
  · next hopen =>
    intro acc hacc _
    simp only [Bool.or_eq_true, Bool.not_eq_true', decide_eq_true_eq, not_or] at hopen
    obtain ⟨⟨-, hfile⟩, -⟩ := hopen
    have hpath := hacc.named (not_lt.mp hfile)
    obtain ⟨files, descriptors, right⟩ := acc
    obtain ⟨hfiles, hdescriptors, hright, -⟩ := hacc
    dsimp only at hfiles hdescriptors hright
    subst hfiles hdescriptors hright
    cases a.reopenFd with
    | none => refine ⟨?_, ?_, ?_, ?_⟩ <;> simp [hfile, hpath, Account.record, HttpRequest.fail]
    | some fd =>
      refine ⟨?_, ?_, ?_, fun _ => hpath⟩
      · simp [hfile, hpath, Account.record]
      · simp [hfile, Account.record, Int.natCast_nonneg fd |>.not_gt]
      · simp [hfile, Account.record]

/-! ### Dispatch -/

theorem request_answer_sendError (env : Env) (code : ℕ) (c : Connection) :
    (answer (sendError env code c)).state.request = c.request := by
  cases herror : sendError env code c with
  | ok c' u =>
    rw [eq_of_sendError_ok herror]
    rfl
  | bodyLimit c' =>
    have hroom : c.writeBuffer.limit <
        c.writeBuffer.size + (errorResponse env code c.config).length := by
      by_contra hroom
      rw [sendError_ok (not_lt.mp hroom)] at herror
      cases herror
    rw [sendError_refused hroom] at herror
    cases herror
    rfl

theorem request_queue (c : Connection) (blocks : List Bytes) :
    (c.queue blocks).state.request = c.request := by
  unfold Connection.queue
  cases appendBlocks c.writeBuffer blocks <;> rfl

theorem request_respond (env : Env) (c : Connection) :
    ∃ path, (respond env c).state.request = { cleanupBodyTmpFile c.request with path := path } := by
  obtain ⟨path, hreq⟩ := request_handle env (cleanupBodyTmpFile c.request) c.config
  refine ⟨path, ?_⟩
  have hqueue := request_queue { c with
    request := (handle env (cleanupBodyTmpFile c.request) c.config).request }
    (handle env (cleanupBodyTmpFile c.request) c.config).blocks
  rw [← hreq]
  refine Eq.trans ?_ hqueue
  unfold respond
  dsimp only
  cases Connection.queue _ _ <;> rfl

theorem moves_tryDispatchComplete (env : Env) (a : SpoolAnswers) (c : Connection) :
    Moves c.request (tryDispatchCalls a c) (tryDispatchComplete env a c).state.request := by
  unfold tryDispatchCalls tryDispatchComplete
  split
  · exact .refl _
  · dsimp only
    have hfinal : Moves c.request
        (if pathRequiresCgiBodySpool c.setProcessing.request c.setProcessing.config then
          finalizeCalls a c.setProcessing.request else [])
        (if pathRequiresCgiBodySpool c.setProcessing.request c.setProcessing.config then
          { c.setProcessing with request := finalizeBodyTmpFile a c.setProcessing.request }
        else c.setProcessing).request := by
      split
      · exact moves_finalize a c.request
      · exact .refl _
    refine hfinal.trans ?_
    generalize (if pathRequiresCgiBodySpool c.setProcessing.request c.setProcessing.config then
      { c.setProcessing with request := finalizeBodyTmpFile a c.setProcessing.request }
      else c.setProcessing) = c₁
    cases resolveCgiRequest c₁.request c₁.config with
    | some info =>
      dsimp only
      split
      · rw [request_answer_sendError]
        exact .refl _
      · exact .refl _
    | none =>
      obtain ⟨path, hreq⟩ := request_respond env c₁
      dsimp only
      rw [hreq]
      exact moves_cleanup ⟨neg_one_lt_zero, rfl⟩

/-! ### The loop -/

theorem file_feed (stat : StatAnswer) (c : Connection) :
    (feed stat c).state.request.openedFile = c.request.openedFile ∧
      (feed stat c).state.request.tmpBodyPath = c.request.tmpBodyPath := by
  have hkept := refile_feed stat c
  rw [← hkept]
  exact ⟨rfl, rfl⟩

theorem file_resumeBodyIfNeeded (c : Connection) :
    (resumeBodyIfNeeded c).request.openedFile = c.request.openedFile ∧
      (resumeBodyIfNeeded c).request.tmpBodyPath = c.request.tmpBodyPath := by
  unfold resumeBodyIfNeeded
  dsimp only
  split_ifs <;> exact ⟨rfl, rfl⟩

theorem file_maybeComplete (c : Connection) :
    (maybeCompletePostWithoutLength c).request.openedFile = c.request.openedFile ∧
      (maybeCompletePostWithoutLength c).request.tmpBodyPath = c.request.tmpBodyPath := by
  unfold maybeCompletePostWithoutLength
  dsimp only
  split_ifs <;> exact ⟨rfl, rfl⟩

theorem request_recv (c : Connection) (d : Bytes) (now : ℕ) :
    (c.recv d now).state.request = c.request := by
  unfold Connection.recv
  split <;> rfl

theorem moves_readAgain (env : Env) (a : SpoolAnswers) (c : Connection) :
    Moves c.request (againCalls env a c) (readAgain env a c).state.request := by
  obtain ⟨hfile, hpath⟩ := file_maybeComplete c
  unfold againCalls readAgain
  dsimp only
  refine .behind hfile hpath ?_
  split
  · exact (moves_flush env a _).trans (moves_tryDispatchComplete env a _)
  · exact moves_tryDispatchComplete env a _

theorem moves_readEof (env : Env) (a : SpoolAnswers) (c : Connection) :
    Moves c.request (eofCalls env a c) (readEof env a c).state.request := by
  unfold eofCalls readEof
  dsimp only
  split
  · refine (moves_flush env a c).trans ?_
    generalize flushRequestBodyToTmpFile env a c = c₁
    generalize hc₂ : ({ c₁ with request := { c₁.request with parseState := .complete } } :
      Connection) = c₂
    have hdispatch : Moves c₁.request _ _ :=
      .behind (by rw [← hc₂]) (by rw [← hc₂]) (moves_tryDispatchComplete env a c₂)
    -- the fate is all that is changed behind the dispatch
    cases htry : tryDispatchComplete env a c₂ with
    | bodyLimit c₃ =>
      rw [htry] at hdispatch
      exact hdispatch
    | ok c₃ fate =>
      rw [htry] at hdispatch
      cases fate <;> exact hdispatch
  · exact .refl _

theorem moves_readFed (env : Env) (a : SpoolAnswers) (c : Connection) :
    Moves c.request (fedCalls env a c) (readFed env a c).state.request := by
  unfold fedCalls readFed
  split
  · rw [request_answer_sendError]
    exact .refl _
  · dsimp only
    split
    · obtain ⟨hfile, hpath⟩ := file_maybeComplete (flushRequestBodyToTmpFile env a c)
      exact (moves_flush env a c).trans (.behind hfile hpath (moves_tryDispatchComplete env a _))
    · obtain ⟨hfile, hpath⟩ := file_maybeComplete c
      exact .behind hfile hpath (moves_tryDispatchComplete env a _)

/-- **A reading keeps the fields of the request true.** -/
theorem moves_readLoop (env : Env) : ∀ (answers : List RecvAnswer) (c : Connection),
    Moves c.request (readCalls env c answers) (readLoop env c answers).state.request := by
  intro answers
  induction answers with
  | nil => exact fun c => moves_readAgain env .none c
  | cons answer rest ih =>
    intro c
    cases answer with
    | eof a => exact moves_readEof env a c
    | again a => exact moves_readAgain env a c
    | data d a =>
      -- neither `recv` nor the parser touches the file
      by_cases herased : c.request.erased = true
      · rw [readCalls, if_pos herased, readLoop_erased herased, state_recvErased]
        exact .refl _
      have hrecv := request_recv c d env.now
      rw [readCalls, if_neg herased, readLoop_held (Bool.eq_false_iff.mpr herased)]
      cases ho : c.recv d env.now with
      | bodyLimit c₁ =>
        rw [ho] at hrecv
        exact .of_eq (congrArg (·.openedFile) hrecv) (congrArg (·.tmpBodyPath) hrecv)
      | ok c₁ u =>
        rw [ho] at hrecv
        have hreq : c₁.request = c.request := hrecv
        obtain ⟨hresume, hresume'⟩ := file_resumeBodyIfNeeded c₁
        obtain ⟨hfed, hfed'⟩ := file_feed env.fs.statAnswer (resumeBodyIfNeeded c₁)
        have hfile := hfed.trans (hresume.trans (congrArg (·.openedFile) hreq))
        have hpath := hfed'.trans (hresume'.trans (congrArg (·.tmpBodyPath) hreq))
        dsimp only [Outcome.andThen_ok]
        cases hf : feed env.fs.statAnswer (resumeBodyIfNeeded c₁) with
        | bodyLimit c₂ =>
          rw [hf] at hfile hpath
          exact .of_eq hfile hpath
        | ok c₂ u =>
          rw [hf] at hfile hpath
          -- behind the parser the body is spooled
          have hread := moves_readFed env a c₂
          refine .behind hfile hpath ?_
          dsimp only [Outcome.andThen_ok]
          cases hr : readFed env a c₂ with
          | bodyLimit c₃ =>
            rw [hr] at hread
            simpa using hread
          | ok c₃ fate =>
            rw [hr] at hread
            cases fate with
            | nothing => exact hread.trans (ih c₃)
            | close => simpa using hread
            | answered => simpa using hread
            | script info => simpa using hread
            | stuck => simpa using hread

/-! ### Scripts -/

theorem request_sendError (env : Env) (code : ℕ) (c : Connection) :
    (sendError env code c).state.request = c.request := by
  rw [← request_answer_sendError env code c]
  cases sendError env code c <;> rfl

/-- What is done for a script leaves the fields of the request alone. -/
theorem relays_moves : Relays fun c c' => Moves c.request [] c'.request where
  refl _ := .refl _
  trans := .trans
  queue c blocks := by
    rw [request_queue]
    exact .refl _
  sendError env code c := by
    rw [request_sendError]
    exact .refl _
  setWriting _ := .refl _
  headers _ _ := .of_eq rfl rfl

end

end Webserv
