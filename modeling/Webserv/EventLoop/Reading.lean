import Webserv.EventLoop.Read

/-!
# How a reading ends

Receiving, parsing and spooling change what is read of a connection and its limits,
and nothing that is to be sent to the client: `Connection.Receives`.  A reading comes
to nothing, closes the client, throws before there was a response, answers a parse
error, or dispatches a request that is complete.

## Main results

* `endsWith_readLoop` — these are all the ways a reading ends, whatever reading keeps.
* `readLoop_cases` — the same, for what reading leaves alone.
-/

namespace Webserv

open Bytes

/-- `c'` has come from `c` by reading. -/
structure Connection.Receives (c c' : Connection) : Prop where
  connNum : c'.connNum = c.connNum
  fd : c'.fd = c.fd
  state : c'.state = c.state
  queued : c'.writeBuffer.items = c.writeBuffer.items
  halfClosed : c'.peerHalfClosed = c.peerHalfClosed
  announced : c'.closeAnnounced = c.closeAnnounced
  servers : c'.configuration = c.configuration

namespace Connection.Receives

theorem refl (c : Connection) : c.Receives c := ⟨rfl, rfl, rfl, rfl, rfl, rfl, rfl⟩

theorem trans {c₁ c₂ c₃ : Connection} (h : c₁.Receives c₂) (h' : c₂.Receives c₃) :
    c₁.Receives c₃ :=
  ⟨h'.connNum.trans h.connNum, h'.fd.trans h.fd, h'.state.trans h.state,
    h'.queued.trans h.queued, h'.halfClosed.trans h.halfClosed,
    h'.announced.trans h.announced, h'.servers.trans h.servers⟩

/-- Only the input and the request are other ones. -/
theorem input (c : Connection) (rb : ByteQueue) (req : HttpRequest) :
    c.Receives { c with readBuffer := rb, request := req } := ⟨rfl, rfl, rfl, rfl, rfl, rfl, rfl⟩

end Connection.Receives

open Connection.Receives (input)

/-! ### The parser -/

theorem receives_finishRequestLine (stat : StatAnswer) (bs : Bytes) (sc : RLScan) (p : ℕ)
    (c : Connection) : c.Receives (finishRequestLine stat bs sc p c) := by
  unfold finishRequestLine
  dsimp only
  split
  · split_ifs
    all_goals exact input c _ _
  · exact input c _ _

theorem receives_parseRequestLine (stat : StatAnswer) (c : Connection) :
    c.Receives (parseRequestLine stat c) := by
  unfold parseRequestLine
  dsimp only
  split
  · exact .refl c
  · split
    · exact .refl c
    · exact input c _ _
    · exact receives_finishRequestLine stat _ _ _ c

theorem receives_applyLocationBodyLimit (c : Connection) :
    c.Receives (applyLocationBodyLimit c) := by
  unfold applyLocationBodyLimit
  split
  · exact .refl c
  · exact input c _ _

theorem receives_requestLineStage (stat : StatAnswer) (c : Connection) :
    c.Receives (requestLineStage stat c) := by
  unfold requestLineStage
  extract_lets _ c₁
  have hstart : c.Receives c₁ := by
    dsimp only [c₁]
    split
    · exact input c _ _
    · exact .refl c
  clear_value c₁
  split
  · have hline := hstart.trans (receives_parseRequestLine stat c₁)
    split
    · exact hline
    · exact hline.trans (receives_applyLocationBodyLimit _)
  · exact hstart

/-- The server that the Host header names brings its limits with it. -/
theorem receives_overrideHost (c : Connection) (host : Bytes) :
    c.Receives (overrideHost c host) := by
  unfold overrideHost
  split
  · exact ⟨rfl, rfl, rfl, rfl, rfl, rfl, rfl⟩
  · exact .refl c

theorem receives_hostChecks (c : Connection) : c.Receives (hostChecks c) := by
  unfold hostChecks
  dsimp only
  split
  · split
    · exact input c _ _
    · exact .refl c
  · split
    · exact input c _ _
    · exact (receives_overrideHost c _).trans (input _ _ _)

theorem receives_finishHeaders (c : Connection) : c.Receives (finishHeaders c) := by
  unfold finishHeaders
  dsimp only
  split
  · exact receives_hostChecks c
  · exact (receives_hostChecks c).trans (input _ _ _)

theorem receives_headerStage (c : Connection) : c.Receives (headerStage c) := by
  unfold headerStage parseHeaders afterHeaderLoop
  dsimp only
  split
  · split
    · exact (input c _ _).trans (receives_finishHeaders _)
    · exact input c _ _
  · exact .refl c

theorem receives_feedBody (c : Connection) : c.Receives (feedBody c).state := by
  unfold feedBody
  split
  · dsimp only
    cases (if c.request.chunked then parseChunked else parseBody) c.readBuffer c.request with
    | ok s _ => exact input c _ _
    | bodyLimit s => exact input c _ _
  · exact .refl c

theorem receives_feed (stat : StatAnswer) (c : Connection) : c.Receives (feed stat c).state := by
  unfold feed
  split
  · exact .refl c
  · exact (((receives_requestLineStage stat c).trans (receives_headerStage _)).trans
      (receives_applyLocationBodyLimit _)).trans (receives_feedBody _)

/-! ### The socket and the spool file -/

theorem receives_recv (c : Connection) (d : Bytes) (now : ℕ) : c.Receives (c.recv d now).state := by
  unfold Connection.recv
  split
  · exact .refl c
  · exact ⟨rfl, rfl, rfl, rfl, rfl, rfl, rfl⟩

theorem receives_resumeBodyIfNeeded (c : Connection) : c.Receives (resumeBodyIfNeeded c) := by
  unfold resumeBodyIfNeeded
  dsimp only
  split_ifs
  · exact .refl c
  · exact input c _ _
  · exact input c _ _
  · exact .refl c

theorem receives_maybeCompletePostWithoutLength (c : Connection) :
    c.Receives (maybeCompletePostWithoutLength c) := by
  unfold maybeCompletePostWithoutLength
  dsimp only
  split
  · exact input c _ _
  · exact .refl c

theorem receives_flushRequestBodyToTmpFile (env : Env) (a : SpoolAnswers) (c : Connection) :
    c.Receives (flushRequestBodyToTmpFile env a c) := by
  unfold flushRequestBodyToTmpFile
  dsimp only
  split
  · exact .refl c
  · split
    · exact input c _ _
    · split
      · exact input c _ _
      · exact input c _ _

/-! ### How a reading ends -/

/-- The request is there as a whole. -/
def Dispatchable (c : Connection) : Prop :=
  c.request.parseState = .complete ∧ isBodyFullySpooled c = true

theorem tryDispatchComplete_of_not {env : Env} {a : SpoolAnswers} {c : Connection}
    (h : ¬ Dispatchable c) : tryDispatchComplete env a c = .ok c .nothing := by
  unfold tryDispatchComplete
  apply if_pos
  by_contra hn
  rw [not_or, not_not, Bool.not_eq_false] at hn
  exact h hn

/-- What is queued is queued with a fate. -/
theorem answer_ne_nothing {o : Outcome Connection Unit} {c : Connection} :
    answer o ≠ .ok c .nothing := by
  cases o <;> simp [answer]

/-- A request that is there is answered, or its script started. -/
theorem tryDispatchComplete_ne_nothing {env : Env} {a : SpoolAnswers} {c c' : Connection}
    (h : Dispatchable c) : tryDispatchComplete env a c ≠ .ok c' .nothing := by
  unfold tryDispatchComplete
  rw [if_neg (by simp [h.1, h.2])]
  extract_lets c₁ c₂
  clear_value c₂
  split
  · split
    · exact answer_ne_nothing
    · simp
  · exact answer_ne_nothing

/-- What goes on only where there is no fate leaves a fate alone. -/
theorem andThen_fate {o : Outcome Connection ReadFate}
    (goOn : Connection → Outcome Connection ReadFate) (h : ∀ c, o ≠ .ok c .nothing) :
    (o.andThen fun c fate => match fate with
      | .nothing => goOn c
      | fate => .ok c fate) = o := by
  cases o with
  | bodyLimit c => rfl
  | ok c fate =>
    cases fate with
    | nothing => exact absurd rfl (h c)
    | close => rfl
    | answered => rfl
    | script info => rfl
    | stuck => rfl

/-- A piece that comes when the storage of the read buffer has been given away. -/
theorem readLoop_erased {env : Env} {c : Connection} {d : Bytes} {a : SpoolAnswers}
    {rest : List RecvAnswer} (h : c.request.erased = true) :
    readLoop env c (.data d a :: rest) = c.recvErased d a.head := by
  rw [readLoop, if_pos h]

theorem readLoop_held {env : Env} {c : Connection} {d : Bytes} {a : SpoolAnswers}
    {rest : List RecvAnswer} (h : c.request.erased = false) :
    readLoop env c (.data d a :: rest) = (c.recv d env.now).andThen fun c _ =>
      (feed env.fs.statAnswer (resumeBodyIfNeeded c)).andThen fun c _ =>
        (readFed env a c).andThen fun c fate =>
          match fate with
          | .nothing => readLoop env c rest
          | fate => .ok c fate := by
  rw [readLoop]
  exact if_neg (Bool.eq_false_iff.mp h)

/-- Such a piece is refused, or the call does not return. -/
theorem recvErased_cases (c : Connection) (d : Bytes) (head : ℕ) :
    c.recvErased d head = .bodyLimit c ∨ c.recvErased d head = .ok c .stuck := by
  unfold Connection.recvErased
  split
  · exact Or.inl rfl
  · exact Or.inr rfl

theorem recvErased_ne_nothing {c c' : Connection} {d : Bytes} {head : ℕ} :
    c.recvErased d head ≠ .ok c' .nothing := by
  rcases recvErased_cases c d head with h | h <;> rw [h] <;> nofun

@[simp] theorem state_recvErased (c : Connection) (d : Bytes) (head : ℕ) :
    (c.recvErased d head).state = c := by
  rcases recvErased_cases c d head with h | h <;> rw [h] <;> rfl

/-- A property of connections that reading keeps. -/
structure KeptByReading (Q : Connection → Prop) : Prop where
  recv : ∀ c d now, Q c → Q (c.recv d now).state
  resume : ∀ c, Q c → Q (resumeBodyIfNeeded c)
  feed : ∀ stat c, Q c → Q (feed stat c).state
  complete : ∀ c, Q c → Q (maybeCompletePostWithoutLength c)
  flush : ∀ env a c, Q c → Q (flushRequestBodyToTmpFile env a c)
  /-- The client has closed behind a body without a length. -/
  endOfFile : ∀ env a c, c.request.parseState = .body → Q c →
    Q { flushRequestBodyToTmpFile env a c with
      request := { (flushRequestBodyToTmpFile env a c).request with parseState := .complete } }

/-- How a reading ends: as the outcome of a connection with a property that reading keeps. -/
inductive EndsWith (env : Env) (Q : Connection → Prop) (o : Outcome Connection ReadFate) : Prop
  | nothing (c : Connection) (hc : Q c) (ho : o = .ok c .nothing)
  | close (c : Connection) (hc : Q c) (ho : o = .ok c .close)
  /-- The storage of the read buffer has been given away. -/
  | stuck (c : Connection) (hc : Q c) (ho : o = .ok c .stuck)
  /-- The read buffer or the body is full. -/
  | threw (c : Connection) (hc : Q c) (ho : o = .bodyLimit c)
  | parseError (c : Connection) (hc : Q c) (hp : c.request.parseState = .error)
      (ho : o = answer (sendError env c.request.errorCode c))
  | dispatched (a : SpoolAnswers) (c : Connection) (hc : Q c) (hd : Dispatchable c)
      (ho : o = tryDispatchComplete env a c)

section

variable {env : Env} {Q : Connection → Prop} {c : Connection}

theorem endsWith_tryDispatchComplete (a : SpoolAnswers) (hc : Q c) :
    EndsWith env Q (tryDispatchComplete env a c) := by
  by_cases h : Dispatchable c
  · exact .dispatched a c hc h rfl
  · exact .nothing c hc (tryDispatchComplete_of_not h)

theorem endsWith_readAgain (hQ : KeptByReading Q) (a : SpoolAnswers) (hc : Q c) :
    EndsWith env Q (readAgain env a c) := by
  unfold readAgain
  dsimp only
  have hcomplete := hQ.complete c hc
  split
  · exact endsWith_tryDispatchComplete a (hQ.flush env a _ hcomplete)
  · exact endsWith_tryDispatchComplete a hcomplete

theorem endsWith_readEof (hQ : KeptByReading Q) (a : SpoolAnswers) (hc : Q c) :
    EndsWith env Q (readEof env a c) := by
  unfold readEof
  dsimp only
  split
  · next hbody =>
    have hend := hQ.endOfFile env a c hbody.1 hc
    set c₁ : Connection := { flushRequestBodyToTmpFile env a c with
      request := { (flushRequestBodyToTmpFile env a c).request with parseState := .complete } }
    by_cases h : Dispatchable c₁
    · -- the dispatch has a fate, which is the reading's
      exact .dispatched a c₁ hend h
        (andThen_fate _ fun _ => tryDispatchComplete_ne_nothing h)
    · refine .close c₁ hend ?_
      rw [tryDispatchComplete_of_not h]
      rfl
  · exact .close c hc rfl

theorem endsWith_readFed (hQ : KeptByReading Q) (a : SpoolAnswers) (hc : Q c) :
    EndsWith env Q (readFed env a c) := by
  unfold readFed
  split
  · next h => exact .parseError c hc h rfl
  · dsimp only
    have hspool : Q (if (c.request.parseState = .body ∨ c.request.parseState = .complete) ∧
        pathRequiresCgiBodySpool c.request c.config then
        flushRequestBodyToTmpFile env a c else c) := by
      split
      · exact hQ.flush env a c hc
      · exact hc
    exact endsWith_tryDispatchComplete a (hQ.complete _ hspool)

/-- A reading that goes on after one piece. -/
theorem EndsWith.andThen {o : Outcome Connection ReadFate}
    {f : Connection → ReadFate → Outcome Connection ReadFate} (h : EndsWith env Q o)
    (hnothing : ∀ c, Q c → EndsWith env Q (f c .nothing))
    (hfate : ∀ c fate, fate ≠ .nothing → f c fate = .ok c fate) :
    EndsWith env Q (o.andThen f) := by
  have hsame : ∀ o : Outcome Connection ReadFate, (∀ c, o ≠ .ok c .nothing) →
      o.andThen f = o := by
    intro o ho
    cases o with
    | bodyLimit c => rfl
    | ok c fate => exact hfate c fate fun heq => ho c (heq ▸ rfl)
  cases h with
  | nothing c hc ho =>
    rw [ho]
    exact hnothing c hc
  | close c hc ho => exact .close c hc (by rw [hsame o (by simp [ho]), ho])
  | stuck c hc ho => exact .stuck c hc (by rw [hsame o (by simp [ho]), ho])
  | threw c hc ho => exact .threw c hc (by rw [ho]; rfl)
  | parseError c hc hp ho =>
    exact .parseError c hc hp (by rw [hsame o fun _ => ho ▸ answer_ne_nothing, ho])
  | dispatched a c hc hd ho =>
    exact .dispatched a c hc hd
      (by rw [hsame o fun _ => ho ▸ tryDispatchComplete_ne_nothing hd, ho])

/-- **How the loop of a reading ends.** -/
theorem endsWith_readLoop (hQ : KeptByReading Q) : ∀ (answers : List RecvAnswer) (c : Connection),
    Q c → EndsWith env Q (readLoop env c answers) := by
  intro answers
  induction answers with
  | nil => exact fun c hc => endsWith_readAgain hQ .none hc
  | cons r rest ih =>
    intro c hc
    cases r with
    | eof a => exact endsWith_readEof hQ a hc
    | again a => exact endsWith_readAgain hQ a hc
    | data d a =>
      -- every function that the loop calls keeps `Q`
      cases herased : c.request.erased with
      | true =>
        rw [readLoop_erased herased]
        rcases recvErased_cases c d a.head with hend | hend
        · exact .threw c hc hend
        · exact .stuck c hc hend
      | false =>
        rw [readLoop_held herased]
        have hrecv := hQ.recv c d env.now hc
        cases hr : c.recv d env.now with
        | bodyLimit c₁ =>
          rw [hr] at hrecv
          exact .threw c₁ hrecv rfl
        | ok c₁ _ =>
          rw [hr] at hrecv
          rw [Outcome.andThen_ok]
          have hfeed := hQ.feed env.fs.statAnswer _ (hQ.resume c₁ hrecv)
          cases hf : feed env.fs.statAnswer (resumeBodyIfNeeded c₁) with
          | bodyLimit c₂ =>
            rw [hf] at hfeed
            exact .threw c₂ hfeed rfl
          | ok c₂ _ =>
            rw [hf] at hfeed
            rw [Outcome.andThen_ok]
            apply (endsWith_readFed hQ a hfeed).andThen
            · exact ih
            · intro c₃ fate hfate
              cases fate with
              | nothing => exact absurd rfl hfate
              | close => rfl
              | answered => rfl
              | script info => rfl
              | stuck => rfl

end

/-! ### While the head is read -/

/-- The parser has not come to a body, and there is none. -/
structure InHead (c : Connection) : Prop where
  parseState : c.request.parseState = .idle ∨ c.request.parseState = .requestLine ∨
    c.request.parseState = .headers
  body : c.request.body.items = []
  contentLength : c.request.contentLength = 0

namespace InHead

variable {env : Env} {a : SpoolAnswers} {c : Connection}

theorem ne (h : InHead c) : c.request.parseState ≠ .error ∧ c.request.parseState ≠ .body ∧
    c.request.parseState ≠ .complete := by
  rcases h.parseState with h | h | h <;> simp [h]

theorem held (h : InHead c) : c.request.erased = false := by
  simp [HttpRequest.erased, h.contentLength]

theorem maybeComplete (h : InHead c) : maybeCompletePostWithoutLength c = c :=
  if_neg fun hbody => h.ne.2.1 hbody.1

theorem not_dispatchable (h : InHead c) : ¬ Dispatchable c := fun hd => h.ne.2.2 hd.1

/-- There is nothing to spool. -/
theorem flush (h : InHead c) : flushRequestBodyToTmpFile env a c = c :=
  if_pos (by simp [Fifo.isEmpty, h.body])

theorem resume (h : InHead c) : resumeBodyIfNeeded c = c := if_pos h.ne.2.2

/-- While the head is read nothing else happens. -/
theorem readFed (h : InHead c) : readFed env a c = .ok c .nothing := by
  unfold Webserv.readFed
  rw [if_neg h.ne.1, if_neg fun hstate => hstate.1.elim h.ne.2.1 h.ne.2.2]
  dsimp only
  rw [h.maybeComplete]
  exact tryDispatchComplete_of_not h.not_dispatchable

theorem readAgain (h : InHead c) : readAgain env a c = .ok c .nothing := by
  unfold Webserv.readAgain
  dsimp only
  rw [h.maybeComplete, h.flush, ite_self]
  exact tryDispatchComplete_of_not h.not_dispatchable

theorem readEof (h : InHead c) : readEof env a c = .ok c .close :=
  if_neg fun hbody => h.ne.2.1 hbody.1

end InHead

/-! ### What reading leaves alone -/

theorem keptByReading_receives (c : Connection) : KeptByReading (Connection.Receives c) where
  recv c₁ d now h := h.trans (receives_recv c₁ d now)
  resume c₁ h := h.trans (receives_resumeBodyIfNeeded c₁)
  feed stat c₁ h := h.trans (receives_feed stat c₁)
  complete c₁ h := h.trans (receives_maybeCompletePostWithoutLength c₁)
  flush env a c₁ h := h.trans (receives_flushRequestBodyToTmpFile env a c₁)
  endOfFile env a c₁ _ h := (h.trans (receives_flushRequestBodyToTmpFile env a c₁)).trans
    (input _ _ _)

/-- How a reading of the client `c` ends: as the outcome of a connection that has come
from it by reading alone. -/
abbrev ReadEnd (env : Env) (c : Connection) : Outcome Connection ReadFate → Prop :=
  EndsWith env (Connection.Receives c)

theorem readLoop_cases (env : Env) (answers : List RecvAnswer) (c : Connection) :
    ReadEnd env c (readLoop env c answers) :=
  endsWith_readLoop (keptByReading_receives c) answers c (.refl c)

end Webserv
