import Webserv.ResponseHandler.Injection
import Webserv.EventLoop.Operations
import Webserv.EventLoop.IdleTimeout

/-!
# Readiness bits that are reported together

`_handleClientEvent` acts on one bit of an event and returns.  `deliver` gives a client some
events one after another and says what has come of it: what its socket has taken, whether an
exception has left the loop, and what is left of the client.  An event with several bits is
compared with its bits in the order in, out, hang-up.

## Main results

* `deliver_hangup` — the hang-up of the peer is all that matters of its event.
* `sameEffect_of_undropped` — **bits that are reported together have the effect of bits that
  are reported one by one**, when the ones that are not acted on have nothing to do.
* `not_sameEffect` — a request is dropped that came with the hang-up.
-/

namespace Webserv

open Bytes

namespace EventLoop

/-- What has come of a client. -/
structure Effect where
  /-- What the socket has taken. -/
  sent : Bytes
  threw : Bool
  /-- What is queued, the state and the mark of a half-closed connection, if it is open. -/
  fate : Option (Bytes × ConnectionState × Bool)
  deriving DecidableEq

/-- What a client has to send, its state, and whether its peer has half closed. -/
def fateOf (l : EventLoop) (fd : ℕ) : Option (Bytes × ConnectionState × Bool) :=
  (l.connections[fd]?).map fun c => (c.writeBuffer.items, c.state, c.peerHalfClosed)

/-- An event with the bits in, out and hang-up. -/
def bits (i o h : Bool) : EpollBits := { epollIn := i, epollOut := o, epollRdhup := h }

/-- What the socket takes while the event is handled: only `_handleWrite` sends. -/
def sentBytes (l : EventLoop) (a : KernelAnswers) (fd : ℕ) (events : EpollBits) : Bytes :=
  match l.connections[fd]? with
  | none => []
  | some c =>
      if events.epollErr || events.epollHup || events.epollRdhup || events.epollIn then []
      else if events.epollOut then c.writeBuffer.items.take (a.takes fd).sum
      else []

/-- Some events of a client, one after another, until an exception leaves the loop. -/
def deliver (a : KernelAnswers) (fd : ℕ) : List EpollBits → EventLoop → Effect
  | [], l => ⟨[], false, l.fateOf fd⟩
  | events :: rest, l =>
      match l.handleClientEvent a fd events with
      | .bodyLimit l' => ⟨l.sentBytes a fd events, true, l'.fateOf fd⟩
      | .ok l' _ =>
          let effect := deliver a fd rest l'
          { effect with sent := l.sentBytes a fd events ++ effect.sent }

/-- The bits of an event as events of their own. -/
def oneByOne (i o h : Bool) : List EpollBits :=
  (if i then [bits true false false] else []) ++ (if o then [bits false true false] else []) ++
    if h then [bits false false true] else []

/-- The bits together have the effect of the bits one by one. -/
def SameEffect (l : EventLoop) (a : KernelAnswers) (fd : ℕ) (i o h : Bool) : Prop :=
  deliver a fd [bits i o h] l = deliver a fd (oneByOne i o h) l

instance (l : EventLoop) (a : KernelAnswers) (fd : ℕ) (i o h : Bool) :
    Decidable (l.SameEffect a fd i o h) := inferInstanceAs (Decidable (_ = _))

/-- The hang-up of the peer closes the client. -/
def HangupCloses (l : EventLoop) (fd : ℕ) (c : Connection) : Prop :=
  c.writeBuffer.items = [] ∨ (l.activeCgi fd).isSome

/-- The reading of a client that hangs up queues no response: the client waits for its script,
nothing that is complete has come, a script is started, or the reading does not return. -/
def IdleRead (l : EventLoop) (a : KernelAnswers) (fd : ℕ) (c : Connection) : Prop :=
  c.state = .cgiRunning ∨
    match readLoop a.env c a.recvs with
    | .ok _ .nothing | .ok _ .stuck => True
    | .ok _ .close => l.HangupCloses fd c
    | .ok c' (.script info) => l.HangupCloses fd c ∧ a.pipe.isSome ∧
        (startCgi a.env.fs a.world c'.request c'.config info).isSome
    | _ => False

/-- The socket of a client that hangs up takes nothing, and the script that may be looked at
goes on, or ends with nothing left to be sent. -/
def IdleWrite (l : EventLoop) (a : KernelAnswers) (fd : ℕ) (c : Connection) : Prop :=
  match l.activeCgi fd with
  | none => c.writeBuffer.items = [] ∨
      (a.takes fd).sum = 0 ∧ c.state = .writing ∧ a.modifies .write fd = true
  | some x => (c.writeBuffer.items = [] ∨ (a.takes fd).sum = 0) ∧
      (c.writeBuffer.size < cgiStreamLwm → ∀ j, l.cgiJobs[x]? = some j → ∃ s fate,
        (fate ≠ .ended ∨ s.1.writeBuffer.items = []) ∧
          cgiEvent a.env (c.sendLoop a.env.now (a.takes fd)) j (a.reads x) = .ok s fate)

/-- No bit is dropped that has something to do. -/
def Undropped (l : EventLoop) (a : KernelAnswers) (fd : ℕ) (i o h : Bool) : Prop :=
  ∀ c, l.connections[fd]? = some c →
    match i, o, h with
    | true, true, _ => False
    | true, false, true => l.IdleRead a fd c
    | false, true, true => l.IdleWrite a fd c
    | _, _, _ => True

section

variable {l l' : EventLoop} {a : KernelAnswers} {fd x : ℕ} {c : Connection}

/-! ### One event -/

/-- What is left of a client whose peer has hung up. -/
def hangupFate (l : EventLoop) (fd : ℕ) : Option (Bytes × ConnectionState × Bool) :=
  match l.connections[fd]? with
  | none => none
  | some c =>
      if c.writeBuffer.isEmpty || (l.activeCgi fd).isSome then none
      else some (c.writeBuffer.items, c.state, true)

theorem deliver_gone (hnone : l.connections[fd]? = none) :
    ∀ events, deliver a fd events l = ⟨[], false, none⟩ := by
  intro events
  induction events with
  | nil => rw [deliver, fateOf, hnone, Option.map_none]
  | cons e rest ih =>
    rw [deliver, handleClientEvent, hnone]
    dsimp only
    rw [ih, sentBytes, hnone]
    rfl

/-- **The hang-up is all that matters of its event.** -/
theorem deliver_hangup (l : EventLoop) (a : KernelAnswers) (fd : ℕ) (i o : Bool) :
    deliver a fd [bits i o true] l = ⟨[], false, l.hangupFate fd⟩ := by
  cases hc : l.connections[fd]? with
  | none => rw [deliver_gone hc, hangupFate, hc]
  | some c =>
    rw [deliver, handleClientEvent, sentBytes, hc]
    simp only [bits, Bool.or_self, Bool.false_eq_true, if_false, if_true,
      Bool.or_true, Bool.true_or,
      List.nil_append]
    rw [hangupFate, hc]
    dsimp only
    by_cases hcloses : (c.writeBuffer.isEmpty || (l.activeCgi fd).isSome) = true
    · rw [if_pos hcloses, if_pos hcloses]
      dsimp only
      rw [deliver, fateOf, connections_closeClient_self]
      rfl
    · rw [if_neg hcloses, if_neg hcloses]
      dsimp only
      rw [deliver, fateOf, connections_putConnection_self]
      rfl

theorem hangupFate_closes (hc : l.connections[fd]? = some c) (h : l.HangupCloses fd c) :
    l.hangupFate fd = none := by
  rw [hangupFate, hc]
  refine if_pos ?_
  rw [Bool.or_eq_true]
  exact h.imp_left fun hnil => (c.writeBuffer.isEmpty_iff).mpr hnil

theorem hangupFate_gone (hnone : l.connections[fd]? = none) : l.hangupFate fd = none := by
  rw [hangupFate, hnone]

theorem hangupFate_job (hjob : (l.activeCgi fd).isSome) : l.hangupFate fd = none := by
  cases hc : l.connections[fd]? with
  | none => exact hangupFate_gone hc
  | some c => exact hangupFate_closes hc (Or.inr hjob)

/-- The hang-up sees the write buffer, the jobs and the state. -/
theorem hangupFate_congr {c' : Connection} (hc : l.connections[fd]? = some c)
    (hc' : l'.connections[fd]? = some c') (hitems : c'.writeBuffer.items = c.writeBuffer.items)
    (hstate : c'.state = c.state) (hjobs : l'.cgiJobs = l.cgiJobs) :
    l'.hangupFate fd = l.hangupFate fd := by
  have hempty : c'.writeBuffer.isEmpty = c.writeBuffer.isEmpty := by
    rw [Bool.eq_iff_iff, c'.writeBuffer.isEmpty_iff, c.writeBuffer.isEmpty_iff, hitems]
  rw [hangupFate, hangupFate, hc, hc', activeCgi, activeCgi, hjobs]
  dsimp only
  rw [hempty, hitems, hstate]

/-- An event without a bit. -/
theorem sameEffect_none (hc : l.connections[fd]? = some c) :
    l.SameEffect a fd false false false := by
  have hevent : l.handleClientEvent a fd (bits false false false) = .ok l () := by
    rw [handleClientEvent, hc]
    rfl
  have hsent : l.sentBytes a fd (bits false false false) = [] := by
    rw [sentBytes, hc]
    rfl
  show deliver a fd [bits false false false] l = deliver a fd [] l
  simp only [deliver, hevent, hsent, List.nil_append]

/-- A reading and a hang-up. -/
theorem sameEffect_read_iff (hc : l.connections[fd]? = some c) :
    l.SameEffect a fd true false true ↔ (l.handleRead a fd).threw = false ∧
      (l.handleRead a fd).state.hangupFate fd = l.hangupFate fd := by
  have hevent : l.handleClientEvent a fd (bits true false false) = l.handleRead a fd := by
    rw [handleClientEvent, hc]
    rfl
  have hsent : l.sentBytes a fd (bits true false false) = [] := by
    rw [sentBytes, hc]
    rfl
  show deliver a fd [bits true false true] l =
    deliver a fd [bits true false false, bits false false true] l ↔ _
  rw [deliver_hangup, deliver, hevent, hsent]
  cases l.handleRead a fd with
  | bodyLimit l' => simp
  | ok l' u =>
    dsimp only
    rw [deliver_hangup]
    simp [eq_comm]

/-- A writing and a hang-up. -/
theorem sameEffect_write_iff (hc : l.connections[fd]? = some c) :
    l.SameEffect a fd false true true ↔ (l.handleWrite a fd).threw = false ∧
      (l.handleWrite a fd).state.hangupFate fd = l.hangupFate fd ∧
        c.writeBuffer.items.take (a.takes fd).sum = [] := by
  have hevent : l.handleClientEvent a fd (bits false true false) = l.handleWrite a fd := by
    rw [handleClientEvent, hc]
    rfl
  have hsent : l.sentBytes a fd (bits false true false) =
      c.writeBuffer.items.take (a.takes fd).sum := by
    rw [sentBytes, hc]
    rfl
  show deliver a fd [bits false true true] l =
    deliver a fd [bits false true false, bits false false true] l ↔ _
  rw [deliver_hangup, deliver, hevent, hsent]
  cases l.handleWrite a fd with
  | bodyLimit l' => simp
  | ok l' u =>
    dsimp only
    rw [deliver_hangup, List.append_nil, Effect.mk.injEq]
    constructor
    · exact fun h => ⟨rfl, h.2.2.symm, h.1.symm⟩
    · exact fun h => ⟨h.2.2.symm, rfl, h.2.1.symm⟩

/-! ### Jobs that stay -/

/-- A client that a job is filed for has a job. -/
theorem activeCgi_isSome {j : CgiJob} (hj : l.cgiJobs[x]? = some j) (hclient : j.clientFd = fd) :
    (l.activeCgi fd).isSome := by
  rw [Option.isSome_iff_ne_none]
  intro hnone
  exact of_decide_eq_false (Table.findKey_eq_none.mp hnone x j hj) hclient

/-- A script is started, and its job is the client's. -/
theorem hangupFate_apiStartCgi {info : CgiRequestInfo} (l : EventLoop) (fd : ℕ)
    (hpipe : a.pipe.isSome)
    (hstart : (startCgi a.env.fs a.world c.request c.config info).isSome) :
    ∃ l₁, l.apiStartCgi a fd c info = .ok l₁ () ∧
      (l₁.connections[fd]? = none ∨ (l₁.activeCgi fd).isSome) := by
  obtain ⟨x, hx⟩ := Option.isSome_iff_exists.mp hpipe
  obtain ⟨started, hstarted⟩ := Option.isSome_iff_exists.mp hstart
  unfold apiStartCgi
  rw [hx]
  dsimp only
  have hjob : ((l.addCgiJob fd x c a.env.now).rearmAs (a.modifies .run fd) fd
      c.setCgiRunning).cgiJobs[x]? = some _ :=
    (congrArg (·[x]?) (cgiJobs_rearmAs _ fd c.setCgiRunning _)).trans
      (cgiJobs_putJob_self (l.registerEventFd x .cgi cgiEvents) x _)
  have hconn := connections_rearmAs_self (l.addCgiJob fd x c a.env.now) fd c.setCgiRunning
    (a.modifies .run fd)
  generalize (l.addCgiJob fd x c a.env.now).rearmAs (a.modifies .run fd) fd c.setCgiRunning = l₁
    at hjob hconn ⊢
  rcases hconn with hconn | ⟨-, hgone⟩
  · rw [hconn]
    dsimp only
    have hstarted' : startCgi a.env.fs a.world c.setCgiRunning.request c.setCgiRunning.config info =
        some started := hstarted
    rw [hstarted']
    exact ⟨_, rfl, Or.inr (activeCgi_isSome hjob rfl)⟩
  · rw [hgone]
    exact ⟨l₁, rfl, Or.inl hgone⟩

/-- The reading leaves the client as the hang-up finds it. -/
theorem hangupFate_handleRead (hc : l.connections[fd]? = some c) (h : l.IdleRead a fd c) :
    (l.handleRead a fd).threw = false ∧
      (l.handleRead a fd).state.hangupFate fd = l.hangupFate fd := by
  unfold handleRead
  rw [hc]
  dsimp only
  -- `_handleRead` returns at once while a script is running
  by_cases hstate : c.state = .cgiRunning
  · rw [if_pos hstate]
    exact ⟨rfl, rfl⟩
  rw [if_neg hstate]
  have hidle := h.resolve_left hstate
  have hleaves := readLeaves_readLoop a.env a.recvs c
  unfold tryRead
  cases hread : readLoop a.env c a.recvs with
  | bodyLimit c' =>
    rw [hread] at hidle
    exact hidle.elim
  | ok c' fate =>
    rw [hread] at hidle hleaves
    cases fate with
    | nothing =>
      cases hleaves with
      | nothing hrec =>
        exact ⟨rfl, hangupFate_congr hc (connections_putConnection_self l fd c') hrec.queued
          hrec.state rfl⟩
    -- the call does not return: nothing is left of it but what is on record
    | stuck =>
      cases hleaves with
      | stuck hrec =>
        exact ⟨rfl, hangupFate_congr hc (connections_putConnection_self l fd c') hrec.queued
          hrec.state rfl⟩
    | close =>
      refine ⟨rfl, ?_⟩
      rw [hangupFate_closes hc hidle]
      exact hangupFate_gone (connections_closeClient_self _ fd)
    | answered => exact hidle.elim
    -- the script could not be started, or there is a job that a hang-up closes
    | script info =>
      obtain ⟨hcloses, hpipe, hstart⟩ := hidle
      obtain ⟨l₁, hstarted, hleft⟩ := hangupFate_apiStartCgi l fd hpipe hstart
      dsimp only
      rw [hstarted]
      refine ⟨rfl, ?_⟩
      rw [hangupFate_closes hc hcloses]
      show (l₁.forgetBodyFile fd).hangupFate fd = none
      unfold forgetBodyFile
      split
      · next hgone => exact hangupFate_gone hgone
      · next c₁ hc₁ =>
        rcases hleft with hgone | hjob
        · rw [hgone] at hc₁
          cases hc₁
        · exact hangupFate_job hjob

/-- Nothing is sent. -/
theorem items_sendLoop (h : c.writeBuffer.items = [] ∨ (a.takes fd).sum = 0) :
    (c.sendLoop a.env.now (a.takes fd)).writeBuffer.items = c.writeBuffer.items ∧
      c.writeBuffer.items.take (a.takes fd).sum = [] := by
  obtain ⟨t, ht⟩ := sendLoop_eq a.env.now (a.takes fd) c
  rw [ht]
  show c.writeBuffer.items.drop (a.takes fd).sum = c.writeBuffer.items ∧ _
  rcases h with hnil | hzero
  · rw [hnil, List.drop_nil, List.take_nil]
    exact ⟨rfl, rfl⟩
  · rw [hzero, List.drop_zero, List.take_zero]
    exact ⟨rfl, rfl⟩

theorem cgiJobs_afterRelay (l : EventLoop) (a : KernelAnswers) (fd : ℕ) :
    (l.afterRelay a fd).cgiJobs = l.cgiJobs := by
  unfold afterRelay
  split
  · rfl
  · exact cgiJobs_rearmAs l fd _ _

/-- The end of the writing finds the client without a job. -/
theorem hangupFate_afterWrite (hc : l.connections[fd]? = some c)
    (h : c.writeBuffer.items = [] ∨ c.state = .writing ∧ a.modifies .write fd = true) :
    (l.afterWrite a fd c).hangupFate fd = l.hangupFate fd := by
  unfold afterWrite
  split
  · next hempty =>
    -- with nothing to be sent the hang-up closes the client, whatever it does next
    rw [hangupFate_closes hc (Or.inl ((c.writeBuffer.isEmpty_iff).mp hempty))]
    split
    · rcases connections_rearmAs_self l fd (c.setReading a.env.now) (a.modifies .write fd) with
        hconn | ⟨-, hgone⟩
      · exact hangupFate_closes hconn (Or.inl rfl)
      · exact hangupFate_gone hgone
    · exact hangupFate_gone (connections_closeClient_self l fd)
  · next hempty =>
    obtain ⟨hstate, hm⟩ := h.resolve_left fun hnil =>
      hempty ((c.writeBuffer.isEmpty_iff).mpr hnil)
    rcases connections_rearmAs_self l fd c.setWriting (a.modifies .write fd) with
      hconn | ⟨hfails, -⟩
    · exact hangupFate_congr hc hconn rfl hstate.symm (cgiJobs_rearmAs l fd _ _)
    · rw [hm] at hfails
      cases hfails

/-- A call that does not end the job leaves it filed. -/
theorem cgiJobs_settle {s : Connection × CgiJob} {fate : CgiFate} (l : EventLoop)
    (a : KernelAnswers) (x fd : ℕ) (hfate : fate ≠ .ended) :
    ∃ l₁, l.settle a x fd (.ok s fate) = .ok l₁ () ∧ l₁.cgiJobs[x]? = some s.2 := by
  cases fate with
  | ended => exact absurd rfl hfate
  | wait => exact ⟨_, rfl, cgiJobs_putJob_self l x s.2⟩
  | streamed =>
    refine ⟨_, rfl, ?_⟩
    rw [cgiJobs_rearmAs]
    exact cgiJobs_putJob_self l x s.2

/-- With nothing to be sent the client is closed by the hang-up. -/
theorem hangupFate_afterRelay (h : l.connections[fd]? = none ∨
    ∃ c, l.connections[fd]? = some c ∧ c.writeBuffer.items = []) :
    (l.afterRelay a fd).hangupFate fd = none := by
  unfold afterRelay
  rcases h with hgone | ⟨c, hc, hnil⟩
  · rw [hgone]
    exact hangupFate_gone hgone
  · rw [hc]
    dsimp only
    rcases connections_rearmAs_self l fd c.setWriting (a.modifies .write fd) with
      hconn | ⟨-, hgone⟩
    · exact hangupFate_closes hconn (Or.inl hnil)
    · exact hangupFate_gone hgone

/-- The client of a job is closed by the hang-up before and after the job is looked at. -/
theorem hangupFate_pump {sent : Connection} {j : CgiJob} (hj : l.cgiJobs[x]? = some j)
    (hclient : j.clientFd = fd)
    (hconn : l.connections[fd]? = none ∨ l.connections[fd]? = some sent)
    (hgoesOn : ∃ s fate, (fate ≠ .ended ∨ s.1.writeBuffer.items = []) ∧
      cgiEvent a.env sent j (a.reads x) = .ok s fate) :
    ∃ l₁, l.handleCgiEvent a x = .ok l₁ () ∧ (l₁.afterRelay a fd).hangupFate fd = none := by
  unfold handleCgiEvent
  rw [hj]
  dsimp only
  rw [hclient]
  rcases hconn with hgone | hconn
  · rw [hgone]
    refine ⟨_, rfl, hangupFate_afterRelay (Or.inl ?_)⟩
    rw [connections_closeCgiJob]
    exact hgone
  · obtain ⟨s, fate, hfate, heq⟩ := hgoesOn
    have hend := callEnd_cgiEvent a.env sent j (a.reads x)
    rw [hconn]
    dsimp only
    rw [heq] at hend ⊢
    by_cases hended : fate = .ended
    · subst hended
      refine ⟨_, rfl, hangupFate_afterRelay ?_⟩
      rw [connections_closeCgiJob]
      rcases connections_rearmAs_self (l.putJob x s.2) fd s.1 (a.modifies .relay fd) with
        hconn' | ⟨-, hgone⟩
      · exact Or.inr ⟨s.1, hconn', hfate.resolve_left fun hne => hne rfl⟩
      · exact Or.inl hgone
    · obtain ⟨l₁, hsettle, hfiled⟩ := cgiJobs_settle (s := s) l a x fd hended
      have hfiled' : (l₁.afterRelay a fd).cgiJobs[x]? = some s.2 := by
        rw [cgiJobs_afterRelay]
        exact hfiled
      exact ⟨l₁, hsettle,
        hangupFate_job (activeCgi_isSome hfiled' (hend.of_ok.clientFd.trans hclient))⟩

/-- The writing leaves the client as the hang-up finds it, and sends nothing. -/
theorem hangupFate_handleWrite (hc : l.connections[fd]? = some c) (h : l.IdleWrite a fd c) :
    (l.handleWrite a fd).threw = false ∧
      (l.handleWrite a fd).state.hangupFate fd = l.hangupFate fd ∧
        c.writeBuffer.items.take (a.takes fd).sum = [] := by
  unfold handleWrite
  rw [hc]
  dsimp only
  have hput := connections_putConnection_self l fd (c.sendLoop a.env.now (a.takes fd))
  have hactive : (l.putConnection fd (c.sendLoop a.env.now (a.takes fd))).activeCgi fd =
      l.activeCgi fd := rfl
  rw [hactive]
  unfold IdleWrite at h
  cases hjob : l.activeCgi fd with
  | none =>
    rw [hjob] at h
    obtain ⟨hitems, htake⟩ := items_sendLoop (h.imp_right And.left)
    have hstate := state_sendLoop a.env.now (a.takes fd) c
    refine ⟨rfl, ?_, htake⟩
    refine (hangupFate_afterWrite hput ?_).trans (hangupFate_congr hc hput hitems hstate rfl)
    rw [hitems, hstate]
    exact h.imp_right And.right
  | some x =>
    rw [hjob] at h
    obtain ⟨hnothing, hgoesOn⟩ := h
    obtain ⟨hitems, htake⟩ := items_sendLoop hnothing
    obtain ⟨j, hj, hclient⟩ := Table.findKey_eq_some hjob
    have hsize : (c.sendLoop a.env.now (a.takes fd)).writeBuffer.size = c.writeBuffer.size :=
      congrArg List.length hitems
    rw [hangupFate_closes hc (Or.inr (by rw [hjob]; rfl))]
    dsimp only
    rw [hsize]
    generalize c.sendLoop a.env.now (a.takes fd) = sent at hput hgoesOn ⊢
    by_cases hroom : c.writeBuffer.size < cgiStreamLwm
    · rw [if_pos hroom]
      have hconn := (connections_modifyEventFd (l.putConnection fd sent) (a.modifies .pipe x) x
        cgiEvents)
      have hj' : ((l.putConnection fd sent).modifyEventFd (a.modifies .pipe x) x
          cgiEvents).cgiJobs[x]? = some j := by
        rw [cgiJobs_modifyEventFd]
        exact hj
      -- the pipe may be the client's own descriptor: then the client is gone
      have hleft : ((l.putConnection fd sent).modifyEventFd (a.modifies .pipe x) x
          cgiEvents).connections[fd]? = none ∨ ((l.putConnection fd sent).modifyEventFd
            (a.modifies .pipe x) x cgiEvents).connections[fd]? = some sent := by
        rcases hconn with hsame | ⟨-, hgone⟩
        · rw [hsame]
          exact Or.inr hput
        · rcases eq_or_ne fd x with rfl | hne
          · exact Or.inl hgone
          · rw [connections_modifyEventFd_ne _ _ hne]
            exact Or.inr hput
      obtain ⟨l₁, hevent, hfate⟩ := hangupFate_pump hj' (of_decide_eq_true hclient) hleft
        (hgoesOn hroom j hj)
      rw [hevent]
      exact ⟨rfl, hfate, htake⟩
    · rw [if_neg hroom]
      -- no room for the job: it stays, and the hang-up closes the client
      refine ⟨rfl, hangupFate_job (activeCgi_isSome (j := j) (x := x) ?_
        (of_decide_eq_true hclient)), htake⟩
      show ((l.putConnection fd sent).afterRelay a fd).cgiJobs[x]? = some j
      rw [cgiJobs_afterRelay]
      exact hj

/-- **Bits that are reported together have the effect of bits that are reported one by one**, if
no bit is dropped that has something to do. -/
theorem sameEffect_of_undropped {i o h : Bool} (hundropped : l.Undropped a fd i o h) :
    l.SameEffect a fd i o h := by
  cases hc : l.connections[fd]? with
  | none => exact (deliver_gone hc _).trans (deliver_gone hc _).symm
  | some c =>
    have hbits := hundropped c hc
    -- a single bit, or none, is what it is
    cases i <;> cases o <;> cases h
    case false.false.false => exact sameEffect_none hc
    case true.false.true => exact (sameEffect_read_iff hc).mpr (hangupFate_handleRead hc hbits)
    case false.true.true => exact (sameEffect_write_iff hc).mpr (hangupFate_handleWrite hc hbits)
    case true.true.false => exact hbits.elim
    case true.true.true => exact hbits.elim
    all_goals rfl

/-! ### Clients that have something to do -/

/-- What is queued for a request is not empty. -/
theorem items_of_answered {env : Env} {answers : List RecvAnswer} {c' : Connection}
    (h : readLoop env c answers = .ok c' .answered) : c'.writeBuffer.items ≠ [] := by
  -- a page that is queued is not empty
  have hpage : ∀ (code : ℕ) (c₁ : Connection), answer (sendError env code c₁) = .ok c' .answered →
      c'.writeBuffer.items ≠ [] := by
    intro code c₁ h₁ hnil
    cases herror : sendError env code c₁ with
    | bodyLimit c₂ =>
      rw [herror] at h₁
      cases h₁
    | ok c₂ u =>
      rw [herror] at h₁
      cases h₁
      rw [eq_of_sendError_ok herror] at hnil
      have hitems : c₁.writeBuffer.items ++ errorResponse env code c₁.config = [] := hnil
      exact errorResponse_ne_nil env code c₁.config (List.append_eq_nil_iff.mp hitems).2
  cases readLoop_cases env answers c with
  | nothing c₁ _ ho => rw [ho] at h; cases h
  | stuck c₁ _ ho => rw [ho] at h; cases h
  | close c₁ _ ho => rw [ho] at h; cases h
  | threw c₁ _ ho => rw [ho] at h; cases h
  | parseError c₁ _ _ ho => exact hpage _ c₁ (ho.symm.trans h)
  | dispatched a c₁ _ _ ho =>
    -- nor is a reply: it has a head
    have hdispatch := ho.symm.trans h
    unfold tryDispatchComplete at hdispatch
    split at hdispatch
    · cases hdispatch
    · extract_lets c₂ c₃ at hdispatch
      clear_value c₃
      split at hdispatch
      · split at hdispatch
        · exact hpage _ c₃ hdispatch
        · cases hdispatch
      · unfold respond at hdispatch
        dsimp only at hdispatch
        cases hqueue : ({ c₃ with
            request := (handle env (cleanupBodyTmpFile c₃.request) c₃.config).request } :
              Connection).queue (handle env (cleanupBodyTmpFile c₃.request) c₃.config).blocks with
        | bodyLimit c₄ =>
          rw [hqueue] at hdispatch
          cases hdispatch
        | ok c₄ u =>
          rw [hqueue] at hdispatch
          cases hdispatch
          rw [eq_of_queue_ok hqueue]
          exact List.append_ne_nil_of_right_ne_nil _ (flatten_handle_ne_nil _ _ _)

/-- A client with something to be sent and without a job outlives the hang-up. -/
theorem hangupFate_ne_none (hc : l.connections[fd]? = some c) (hitems : c.writeBuffer.items ≠ [])
    (hjob : l.activeCgi fd = none) : l.hangupFate fd ≠ none := by
  rw [hangupFate, hc, hjob]
  dsimp only
  rw [if_neg]
  · nofun
  · rw [Option.isSome_none, Bool.or_false, c.writeBuffer.isEmpty_iff]
    exact hitems

/-- The outcome of a handler that has queued a page for a client without a job, or was kept from
it by an exception. -/
def Stays (fd : ℕ) (o : Outcome EventLoop Unit) : Prop :=
  (∃ l, o = .ok l () ∧ l.hangupFate fd ≠ none) ∨
    ∃ l c, o = .bodyLimit l ∧ l.connections[fd]? = some c ∧ l.activeCgi fd = none

theorem hangupFate_rearmAs (hjob : l.activeCgi fd = none) (hitems : c.writeBuffer.items ≠ []) :
    (l.rearmAs true fd c).hangupFate fd ≠ none := by
  rcases connections_rearmAs_self l fd c true with hconn | ⟨⟨⟩, -⟩
  refine hangupFate_ne_none hconn hitems ?_
  rw [activeCgi, cgiJobs_rearmAs]
  exact hjob

theorem stays_refuse (hm : a.modifies .answer fd = true) (hjob : l.activeCgi fd = none)
    (c : Connection) (code : ℕ) : Stays fd (l.refuse a fd c code) := by
  unfold refuse
  cases herror : sendError a.env code c with
  | bodyLimit c' =>
    exact Or.inr ⟨_, c', rfl, connections_putConnection_self l fd c', hjob⟩
  | ok c' u =>
    refine Or.inl ⟨_, rfl, ?_⟩
    rw [hm]
    refine hangupFate_rearmAs hjob ?_
    rw [eq_of_sendError_ok herror]
    exact List.append_ne_nil_of_right_ne_nil _ (errorResponse_ne_nil a.env code c.config)

/-- The handler of the `try` block queues a page, or is left by an exception. -/
theorem Stays.catchTryRead (hm : a.modifies .answer fd = true) {o : Outcome EventLoop Unit}
    (ho : Stays fd o) : (catchTryRead a fd o).threw = true ∨
      (catchTryRead a fd o).state.hangupFate fd ≠ none := by
  rcases ho with ⟨l, rfl, hfate⟩ | ⟨l, c, rfl, hconn, hjob⟩
  · exact Or.inr hfate
  · unfold EventLoop.catchTryRead
    dsimp only
    rw [hconn]
    rcases stays_refuse hm hjob (closing c) 413 with ⟨l', heq, hfate⟩ | ⟨l', c', heq, -, -⟩
    · exact Or.inr ((congrArg (fun o => hangupFate (Outcome.state o) fd) heq).trans_ne hfate)
    · exact Or.inl (congrArg Outcome.threw heq)

/-- The body file is none of the business of the hang-up. -/
theorem hangupFate_forgetBodyFile (l : EventLoop) (fd : ℕ) :
    (l.forgetBodyFile fd).hangupFate fd = l.hangupFate fd := by
  unfold forgetBodyFile
  split
  · rfl
  · next c hc => exact hangupFate_congr hc (connections_putConnection_self l fd _) rfl rfl rfl

/-- A client without a job has none when a job of its own is closed. -/
theorem activeCgi_closeCgiJob (h : ∀ (y : ℕ) (j : CgiJob), l.cgiJobs[y]? = some j →
    j.clientFd = fd → y = x) : (l.closeCgiJob x).activeCgi fd = none := by
  refine Table.findKey_eq_none.mpr fun y j hj => decide_eq_false fun hclient => ?_
  rcases eq_or_ne y x with rfl | hne
  · rw [cgiJobs_closeCgiJob_self] at hj
    cases hj
  · rw [cgiJobs_closeCgiJob_ne hne] at hj
    exact hne (h y j hj hclient)

/-- A script that cannot be started is answered with a page. -/
theorem stays_apiStartCgi (info : CgiRequestInfo) (hm : ∀ site x, a.modifies site x = true)
    (hjob : l.activeCgi fd = none) (hfails : ¬ (a.pipe.isSome ∧
      (startCgi a.env.fs a.world c.request c.config info).isSome)) :
    Stays fd (l.apiStartCgi a fd c info) := by
  unfold apiStartCgi
  cases hx : a.pipe with
  | none => exact stays_refuse (hm .answer fd) hjob c 500
  | some x =>
    have hnone : startCgi a.env.fs a.world c.setCgiRunning.request c.setCgiRunning.config info =
        none := by
      rw [hx] at hfails
      exact Option.not_isSome_iff_eq_none.mp fun hstart => hfails ⟨rfl, hstart⟩
    have hjobs : ((l.addCgiJob fd x c a.env.now).rearmAs (a.modifies .run fd) fd
        c.setCgiRunning).cgiJobs = (l.addCgiJob fd x c a.env.now).cgiJobs :=
          cgiJobs_rearmAs _ fd _ _
    have hconn := connections_rearmAs_self (l.addCgiJob fd x c a.env.now) fd c.setCgiRunning
      (a.modifies .run fd)
    dsimp only
    generalize (l.addCgiJob fd x c a.env.now).rearmAs (a.modifies .run fd) fd c.setCgiRunning = l₁
      at hjobs hconn ⊢
    rcases hconn with hconn | ⟨hfalse, -⟩
    · rw [hconn]
      dsimp only
      rw [hnone]
      refine stays_refuse (hm .answer fd) (activeCgi_closeCgiJob fun y j hj hclient => ?_) _ 502
      by_contra hne
      rw [hjobs] at hj
      have hold : l.cgiJobs[y]? = some j := (cgiJobs_putJob_ne _ hne).symm.trans hj
      exact of_decide_eq_false (Table.findKey_eq_none.mp hjob y j hold) hclient
    · rw [hm .run fd] at hfalse
      cases hfalse

/-- A client that reads, and whose reading is not idle, outlives the hang-up that follows. -/
theorem idleRead_of_sameEffect (hc : l.connections[fd]? = some c)
    (hitems : c.writeBuffer.items = []) (hjob : l.activeCgi fd = none)
    (hm : ∀ site x, a.modifies site x = true) (hsame : l.SameEffect a fd true false true) :
    l.IdleRead a fd c := by
  have hcloses : l.HangupCloses fd c := Or.inl hitems
  obtain ⟨hthrew, hfate⟩ := (sameEffect_read_iff hc).mp hsame
  rw [hangupFate_closes hc hcloses] at hfate
  unfold handleRead at hthrew hfate
  rw [hc] at hthrew hfate
  dsimp only at hthrew hfate
  by_cases hstate : c.state = .cgiRunning
  · exact Or.inl hstate
  right
  rw [if_neg hstate] at hthrew hfate
  -- a client that stays is told apart by the hang-up, so this one does not stay
  have hstays : ¬ Stays fd (l.tryRead a fd c) := by
    intro hstays
    rcases hstays.catchTryRead (hm .answer fd) with hthrown | hstands
    · rw [hthrown] at hthrew
      cases hthrew
    · exact hstands hfate
  unfold tryRead at hstays
  cases hread : readLoop a.env c a.recvs with
  | bodyLimit c' =>
    rw [hread] at hstays
    exact hstays (Or.inr ⟨_, c', rfl, connections_putConnection_self l fd c', hjob⟩)
  | ok c' fate =>
    rw [hread] at hstays
    cases fate with
    | nothing => trivial
    | stuck => trivial
    | close => exact hcloses
    | answered =>
      refine hstays (Or.inl ⟨_, rfl, ?_⟩)
      rw [hm .answer fd]
      exact hangupFate_rearmAs hjob (items_of_answered hread)
    | script info =>
      refine ⟨hcloses, ?_⟩
      -- a client whose script is started stays, with its job
      by_contra hfails
      rcases stays_apiStartCgi info hm hjob hfails with
        ⟨l₁, heq, hstands⟩ | ⟨l₁, c₁, heq, hconn, hjob₁⟩
      · refine hstays (Or.inl ⟨l₁.forgetBodyFile fd, ?_, ?_⟩)
        · dsimp only
          rw [heq]
          rfl
        · rw [hangupFate_forgetBodyFile]
          exact hstands
      · refine hstays (Or.inr ⟨l₁, c₁, ?_, hconn, hjob₁⟩)
        dsimp only
        rw [heq]
        rfl

/-- A client whose job has ended outlives the hang-up with what is left to be sent. -/
theorem hangupFate_ended {c' : Connection} (job' : CgiJob)
    (hjobs : ∀ (y : ℕ) (j : CgiJob), l.cgiJobs[y]? = some j → j.clientFd = fd → y = x)
    (hm : ∀ site y, a.modifies site y = true) (hitems : c'.writeBuffer.items ≠ []) :
    ∃ l₁, l.settle a x fd (.ok (c', job') .ended) = .ok l₁ () ∧
      (l₁.afterRelay a fd).hangupFate fd ≠ none := by
  refine ⟨_, rfl, ?_⟩
  rcases connections_rearmAs_self (l.putJob x job') fd c' (a.modifies .relay fd) with
    hconn | ⟨hfalse, -⟩
  · have hnone : (((l.putJob x job').rearmAs (a.modifies .relay fd) fd c').closeCgiJob
        x).activeCgi fd = none := by
      refine activeCgi_closeCgiJob fun y j hj hclient => ?_
      by_contra hne
      rw [cgiJobs_rearmAs, cgiJobs_putJob_ne job' hne] at hj
      exact hne (hjobs y j hj hclient)
    rw [← connections_closeCgiJob _ x] at hconn
    dsimp only
    generalize ((l.putJob x job').rearmAs (a.modifies .relay fd) fd c').closeCgiJob x = l₁
      at hconn hnone ⊢
    rw [afterRelay, hconn]
    dsimp only
    rw [hm .write fd]
    exact hangupFate_rearmAs hnone hitems
  · rw [hm .relay fd] at hfalse
    cases hfalse

/-- A client that is written to, and whose writing is not idle, is sent something or outlives the
hang-up that follows. -/
theorem idleWrite_of_sameEffect {job : Option FiledJob} (hclient : l.HasClient fd c job)
    (hstate : c.state = .writing) (hm : ∀ site x, a.modifies site x = true)
    (hsame : l.SameEffect a fd false true true) : l.IdleWrite a fd c := by
  have hc := hclient.conn
  obtain ⟨hthrew, hfate, htake⟩ := (sameEffect_write_iff hc).mp hsame
  have hnothing : c.writeBuffer.items = [] ∨ (a.takes fd).sum = 0 :=
    (List.take_eq_nil_iff.mp htake).symm
  have hactive := hclient.activeCgi
  unfold IdleWrite
  rw [hactive]
  cases job with
  | none => exact hnothing.imp_right fun hzero => ⟨hzero, hstate, hm .write fd⟩
  | some p =>
    obtain ⟨x, j⟩ := p
    refine ⟨hnothing, fun hroom j' hj' => ?_⟩
    obtain ⟨hfiled, hfd⟩ := hclient.job_filed
    obtain rfl : j' = j := Option.some.inj (hj'.symm.trans hfiled)
    -- nothing is sent, so the job sees the queue as it was
    obtain ⟨hitems, -⟩ := items_sendLoop hnothing
    have hput := connections_putConnection_self l fd (c.sendLoop a.env.now (a.takes fd))
    have hactive' : (l.putConnection fd (c.sendLoop a.env.now (a.takes fd))).activeCgi fd =
        some x := hactive
    have hsize : (c.sendLoop a.env.now (a.takes fd)).writeBuffer.size = c.writeBuffer.size :=
      congrArg List.length hitems
    have hcloses : l.hangupFate fd = none := hangupFate_job (by rw [hactive]; rfl)
    rw [hcloses, handleWrite, hc] at hfate
    rw [handleWrite, hc] at hthrew
    dsimp only at hthrew hfate
    rw [hactive'] at hthrew hfate
    dsimp only at hthrew hfate
    rw [hsize, if_pos hroom] at hthrew hfate
    have hjobs : ∀ (y : ℕ) (k : CgiJob), l.cgiJobs[y]? = some k → k.clientFd = fd → y = x := by
      intro y k hk hkfd
      exact (Prod.mk.inj (Option.some.inj ((hclient.jobs y k).mp ⟨hk, hkfd⟩))).1.symm
    generalize c.sendLoop a.env.now (a.takes fd) = sent at hput hthrew hfate ⊢
    have hconn : ((l.putConnection fd sent).modifyEventFd (a.modifies .pipe x) x
        cgiEvents).connections[fd]? = some sent := by
      rcases connections_modifyEventFd (l.putConnection fd sent) (a.modifies .pipe x)
        x cgiEvents with
        hkept | ⟨hfalse, -⟩
      · rw [hkept]
        exact hput
      · rw [hm .pipe x] at hfalse
        cases hfalse
    have hcgiJobs : ((l.putConnection fd sent).modifyEventFd (a.modifies .pipe x) x
        cgiEvents).cgiJobs = l.cgiJobs := cgiJobs_modifyEventFd _ x cgiEvents _
    generalize (l.putConnection fd sent).modifyEventFd (a.modifies .pipe x) x cgiEvents = l₁
      at hthrew hfate hconn hcgiJobs
    have hevent : l₁.handleCgiEvent a x = l₁.settle a x fd
      (cgiEvent a.env sent j' (a.reads x)) := by
      rw [handleCgiEvent, hcgiJobs, hfiled]
      dsimp only
      rw [hfd, hconn]
    rw [hevent] at hthrew hfate
    cases hcall : cgiEvent a.env sent j' (a.reads x) with
    | bodyLimit s =>
      rw [hcall] at hthrew
      cases hthrew
    | ok s fate =>
      refine ⟨s, fate, ?_, rfl⟩
      -- an end of the job with something queued would let the client stand
      by_contra hended
      rw [not_or, not_not] at hended
      obtain ⟨rfl, hleft⟩ := hended
      rw [hcall] at hfate
      rw [← hcgiJobs] at hjobs
      obtain ⟨l₂, hsettle, hstands⟩ := hangupFate_ended s.2 hjobs hm hleft
      have hsettle' : l₁.settle a x fd (.ok s .ended) = .ok l₂ () := hsettle
      rw [hsettle'] at hfate
      exact hstands hfate

/-! ### Runs -/

/-- A client that reads has nothing to be sent. -/
theorem items_of_reading {listeners : List Listener} (h : Reaches Unclaimed listeners l)
    (hc : l.connections[fd]? = some c) (hstate : c.state = .reading) :
    c.writeBuffer.items = [] := by
  obtain ⟨job, -, hclient⟩ := (h.coherent fun _ _ hP => hP).client fd c hc
  refine h.invariant (I := fun c _ => c.state = .reading → c.writeBuffer.items = [])
    (fun _ _ hP => hP) ?_ ?_ fd c job hclient hstate
  · rintro _ ⟨_, _, _, _, _, rfl⟩ _
    rfl
  · intro l ev fd c job c' job' _ _ _ hI hbecame hreading
    cases hbecame with
    | read hwas _ hread =>
      have hleaves := readLeaves_readLoop ev.answers.env ev.answers.recvs c
      -- an answer that is queued makes the client write
      cases hread with
      | nothing hloop =>
        rw [hloop] at hleaves
        cases hleaves with
        | nothing hrec => exact hrec.queued.trans (hI hwas)
      | stuck hloop =>
        rw [hloop] at hleaves
        cases hleaves with
        | stuck hrec => exact hrec.queued.trans (hI hwas)
      | answered hloop =>
        rw [hloop] at hleaves
        cases hleaves with
        | answered hwriting _ =>
          rw [hwriting] at hreading
          cases hreading
      | started _ _ _ _ => cases hreading
      | refused _ _ _ => cases hreading
    | written _ _ hwritten =>
      cases hwritten with
      | next _ _ _ _ _ => rfl
      | unsent _ _ => cases hreading
      | full _ _ => cases hreading
      | relayed _ _ _ => cases hreading
    | halfClosed _ _ => exact hI hreading
    | @relayed x j _ _ _ hrelayed =>
      have hend := callEnd_cgiEvent ev.answers.env c j (ev.answers.reads x)
      cases hrelayed with
      | ended heq =>
        rw [heq] at hend
        rw [hend.of_ok.writing nofun] at hreading
        cases hreading
      | @goesOn _ fate heq _ =>
        rw [heq] at hend
        by_cases hwait : fate = .wait
        · rw [(hend.of_ok.wait hwait).1] at hreading ⊢
          exact hI hreading
        · rw [hend.of_ok.writing hwait] at hreading
          cases hreading
    | @timedOut x j _ _ hfail =>
      have hend := callEnd_failCgiJob ev.answers.env 504 c j
      rw [hfail] at hend
      rw [hend.of_ok.writing nofun] at hreading
      cases hreading

end

/-! ### A request and a hang-up -/

/-- A client has been accepted. -/
private def onlyAccepted : List Event :=
  [.dispatch 3 { epollIn := true } { quiet 0 with clients := [5] }]

/-- The client sends a request and shuts its side of the connection down. -/
private def lastRequest : KernelAnswers :=
  { quiet 0 with
    recvs := [.data (ascii "GET /a HTTP/1.1\r\nHost: x\r\n\r\n") .none, .eof .none] }

/-- The client goes without a request. -/
private def noRequest : KernelAnswers := { quiet 0 with recvs := [.eof .none] }

/-- A client has been accepted. -/
private def acceptedClient : EventLoop :=
  onlyAccepted.foldl next (start [⟨3, scriptServer 100000⟩])

end EventLoop

end Webserv
