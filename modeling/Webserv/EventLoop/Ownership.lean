import Webserv.EventLoop.Operations
import Webserv.EventLoop.IdleTimeout

/-!
# Whose output a client is sent

A job knows its client by the descriptor alone, and descriptors come again.  `cgiCalls` are the
calls that an event makes for a job and its client; what such a call queues is to be for the
connection whose request started the job.

## Main results

* `cgiCalls_owned` — **a client is sent the output of its own script**, as long as no client is
  accepted on a descriptor that a job is still filed for.
* `not_owned` — a mask that cannot be changed leaves such a job behind.
-/

namespace Webserv

open Bytes

namespace EventLoop

/-! ### Calls -/

/-- A call for a job and for the client that it finds. -/
structure CgiCall where
  client : Connection
  outcome : Outcome (Connection × CgiJob) CgiFate
  /-- The number of the connection whose request started the job. -/
  starter : ℕ

/-- The call has appended to the write buffer of the client. -/
def CgiCall.Appends (call : CgiCall) : Prop :=
  call.outcome.state.1.writeBuffer.items ≠ call.client.writeBuffer.items

instance (call : CgiCall) : Decidable call.Appends := inferInstanceAs (Decidable (_ ≠ _))

/-- What is appended is for the connection that asked for it. -/
def CgiCall.Owned (call : CgiCall) : Prop :=
  call.Appends → call.client.connNum = call.starter

instance (call : CgiCall) : Decidable call.Owned := inferInstanceAs (Decidable (_ → _))

/-- The call `f` for the job on the pipe `x`, if its client is connected. -/
def callsFor (l : EventLoop) (x : ℕ)
    (f : Connection → CgiJob → Outcome (Connection × CgiJob) CgiFate) : List CgiCall :=
  match l.cgiJobs[x]? with
  | none => []
  | some job =>
      match l.connections[job.clientFd]? with
      | none => []
      | some c => [⟨c, f c job, l.startedBy x⟩]

/-- The calls of `_handleCgiEvent`. -/
def eventCalls (l : EventLoop) (a : KernelAnswers) (x : ℕ) : List CgiCall :=
  l.callsFor x fun c job => cgiEvent a.env c job (a.reads x)

/-- The calls of `_handleWrite`. -/
def writeCalls (l : EventLoop) (a : KernelAnswers) (fd : ℕ) : List CgiCall :=
  match l.connections[fd]? with
  | none => []
  | some c =>
      let c := c.sendLoop a.env.now (a.takes fd)
      let l := l.putConnection fd c
      match l.activeCgi fd with
      | some x =>
          if c.writeBuffer.size < cgiStreamLwm then
            (l.modifyEventFd (a.modifies .pipe x) x cgiEvents).eventCalls a x
          else []
      | none => []

/-- The calls of `_handleClientEvent`: only the writing makes one. -/
def clientCalls (l : EventLoop) (a : KernelAnswers) (fd : ℕ) (events : EpollBits) :
    List CgiCall :=
  if events.epollErr || events.epollHup || events.epollRdhup || events.epollIn then []
  else if events.epollOut then l.writeCalls a fd
  else []

/-- The calls of `_dispatch`. -/
def dispatchCalls (l : EventLoop) (a : KernelAnswers) (fd : ℕ) (events : EpollBits) :
    List CgiCall :=
  match l.eventRefs[fd]? with
  | none => []
  | some ref =>
      match ref.kind with
      | .invalid => []
      | .server => []
      | .cgi => l.eventCalls a ref.fd
      | .client => l.clientCalls a ref.fd events

/-- The calls of a sweep by `f` over some descriptors. -/
def forEachCalls (f : EventLoop → ℕ → Outcome EventLoop Unit)
    (calls : EventLoop → ℕ → List CgiCall) :
    List ℕ → EventLoop → List CgiCall
  | [], _ => []
  | fd :: fds, l =>
      calls l fd ++
        match f l fd with
        | .bodyLimit _ => []
        | .ok l _ => forEachCalls f calls fds l

/-- The calls for a client whose time is up. -/
def timedOutCalls (a : KernelAnswers) (l : EventLoop) (fd : ℕ) : List CgiCall :=
  match l.connections[fd]? with
  | none => []
  | some c =>
      match sendError a.env 408 c with
      | .bodyLimit _ => []
      | .ok c _ => (l.putConnection fd c).writeCalls a fd

/-- The calls of the sweeps. -/
def sweepCalls (l : EventLoop) (a : KernelAnswers) : List CgiCall :=
  let l := { l with staleRefs := [] }
  forEachCalls (closeTimedOutClient a) (timedOutCalls a) (l.getTimedOutFds a.env.now) l ++
    match l.closeTimedOutClients a with
    | .bodyLimit _ => []
    | .ok l _ =>
        forEachCalls (closeTimedOutCgiJob a)
          (fun l x => l.callsFor x fun c job => failCgiJob a.env 504 c job)
          (l.cgiJobs.keysWhere (·.isTimedOut a.env.now)) l

/-- The calls that an event makes for a job. -/
def cgiCalls (l : EventLoop) : Event → List CgiCall
  | .dispatch fd events a => l.dispatchCalls a fd events
  | .sweep a => l.sweepCalls a

/-! ### Owners -/

/-- The client of a job is the one whose request started it. -/
def OwnedJobs (l : EventLoop) : Prop :=
  ∀ (x : ℕ) (j : CgiJob) (c : Connection), l.cgiJobs[x]? = some j →
    l.connections[j.clientFd]? = some c → c.connNum = l.startedBy x

/-- A client is accepted where no job works. -/
def claimFree : Permits where
  drops := True
  starts := True
  admits jobs fd := jobs.findKey (fun job => job.clientFd = fd) = none

section

variable {l l' : EventLoop} {a : KernelAnswers} {fd x : ℕ}

@[simp] theorem startedBy_closeCgiJob (l : EventLoop) (x : ℕ) :
    (l.closeCgiJob x).startedBy = l.startedBy := by
  unfold closeCgiJob unregisterEventFd
  split
  · rfl
  · split <;> rfl

theorem startedBy_closeCgiJobs : ∀ (ks : List ℕ) (l : EventLoop),
    (ks.foldl closeCgiJob l).startedBy = l.startedBy := by
  intro ks
  induction ks with
  | nil => exact fun _ => rfl
  | cons k ks ih => exact fun l => (ih _).trans (startedBy_closeCgiJob l k)

theorem startedBy_closeClient (l : EventLoop) (fd : ℕ) :
    (l.closeClient fd).startedBy = l.startedBy := by
  have hjobs := startedBy_closeCgiJobs (l.cgiJobs.keysWhere fun job => job.clientFd = fd) l
  unfold closeClient unregisterEventFd
  split
  · exact hjobs
  · exact hjobs

/-- A job that is filed after a closing was filed before. -/
theorem cgiJobs_of_closeCgiJob {y : ℕ} {j : CgiJob} (h : (l.closeCgiJob x).cgiJobs[y]? = some j) :
    l.cgiJobs[y]? = some j := by
  rcases eq_or_ne y x with rfl | hne
  · rw [cgiJobs_closeCgiJob_self] at h
    cases h
  · rwa [cgiJobs_closeCgiJob_ne hne] at h

theorem cgiJobs_of_closeClient {j : CgiJob} (h : (l.closeClient fd).cgiJobs[x]? = some j) :
    l.cgiJobs[x]? = some j := by
  rw [closeClient, cgiJobs_closeConnection, cgiJobs_unregisterEventFd, closeCgiJobsForClient,
    cgiJobs_closeCgiJobs] at h
  split at h
  · cases h
  · exact h

theorem connections_of_closeConnection {y : ℕ} {c : Connection}
    (h : (l.closeConnection fd).connections[y]? = some c) : l.connections[y]? = some c := by
  rcases eq_or_ne y fd with rfl | hne
  · rw [connections_closeConnection_self] at h
    cases h
  · rwa [connections_closeConnection_ne hne] at h

theorem connections_of_closeClient {y : ℕ} {c : Connection}
    (h : (l.closeClient fd).connections[y]? = some c) : l.connections[y]? = some c := by
  rcases eq_or_ne y fd with rfl | hne
  · rw [connections_closeClient_self] at h
    cases h
  · rwa [connections_closeClient_ne hne] at h

/-- Nothing is new. -/
theorem OwnedJobs.of_le (hl : l.OwnedJobs)
    (hjobs : ∀ (x : ℕ) (j : CgiJob), l'.cgiJobs[x]? = some j → l.cgiJobs[x]? = some j)
    (hconns : ∀ (y : ℕ) (c : Connection), l'.connections[y]? = some c → l.connections[y]? = some c)
    (hstarted : l'.startedBy = l.startedBy) : l'.OwnedJobs := by
  intro x j c hj hc
  rw [hstarted]
  exact hl x j c (hjobs x j hj) (hconns _ c hc)

/-- **Every operation leaves the jobs to their owners.** -/
theorem OwnedJobs.op (hl : l.OwnedJobs) (h : Op claimFree l l') : l'.OwnedJobs := by
  cases h with
  | @file fd c hfiles =>
    obtain ⟨c₀, hc₀, hnum⟩ := hfiles
    intro x j c' hj hc'
    rcases eq_or_ne j.clientFd fd with heq | hne
    · rw [heq, connections_putConnection_self, Option.some.injEq] at hc'
      rw [← hc', ← hnum]
      exact hl x j c₀ hj (heq ▸ hc₀)
    · rw [connections_putConnection_ne c hne] at hc'
      exact hl x j c' hj hc'
  | mask _ _ => exact hl
  | drop fd _ =>
    exact hl.of_le (fun _ _ h => h) (fun _ _ => connections_of_closeConnection) rfl
  | @fileJob x j j' hj hclient =>
    intro y k c hk hc
    rcases eq_or_ne y x with rfl | hne
    · rw [cgiJobs_putJob_self, Option.some.injEq] at hk
      subst hk
      rw [hclient] at hc
      exact hl y j c hj hc
    · rw [cgiJobs_putJob_ne j' hne] at hk
      exact hl y k c hk hc
  | closeJob x =>
    refine hl.of_le (fun _ _ => cgiJobs_of_closeCgiJob) (fun y c hc => ?_)
      (startedBy_closeCgiJob l x)
    rwa [connections_closeCgiJob] at hc
  | @close fd _ =>
    exact hl.of_le (fun _ _ => cgiJobs_of_closeClient) (fun _ _ => connections_of_closeClient)
      (startedBy_closeClient l fd)
  | @newJob fd x c now _ hfiles _ _ =>
    obtain ⟨c₀, hc₀, hnum⟩ := hfiles
    intro y k c' hk hc'
    rcases eq_or_ne y x with rfl | hne
    · -- the new job is its client's own
      have hk' : CgiJob.new fd y cgiHeaderBufLimit c.config.timeoutSeconds now = k :=
        Option.some.inj ((cgiJobs_putJob_self (l.registerEventFd y .cgi cgiEvents)
          y _).symm.trans hk)
      subst hk'
      have hc₁ : l.connections[fd]? = some c' := hc'
      rw [hc₀, Option.some.injEq] at hc₁
      rw [← hc₁, hnum]
      exact (Function.update_self y c.connNum l.startedBy).symm
    · have hk' : l.cgiJobs[y]? = some k := (cgiJobs_putJob_ne _ hne).symm.trans hk
      have hstarted : (l.addCgiJob fd x c now).startedBy y = l.startedBy y := by
        show Function.update l.startedBy x c.connNum y = l.startedBy y
        exact Function.update_of_ne hne _ _
      exact (hl y k c' hk' hc').trans hstarted.symm
  | @accept fd a server _ _ hadmits =>
    intro y k c' hk hc'
    -- the condition on accepting: no job is left with the descriptor
    have hne : k.clientFd ≠ fd := of_decide_eq_false (Table.findKey_eq_none.mp hadmits y k hk)
    exact hl y k c' hk ((connections_putConnection_ne _ hne).symm.trans hc')
  | forget => exact hl

theorem ownedJobs_start (listeners : List Listener) : (start listeners).OwnedJobs := by
  intro x j c _ hc
  rw [connections_start] at hc
  cases hc

/-! ### Calls of their owners -/

theorem allows_claimFree (a : KernelAnswers) : claimFree.Allows a := fun _ _ _ => trivial

theorem owned_callsFor (hl : l.OwnedJobs) (x : ℕ)
    (f : Connection → CgiJob → Outcome (Connection × CgiJob) CgiFate) :
    ∀ call ∈ l.callsFor x f, call.Owned := by
  intro call hcall
  unfold callsFor at hcall
  split at hcall
  · cases hcall
  · next j hj =>
    split at hcall
    · cases hcall
    · next c hc =>
      rw [List.mem_singleton.mp hcall]
      exact fun _ => hl x j c hj hc

theorem owned_writeCalls (hl : l.OwnedJobs) (a : KernelAnswers) (fd : ℕ) :
    ∀ call ∈ l.writeCalls a fd, call.Owned := by
  unfold writeCalls
  split
  · exact List.forall_mem_nil _
  · next c hc =>
    dsimp only
    split
    · next x _ =>
      split
      · have hsent : l.Files fd (c.sendLoop a.env.now (a.takes fd)).connNum :=
          ⟨c, hc, (serves_sendLoop a.env.now (a.takes fd) c).connNum.symm⟩
        have hput := hl.op (.file hsent)
        have hops := ops_modifyEventFd (p := claimFree) (m := a.modifies .pipe x)
          (l := l.putConnection fd (c.sendLoop a.env.now (a.takes fd)))
            (fun _ => trivial) x cgiEvents
        exact owned_callsFor (Ops.invariant (fun _ _ => OwnedJobs.op) hops hput) x _
      · exact List.forall_mem_nil _
    · exact List.forall_mem_nil _

theorem owned_forEachCalls {f : EventLoop → ℕ → Outcome EventLoop Unit}
    {calls : EventLoop → ℕ → List CgiCall} (hf : ∀ l fd, Ops claimFree l (f l fd).state)
    (hcalls : ∀ l fd, l.OwnedJobs → ∀ call ∈ calls l fd, call.Owned) :
    ∀ (fds : List ℕ) (l : EventLoop), l.OwnedJobs →
      ∀ call ∈ forEachCalls f calls fds l, call.Owned := by
  intro fds
  induction fds with
  | nil => exact fun _ _ => List.forall_mem_nil _
  | cons fd fds ih =>
    intro l hl
    rw [forEachCalls, List.forall_mem_append]
    refine ⟨hcalls l fd hl, ?_⟩
    have hops := Ops.invariant (fun _ _ => OwnedJobs.op) (hf l fd) hl
    split
    · exact List.forall_mem_nil _
    · next l' _ heq =>
      rw [heq] at hops
      exact ih l' hops

theorem owned_timedOutCalls (hl : l.OwnedJobs) (fd : ℕ) :
    ∀ call ∈ timedOutCalls a l fd, call.Owned := by
  unfold timedOutCalls
  split
  · exact List.forall_mem_nil _
  · next c hc =>
    have hnum := (serves_sendError a.env 408 c).connNum
    split
    · exact List.forall_mem_nil _
    · next c' _ herror =>
      rw [herror] at hnum
      exact owned_writeCalls (hl.op (.file ⟨c, hc, hnum.symm⟩)) a fd

theorem owned_sweepCalls (hl : l.OwnedJobs) (a : KernelAnswers) :
    ∀ call ∈ l.sweepCalls a, call.Owned := by
  unfold sweepCalls
  dsimp only
  have hl₀ : OwnedJobs { l with staleRefs := [] } := hl.op .forget
  rw [List.forall_mem_append]
  constructor
  · exact owned_forEachCalls (ops_closeTimedOutClient (allows_claimFree a))
      (fun _ fd h => owned_timedOutCalls h fd) _ _ hl₀
  · have hl₁ := Ops.invariant (fun _ _ => OwnedJobs.op)
      (ops_closeTimedOutClients (allows_claimFree a) { l with staleRefs := [] }) hl₀
    split
    · exact List.forall_mem_nil _
    · next l₁ _ heq =>
      rw [heq] at hl₁
      exact owned_forEachCalls (ops_closeTimedOutCgiJob (allows_claimFree a))
        (fun _ x h => owned_callsFor h x _) _ l₁ hl₁

theorem owned_cgiCalls (hl : l.OwnedJobs) (ev : Event) : ∀ call ∈ l.cgiCalls ev, call.Owned := by
  cases ev with
  | sweep a => exact owned_sweepCalls hl a
  | dispatch fd events a =>
    show ∀ call ∈ l.dispatchCalls a fd events, call.Owned
    unfold dispatchCalls
    split
    · exact List.forall_mem_nil _
    · next ref _ =>
      split
      · exact List.forall_mem_nil _
      · exact List.forall_mem_nil _
      · exact owned_callsFor hl ref.fd _
      · unfold clientCalls
        split
        · exact List.forall_mem_nil _
        · split
          · exact owned_writeCalls hl a ref.fd
          · exact List.forall_mem_nil _

end

/-- **A client is sent the output of its own script**, when no client is accepted on a descriptor
that a job is still filed for. -/
theorem cgiCalls_owned {listeners : List Listener} {l : EventLoop}
    (h : Reaches Unclaimed listeners l) (ev : Event) : ∀ call ∈ l.cgiCalls ev, call.Owned := by
  have hl : l.OwnedJobs := h.kept (p := claimFree) trivial
    (fun _ ev hunclaimed => ⟨allows_claimFree ev.answers, hunclaimed⟩)
    (ownedJobs_start listeners) fun _ _ => OwnedJobs.op
  exact owned_cgiCalls hl ev

/-! ### A descriptor that comes again -/

/-- The script has begun its response. -/
private def begunScript : List Event :=
  requestFrom "GET /cgi/x.py HTTP/1.1\r\nHost: x\r\n\r\n" ++
    [.dispatch 7 { epollIn := true } { quiet 0 with
      reads := fun _ => .data (ascii "A: b\r\n\r\nhello") }]

/-- The script goes on. -/
private def moreOutput : Event :=
  .dispatch 7 { epollIn := true } { quiet 0 with reads := fun _ => .data (ascii "world") }

/-- A server that runs scripts. -/
private def scriptStart : EventLoop := start [⟨3, scriptServer 100000⟩]

theorem cgiCalls_owned_begun :
    (∃ call ∈ (begunScript.foldl next scriptStart).cgiCalls moreOutput, call.Appends) ∧
      ∀ call ∈ (begunScript.foldl next scriptStart).cgiCalls moreOutput, call.Owned :=
  ⟨by decide +kernel, cgiCalls_owned (reaches_of_meets (by decide +kernel)) moreOutput⟩

/-- The client is written to, and its mask cannot be changed; the next client comes on the
descriptor. -/
private def nextClient : List Event :=
  begunScript ++ [
    .dispatch 5 { epollOut := true } { quiet 0 with
      takes := fun _ => [1]
      modifies := fun site _ => site ≠ .write },
    .dispatch 3 { epollIn := true } { quiet 0 with clients := [5] }]

/-- **A client is sent the output of another client's script.** -/
theorem not_owned : ∃ listeners es ev,
    Run.Meets next (Returns fun _ _ => True) (start listeners) es ∧
      (es.foldl next (start listeners)).Possible ev ∧
        ∃ call ∈ (es.foldl next (start listeners)).cgiCalls ev, ¬ call.Owned :=
  ⟨[⟨3, scriptServer 100000⟩], nextClient, moreOutput, by decide +kernel, by decide +kernel,
    by decide +kernel⟩

end EventLoop

end Webserv
