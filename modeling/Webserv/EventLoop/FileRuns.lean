import Webserv.EventLoop.FileCalls
import Webserv.EventLoop.Operations

/-!
# The calls for body files in an event

The calls for body files that an event makes, each with the number of the connection it is made
for, and the accounts of all connections.  A loop is `Balanced` when every connection holds what
its account says and nothing else is left.  The handlers keep it as long as every moment is one
that the code is made for: the way to close a connection looks at the descriptor alone, so a
request that has only the name of a file leaves the file behind.

## Main results

* `keeps_step` — **an event keeps the loop balanced**.
-/

namespace Webserv

open Bytes

/-- Calls, with the numbers of the connections. -/
abbrev FileLog := List (ℕ × FileCall)

/-- Every moment in the log is one that the code is made for. -/
def FileLog.Foreseen (log : FileLog) : Prop := ∀ x ∈ log, x.2.Foreseen

instance (log : FileLog) : Decidable log.Foreseen := inferInstanceAs (Decidable (∀ x ∈ log, _))

/-- The calls are made for the connection. -/
def filesOf (c : Connection) (calls : List FileCall) : FileLog :=
  calls.map fun call => (c.connNum, call)

/-- The accounts of all connections, by their numbers. -/
abbrev Accounts := ℕ → Account

/-- The accounts behind the calls. -/
def Accounts.post (accs : Accounts) (log : FileLog) : Accounts :=
  log.foldl (fun accs x => Function.update accs x.1 ((accs x.1).record x.2)) accs

/-- Nothing has been made for any connection. -/
def Accounts.new : Accounts := fun _ => .empty

/-- The calls of `closeConnection`. -/
def closeCalls (req : HttpRequest) : List FileCall :=
  .dropped req ::
    (if 0 < req.openedFile then [.closed req.openedFile, .removed req.tmpBodyPath] else []) ++
      [.ended]

/-- The calls of what is done when a call has returned. -/
def Outcome.behind (o : Outcome EventLoop Unit) (calls : EventLoop → FileLog) : FileLog :=
  match o with
  | .bodyLimit _ => []
  | .ok l _ => calls l

/-- The calls of `HttpRequest::reset`. -/
def resetCalls (req : HttpRequest) : List FileCall := cleanupCalls req ++ [.ended]

namespace EventLoop

/-! ### The calls of the handlers -/

/-- The file calls of `closeConnection`. -/
def closeConnectionFiles (l : EventLoop) (fd : ℕ) : FileLog :=
  match l.connections[fd]? with
  | none => []
  | some c => filesOf c (closeCalls c.request)

/-- The file calls of `modifyEventFd`. -/
def modifyEventFdFiles (l : EventLoop) (modifies : Bool) (fd : ℕ) : FileLog :=
  match l.eventRefs[fd]? with
  | none => []
  | some ref => if ref.kind = .invalid ∨ modifies then [] else l.closeConnectionFiles fd

/-- The file calls when the mask is set for a connection in a new state. -/
def rearmAsFiles (l : EventLoop) (modifies : Bool) (fd : ℕ) (c : Connection) : FileLog :=
  (l.putConnection fd c).modifyEventFdFiles modifies fd

/-- The file calls when an error page is queued. -/
def refuseFiles (l : EventLoop) (a : KernelAnswers) (fd : ℕ) (c : Connection) (code : ℕ) :
    FileLog :=
  match sendError a.env code c with
  | .bodyLimit _ => []
  | .ok c _ => l.rearmAsFiles (a.modifies .answer fd) fd c.setWriting

/-- `_ApiStartCgi`; it goes on with a connection whose mask could not be changed. -/
def apiStartCgiFiles (l : EventLoop) (a : KernelAnswers) (fd : ℕ) (c : Connection)
    (info : CgiRequestInfo) : FileLog :=
  match a.pipe with
  | none => l.refuseFiles a fd c 500
  | some resultFd =>
      let l₁ := l.addCgiJob fd resultFd c a.env.now
      let l₂ := l₁.rearmAs (a.modifies .run fd) fd c.setCgiRunning
      l₁.rearmAsFiles (a.modifies .run fd) fd c.setCgiRunning ++
        match l₂.connections[fd]? with
        | none => [(c.connNum, .freed)]
        | some c =>
            filesOf c (cleanupCalls c.request) ++
              match startCgi a.env.fs a.world c.request c.config info with
              | some _ => []
              | none => (l₂.closeCgiJob resultFd).refuseFiles a fd
                  { c with request := dropBodyFile c.request } 502

/-- What `_tryDispatchComplete` does behind `_ApiStartCgi`, which may have freed the connection. -/
def forgetBodyFileFiles (l : EventLoop) (fd connNum : ℕ) : FileLog :=
  match l.connections[fd]? with
  | none => [(connNum, .freed)]
  | some c => if 0 < c.request.openedFile then filesOf c [.closed c.request.openedFile] else []

/-- The file calls of what follows a call of the job. -/
def settleFiles (l : EventLoop) (a : KernelAnswers) (resultFd fd : ℕ) :
    Outcome (Connection × CgiJob) CgiFate → FileLog
  | .bodyLimit _ => []
  | .ok _ .wait => []
  | .ok s _ => (l.putJob resultFd s.2).rearmAsFiles (a.modifies .relay fd) fd s.1

/-- The file calls of `_handleCgiEvent`. -/
def handleCgiEventFiles (l : EventLoop) (a : KernelAnswers) (resultFd : ℕ) : FileLog :=
  match l.cgiJobs[resultFd]? with
  | none => []
  | some job =>
      match l.connections[job.clientFd]? with
      | none => []
      | some c => l.settleFiles a resultFd job.clientFd (cgiEvent a.env c job (a.reads resultFd))

/-- The file calls of the `try` block of `_handleRead`. -/
def tryReadFiles (l : EventLoop) (a : KernelAnswers) (fd : ℕ) (c : Connection) : FileLog :=
  filesOf c (readCalls a.env c a.recvs) ++
    match readLoop a.env c a.recvs with
    | .bodyLimit _ => []
    | .ok _ .nothing | .ok _ .stuck => []
    | .ok c .close => (l.putConnection fd c).closeConnectionFiles fd
    | .ok c .answered => l.rearmAsFiles (a.modifies .answer fd) fd c
    | .ok c (.script info) => l.apiStartCgiFiles a fd c info ++
        (l.apiStartCgi a fd c info).behind fun l => l.forgetBodyFileFiles fd c.connNum

/-- The file calls of its `catch` block. -/
def catchTryReadFiles (a : KernelAnswers) (fd : ℕ) : Outcome EventLoop Unit → FileLog
  | .ok _ _ => []
  | .bodyLimit l =>
      match l.connections[fd]? with
      | none => []
      | some c => l.refuseFiles a fd (closing c) 413

/-- The file calls of `_handleRead`. -/
def handleReadFiles (l : EventLoop) (a : KernelAnswers) (fd : ℕ) : FileLog :=
  match l.connections[fd]? with
  | none => []
  | some c =>
      if c.state = .cgiRunning then []
      else l.tryReadFiles a fd c ++ catchTryReadFiles a fd (l.tryRead a fd c)

/-- The file calls of `_handleWrite` behind a block. -/
def afterWriteFiles (l : EventLoop) (a : KernelAnswers) (fd : ℕ) (c : Connection) : FileLog :=
  if c.writeBuffer.isEmpty then
    if !c.peerHalfClosed && c.request.keepAlive then
      filesOf c (resetCalls c.request) ++
        l.rearmAsFiles (a.modifies .write fd) fd (c.setReading a.env.now)
    else l.closeConnectionFiles fd
  else l.rearmAsFiles (a.modifies .write fd) fd c.setWriting

/-- The file calls of `_handleWrite` when the script has more output. -/
def afterRelayFiles (l : EventLoop) (a : KernelAnswers) (fd : ℕ) : FileLog :=
  match l.connections[fd]? with
  | none => []
  | some c => l.rearmAsFiles (a.modifies .write fd) fd c.setWriting

/-- The file calls of `_handleWrite`. -/
def handleWriteFiles (l : EventLoop) (a : KernelAnswers) (fd : ℕ) : FileLog :=
  match l.connections[fd]? with
  | none => []
  | some c =>
      let c := c.sendLoop a.env.now (a.takes fd)
      let l := l.putConnection fd c
      match l.activeCgi fd with
      | some resultFd =>
          if c.writeBuffer.size < cgiStreamLwm then
            let l₁ := l.modifyEventFd (a.modifies .pipe resultFd) resultFd cgiEvents
            l.modifyEventFdFiles (a.modifies .pipe resultFd) resultFd ++
              (l₁.handleCgiEventFiles a resultFd ++
                (l₁.handleCgiEvent a resultFd).behind fun l => l.afterRelayFiles a fd)
          else l.afterRelayFiles a fd
      | none => l.afterWriteFiles a fd c

/-- The file calls of `_handleClientEvent`. -/
def handleClientEventFiles (l : EventLoop) (a : KernelAnswers) (fd : ℕ) (events : EpollBits) :
    FileLog :=
  match l.connections[fd]? with
  | none => []
  | some c =>
      if events.epollErr || events.epollHup then l.closeConnectionFiles fd
      else if events.epollRdhup then
        if c.writeBuffer.isEmpty || (l.activeCgi fd).isSome then l.closeConnectionFiles fd else []
      else if events.epollIn then l.handleReadFiles a fd
      else if events.epollOut then l.handleWriteFiles a fd
      else []

/-- The file calls of `_dispatch`. -/
def dispatchFiles (l : EventLoop) (a : KernelAnswers) (fd : ℕ) (events : EpollBits) : FileLog :=
  match l.eventRefs[fd]? with
  | none => []
  | some ref =>
      match ref.kind with
      | .invalid => []
      | .server => []
      | .cgi => l.handleCgiEventFiles a ref.fd
      | .client => l.handleClientEventFiles a ref.fd events

/-- The file calls of a loop over descriptors. -/
def forEachFiles (f : EventLoop → ℕ → Outcome EventLoop Unit) (files : EventLoop → ℕ → FileLog) :
    List ℕ → EventLoop → FileLog
  | [], _ => []
  | fd :: fds, l => files l fd ++ (f l fd).behind (forEachFiles f files fds)

/-- The file calls for a client that has timed out. -/
def closeTimedOutClientFiles (a : KernelAnswers) (l : EventLoop) (fd : ℕ) : FileLog :=
  match l.connections[fd]? with
  | none => []
  | some c =>
      match sendError a.env 408 c with
      | .bodyLimit _ => []
      | .ok c _ => (l.putConnection fd c).handleWriteFiles a fd ++
          ((l.putConnection fd c).handleWrite a fd).behind fun l => l.closeConnectionFiles fd

/-- The file calls for a script that has timed out. -/
def closeTimedOutCgiJobFiles (a : KernelAnswers) (l : EventLoop) (resultFd : ℕ) : FileLog :=
  match l.cgiJobs[resultFd]? with
  | none => []
  | some job =>
      match l.connections[job.clientFd]? with
      | none => []
      | some c => l.settleFiles a resultFd job.clientFd (failCgiJob a.env 504 c job)

/-- The file calls of the end of a round. -/
def sweepFiles (l : EventLoop) (a : KernelAnswers) : FileLog :=
  let l := { l with staleRefs := [] }
  forEachFiles (closeTimedOutClient a) (closeTimedOutClientFiles a)
      (l.getTimedOutFds a.env.now) l ++
    (l.closeTimedOutClients a).behind fun l => forEachFiles (closeTimedOutCgiJob a)
      (closeTimedOutCgiJobFiles a) (l.cgiJobs.keysWhere (·.isTimedOut a.env.now)) l

/-- The calls for body files that an event makes. -/
def files (l : EventLoop) : Event → FileLog
  | .dispatch fd events a => l.dispatchFiles a fd events
  | .sweep a => l.sweepFiles a

/-! ### Accounts -/

section

variable {l l' l'' : EventLoop} {log log' : FileLog} {accs : Accounts} {a : KernelAnswers} {fd : ℕ}
  {c : Connection} {n : ℕ}

theorem post_append (accs : Accounts) (log log' : FileLog) :
    accs.post (log ++ log') = (accs.post log).post log' := List.foldl_append

/-- The calls for one connection change its account. -/
theorem post_filesOf (c : Connection) : ∀ (calls : List FileCall) (accs : Accounts),
    accs.post (filesOf c calls) =
      Function.update accs c.connNum (calls.foldl Account.record (accs c.connNum)) := by
  intro calls
  induction calls with
  | nil => exact fun accs => (Function.update_eq_self c.connNum accs).symm
  | cons call calls ih =>
    intro accs
    have hfirst : accs.post (filesOf c (call :: calls)) = Accounts.post
        (Function.update accs c.connNum ((accs c.connNum).record call)) (filesOf c calls) := rfl
    rw [hfirst, ih, Function.update_self, Function.update_idem, List.foldl_cons]

theorem FileLog.Foreseen.append (h : (log ++ log').Foreseen) : log.Foreseen ∧ log'.Foreseen :=
  List.forall_mem_append.mp h

/-- The calls of a connection are foreseen. -/
theorem foreseen_filesOf {calls : List FileCall} (h : (filesOf c calls).Foreseen) :
    ∀ call ∈ calls, call.Foreseen :=
  fun call hcall => h (c.connNum, call) (List.mem_map_of_mem hcall)

/-- Every connection holds what its account says, and nothing else is left. -/
structure Balanced (l : EventLoop) (accs : Accounts) : Prop where
  filed : ∀ (fd : ℕ) (c : Connection), l.connections[fd]? = some c →
    c.request.Holds (accs c.connNum)
  others : ∀ n, (∀ (fd : ℕ) (c : Connection), l.connections[fd]? = some c → c.connNum ≠ n) →
    accs n = .empty
  below : ∀ (fd : ℕ) (c : Connection), l.connections[fd]? = some c → c.connNum < l.counter
  apart : ∀ (fd fd' : ℕ) (c c' : Connection), l.connections[fd]? = some c →
    l.connections[fd']? = some c' → c.connNum = c'.connNum → fd = fd'

/-- Nothing has gone wrong so far. -/
theorem Balanced.right (h : Balanced l accs) (n : ℕ) : (accs n).right = true := by
  by_cases hfiled : ∃ (fd : ℕ) (c : Connection), l.connections[fd]? = some c ∧ c.connNum = n
  · obtain ⟨fd, c, hc, rfl⟩ := hfiled
    exact (h.filed fd c hc).right
  · rw [h.others n fun fd c hc hn => hfiled ⟨fd, c, hc, hn⟩]
    rfl

/-- The calls lead from one balanced loop to another. -/
def Keeps (l : EventLoop) (log : FileLog) (l' : EventLoop) : Prop :=
  ∀ accs, Balanced l accs → log.Foreseen → Balanced l' (accs.post log)

theorem Keeps.trans (h : Keeps l log l') (h' : Keeps l' log' l'') : Keeps l (log ++ log') l'' := by
  intro accs haccs hlog
  obtain ⟨hfirst, hsecond⟩ := FileLog.Foreseen.append hlog
  rw [post_append]
  exact h' _ (h accs haccs hfirst) hsecond

/-- What is done behind a call. -/
theorem Keeps.andThen {o : Outcome EventLoop Unit} {calls : EventLoop → FileLog}
    {f : EventLoop → Unit → Outcome EventLoop Unit} (ho : Keeps l log o.state)
    (hf : ∀ l' u, o = .ok l' u → Keeps l' (calls l') (f l' u).state) :
    Keeps l (log ++ o.behind calls) (o.andThen f).state := by
  cases o with
  | bodyLimit l' =>
    rw [Outcome.behind, List.append_nil]
    exact ho
  | ok l' u => exact ho.trans (hf l' u rfl)

/-- The connections are as they were. -/
theorem Keeps.same (hconns : ∀ x : ℕ, l'.connections[x]? = l.connections[x]?)
    (hcounter : l'.counter = l.counter) : Keeps l [] l' := by
  intro accs haccs _
  obtain ⟨hfiled, hothers, hbelow, hapart⟩ := haccs
  simp only [← hconns] at hfiled hothers hbelow hapart
  rw [← hcounter] at hbelow
  exact ⟨hfiled, hothers, hbelow, hapart⟩

theorem Keeps.refl (l : EventLoop) : Keeps l [] l := .same (fun _ => rfl) rfl

theorem Keeps.unregister (l : EventLoop) (fd : ℕ) : Keeps l [] (l.unregisterEventFd fd) := by
  refine .same (fun x => by rw [connections_unregisterEventFd]) ?_
  unfold unregisterEventFd
  split <;> rfl

theorem Keeps.closeCgiJob (l : EventLoop) (x : ℕ) : Keeps l [] (l.closeCgiJob x) := by
  refine .same (fun y => by rw [connections_closeCgiJob]) ?_
  unfold EventLoop.closeCgiJob unregisterEventFd
  split
  · rfl
  · split <;> rfl

/-- A connection is filed as it is now. -/
theorem Keeps.file {c' : Connection} {calls : List FileCall} (hc : l.connections[fd]? = some c)
    (hnum : c'.connNum = c.connNum) (hmoves : Moves c.request calls c'.request) :
    Keeps l (filesOf c calls) (l.putConnection fd c') := by
  intro accs haccs hlog
  have hother : ∀ x d, x ≠ fd → l.connections[x]? = some d → d.connNum ≠ c.connNum :=
    fun x d hne hd hsame => hne (haccs.apart x fd d c hd hc hsame)
  -- a connection is the one that was put, or it was there before
  have hcases : ∀ x d, (l.putConnection fd c').connections[x]? = some d →
      (x = fd ∧ d = c') ∨ (x ≠ fd ∧ l.connections[x]? = some d) := by
    intro x d hd
    rcases eq_or_ne x fd with rfl | hne
    · rw [connections_putConnection_self] at hd
      exact Or.inl ⟨rfl, (Option.some.inj hd).symm⟩
    · rw [connections_putConnection_ne c' hne] at hd
      exact Or.inr ⟨hne, hd⟩
  rw [post_filesOf]
  refine ⟨?_, ?_, ?_, ?_⟩
  · intro x d hd
    rcases hcases x d hd with ⟨rfl, rfl⟩ | ⟨hne, hd⟩
    · rw [hnum, Function.update_self]
      exact hmoves _ (haccs.filed x c hc) (foreseen_filesOf hlog)
    · rw [Function.update_of_ne (hother x d hne hd)]
      exact haccs.filed x d hd
  · -- the books of another number do not change
    intro n hn
    have hne : n ≠ c.connNum := by
      rintro rfl
      exact hn fd c' (connections_putConnection_self l fd c') hnum
    rw [Function.update_of_ne hne]
    refine haccs.others n fun x d hd => ?_
    rcases eq_or_ne x fd with rfl | hx
    · rw [hc] at hd
      cases hd
      exact hne.symm
    · exact hn x d ((connections_putConnection_ne c' hx).trans hd)
  · intro x d hd
    rcases hcases x d hd with ⟨rfl, rfl⟩ | ⟨-, hd⟩
    · rw [hnum]
      exact haccs.below x c hc
    · exact haccs.below x d hd
  · intro x y d e hd he hsame
    rcases hcases x d hd with ⟨rfl, rfl⟩ | ⟨hx, hd'⟩
    · rcases hcases y e he with ⟨rfl, -⟩ | ⟨hy, he'⟩
      · rfl
      · exact absurd (hsame.symm.trans hnum) (hother y e hy he')
    · rcases hcases y e he with ⟨rfl, rfl⟩ | ⟨-, he'⟩
      · exact absurd (hsame.trans hnum) (hother x d hx hd')
      · exact haccs.apart x y d e hd' he' hsame

/-- A connection is filed as it is now, and its file has been left alone. -/
theorem Keeps.refile {c' : Connection} (hc : l.connections[fd]? = some c)
    (hnum : c'.connNum = c.connNum) (hmoves : Moves c.request [] c'.request) :
    Keeps l [] (l.putConnection fd c') := .file hc hnum hmoves

/-- Behind `closeConnection` nothing is left. -/
theorem foldl_closeCalls {req : HttpRequest} {acc : Account} (hacc : req.Holds acc)
    (hcalls : ∀ call ∈ closeCalls req, call.Foreseen) :
    (closeCalls req).foldl Account.record acc = .empty := by
  have hdropped : 0 < req.openedFile ∨ req.FileFree := hcalls (.dropped req) List.mem_cons_self
  unfold closeCalls
  rcases hdropped with hopen | hfree
  · have hpath := hacc.named hopen.le
    obtain ⟨files, descriptors, right⟩ := acc
    obtain ⟨hfiles, hdescriptors, hright, -⟩ := hacc
    dsimp only at hfiles hdescriptors hright
    subst hfiles hdescriptors hright
    simp [hopen, hpath, hopen.le.not_gt, Account.record, Account.empty]
  · rw [hacc.eq_empty hfree, if_neg (not_lt.mpr hfree.1.le)]
    rfl

/-- No connection is filed there. -/
theorem Keeps.erase_none (hnone : l.connections[fd]? = none) :
    Keeps l [] (l.closeConnection fd) := by
  refine .same (fun x => ?_) rfl
  rcases eq_or_ne x fd with rfl | hne
  · rw [connections_closeConnection_self, hnone]
  · exact connections_closeConnection_ne hne

/-- A connection goes behind calls that leave nothing. -/
theorem Keeps.erase {calls : List FileCall} (hc : l.connections[fd]? = some c)
    (hcalls : ∀ acc, c.request.Holds acc → (∀ call ∈ calls, call.Foreseen) →
      calls.foldl Account.record acc = .empty) :
    Keeps l (filesOf c calls) (l.closeConnection fd) := by
  intro accs haccs hlog
  have hcases : ∀ (x : ℕ) (d : Connection), (l.closeConnection fd).connections[x]? = some d →
      x ≠ fd ∧ l.connections[x]? = some d := by
    intro x d hd
    have hne : x ≠ fd := by
      rintro rfl
      rw [connections_closeConnection_self] at hd
      cases hd
    rw [connections_closeConnection_ne hne] at hd
    exact ⟨hne, hd⟩
  rw [post_filesOf, hcalls _ (haccs.filed fd c hc) (foreseen_filesOf hlog)]
  refine ⟨?_, ?_, ?_, ?_⟩
  · intro x d hd
    obtain ⟨hne, hd⟩ := hcases x d hd
    rw [Function.update_of_ne fun hsame => hne (haccs.apart x fd d c hd hc hsame)]
    exact haccs.filed x d hd
  · intro n hn
    rcases eq_or_ne n c.connNum with rfl | hne
    · exact Function.update_self ..
    · rw [Function.update_of_ne hne]
      refine haccs.others n fun x d hd => ?_
      rcases eq_or_ne x fd with rfl | hx
      · rw [hc] at hd
        cases hd
        exact hne.symm
      · exact hn x d ((connections_closeConnection_ne hx).trans hd)
  · exact fun x d hd => haccs.below x d (hcases x d hd).2
  · exact fun x y d e hd he => haccs.apart x y d e (hcases x d hd).2 (hcases y e he).2

theorem Keeps.close (l : EventLoop) (fd : ℕ) :
    Keeps l (l.closeConnectionFiles fd) (l.closeConnection fd) := by
  unfold closeConnectionFiles
  split
  · next hnone => exact .erase_none hnone
  · next c hc => exact .erase hc fun _ => foldl_closeCalls

/-- A new connection has made no calls. -/
theorem Keeps.accept (a : KernelAnswers) (server : Server) (hfree : l.connections[fd]? = none) :
    Keeps l [] (l.addConnection a server fd) := by
  intro accs haccs _
  have hnew : ∀ (x : ℕ) (d : Connection), l.connections[x]? = some d → x ≠ fd := by
    rintro x d hd rfl
    rw [hfree] at hd
    cases hd
  have hself : (l.addConnection a server fd).connections[fd]? =
      some (accepted server (l.listeners.map (·.server)) fd l.counter a.env.now) :=
    connections_putConnection_self ..
  have hne : ∀ {x : ℕ}, x ≠ fd →
      (l.addConnection a server fd).connections[x]? = l.connections[x]? :=
    fun hx => connections_putConnection_ne _ hx
  -- the number is new, so nothing has been written about it
  have hempty : accs l.counter = .empty :=
    haccs.others _ fun x d hd => (haccs.below x d hd).ne
  have hcases : ∀ (x : ℕ) (d : Connection), (l.addConnection a server fd).connections[x]? = some d →
      (x = fd ∧ d = accepted server (l.listeners.map (·.server)) fd l.counter a.env.now) ∨
        l.connections[x]? = some d := by
    intro x d hd
    rcases eq_or_ne x fd with rfl | hx
    · rw [hself] at hd
      exact Or.inl ⟨rfl, (Option.some.inj hd).symm⟩
    · rw [hne hx] at hd
      exact Or.inr hd
  refine ⟨?_, ?_, ?_, ?_⟩
  · intro x d hd
    rcases hcases x d hd with ⟨-, rfl⟩ | hd
    · show HttpRequest.Holds _ (accs l.counter)
      rw [hempty]
      exact .of_free ⟨neg_one_lt_zero, rfl⟩
    · exact haccs.filed x d hd
  · intro n hn
    exact haccs.others n fun x d hd => hn x d ((hne (hnew x d hd)).trans hd)
  · intro x d hd
    rcases hcases x d hd with ⟨-, rfl⟩ | hd
    · exact Nat.lt_succ_self _
    · exact Nat.lt_succ_of_lt (haccs.below x d hd)
  · -- two connections of one number: the new one has a number above all others
    intro x y d e hd he hsame
    rcases hcases x d hd with ⟨rfl, rfl⟩ | hd'
    · rcases hcases y e he with ⟨rfl, -⟩ | he'
      · rfl
      · exact absurd hsame.symm (haccs.below y e he').ne
    · rcases hcases y e he with ⟨rfl, rfl⟩ | he'
      · exact absurd hsame (haccs.below x d hd').ne
      · exact haccs.apart x y d e hd' he' hsame

/-- A connection that has been freed is not foreseen. -/
theorem Keeps.freed (h : (n, FileCall.freed) ∈ log) : Keeps l log l' :=
  fun _ _ hlog => (hlog _ h).elim

/-! ### Rearming -/

theorem keeps_modifyEventFd (l : EventLoop) (m : Bool) (fd : ℕ) (events : EpollBits) :
    Keeps l (l.modifyEventFdFiles m fd) (l.modifyEventFd m fd events) := by
  unfold modifyEventFdFiles modifyEventFd
  cases l.eventRefs[fd]? with
  | none => exact .refl l
  | some ref =>
    dsimp only
    by_cases hkind : ref.kind = .invalid
    · rw [if_pos (Or.inl hkind), if_pos hkind]
      exact .refl l
    · cases m with
      | true =>
        rw [if_pos (Or.inr rfl), if_neg hkind]
        exact .same (fun _ => rfl) rfl
      | false =>
        rw [if_neg (by simp [hkind]), if_neg hkind]
        exact .close l fd

theorem keeps_rearmAs {c' : Connection} {calls : List FileCall} (hc : l.connections[fd]? = some c)
    (hnum : c'.connNum = c.connNum) (hmoves : Moves c.request calls c'.request) (m : Bool) :
    Keeps l (filesOf c calls ++ l.rearmAsFiles m fd c') (l.rearmAs m fd c') := by
  refine (Keeps.file hc hnum hmoves).trans ?_
  unfold rearmAsFiles rearmAs rearmClient
  rw [connections_putConnection_self]
  exact keeps_modifyEventFd _ m fd _

theorem keeps_refuse {c' : Connection} {calls : List FileCall} (hc : l.connections[fd]? = some c)
    (hnum : c'.connNum = c.connNum) (hmoves : Moves c.request calls c'.request) (code : ℕ) :
    Keeps l (filesOf c calls ++ l.refuseFiles a fd c' code) (l.refuse a fd c' code).state := by
  have hserves := (serves_sendError a.env code c').connNum.trans hnum
  have hreq := request_sendError a.env code c'
  unfold refuseFiles refuse
  cases herror : sendError a.env code c' with
  | bodyLimit c₁ =>
    rw [herror] at hserves hreq
    rw [List.append_nil]
    have hreq' : c₁.request = c'.request := hreq
    exact .file hc hserves (hreq' ▸ hmoves)
  | ok c₁ u =>
    rw [herror] at hserves hreq
    have hreq' : c₁.setWriting.request = c'.request := hreq
    have hnum' : c₁.setWriting.connNum = c.connNum := hserves
    exact keeps_rearmAs hc hnum' (hreq' ▸ hmoves) _

/-! ### Scripts -/

theorem fileFree_dropBodyFile (req : HttpRequest) : (dropBodyFile req).FileFree := by
  unfold dropBodyFile
  dsimp only
  split
  · exact ⟨neg_one_lt_zero, rfl⟩
  · next hfile => exact ⟨not_le.mp hfile, rfl⟩

theorem keeps_apiStartCgi {c' : Connection} {calls : List FileCall}
    (hc : l.connections[fd]? = some c) (hnum : c'.connNum = c.connNum)
    (hmoves : Moves c.request calls c'.request) (info : CgiRequestInfo) :
    Keeps l (filesOf c calls ++ l.apiStartCgiFiles a fd c' info)
      (l.apiStartCgi a fd c' info).state := by
  unfold apiStartCgiFiles apiStartCgi
  cases a.pipe with
  | none => exact keeps_refuse hc hnum hmoves 500
  | some x =>
    dsimp only
    have hadded : Keeps l [] (l.addCgiJob fd x c' a.env.now) := .same (fun _ => rfl) rfl
    have hfiled : (l.addCgiJob fd x c' a.env.now).connections[fd]? = some c := hc
    have hrunning : c'.setCgiRunning.connNum = c.connNum := hnum
    have hrearm := hadded.trans (keeps_rearmAs hfiled hrunning hmoves (a.modifies .run fd))
    rw [List.nil_append] at hrearm
    rw [← List.append_assoc]
    refine hrearm.trans ?_
    generalize (l.addCgiJob fd x c' a.env.now).rearmAs (a.modifies .run fd) fd c'.setCgiRunning = l₁
    cases hc₁ : l₁.connections[fd]? with
    | none => exact .freed List.mem_cons_self
    | some c₁ =>
      dsimp only
      have hdrop : Moves c₁.request (cleanupCalls c₁.request)
          ({ c₁ with request := dropBodyFile c₁.request } : Connection).request :=
        moves_cleanup (fileFree_dropBodyFile c₁.request)
      have hdropped : ({ c₁ with request := dropBodyFile c₁.request } : Connection).connNum =
          c₁.connNum := rfl
      generalize ({ c₁ with request := dropBodyFile c₁.request } : Connection) = c₂
        at hdrop hdropped ⊢
      cases startCgi a.env.fs a.world c₁.request c₁.config info with
      | some started =>
        rw [List.append_nil]
        exact .file hc₁ hdropped hdrop
      | none =>
        have hc₂ : (l₁.closeCgiJob x).connections[fd]? = some c₁ := by
          rw [connections_closeCgiJob, hc₁]
        exact (Keeps.closeCgiJob l₁ x).trans (keeps_refuse hc₂ hdropped hdrop 502)

/-- The descriptor is closed behind `_ApiStartCgi`, and the name kept. -/
theorem keeps_forgetBodyFile (l : EventLoop) (fd n : ℕ) :
    Keeps l (l.forgetBodyFileFiles fd n) (l.forgetBodyFile fd) := by
  unfold forgetBodyFileFiles forgetBodyFile
  cases hc : l.connections[fd]? with
  | none => exact .freed List.mem_cons_self
  | some c =>
    dsimp only
    split
    · next hopen =>
      refine .file hc rfl fun acc hacc _ => ?_
      obtain ⟨files, descriptors, right⟩ := acc
      obtain ⟨hfiles, hdescriptors, hright, -⟩ := hacc
      dsimp only at hfiles hdescriptors hright
      subst hfiles hdescriptors hright
      refine ⟨?_, ?_, ?_, ?_⟩ <;> simp [hopen.le.not_gt, Account.record]
    · exact .refile hc rfl (.of_eq rfl rfl)

theorem keeps_settle {x : ℕ} {o : Outcome (Connection × CgiJob) CgiFate}
    (hc : l.connections[fd]? = some c) (hnum : o.state.1.connNum = c.connNum)
    (hmoves : Moves c.request [] o.state.1.request) :
    Keeps l (l.settleFiles a x fd o) (l.settle a x fd o).state := by
  cases o with
  | bodyLimit s =>
    exact (Keeps.file hc hnum hmoves).trans (.same (fun _ => rfl) rfl)
  | ok s fate =>
    have hjob : Keeps l [] (l.putJob x s.2) := .same (fun _ => rfl) rfl
    have hrearm := hjob.trans (keeps_rearmAs (l := l.putJob x s.2) hc hnum hmoves
      (a.modifies .relay fd))
    cases fate with
    | wait => exact hjob.trans (.file (l := l.putJob x s.2) hc hnum hmoves)
    | streamed => exact hrearm
    | ended =>
      have hended := hrearm.trans (Keeps.closeCgiJob _ x)
      rw [List.append_nil] at hended
      exact hended

theorem keeps_handleCgiEvent (l : EventLoop) (a : KernelAnswers) (x : ℕ) :
    Keeps l (l.handleCgiEventFiles a x) (l.handleCgiEvent a x).state := by
  unfold handleCgiEventFiles handleCgiEvent
  cases l.cgiJobs[x]? with
  | none => exact .refl l
  | some j =>
    dsimp only
    cases hc : l.connections[j.clientFd]? with
    | none => exact .closeCgiJob l x
    | some c =>
      exact keeps_settle hc (relays_serves.cgiEvent a.env c j (a.reads x)).connNum
        (relays_moves.cgiEvent a.env c j (a.reads x))

/-! ### Clients -/

theorem Keeps.closeCgiJobs : ∀ (ks : List ℕ) (l : EventLoop),
    Keeps l [] (ks.foldl EventLoop.closeCgiJob l) := by
  intro ks
  induction ks with
  | nil => exact .refl
  | cons k ks ih => exact fun l => (Keeps.closeCgiJob l k).trans (ih _)

theorem keeps_closeClient (l : EventLoop) (fd : ℕ) :
    Keeps l (l.closeConnectionFiles fd) (l.closeClient fd) := by
  have hjobs : Keeps l [] (l.closeCgiJobsForClient fd) := .closeCgiJobs _ l
  have hsame : ((l.closeCgiJobsForClient fd).unregisterEventFd fd).closeConnectionFiles fd =
      l.closeConnectionFiles fd := by
    unfold closeConnectionFiles
    rw [connections_unregisterEventFd, closeCgiJobsForClient, connections_closeCgiJobs]
  rw [← hsame]
  exact (hjobs.trans (.unregister _ fd)).trans (.close _ fd)

theorem keeps_tryRead (a : KernelAnswers) (hc : l.connections[fd]? = some c) :
    Keeps l (l.tryReadFiles a fd c) (l.tryRead a fd c).state := by
  have hnum := connNum_readLoop a.env a.recvs c
  have hmoves := moves_readLoop a.env a.recvs c
  unfold tryReadFiles tryRead
  cases hread : readLoop a.env c a.recvs with
  | bodyLimit c₁ =>
    rw [hread] at hnum hmoves
    rw [List.append_nil]
    exact .file hc hnum hmoves
  | ok c₁ fate =>
    rw [hread] at hnum hmoves
    have hfiled := Keeps.file hc hnum hmoves
    cases fate with
    | nothing =>
      rw [List.append_nil]
      exact hfiled
    | stuck =>
      rw [List.append_nil]
      exact hfiled
    | close => exact hfiled.trans (keeps_closeClient _ fd)
    | answered => exact keeps_rearmAs hc hnum hmoves _
    | script info =>
      dsimp only
      rw [← List.append_assoc]
      apply (keeps_apiStartCgi hc hnum hmoves info).andThen
      exact fun l' _ _ => keeps_forgetBodyFile l' fd c₁.connNum

theorem keeps_catchTryRead (a : KernelAnswers) (fd : ℕ) (o : Outcome EventLoop Unit) :
    Keeps o.state (catchTryReadFiles a fd o) (catchTryRead a fd o).state := by
  cases o with
  | ok l u => exact .refl l
  | bodyLimit l =>
    unfold catchTryReadFiles catchTryRead
    dsimp only
    cases hc : l.connections[fd]? with
    | none => exact .refl l
    | some c =>
      have hnum : (closing c).connNum = c.connNum := rfl
      have hmoves : Moves c.request [] (closing c).request := .of_eq rfl rfl
      exact keeps_refuse hc hnum hmoves 413

theorem keeps_handleRead (l : EventLoop) (a : KernelAnswers) (fd : ℕ) :
    Keeps l (l.handleReadFiles a fd) (l.handleRead a fd).state := by
  unfold handleReadFiles handleRead
  cases hc : l.connections[fd]? with
  | none => exact .refl l
  | some c =>
    dsimp only
    split
    · exact .refl l
    · exact (keeps_tryRead a hc).trans (keeps_catchTryRead a fd _)

/-- A request that is reset holds nothing. -/
theorem moves_reset {req req' : HttpRequest} (h : req'.FileFree) :
    Moves req (resetCalls req) req' := (moves_cleanup h).trans (moves_ended h)

theorem keeps_afterWrite (a : KernelAnswers) (hc : l.connections[fd]? = some c) :
    Keeps l (l.afterWriteFiles a fd c) (l.afterWrite a fd c) := by
  unfold afterWriteFiles afterWrite
  split
  · split
    · have hnum : (c.setReading a.env.now).connNum = c.connNum := rfl
      exact keeps_rearmAs hc hnum (moves_reset ⟨neg_one_lt_zero, rfl⟩) _
    · exact keeps_closeClient l fd
  · have hnum : c.setWriting.connNum = c.connNum := rfl
    exact keeps_rearmAs hc hnum (.refl _) _

theorem keeps_afterRelay (l : EventLoop) (a : KernelAnswers) (fd : ℕ) :
    Keeps l (l.afterRelayFiles a fd) (l.afterRelay a fd) := by
  unfold afterRelayFiles afterRelay
  cases hc : l.connections[fd]? with
  | none => exact .refl l
  | some c =>
    have hnum : c.setWriting.connNum = c.connNum := rfl
    exact keeps_rearmAs hc hnum (.refl _) _

/-- What is sent changes nothing but the write buffer and the time. -/
theorem request_sendLoop (now : ℕ) : ∀ (takes : List ℕ) (c : Connection),
    (c.sendLoop now takes).request = c.request := by
  intro takes
  induction takes with
  | nil => exact fun _ => rfl
  | cons n takes ih =>
    intro c
    have hsend : (c.send n now).request = c.request := by
      unfold Connection.send
      split <;> rfl
    rw [Connection.sendLoop]
    split
    · rfl
    · exact (ih _).trans hsend

theorem keeps_handleWrite (l : EventLoop) (a : KernelAnswers) (fd : ℕ) :
    Keeps l (l.handleWriteFiles a fd) (l.handleWrite a fd).state := by
  unfold handleWriteFiles handleWrite
  cases hc : l.connections[fd]? with
  | none => exact .refl l
  | some c =>
    have hnum := (serves_sendLoop a.env.now (a.takes fd) c).connNum
    have hreq := request_sendLoop a.env.now (a.takes fd) c
    dsimp only
    generalize c.sendLoop a.env.now (a.takes fd) = c₁ at hnum hreq ⊢
    have hput : Keeps l [] (l.putConnection fd c₁) :=
      .refile hc hnum (.of_eq (congrArg _ hreq) (congrArg _ hreq))
    refine hput.trans ?_
    cases (l.putConnection fd c₁).activeCgi fd with
    | none => exact keeps_afterWrite a (connections_putConnection_self l fd c₁)
    | some x =>
      dsimp only
      split
      · have hpipe := keeps_modifyEventFd (l.putConnection fd c₁) (a.modifies .pipe x) x cgiEvents
        refine hpipe.trans ((keeps_handleCgiEvent _ a x).andThen ?_)
        exact fun l' _ _ => keeps_afterRelay l' a fd
      · exact keeps_afterRelay _ a fd

theorem keeps_handleClientEvent (l : EventLoop) (a : KernelAnswers) (fd : ℕ) (events : EpollBits) :
    Keeps l (l.handleClientEventFiles a fd events) (l.handleClientEvent a fd events).state := by
  unfold handleClientEventFiles handleClientEvent
  cases hc : l.connections[fd]? with
  | none => exact .refl l
  | some c =>
    dsimp only
    split
    · exact keeps_closeClient l fd
    · split
      · split
        · exact keeps_closeClient l fd
        · have hnum : c.setPeerHalfClosed.connNum = c.connNum := rfl
          exact .refile hc hnum (.refl _)
      · split
        · exact keeps_handleRead l a fd
        · split
          · exact keeps_handleWrite l a fd
          · exact .refl l

/-! ### Events -/

theorem keeps_addConnections {server : Server} : ∀ (clients : List ℕ) (l : EventLoop),
    clients.Nodup → (∀ x ∈ clients, l.connections[x]? = none) →
    Keeps l [] (clients.foldl (fun l fd => l.addConnection a server fd) l) := by
  intro clients
  induction clients with
  | nil => exact fun l _ _ => .refl l
  | cons fd clients ih =>
    intro l hnodup hfree
    obtain ⟨hnotMem, hnodup⟩ := List.nodup_cons.mp hnodup
    refine (Keeps.accept a server (hfree fd List.mem_cons_self)).trans (ih _ hnodup ?_)
    intro x hx
    have hne : x ≠ fd := by
      rintro rfl
      exact hnotMem hx
    exact (connections_putConnection_ne _ hne).trans (hfree x (List.mem_cons_of_mem _ hx))

theorem keeps_handleAccept (hfresh : l.FreshClients a) (serverFd : ℕ) :
    Keeps l [] (l.handleAccept a serverFd) := by
  unfold handleAccept
  split
  · exact .refl l
  · exact keeps_addConnections a.clients l hfresh.1 fun x hx => (hfresh.2 x hx).1

theorem keeps_dispatch {events : EpollBits} (h : l.Possible (.dispatch fd events a)) :
    Keeps l (l.dispatchFiles a fd events) (l.dispatch a fd events).state := by
  unfold dispatchFiles dispatch
  cases l.eventRefs[fd]? with
  | none => exact .refl l
  | some ref =>
    dsimp only
    cases ref.kind with
    | invalid => exact .refl l
    | server => exact keeps_handleAccept h.2.1 ref.fd
    | cgi => exact keeps_handleCgiEvent l a ref.fd
    | client => exact keeps_handleClientEvent l a ref.fd events

theorem keeps_closeTimedOutClient (a : KernelAnswers) (l : EventLoop) (fd : ℕ) :
    Keeps l (closeTimedOutClientFiles a l fd) (closeTimedOutClient a l fd).state := by
  unfold closeTimedOutClientFiles closeTimedOutClient
  cases hc : l.connections[fd]? with
  | none => exact .refl l
  | some c =>
    have hnum := (serves_sendError a.env 408 c).connNum
    have hreq := request_sendError a.env 408 c
    dsimp only
    cases herror : sendError a.env 408 c with
    | bodyLimit c₁ =>
      rw [herror] at hnum hreq
      exact .refile hc hnum (.of_eq (congrArg _ hreq) (congrArg _ hreq))
    | ok c₁ u =>
      rw [herror] at hnum hreq
      have hput : Keeps l [] (l.putConnection fd c₁) :=
        .refile hc hnum (.of_eq (congrArg _ hreq) (congrArg _ hreq))
      refine hput.trans ((keeps_handleWrite _ a fd).andThen ?_)
      exact fun l' _ _ => keeps_closeClient l' fd

theorem keeps_closeTimedOutCgiJob (a : KernelAnswers) (l : EventLoop) (x : ℕ) :
    Keeps l (closeTimedOutCgiJobFiles a l x) (closeTimedOutCgiJob a l x).state := by
  unfold closeTimedOutCgiJobFiles closeTimedOutCgiJob
  cases l.cgiJobs[x]? with
  | none => exact .refl l
  | some j =>
    dsimp only
    cases hc : l.connections[j.clientFd]? with
    | none => exact .closeCgiJob l x
    | some c =>
      exact keeps_settle hc (relays_serves.failCgiJob a.env 504 c j).connNum
        (relays_moves.failCgiJob a.env 504 c j)

theorem keeps_forEach {f : EventLoop → ℕ → Outcome EventLoop Unit} {files : EventLoop → ℕ → FileLog}
    (hf : ∀ l fd, Keeps l (files l fd) (f l fd).state) : ∀ (fds : List ℕ) (l : EventLoop),
      Keeps l (forEachFiles f files fds l) (forEach f fds l).state := by
  intro fds
  induction fds with
  | nil => exact .refl
  | cons fd fds ih =>
    intro l
    apply (hf l fd).andThen
    exact fun l' _ _ => ih l'

theorem keeps_sweep (l : EventLoop) (a : KernelAnswers) :
    Keeps l (l.sweepFiles a) (l.sweep a).state := by
  have hstale : Keeps l [] { l with staleRefs := [] } := .same (fun _ => rfl) rfl
  have hclients := hstale.trans (keeps_forEach (keeps_closeTimedOutClient a)
    (getTimedOutFds { l with staleRefs := [] } a.env.now) { l with staleRefs := [] })
  apply hclients.andThen
  exact fun l' _ _ => keeps_forEach (keeps_closeTimedOutCgiJob a) _ l'

/-- **An event keeps the loop balanced.** -/
theorem keeps_step {ev : Event} (h : l.Possible ev) : Keeps l (l.files ev) (next l ev) := by
  cases ev with
  | dispatch fd events a => exact keeps_dispatch h
  | sweep a => exact keeps_sweep l a

end

end EventLoop

end Webserv
