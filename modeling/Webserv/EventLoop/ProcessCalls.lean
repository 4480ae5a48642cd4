import Webserv.EventLoop.IdleTimeout
import Webserv.EventLoop.Processes
import Webserv.EventLoop.Readiness

/-!
# The processes in a run

The calls for processes that an event makes, in their order.  Between two calls any child may end;
a history is a list of calls and ends whose calls are those of the run.

## Main results

* `staffed_run` — **every filed job has a child**, and the books follow the life of every child.
* `destroyed_run` — behind the destructor only the children that were given up are left.
-/

namespace Webserv

open Bytes

/-- The calls of what is done when a call has returned. -/
def Outcome.later {γ : Type} (o : Outcome EventLoop Unit) (calls : EventLoop → List γ) : List γ :=
  match o with
  | .bodyLimit _ => []
  | .ok l _ => calls l

theorem Outcome.later_nil {γ : Type} (o : Outcome EventLoop Unit) :
    o.later (fun _ => ([] : List γ)) = [] := by
  cases o <;> rfl

namespace EventLoop

/-! ### The calls of the handlers -/

/-- The process calls of `closeCgiJob`. -/
def closeCgiJobProcesses (l : EventLoop) (now x : ℕ) : List ProcessCall :=
  match l.cgiJobs[x]? with
  | none => []
  | some _ => [.closed x now]

/-- The process calls when jobs are closed one after another. -/
def closeCgiJobsProcesses (now : ℕ) : List ℕ → EventLoop → List ProcessCall
  | [], _ => []
  | x :: xs, l => l.closeCgiJobProcesses now x ++ closeCgiJobsProcesses now xs (l.closeCgiJob x)

/-- The process calls when a client is closed with its jobs. -/
def closeClientProcesses (l : EventLoop) (now fd : ℕ) : List ProcessCall :=
  closeCgiJobsProcesses now (l.cgiJobs.keysWhere fun job => job.clientFd = fd) l

/-- `_ApiStartCgi`; it goes on with a connection whose mask could not be changed. -/
def apiStartCgiProcesses (l : EventLoop) (a : KernelAnswers) (fd : ℕ) (c : Connection)
    (info : CgiRequestInfo) : List ProcessCall :=
  match a.pipe with
  | none => []
  | some resultFd =>
      let l := (l.addCgiJob fd resultFd c a.env.now).rearmAs (a.modifies .run fd) fd c.setCgiRunning
      match l.connections[fd]? with
      | none => [.freed]
      | some c =>
          match startCgi a.env.fs a.world c.request c.config info with
          | some _ => [.started resultFd]
          | none => l.closeCgiJobProcesses a.env.now resultFd

/-- What `_tryDispatchComplete` does behind `_ApiStartCgi`, which may have freed the connection. -/
def forgetBodyFileProcesses (l : EventLoop) (fd : ℕ) : List ProcessCall :=
  match l.connections[fd]? with
  | none => [.freed]
  | some _ => []

/-- The process calls of what follows a call of the job. -/
def settleProcesses (l : EventLoop) (a : KernelAnswers) (resultFd fd : ℕ) :
    Outcome (Connection × CgiJob) CgiFate → List ProcessCall
  | .ok s .ended =>
      ((l.putJob resultFd s.2).rearmAs (a.modifies .relay fd) fd s.1).closeCgiJobProcesses a.env.now
        resultFd
  | _ => []

/-- The process calls of `_handleCgiEvent`. -/
def handleCgiEventProcesses (l : EventLoop) (a : KernelAnswers) (resultFd : ℕ) :
    List ProcessCall :=
  match l.cgiJobs[resultFd]? with
  | none => []
  | some job =>
      match l.connections[job.clientFd]? with
      | none => l.closeCgiJobProcesses a.env.now resultFd
      | some c => l.settleProcesses a resultFd job.clientFd
          (cgiEvent a.env c job (a.reads resultFd))

/-- The process calls of the `try` block of `_handleRead`. -/
def tryReadProcesses (l : EventLoop) (a : KernelAnswers) (fd : ℕ) (c : Connection) :
    List ProcessCall :=
  match readLoop a.env c a.recvs with
  | .ok c .close => (l.putConnection fd c).closeClientProcesses a.env.now fd
  | .ok c (.script info) => l.apiStartCgiProcesses a fd c info ++
      (l.apiStartCgi a fd c info).later fun l => l.forgetBodyFileProcesses fd
  | _ => []

/-- The process calls of `_handleRead`. -/
def handleReadProcesses (l : EventLoop) (a : KernelAnswers) (fd : ℕ) : List ProcessCall :=
  match l.connections[fd]? with
  | none => []
  | some c => if c.state = .cgiRunning then [] else l.tryReadProcesses a fd c

/-- The process calls of `_handleWrite` behind a block. -/
def afterWriteProcesses (l : EventLoop) (a : KernelAnswers) (fd : ℕ) (c : Connection) :
    List ProcessCall :=
  if c.writeBuffer.isEmpty then
    if !c.peerHalfClosed && c.request.keepAlive then [] else l.closeClientProcesses a.env.now fd
  else []

/-- The process calls of `_handleWrite`. -/
def handleWriteProcesses (l : EventLoop) (a : KernelAnswers) (fd : ℕ) : List ProcessCall :=
  match l.connections[fd]? with
  | none => []
  | some c =>
      let c := c.sendLoop a.env.now (a.takes fd)
      let l := l.putConnection fd c
      match l.activeCgi fd with
      | some resultFd =>
          if c.writeBuffer.size < cgiStreamLwm then
            (l.modifyEventFd (a.modifies .pipe resultFd) resultFd cgiEvents).handleCgiEventProcesses
              a resultFd
          else []
      | none => l.afterWriteProcesses a fd c

/-- The process calls of `_handleClientEvent`. -/
def handleClientEventProcesses (l : EventLoop) (a : KernelAnswers) (fd : ℕ) (events : EpollBits) :
    List ProcessCall :=
  match l.connections[fd]? with
  | none => []
  | some c =>
      if events.epollErr || events.epollHup then l.closeClientProcesses a.env.now fd
      else if events.epollRdhup then
        if c.writeBuffer.isEmpty || (l.activeCgi fd).isSome then
          l.closeClientProcesses a.env.now fd
        else []
      else if events.epollIn then l.handleReadProcesses a fd
      else if events.epollOut then l.handleWriteProcesses a fd
      else []

/-- The process calls of `_dispatch`. -/
def dispatchProcesses (l : EventLoop) (a : KernelAnswers) (fd : ℕ) (events : EpollBits) :
    List ProcessCall :=
  match l.eventRefs[fd]? with
  | none => []
  | some ref =>
      match ref.kind with
      | .invalid => []
      | .server => []
      | .cgi => l.handleCgiEventProcesses a ref.fd
      | .client => l.handleClientEventProcesses a ref.fd events

/-- The process calls of a loop over descriptors. -/
def forEachProcesses (f : EventLoop → ℕ → Outcome EventLoop Unit)
    (calls : EventLoop → ℕ → List ProcessCall) : List ℕ → EventLoop → List ProcessCall
  | [], _ => []
  | fd :: fds, l => calls l fd ++ (f l fd).later (forEachProcesses f calls fds)

/-- The process calls for a client that has timed out. -/
def closeTimedOutClientProcesses (a : KernelAnswers) (l : EventLoop) (fd : ℕ) : List ProcessCall :=
  match l.connections[fd]? with
  | none => []
  | some c =>
      match sendError a.env 408 c with
      | .bodyLimit _ => []
      | .ok c _ => (l.putConnection fd c).handleWriteProcesses a fd ++
          ((l.putConnection fd c).handleWrite a fd).later fun l =>
            l.closeClientProcesses a.env.now fd

/-- The process calls for a script that has timed out. -/
def closeTimedOutCgiJobProcesses (a : KernelAnswers) (l : EventLoop) (resultFd : ℕ) :
    List ProcessCall :=
  match l.cgiJobs[resultFd]? with
  | none => []
  | some job =>
      match l.connections[job.clientFd]? with
      | none => l.closeCgiJobProcesses a.env.now resultFd
      | some c => l.settleProcesses a resultFd job.clientFd (failCgiJob a.env 504 c job)

/-- The sweeps, and `_reapPending` behind them. -/
def sweepProcesses (l : EventLoop) (a : KernelAnswers) : List ProcessCall :=
  let l := { l with staleRefs := [] }
  forEachProcesses (closeTimedOutClient a) (closeTimedOutClientProcesses a)
      (l.getTimedOutFds a.env.now) l ++
    ((l.closeTimedOutClients a).later fun l => forEachProcesses (closeTimedOutCgiJob a)
        (closeTimedOutCgiJobProcesses a) (l.cgiJobs.keysWhere (·.isTimedOut a.env.now)) l ++
      (l.closeTimedOutCgiJobs a).later fun _ => [.reaped a.env.now])

/-- The calls for processes that an event makes. -/
def processCalls (l : EventLoop) : Event → List ProcessCall
  | .dispatch fd events a => l.dispatchProcesses a fd events
  | .sweep a => l.sweepProcesses a

/-- The calls of a run. -/
def runProcesses (l : EventLoop) : List Event → List ProcessCall
  | [] => []
  | ev :: es => l.processCalls ev ++ runProcesses (next l ev) es

/-! ### Histories -/

/-- The books follow the lives of the children, and every filed job has a child. -/
structure Staffed (l : EventLoop) (s : Processes) (life : ℕ → Life) : Prop where
  custody : Custody s s.pendingReap life
  jobs : ∀ x, (∃ pid, s.childPid x = some pid) ↔ ∃ j, l.cgiJobs[x]? = some j

/-- The calls lead from the one loop to the other, whatever children end meanwhile, and the books
follow the lives all along. -/
def Staffs (l : EventLoop) (calls : List ProcessCall) (l' : EventLoop) : Prop :=
  ∀ s life ms, l.Staffed s life → ms.filterMap ProcessMoment.call = calls →
    Run.Meets Processes.step Processes.Lawful s ms →
      Attend s life ms ∧ l'.Staffed (ms.foldl Processes.step s) (livesAfter life ms)

section

variable {l l' l'' : EventLoop} {calls calls' : List ProcessCall} {s : Processes} {life : ℕ → Life}
  {a : KernelAnswers} {fd x : ℕ} {c : Connection}

theorem Staffed.congr (h : l.Staffed s life)
    (hjobs : ∀ x : ℕ, (∃ j, l'.cgiJobs[x]? = some j) ↔ ∃ j, l.cgiJobs[x]? = some j) :
    l'.Staffed s life := ⟨h.custody, fun x => (h.jobs x).trans (hjobs x).symm⟩

theorem Staffed.exits (h : l.Staffed s life) (pid : ℕ) :
    l.Staffed (s.step (.exits pid)) fun p => (life p).step p (.exits pid) :=
  ⟨h.custody.step trivial (by simp), h.jobs⟩

theorem Staffs.trans (h : Staffs l calls l') (h' : Staffs l' calls' l'') :
    Staffs l (calls ++ calls') l'' := by
  intro s life ms hs hms hlawful
  obtain ⟨ms₁, ms₂, rfl, hms₁, hms₂⟩ := List.filterMap_eq_append_iff.mp hms
  obtain ⟨hlawful₁, hlawful₂⟩ := Run.Meets.append_iff.mp hlawful
  obtain ⟨hattend₁, hstaffed₁⟩ := h s life ms₁ hs hms₁ hlawful₁
  obtain ⟨hattend₂, hstaffed₂⟩ := h' _ _ ms₂ hstaffed₁ hms₂ hlawful₂
  have hlives : livesAfter (livesAfter life ms₁) ms₂ = livesAfter life (ms₁ ++ ms₂) :=
    funext fun pid => List.foldl_append.symm
  rw [hlives, ← List.foldl_append] at hstaffed₂
  exact ⟨Attend.append_iff.mpr ⟨hattend₁, hattend₂⟩, hstaffed₂⟩

/-- What is done behind a call. -/
theorem Staffs.andThen {o : Outcome EventLoop Unit} {later : EventLoop → List ProcessCall}
    {f : EventLoop → Unit → Outcome EventLoop Unit} (ho : Staffs l calls o.state)
    (hf : ∀ l' u, o = .ok l' u → Staffs l' (later l') (f l' u).state) :
    Staffs l (calls ++ o.later later) (o.andThen f).state := by
  cases o with
  | bodyLimit l' =>
    rw [Outcome.later, List.append_nil]
    exact ho
  | ok l' u => exact ho.trans (hf l' u rfl)

/-- No call is made; children may end. -/
theorem Staffs.same
    (hjobs : ∀ x : ℕ, (∃ j, l'.cgiJobs[x]? = some j) ↔ ∃ j, l.cgiJobs[x]? = some j) :
    Staffs l [] l' := by
  intro s life ms
  induction ms generalizing s life with
  | nil => exact fun hs _ _ => ⟨hs.custody, hs.congr hjobs⟩
  | cons m ms ih =>
    intro hs hms hlawful
    cases m with
    | exits pid =>
      obtain ⟨hattend, hstaffed⟩ := ih _ _ (hs.exits pid) hms hlawful.2
      exact ⟨⟨hs.custody, hattend⟩, hstaffed⟩
    | started | closed | reaped => cases hms

theorem Staffs.refl (l : EventLoop) : Staffs l [] l := .same fun _ => Iff.rfl

/-- The jobs are those that there were. -/
theorem Staffs.of_eq (hjobs : l'.cgiJobs = l.cgiJobs) : Staffs l [] l' :=
  .same fun x => by rw [hjobs]

/-- **One call**, from what it does. -/
theorem Staffs.call {call : ProcessCall}
    (hcall : ∀ s life m, l.Staffed s life → m.call = some call → s.Lawful m →
      l'.Staffed (s.step m) fun pid => (life pid).step pid m) : Staffs l [call] l' := by
  intro s life ms
  induction ms generalizing s life with
  | nil => exact fun _ hms _ => by cases hms
  | cons m ms ih =>
    intro hs hms hlawful
    cases hm : m.call with
    | none =>
      rw [List.filterMap_cons_none hm] at hms
      cases m with
      | exits pid =>
        obtain ⟨hattend, hstaffed⟩ := ih _ _ (hs.exits pid) hms hlawful.2
        exact ⟨⟨hs.custody, hattend⟩, hstaffed⟩
      | started | closed | reaped => cases hm
    | some call' =>
      rw [List.filterMap_cons_some hm, List.cons.injEq] at hms
      obtain ⟨rfl, hms⟩ := hms
      obtain ⟨hattend, hstaffed⟩ :=
        Staffs.refl l' _ _ ms (hcall s life m hs hm hlawful.1) hms hlawful.2
      exact ⟨⟨hs.custody, hattend⟩, hstaffed⟩

/-! ### Jobs -/

/-- A job that is filed is closed. -/
theorem staffs_closeCgiJob (l : EventLoop) (now x : ℕ) :
    Staffs l (l.closeCgiJobProcesses now x) (l.closeCgiJob x) := by
  unfold closeCgiJobProcesses
  split
  · next hnone =>
    rw [closeCgiJob_of_none hnone]
    exact .refl l
  · next j hj =>
    refine .call fun s life m hs hm _ => ?_
    cases m with
    | closed y now' =>
      cases hm
      refine ⟨hs.custody.step trivial (by simp), fun y => ?_⟩
      obtain ⟨pid, hpid⟩ := (hs.jobs x).mpr ⟨j, hj⟩
      have hbooks : (s.closeCgiJob x now).childPid = Function.update s.childPid x none := by
        unfold Processes.closeCgiJob
        rw [hpid]
        dsimp only
        split <;> rfl
      change (∃ pid, (s.closeCgiJob x now).childPid y = some pid) ↔ _
      rw [hbooks]
      by_cases hy : y = x
      · subst hy
        simp [cgiJobs_closeCgiJob_self]
      · rw [Function.update_of_ne hy, hs.jobs, cgiJobs_closeCgiJob_ne hy]
    | started | reaped | exits => cases hm

theorem staffs_closeCgiJobs (now : ℕ) : ∀ (xs : List ℕ) (l : EventLoop),
    Staffs l (closeCgiJobsProcesses now xs l) (xs.foldl closeCgiJob l) := by
  intro xs
  induction xs with
  | nil => exact .refl
  | cons x xs ih => exact fun l => (staffs_closeCgiJob l now x).trans (ih _)

theorem staffs_closeClient (l : EventLoop) (now fd : ℕ) :
    Staffs l (l.closeClientProcesses now fd) (l.closeClient fd) := by
  have hjobs := staffs_closeCgiJobs now (l.cgiJobs.keysWhere fun job => job.clientFd = fd) l
  have hclose : Staffs (l.closeCgiJobsForClient fd) [] (l.closeClient fd) :=
    .of_eq (by rw [closeClient, cgiJobs_closeConnection, cgiJobs_unregisterEventFd])
  have hboth := hjobs.trans hclose
  rwa [List.append_nil] at hboth

theorem cgiJobs_refuse (l : EventLoop) (a : KernelAnswers) (fd : ℕ) (c : Connection) (code : ℕ) :
    (l.refuse a fd c code).state.cgiJobs = l.cgiJobs := by
  unfold refuse
  cases sendError a.env code c with
  | bodyLimit c' => rfl
  | ok c' u => exact cgiJobs_rearmAs ..

/-- A handler that goes on with a connection that has been freed is in no history. -/
theorem Staffs.freed (h : .freed ∈ calls) : Staffs l calls l' := by
  intro s life ms _ hms _
  rw [← hms, List.mem_filterMap] at h
  obtain ⟨m, -, hm⟩ := h
  cases m <;> cases hm

/-- Without a job there is no child. -/
theorem Staffed.idle (hs : l.Staffed s life) (hnone : l.cgiJobs[x]? = none) :
    s.childPid x = none := by
  by_contra hbusy
  obtain ⟨pid, hpid⟩ := Option.ne_none_iff_exists'.mp hbusy
  obtain ⟨j, hj⟩ := (hs.jobs x).mp ⟨pid, hpid⟩
  rw [hnone] at hj
  cases hj

/-- A job that is closed before its script runs has no child. -/
theorem Staffed.closeIdle (hs : l.Staffed s life) (hnone : l.cgiJobs[x]? = none) (now : ℕ) :
    l.Staffed (s.step (.closed x now)) fun p => (life p).step p (.closed x now) := by
  have hsame : s.closeCgiJob x now = s := by rw [Processes.closeCgiJob, hs.idle hnone]
  refine ⟨hs.custody.step trivial (by simp), fun z => ?_⟩
  change (∃ pid, (s.closeCgiJob x now).childPid z = some pid) ↔ _
  rw [hsame]
  exact hs.jobs z

/-- The job of a script that runs is filed. -/
theorem Staffed.start (hs : l.Staffed s life) {pid : ℕ} (hfree : s.children.child pid = none)
    (hnone : l.cgiJobs[x]? = none) {j : CgiJob} (hjob : l'.cgiJobs[x]? = some j)
    (hother : ∀ y, y ≠ x → l'.cgiJobs[y]? = l.cgiJobs[y]?) :
    l'.Staffed (s.step (.started x pid)) fun p => (life p).step p (.started x pid) := by
  refine ⟨hs.custody.step hfree fun y p hm => ?_, fun y => ?_⟩
  · cases hm
    exact hs.idle hnone
  · change (∃ p, Function.update s.childPid x (some pid) y = some p) ↔ _
    by_cases hy : y = x
    · subst hy
      simp [hjob]
    · rw [Function.update_of_ne hy, hs.jobs, hother y hy]

theorem staffs_apiStartCgi (hpipe : l.FreshPipe a) (fd : ℕ) (c : Connection)
    (info : CgiRequestInfo) :
    Staffs l (l.apiStartCgiProcesses a fd c info) (l.apiStartCgi a fd c info).state := by
  unfold apiStartCgiProcesses apiStartCgi
  cases hx : a.pipe with
  | none => exact .of_eq (cgiJobs_refuse l a fd c 500)
  | some x =>
    obtain ⟨-, hnone⟩ := hpipe x hx
    dsimp only
    have hjob : ((l.addCgiJob fd x c a.env.now).rearmAs (a.modifies .run fd) fd
        c.setCgiRunning).cgiJobs[x]? =
          some (CgiJob.new fd x cgiHeaderBufLimit c.config.timeoutSeconds a.env.now) := by
      rw [cgiJobs_rearmAs]
      exact cgiJobs_putJob_self ..
    have hother : ∀ y, y ≠ x → ((l.addCgiJob fd x c a.env.now).rearmAs (a.modifies .run fd) fd
        c.setCgiRunning).cgiJobs[y]? = l.cgiJobs[y]? := by
      intro y hy
      rw [cgiJobs_rearmAs]
      exact cgiJobs_putJob_ne _ hy
    generalize (l.addCgiJob fd x c a.env.now).rearmAs (a.modifies .run fd) fd c.setCgiRunning = l₁
      at hjob hother ⊢
    cases l₁.connections[fd]? with
    | none => exact .freed List.mem_cons_self
    | some c₁ =>
      dsimp only
      cases startCgi a.env.fs a.world c₁.request c₁.config info with
      | some started =>
        refine .call fun s life m hs hm hlawful => ?_
        cases m with
        | started y pid =>
          cases hm
          exact hs.start hlawful hnone hjob hother
        | closed | reaped | exits => cases hm
      | none =>
        -- the job that is closed has no child
        rw [closeCgiJobProcesses, hjob]
        refine .call fun s life m hs hm _ => ?_
        cases m with
        | closed y now =>
          cases hm
          refine (hs.closeIdle hnone a.env.now).congr fun z => ?_
          rw [cgiJobs_refuse]
          by_cases hz : z = x
          · subst hz
            rw [cgiJobs_closeCgiJob_self, hnone]
          · rw [cgiJobs_closeCgiJob_ne hz, hother z hz]
        | started | reaped | exits => cases hm

theorem staffs_forgetBodyFile (l : EventLoop) (fd : ℕ) :
    Staffs l (l.forgetBodyFileProcesses fd) (l.forgetBodyFile fd) := by
  unfold forgetBodyFileProcesses forgetBodyFile
  cases l.connections[fd]? with
  | none => exact .freed List.mem_cons_self
  | some c => exact .of_eq rfl

/-- A job that is filed anew stays filed. -/
theorem staffs_putJob {j : CgiJob} (hj : l.cgiJobs[x]? = some j) (j' : CgiJob) :
    Staffs l [] (l.putJob x j') := by
  refine .same fun y => ?_
  by_cases hy : y = x
  · subst hy
    simp [hj]
  · rw [cgiJobs_putJob_ne _ hy]

theorem staffs_settle {j : CgiJob} (hj : l.cgiJobs[x]? = some j) (a : KernelAnswers) (fd : ℕ)
    (o : Outcome (Connection × CgiJob) CgiFate) :
    Staffs l (l.settleProcesses a x fd o) (l.settle a x fd o).state := by
  cases o with
  | bodyLimit s =>
    have hput : Staffs l [] (l.putConnection fd s.1) := .of_eq rfl
    exact hput.trans (staffs_putJob (l := l.putConnection fd s.1) hj s.2)
  | ok s fate =>
    have hput := staffs_putJob hj s.2
    have hrearm := hput.trans (.of_eq (cgiJobs_rearmAs (l.putJob x s.2) fd s.1
      (a.modifies .relay fd)))
    cases fate with
    | wait => exact hput.trans (.of_eq rfl)
    | streamed => exact hrearm
    | ended => exact hrearm.trans (staffs_closeCgiJob _ a.env.now x)

theorem staffs_handleCgiEvent (l : EventLoop) (a : KernelAnswers) (x : ℕ) :
    Staffs l (l.handleCgiEventProcesses a x) (l.handleCgiEvent a x).state := by
  unfold handleCgiEventProcesses handleCgiEvent
  cases hj : l.cgiJobs[x]? with
  | none => exact .refl l
  | some j =>
    dsimp only
    cases l.connections[j.clientFd]? with
    | none => exact staffs_closeCgiJob l a.env.now x
    | some c => exact staffs_settle hj a _ _

/-! ### Clients -/

theorem staffs_tryRead (hpipe : l.FreshPipe a) (fd : ℕ) (c : Connection) :
    Staffs l (l.tryReadProcesses a fd c) (l.tryRead a fd c).state := by
  unfold tryReadProcesses tryRead
  cases readLoop a.env c a.recvs with
  | bodyLimit c₁ => exact .of_eq rfl
  | ok c₁ fate =>
    cases fate with
    | nothing => exact .of_eq rfl
    | stuck => exact .of_eq rfl
    | close =>
      have hput : Staffs l [] (l.putConnection fd c₁) := .of_eq rfl
      exact hput.trans (staffs_closeClient _ a.env.now fd)
    | answered => exact .of_eq (cgiJobs_rearmAs ..)
    | script info =>
      apply (staffs_apiStartCgi hpipe fd c₁ info).andThen
      exact fun l' _ _ => staffs_forgetBodyFile l' fd

theorem cgiJobs_catchTryRead (a : KernelAnswers) (fd : ℕ) (o : Outcome EventLoop Unit) :
    (catchTryRead a fd o).state.cgiJobs = o.state.cgiJobs := by
  cases o with
  | ok l u => rfl
  | bodyLimit l =>
    unfold catchTryRead
    dsimp only
    cases l.connections[fd]? with
    | none => rfl
    | some c => exact cgiJobs_refuse l a fd _ 413

theorem staffs_handleRead (hpipe : l.FreshPipe a) (fd : ℕ) :
    Staffs l (l.handleReadProcesses a fd) (l.handleRead a fd).state := by
  unfold handleReadProcesses handleRead
  cases l.connections[fd]? with
  | none => exact .refl l
  | some c =>
    dsimp only
    split
    · exact .refl l
    · have hread := staffs_tryRead hpipe fd c
      have hboth := hread.trans (.of_eq (cgiJobs_catchTryRead a fd _))
      rwa [List.append_nil] at hboth

theorem staffs_afterWrite (l : EventLoop) (a : KernelAnswers) (fd : ℕ) (c : Connection) :
    Staffs l (l.afterWriteProcesses a fd c) (l.afterWrite a fd c) := by
  unfold afterWriteProcesses afterWrite
  split
  · split
    · exact .of_eq (cgiJobs_rearmAs ..)
    · exact staffs_closeClient l a.env.now fd
  · exact .of_eq (cgiJobs_rearmAs ..)

theorem staffs_handleWrite (l : EventLoop) (a : KernelAnswers) (fd : ℕ) :
    Staffs l (l.handleWriteProcesses a fd) (l.handleWrite a fd).state := by
  unfold handleWriteProcesses handleWrite
  cases l.connections[fd]? with
  | none => exact .refl l
  | some c =>
    dsimp only
    generalize c.sendLoop a.env.now (a.takes fd) = c₁
    have hput : Staffs l [] (l.putConnection fd c₁) := .of_eq rfl
    refine hput.trans ?_
    cases (l.putConnection fd c₁).activeCgi fd with
    | none => exact staffs_afterWrite _ a fd c₁
    | some x =>
      dsimp only
      split
      · have hpipe : Staffs (l.putConnection fd c₁) []
            ((l.putConnection fd c₁).modifyEventFd (a.modifies .pipe x) x cgiEvents) :=
          .of_eq (cgiJobs_modifyEventFd ..)
        have hevent := hpipe.trans (staffs_handleCgiEvent _ a x)
        have hnext : ∀ (l' : EventLoop) (u : Unit),
            Staffs l' [] (Outcome.ok (l'.afterRelay a fd) u).state := fun l' _ =>
          .of_eq (cgiJobs_afterRelay l' a fd)
        have hrelay := hevent.andThen fun l' u _ => hnext l' u
        rwa [Outcome.later_nil, List.append_nil] at hrelay
      · exact .of_eq (cgiJobs_afterRelay _ a fd)

theorem staffs_handleClientEvent (hpipe : l.FreshPipe a) (fd : ℕ) (events : EpollBits) :
    Staffs l (l.handleClientEventProcesses a fd events)
      (l.handleClientEvent a fd events).state := by
  unfold handleClientEventProcesses handleClientEvent
  cases l.connections[fd]? with
  | none => exact .refl l
  | some c =>
    dsimp only
    split
    · exact staffs_closeClient l a.env.now fd
    · split
      · split
        · exact staffs_closeClient l a.env.now fd
        · exact .of_eq rfl
      · split
        · exact staffs_handleRead hpipe fd
        · split
          · exact staffs_handleWrite l a fd
          · exact .refl l

/-! ### Events -/

theorem cgiJobs_handleAccept (l : EventLoop) (a : KernelAnswers) (serverFd : ℕ) :
    (l.handleAccept a serverFd).cgiJobs = l.cgiJobs := by
  have hclients : ∀ (server : Server) (clients : List ℕ) (l : EventLoop),
      (clients.foldl (fun l fd => l.addConnection a server fd) l).cgiJobs = l.cgiJobs := by
    intro server clients
    induction clients with
    | nil => exact fun _ => rfl
    | cons fd clients ih => exact fun l => ih (l.addConnection a server fd)
  unfold handleAccept
  split
  · rfl
  · exact hclients ..

theorem staffs_dispatch {events : EpollBits} (hpipe : l.FreshPipe a) :
    Staffs l (l.dispatchProcesses a fd events) (l.dispatch a fd events).state := by
  unfold dispatchProcesses dispatch
  cases l.eventRefs[fd]? with
  | none => exact .refl l
  | some ref =>
    dsimp only
    cases ref.kind with
    | invalid => exact .refl l
    | server => exact .of_eq (cgiJobs_handleAccept l a ref.fd)
    | cgi => exact staffs_handleCgiEvent l a ref.fd
    | client => exact staffs_handleClientEvent hpipe ref.fd events

theorem staffs_closeTimedOutClient (a : KernelAnswers) (l : EventLoop) (fd : ℕ) :
    Staffs l (closeTimedOutClientProcesses a l fd) (closeTimedOutClient a l fd).state := by
  unfold closeTimedOutClientProcesses closeTimedOutClient
  cases l.connections[fd]? with
  | none => exact .refl l
  | some c =>
    dsimp only
    cases sendError a.env 408 c with
    | bodyLimit c₁ => exact .of_eq rfl
    | ok c₁ u =>
      have hput : Staffs l [] (l.putConnection fd c₁) := .of_eq rfl
      refine hput.trans ((staffs_handleWrite _ a fd).andThen ?_)
      exact fun l' _ _ => staffs_closeClient l' a.env.now fd

theorem staffs_closeTimedOutCgiJob (a : KernelAnswers) (l : EventLoop) (x : ℕ) :
    Staffs l (closeTimedOutCgiJobProcesses a l x) (closeTimedOutCgiJob a l x).state := by
  unfold closeTimedOutCgiJobProcesses closeTimedOutCgiJob
  cases hj : l.cgiJobs[x]? with
  | none => exact .refl l
  | some j =>
    dsimp only
    cases l.connections[j.clientFd]? with
    | none => exact staffs_closeCgiJob l a.env.now x
    | some c => exact staffs_settle hj a _ _

theorem staffs_forEach {f : EventLoop → ℕ → Outcome EventLoop Unit}
    {step : EventLoop → ℕ → List ProcessCall} (hf : ∀ l fd, Staffs l (step l fd) (f l fd).state) :
    ∀ (fds : List ℕ) (l : EventLoop),
      Staffs l (forEachProcesses f step fds l) (forEach f fds l).state := by
  intro fds
  induction fds with
  | nil => exact .refl
  | cons fd fds ih =>
    intro l
    apply (hf l fd).andThen
    exact fun l' _ _ => ih l'

theorem staffs_reap (l : EventLoop) (now : ℕ) : Staffs l [.reaped now] l := by
  refine .call fun s life m hs hm _ => ?_
  cases m with
  | reaped now' =>
    cases hm
    refine ⟨hs.custody.step trivial (by simp), fun x => ?_⟩
    rw [← hs.jobs x]
    change (∃ pid, (s.reapPending now).childPid x = some pid) ↔ _
    rw [Processes.childPid_reapPending]
  | started | closed | exits => cases hm

theorem staffs_sweep (l : EventLoop) (a : KernelAnswers) :
    Staffs l (l.sweepProcesses a) (l.sweep a).state := by
  have hstale : Staffs l [] { l with staleRefs := [] } := .of_eq rfl
  have hclients := hstale.trans (staffs_forEach (staffs_closeTimedOutClient a)
    (getTimedOutFds { l with staleRefs := [] } a.env.now) { l with staleRefs := [] })
  apply hclients.andThen
  intro l' _ _
  have hjobs := staffs_forEach (staffs_closeTimedOutCgiJob a)
    (l'.cgiJobs.keysWhere (·.isTimedOut a.env.now)) l'
  change Staffs l' _ (l'.closeTimedOutCgiJobs a).state
  unfold closeTimedOutCgiJobs
  cases ho : forEach (closeTimedOutCgiJob a) (l'.cgiJobs.keysWhere (·.isTimedOut a.env.now)) l' with
  | bodyLimit l₁ =>
    rw [ho] at hjobs
    rw [Outcome.later, List.append_nil]
    exact hjobs
  | ok l₁ u =>
    rw [ho] at hjobs
    exact hjobs.trans (staffs_reap l₁ a.env.now)

/-- **An event** keeps the books. -/
theorem staffs_step {ev : Event} (h : l.Possible ev) :
    Staffs l (l.processCalls ev) (next l ev) := by
  cases ev with
  | dispatch fd events a => exact staffs_dispatch h.2.2
  | sweep a => exact staffs_sweep l a

/-! ### Runs -/

theorem staffs_run : ∀ (es : List Event) (l : EventLoop), Run.Meets next Possible l es →
    Staffs l (l.runProcesses es) (es.foldl next l) := by
  intro es
  induction es with
  | nil => exact fun l _ => .refl l
  | cons ev es ih => exact fun l h => (staffs_step h.1).trans (ih _ h.2)

theorem staffed_start (listeners : List Listener) :
    (start listeners).Staffed .new fun _ => .none := by
  have hservers : ∀ (ls : List Listener) (l : EventLoop),
      (ls.foldl addServerSocket l).cgiJobs = l.cgiJobs := by
    intro ls
    induction ls with
    | nil => exact fun _ => rfl
    | cons listener ls ih => exact fun l => ih (l.addServerSocket listener)
  refine ⟨.new, fun x => ?_⟩
  have hnone : (start listeners).cgiJobs[x]? = none := by
    rw [start, hservers]
    exact Std.TreeMap.getElem?_emptyc
  rw [hnone]
  simp [Processes.new]

/-- The history is one of the run: its calls are those of the run, and the kernel gives no pid
away twice. -/
structure HistoryOf (l : EventLoop) (es : List Event) (ms : List ProcessMoment) : Prop where
  possible : Run.Meets next Possible l es
  calls : ms.filterMap ProcessMoment.call = l.runProcesses es
  lawful : Run.Meets Processes.step Processes.Lawful .new ms

instance (l : EventLoop) (es : List Event) (ms : List ProcessMoment) :
    Decidable (l.HistoryOf es ms) :=
  decidable_of_iff (_ ∧ _ ∧ _) ⟨fun h => ⟨h.1, h.2.1, h.2.2⟩, fun h => ⟨h.1, h.2, h.3⟩⟩

variable {listeners : List Listener} {es : List Event} {ms : List ProcessMoment}

theorem HistoryOf.attends (h : (start listeners).HistoryOf es ms) :
    Attend .new (fun _ => .none) ms ∧ (es.foldl next (start listeners)).Staffed
      (ms.foldl Processes.step .new) (livesAfter (fun _ => .none) ms) :=
  staffs_run es _ h.possible _ _ ms (staffed_start listeners) h.calls h.lawful

/-- **No script is lost sight of.**  In every run, whatever children end between two calls: every
signal and every wait is aimed at a child that has not been waited for; such a child works for one
filed job, is in the list to be reaped, or has been given up; and every filed job has a child. -/
theorem staffed_run (h : (start listeners).HistoryOf es ms) :
    (∀ done, done <+: ms → Custody (done.foldl Processes.step .new)
      (done.foldl Processes.step .new).pendingReap (livesAfter (fun _ => .none) done)) ∧
    ∀ x, (∃ pid c, livesAfter (fun _ => .none) ms pid = .working x c) ↔
      ∃ j, (es.foldl next (start listeners)).cgiJobs[x]? = some j := by
  obtain ⟨hattend, hstaffed⟩ := h.attends
  refine ⟨?_, fun x => ?_⟩
  · rintro done ⟨rest, rfl⟩
    exact (Attend.append_iff.mp hattend).1.last
  · rw [← hstaffed.jobs]
    exact exists_congr fun pid => (hstaffed.custody.job x pid).symm

/-- **Behind the destructor** a child is left when `_reapPending` found it more than a minute after
it was killed, and no other. -/
theorem destroyed_run (h : (start listeners).HistoryOf es ms) :
    ((ms.foldl Processes.step .new).destroy
      (es.foldl next (start listeners)).cgiJobs.keys).children.right = true ∧
    ∀ pid, ((ms.foldl Processes.step .new).destroy
      (es.foldl next (start listeners)).cgiJobs.keys).children.child pid ≠ none ↔
      ∃ before now later since c, ms = before ++ .reaped now :: later ∧
        livesAfter (fun _ => .none) before pid = .pending since c ∧
          since + Processes.reapStaleSeconds < now := by
  obtain ⟨hattend, hstaffed⟩ := h.attends
  have hfiled : ∀ x pid, (ms.foldl Processes.step .new).childPid x = some pid →
      x ∈ (es.foldl next (start listeners)).cgiJobs.keys := by
    intro x pid hpid
    obtain ⟨j, hj⟩ := (hstaffed.jobs x).mp ⟨pid, hpid⟩
    exact Std.TreeMap.mem_keys.mpr (Std.TreeMap.mem_iff_isSome_getElem?.mpr (by rw [hj]; rfl))
  have hdestroyed := hstaffed.custody.destroy hfiled
  refine ⟨hdestroyed.right, fun pid => ?_⟩
  rw [← hattend.givenUp_iff (by simp) h.lawful, hdestroyed.child]
  cases livesAfter (fun _ => .none) ms pid <;> simp [Life.destroyed, Life.child]

end

/-! ### A client that goes -/

/-- A client asks for a script and goes; a minute passes before the next sweep but one. -/
private def abandonedScript : List Event :=
  requestFrom "GET /cgi/x.py HTTP/1.1\r\nHost: x\r\n\r\n" ++
    [.dispatch 5 { epollHup := true } (quiet 1), .sweep (quiet 2), .sweep (quiet 62)]

/-- The child does not end when it is killed. -/
private def stubbornChild : List ProcessMoment :=
  [.started 7 100, .closed 7 1, .reaped 2, .reaped 62]

private theorem historyOf_abandonedScript :
    (start [⟨3, scriptServer 100000⟩]).HistoryOf abandonedScript stubbornChild := by
  decide +kernel

theorem staffed_run_abandonedScript :
    (start [⟨3, scriptServer 100000⟩]).HistoryOf abandonedScript stubbornChild ∧
      ∀ done, done <+: stubbornChild → Custody (done.foldl Processes.step .new)
        (done.foldl Processes.step .new).pendingReap (livesAfter (fun _ => .none) done) :=
  ⟨historyOf_abandonedScript, (staffed_run historyOf_abandonedScript).1⟩

/-- The child is left behind. -/
theorem destroyed_run_abandonedScript :
    ((stubbornChild.foldl Processes.step .new).destroy
      (abandonedScript.foldl next (start [⟨3, scriptServer 100000⟩])).cgiJobs.keys).children.child
        100 ≠ none :=
  ((destroyed_run historyOf_abandonedScript).2 100).mpr
    ⟨[.started 7 100, .closed 7 1, .reaped 2], 62, [], 1, .running, rfl, by decide, by decide⟩

end EventLoop

end Webserv
