import Mathlib.Logic.Relation
import Webserv.Lib.Run
import Webserv.EventLoop.Steps

/-!
# Runs of the event loop

The kernel reports events of the registered mask and hands out new descriptors.  Under such
events, and as long as no client is accepted on a descriptor that a job is still filed for, the
loop stays coherent, and what becomes of a client in one event is one of a few things: `Became`.

## Main results

* `turns_step` — **what one event does to the clients**.
* `Reaches.coherent` — every state of a run is coherent.
-/

namespace Webserv

open Bytes

/-- The bits of the mask may be reported, and an error or a hang-up at any time. -/
structure EpollBits.Within (events mask : EpollBits) : Prop where
  epollIn : events.epollIn = true → mask.epollIn = true
  epollOut : events.epollOut = true → mask.epollOut = true
  epollRdhup : events.epollRdhup = true → mask.epollRdhup = true

instance (events mask : EpollBits) : Decidable (events.Within mask) :=
  decidable_of_iff ((events.epollIn = true → mask.epollIn = true) ∧
      (events.epollOut = true → mask.epollOut = true) ∧
        (events.epollRdhup = true → mask.epollRdhup = true))
    ⟨fun ⟨h₁, h₂, h₃⟩ => ⟨h₁, h₂, h₃⟩, fun ⟨h₁, h₂, h₃⟩ => ⟨h₁, h₂, h₃⟩⟩

namespace EventLoop

/-- `accept` returns new descriptors. -/
def FreshClients (l : EventLoop) (a : KernelAnswers) : Prop :=
  a.clients.Nodup ∧ ∀ x ∈ a.clients, l.connections[x]? = none ∧ l.cgiJobs[x]? = none

/-- The kernel may report the event, and answer so. -/
def Possible (l : EventLoop) : Event → Prop
  | .dispatch fd events a =>
      (∀ ref ∈ l.eventRefs[fd]?, ref.kind = .client → events.Within ref.events) ∧
        l.FreshClients a ∧ l.FreshPipe a
  | .sweep _ => True

/-- What the system calls answer during the event. -/
def Event.answers : Event → KernelAnswers
  | .dispatch _ _ a => a
  | .sweep a => a

/-- No client is accepted on a descriptor that a job is filed for. -/
def Unclaimed (l : EventLoop) (ev : Event) : Prop :=
  ∀ x ∈ ev.answers.clients, l.activeCgi x = none

instance (l : EventLoop) (a : KernelAnswers) : Decidable (l.FreshClients a) :=
  inferInstanceAs (Decidable (_ ∧ _))

instance (l : EventLoop) (a : KernelAnswers) : Decidable (l.FreshPipe a) :=
  inferInstanceAs (Decidable (∀ x ∈ a.pipe, _ ∧ _))

instance (l : EventLoop) (ev : Event) : Decidable (l.Possible ev) :=
  match ev with
  | .dispatch _ _ _ => inferInstanceAs (Decidable (_ ∧ _))
  | .sweep _ => inferInstanceAs (Decidable True)

instance (l : EventLoop) (ev : Event) : Decidable (l.Unclaimed ev) :=
  inferInstanceAs (Decidable (∀ x ∈ ev.answers.clients, _))

/-- The event says that the client is writable, and nothing else. -/
def Event.WritesTo (fd : ℕ) : Event → Prop
  | .dispatch x events _ => x = fd ∧ events.epollOut = true ∧ events.epollErr = false ∧
      events.epollHup = false ∧ events.epollRdhup = false ∧ events.epollIn = false
  | .sweep _ => False

/-- What an event makes of the client `fd`. -/
inductive Became (ev : Event) (fd : ℕ) (c : Connection) (job : Option FiledJob) :
    Connection → Option FiledJob → Prop
  | read {c' : Connection} {job' : Option FiledJob} : c.state = .reading → job = none →
      HasRead ev.answers c c' job' → Became ev fd c job c' job'
  | written {c' : Connection} {job' : Option FiledJob} : ev.WritesTo fd → c.state = .writing →
      Written ev.answers fd (c.sendLoop ev.answers.env.now (ev.answers.takes fd)) job c' job' →
      Became ev fd c job c' job'
  | halfClosed : job = none → c.writeBuffer.isEmpty = false →
      Became ev fd c job c.setPeerHalfClosed none
  | relayed {x : ℕ} {j : CgiJob} {c' : Connection} {job' : Option FiledJob} : job = some (x, j) →
      Relayed x (cgiEvent ev.answers.env c j (ev.answers.reads x)) c' job' →
      Became ev fd c job c' job'
  | timedOut {x : ℕ} {j : CgiJob} {c' : Connection} : job = some (x, j) →
      failCgiJob ev.answers.env 504 c j = .ok (c', j) .ended → Became ev fd c job c' none

/-- What becomes of a client and its job. -/
abbrev Change := ℕ → Connection → Option FiledJob → Connection → Option FiledJob → Prop

/-- No client is changed. -/
def noChange : Change := fun _ _ _ _ _ => False

/-- What an event makes of the clients: they are as they were, or new, or `R` says what has
become of them. -/
structure Turns (R : Change) (New : Connection → Prop) (l l' : EventLoop) : Prop where
  coherent : l'.Coherent
  client : ∀ (fd : ℕ) (c' : Connection) (job' : Option FiledJob), l'.HasClient fd c' job' →
    l.HasClient fd c' job' ∨ (New c' ∧ job' = none) ∨
      ∃ c job, l.HasClient fd c job ∧ R fd c job c' job'

section

variable {l l' l'' : EventLoop} {a : KernelAnswers} {fd x : ℕ} {c : Connection} {j : CgiJob}
  {job : Option FiledJob}
  {ev : Event} {R : Change} {New : Connection → Prop}

theorem Turns.refl (h : l.Coherent) : Turns R New l l := ⟨h, fun _ _ _ hc => Or.inl hc⟩

/-- A handler of one client. -/
theorem Handles.turns (hl : l.Coherent) (hclient : l.HasClient fd c job)
    (h : Handles fd (fun c' job' => Phase c' job' ∧
      (c' = c ∧ job' = job ∨ R fd c job c' job')) l l') :
    Turns R New l l' where
  coherent := hl.handles (h.mono fun _ _ hR => hR.1)
  client := by
    intro x c' job' hc'
    rcases eq_or_ne x fd with rfl | hne
    · have hconn := hc'.conn
      rcases h.client with hgone | ⟨c₁, job₁, hc₁, -, hR⟩
      · rw [hgone] at hconn
        cases hconn
      · obtain rfl := hc₁.conn_eq hc'
        obtain rfl := hc₁.job_eq hc'
        rcases hR with ⟨rfl, rfl⟩ | hR
        · exact Or.inl hclient
        · exact Or.inr (Or.inr ⟨c, job, hclient, hR⟩)
    · exact Or.inl ((h.serves.spares.hasClient_iff hne).mp hc')

/-! ### Events of one client -/

/-- The phase behind what an event makes of a client. -/
theorem Became.phase {c' : Connection} {job' : Option FiledJob} (h : Became ev fd c job c' job')
    (hphase : Phase c job) : Phase c' job' := by
  cases h with
  | read hstate hjob hread => exact hread.phase hstate
  | written _ hstate hwritten =>
    have hsent := state_sendLoop ev.answers.env.now (ev.answers.takes fd) c
    exact hwritten.phase (hphase.congr hsent) (hsent.trans hstate)
  | halfClosed hjob hbuffer =>
    subst hjob
    exact hphase.congr rfl
  | @relayed x j c' job' hjob hrelayed =>
    subst hjob
    exact hrelayed.phase hphase (callEnd_cgiEvent ev.answers.env c j (ev.answers.reads x))
  | @timedOut x j c' hjob hfail =>
    have hend := callEnd_failCgiJob ev.answers.env 504 c j
    rw [hfail] at hend
    exact .writing (hend.of_ok.writing nofun)

/-- A handler that leaves its client as it was, or makes of it what an event may make of it. -/
theorem Handles.became (hl : l.Coherent) (hclient : l.HasClient fd c job) (hphase : Phase c job)
    (h : Handles fd (fun c' job' => c' = c ∧ job' = job ∨ Became ev fd c job c' job') l l') :
    Turns (Became ev) New l l' := by
  refine Handles.turns hl hclient (h.mono ?_)
  rintro c' job' (⟨rfl, rfl⟩ | hbecame)
  · exact ⟨hphase, Or.inl ⟨rfl, rfl⟩⟩
  · exact ⟨hbecame.phase hphase, Or.inr hbecame⟩

/-- A client's job is one that its phase allows. -/
theorem Phase.job_of_reading (h : Phase c job) (hstate : c.state = .reading) : job = none := by
  cases h with
  | reading _ => rfl
  | writing _ => rfl
  | waiting h _ => rw [hstate] at h; cases h
  | streaming h _ => rw [hstate] at h; cases h

theorem state_of_epollIn {events : EpollBits} (h : events.Within c.buildEpollEvent)
    (hin : events.epollIn = true) : c.state = .reading := by
  have hmask := h.epollIn hin
  unfold Connection.buildEpollEvent at hmask
  cases hstate : c.state <;> rw [hstate] at hmask <;> first | rfl | cases hmask

theorem state_of_epollOut {events : EpollBits} (h : events.Within c.buildEpollEvent)
    (hout : events.epollOut = true) : c.state = .writing := by
  have hmask := h.epollOut hout
  unfold Connection.buildEpollEvent at hmask
  cases hstate : c.state <;> rw [hstate] at hmask <;> first | rfl | cases hmask

theorem handles_clientEvent {events : EpollBits} (hl : l.Sound) (hclient : l.HasClient fd c job)
    (hphase : Phase c job) (hevents : events.Within c.buildEpollEvent) (hpipe : l.FreshPipe a)
    (h : l.handleClientEvent a fd events = .ok l' ()) :
    Handles fd (fun c' job' => c' = c ∧ job' = job ∨
      Became (.dispatch fd events a) fd c job c' job') l l' := by
  unfold handleClientEvent at h
  rw [hclient.conn] at h
  dsimp only at h
  split at h
  · cases h
    exact (handles_closeClient hl hclient).mono fun _ _ => False.elim
  · next hfailed =>
    split at h
    · split at h
      · cases h
        exact (handles_closeClient hl hclient).mono fun _ _ => False.elim
      · next hpending =>
        cases h
        rw [Bool.or_eq_true, not_or, hclient.activeCgi, Option.isSome_map, Bool.not_eq_true,
          Bool.not_eq_true, Option.isSome_eq_false_iff, Option.isNone_iff_eq_none] at hpending
        obtain ⟨hbuffer, rfl⟩ := hpending
        exact ⟨serves_putConnection hl (hl.cgiJobs_eq_none hclient) _,
          Or.inr ⟨_, _, hclient.putConnection rfl, Or.inr (.halfClosed rfl hbuffer)⟩⟩
    · -- the branches in the order of the source: in, then out
      next hopen =>
      split at h
      · next hin =>
        have hstate := state_of_epollIn hevents hin
        obtain rfl := hphase.job_of_reading hstate
        rcases handleRead_cases hl hclient (by rw [hstate]; nofun) hpipe with
          ⟨l₁, heq, hhandles, -⟩ | ⟨l₁, -, heq, -, -⟩
        · rw [heq] at h
          cases h
          exact hhandles.mono fun c' job' hread => Or.inr (.read hstate rfl hread)
        · rw [heq] at h
          cases h
      · next hquiet =>
        split at h
        · next hout =>
          rw [Bool.or_eq_true, not_or, Bool.not_eq_true, Bool.not_eq_true] at hfailed
          refine (handles_write hl hclient h).mono fun c' job' hwritten => Or.inr ?_
          exact .written ⟨rfl, hout, hfailed.1, hfailed.2, Bool.eq_false_iff.mpr hopen,
            Bool.eq_false_iff.mpr hquiet⟩ (state_of_epollOut hevents hout) hwritten
        · cases h
          exact ⟨.refl fd hl, Or.inr ⟨c, job, hclient, Or.inl ⟨rfl, rfl⟩⟩⟩

/-- A client that is gone, whatever was done for it. -/
theorem Serves.turns_gone (hl : l.Coherent) (h : Serves fd l l')
    (hgone : l'.connections[fd]? = none) : Turns R New l l' where
  coherent := hl.handles ⟨h, Or.inl hgone⟩
  client := by
    intro x c' job' hc'
    rcases eq_or_ne x fd with rfl | hne
    · have hconn := hc'.conn
      rw [hgone] at hconn
      cases hconn
    · exact Or.inl ((h.spares.hasClient_iff hne).mp hc')

/-! ### Events of a job -/

/-- The client of a filed job. -/
theorem Coherent.clientOf (hl : l.Coherent) (hj : l.cgiJobs[x]? = some j)
    (hc : l.connections[j.clientFd]? = some c) :
    Phase c (some (x, j)) ∧ l.HasClient j.clientFd c (some (x, j)) := by
  obtain ⟨job, hphase, hclient⟩ := hl.client j.clientFd c hc
  obtain rfl := (hclient.jobs x j).mp ⟨hj, rfl⟩
  exact ⟨hphase, hclient⟩

/-- A job whose client is gone is closed. -/
theorem turns_closeCgiJob (hl : l.Coherent) (hj : l.cgiJobs[x]? = some j)
    (hc : l.connections[j.clientFd]? = none) : Turns R New l (l.closeCgiJob x) := by
  refine (serves_closeCgiJob hl.sound fun k hk => ?_).turns_gone hl
    (by rw [connections_closeCgiJob]; exact hc)
  rw [hj] at hk
  rw [← Option.some.inj hk]

theorem turns_cgiEvent (hl : l.Coherent) (h : l.handleCgiEvent ev.answers x = .ok l' ()) :
    Turns (Became ev) New l l' := by
  cases hj : l.cgiJobs[x]? with
  | none =>
    rw [handleCgiEvent, hj] at h
    cases h
    exact .refl hl
  | some j =>
    cases hc : l.connections[j.clientFd]? with
    | none =>
      rw [handleCgiEvent, hj] at h
      dsimp only at h
      rw [hc] at h
      cases h
      exact turns_closeCgiJob hl hj hc
    | some c =>
      obtain ⟨hphase, hclient⟩ := hl.clientOf hj hc
      refine Handles.became hl hclient hphase ((handles_cgiEvent hl.sound hclient h).mono ?_)
      exact fun c' job' hrelayed => Or.inr (.relayed rfl hrelayed)

/-! ### New clients -/

/-- A connection that a listener has just accepted. -/
def Accepted (c : Connection) : Prop :=
  ∃ listener servers fd connNum now, c = accepted listener servers fd connNum now

theorem handles_addConnection (hl : l.Sound) (hconn : l.connections[fd]? = none)
    (hfd : l.cgiJobs[fd]? = none)
    (hunclaimed : ∀ (y : ℕ) (j : CgiJob), l.cgiJobs[y]? = some j → j.clientFd ≠ fd)
    (a : KernelAnswers) (server : Server) :
    Handles fd (fun c job => Accepted c ∧ job = none) l (l.addConnection a server fd) := by
  have hjob : ∀ (x : ℕ) (job : CgiJob), l.cgiJobs[x]? = some job → x ≠ fd := by
    rintro x job hx rfl
    rw [hfd] at hx
    cases hx
  unfold addConnection
  dsimp only
  set c := accepted server (l.listeners.map (·.server)) fd l.counter a.env.now with hc
  refine ⟨⟨⟨?_, ?_, ?_⟩, ⟨?_, ?_, ?_, ?_⟩, id⟩, Or.inr ⟨c, none, ⟨?_, ?_, ?_⟩, ?_, rfl⟩⟩
  · exact Keyed.registerEventFd hl.keyed fd .client _
  · intro x c' hx
    rcases eq_or_ne x fd with rfl | hne
    · exact hfd
    · exact hl.apart x c' ((connections_putConnection_ne c hne).symm.trans hx)
  · intro x job hx
    obtain ⟨ref, href, hkind⟩ := hl.armed x job hx
    exact ⟨ref, (eventRefs_registerEventFd_ne .client _ (hjob x job hx)).trans href, hkind⟩
  · exact fun x hne => connections_putConnection_ne c hne
  · exact fun x job _ => Iff.rfl
  · exact fun x c' hne _ => eventRefs_registerEventFd_ne .client _ hne
  · exact fun x job _ hx => eventRefs_registerEventFd_ne .client _ (hjob x job hx)
  · exact connections_putConnection_self _ fd c
  · intro x j
    constructor
    · rintro ⟨hj, hclient⟩
      exact absurd hclient (hunclaimed x j hj)
    · nofun
  · exact ⟨_, eventRefs_registerEventFd_self .client _, rfl, rfl⟩
  · exact ⟨server, _, fd, l.counter, a.env.now, hc⟩

theorem turns_addConnections {server : Server} : ∀ (clients : List ℕ) (l : EventLoop),
    l.Coherent → clients.Nodup →
    (∀ x ∈ clients, l.connections[x]? = none ∧ l.cgiJobs[x]? = none) →
    (∀ x ∈ clients, ∀ (y : ℕ) (j : CgiJob), l.cgiJobs[y]? = some j → j.clientFd ≠ x) →
    Turns noChange Accepted l
      (clients.foldl (fun l fd => l.addConnection a server fd) l) := by
  intro clients
  induction clients with
  | nil => exact fun l hl _ _ _ => .refl hl
  | cons fd clients ih =>
    intro l hl hnodup hfresh hunclaimed
    obtain ⟨hconn, hfd⟩ := hfresh fd List.mem_cons_self
    obtain ⟨hnotMem, hnodup⟩ := List.nodup_cons.mp hnodup
    have hfirst := handles_addConnection hl.sound hconn hfd (hunclaimed fd List.mem_cons_self) a
      server
    have hl' : (l.addConnection a server fd).Coherent := by
      refine hl.handles (hfirst.mono ?_)
      rintro c job ⟨⟨_, _, _, _, _, rfl⟩, rfl⟩
      exact .reading rfl
    have hrest := ih (l.addConnection a server fd) hl' hnodup
      (fun x hx => by
        have hne : x ≠ fd := by
          rintro rfl
          exact hnotMem hx
        rw [hfirst.serves.spares.connections x hne]
        exact hfresh x (List.mem_cons_of_mem _ hx))
      (fun x hx => hunclaimed x (List.mem_cons_of_mem _ hx))
    refine ⟨hrest.coherent, ?_⟩
    intro x c' job' hc'
    rcases hrest.client x c' job' hc' with hsame | hnew | ⟨_, _, -, ⟨⟩⟩
    · rcases eq_or_ne x fd with rfl | hne
      · rcases hfirst.client with hgone | ⟨c₁, job₁, hc₁, hnew, rfl⟩
        · have hconn' := hsame.conn
          rw [hgone] at hconn'
          cases hconn'
        · obtain rfl := hc₁.conn_eq hsame
          exact Or.inr (Or.inl ⟨hnew, hc₁.job_eq hsame⟩)
      · exact Or.inl ((hfirst.serves.spares.hasClient_iff hne).mp hsame)
    · exact Or.inr (Or.inl hnew)

/-- Where nothing was changed, nothing has been changed in any way. -/
theorem Turns.of_noChange (h : Turns noChange New l l') : Turns R New l l' :=
  ⟨h.coherent, fun fd c' job' hc' => (h.client fd c' job' hc').imp_right fun h =>
    h.imp_right fun ⟨_, _, _, hR⟩ => hR.elim⟩

theorem turns_accept {serverFd : ℕ} (hl : l.Coherent) (hfresh : l.FreshClients a)
    (hunclaimed : ∀ x ∈ a.clients, l.activeCgi x = none) :
    Turns R Accepted l (l.handleAccept a serverFd) := by
  have hnone : ∀ x ∈ a.clients, ∀ (y : ℕ) (j : CgiJob), l.cgiJobs[y]? = some j → j.clientFd ≠ x :=
    fun x hx y j hj => of_decide_eq_false (Table.findKey_eq_none.mp (hunclaimed x hx) y j hj)
  unfold handleAccept
  split
  · exact .refl hl
  · exact (turns_addConnections a.clients l hl hfresh.1 hfresh.2 hnone).of_noChange

/-! ### Dispatching -/

theorem turns_dispatch {events : EpollBits} (hl : l.Coherent)
    (hpossible : l.Possible (.dispatch fd events a))
    (hunclaimed : l.Unclaimed (.dispatch fd events a))
    (h : l.dispatch a fd events = .ok l' ()) :
    Turns (Became (.dispatch fd events a)) Accepted l l' := by
  obtain ⟨hwithin, hfresh, hpipe⟩ := hpossible
  unfold dispatch at h
  cases href : l.eventRefs[fd]? with
  | none =>
    rw [href] at h
    cases h
    exact .refl hl
  | some ref =>
    rw [href] at h
    dsimp only at h
    have hkey := hl.sound.keyed fd ref href
    cases hkind : ref.kind with
    | invalid =>
      rw [hkind] at h
      cases h
      exact .refl hl
    | server =>
      rw [hkind] at h
      cases h
      exact turns_accept hl hfresh hunclaimed
    | cgi =>
      rw [hkind] at h
      exact turns_cgiEvent hl h
    | client =>
      rw [hkind, hkey] at h
      dsimp only at h
      cases hc : l.connections[fd]? with
      | none =>
        rw [handleClientEvent, hc] at h
        cases h
        exact .refl hl
      | some c =>
        -- the events are within the mask, which is that of the client's state
        obtain ⟨job, hphase, hclient⟩ := hl.client fd c hc
        obtain ⟨ref', href', hkind', hmask⟩ := hclient.armed
        have hevents : events.Within c.buildEpollEvent := by
          rw [← hmask]
          exact hwithin ref' href' hkind'
        exact Handles.became hl hclient hphase
          (handles_clientEvent hl.sound hclient hphase hevents hpipe h)

/-! ### The sweeps -/

/-- A client is written to for the last time. -/
theorem serves_closeTimedOutClient (hl : l.Sound) (hclient : l.HasClient fd c job)
    (h : closeTimedOutClient a l fd = .ok l' ()) :
    Serves fd l l' ∧ l'.connections[fd]? = none := by
  unfold closeTimedOutClient at h
  rw [hclient.conn] at h
  dsimp only at h
  cases herror : sendError a.env 408 c with
  | bodyLimit c₁ =>
    rw [herror] at h
    cases h
  | ok c₁ u =>
    rw [herror] at h
    dsimp only at h
    have hfd := hl.cgiJobs_eq_none hclient
    have hput := serves_putConnection hl hfd c₁
    have hevents : c₁.buildEpollEvent = c.buildEpollEvent := by
      rw [eq_of_sendError_ok herror]
      rfl
    cases hwrite : (l.putConnection fd c₁).handleWrite a fd with
    | bodyLimit l₁ =>
      rw [hwrite] at h
      cases h
    | ok l₁ u =>
      rw [hwrite] at h
      cases h
      have hwritten := hput.trans (handles_write hput.sound (hclient.putConnection hevents)
        hwrite).serves
      exact ⟨hwritten.trans (serves_closeClient hwritten.sound (hwritten.noPipe hfd)),
        connections_closeClient_self l₁ fd⟩

theorem turns_closeTimedOutClient (hl : l.Coherent) (h : closeTimedOutClient a l fd = .ok l' ()) :
    Turns noChange (fun _ => False) l l' := by
  cases hc : l.connections[fd]? with
  | none =>
    rw [closeTimedOutClient, hc] at h
    cases h
    exact .refl hl
  | some c =>
    obtain ⟨job, -, hclient⟩ := hl.client fd c hc
    obtain ⟨hserves, hgone⟩ := serves_closeTimedOutClient hl.sound hclient h
    exact hserves.turns_gone hl hgone

/-- A sweep that closes clients and does nothing else. -/
theorem turns_forEach_close {f : EventLoop → ℕ → Outcome EventLoop Unit}
    (hf : ∀ l l' fd, l.Coherent → f l fd = .ok l' () →
      Turns noChange (fun _ => False) l l') :
    ∀ (fds : List ℕ) (l l' : EventLoop), l.Coherent → forEach f fds l = .ok l' () →
      Turns noChange (fun _ => False) l l' := by
  intro fds
  induction fds with
  | nil =>
    intro l l' hl h
    cases h
    exact .refl hl
  | cons fd fds ih =>
    intro l l' hl h
    rw [forEach] at h
    cases hfirst : f l fd with
    | bodyLimit l₁ =>
      rw [hfirst] at h
      cases h
    | ok l₁ u =>
      rw [hfirst] at h
      have hturns := hf l l₁ fd hl hfirst
      have hrest := ih l₁ l' hturns.coherent h
      refine ⟨hrest.coherent, ?_⟩
      intro x c' job' hc'
      rcases hrest.client x c' job' hc' with hsame | ⟨⟨⟩, -⟩ | ⟨_, _, -, ⟨⟩⟩
      exact hturns.client x c' job' hsame

/-- What the sweep over the jobs makes of a client that has one. -/
inductive Expired (a : KernelAnswers) (fd : ℕ) (c : Connection) :
    Option FiledJob → Connection → Option FiledJob → Prop
  | mk {x : ℕ} {j : CgiJob} {c' : Connection} : failCgiJob a.env 504 c j = .ok (c', j) .ended →
      Expired a fd c (some (x, j)) c' none

theorem turns_closeTimedOutCgiJob (hl : l.Coherent) (h : closeTimedOutCgiJob a l x = .ok l' ()) :
    Turns (Expired a) (fun _ => False) l l' := by
  cases hj : l.cgiJobs[x]? with
  | none =>
    rw [closeTimedOutCgiJob, hj] at h
    cases h
    exact .refl hl
  | some j =>
    cases hc : l.connections[j.clientFd]? with
    | none =>
      rw [closeTimedOutCgiJob, hj] at h
      dsimp only at h
      rw [hc] at h
      cases h
      exact turns_closeCgiJob hl hj hc
    | some c =>
      obtain ⟨hphase, hclient⟩ := hl.clientOf hj hc
      have hend := callEnd_failCgiJob a.env 504 c j
      rw [closeTimedOutCgiJob, hj] at h
      dsimp only at h
      rw [hc] at h
      refine Handles.turns hl hclient ((handles_settle hl.sound hclient hend h).mono ?_)
      intro c' job' hrelayed
      refine ⟨hrelayed.phase hphase hend, Or.inr ?_⟩
      rcases over_failCgiJob a.env 504 c j with ⟨c₁, hover⟩ | ⟨c₁, hover⟩
      · cases hrelayed with
        | goesOn heq hfate =>
          rw [hover] at heq
          cases heq
          exact absurd rfl hfate
        | ended heq =>
          rw [hover] at heq
          cases heq
          exact .mk hover
      · cases hrelayed with
        | goesOn heq _ => rw [hover] at heq; cases heq
        | ended heq => rw [hover] at heq; cases heq

/-- The sweep over the jobs: a client has one job, and is met once. -/
theorem turns_closeTimedOutCgiJobs : ∀ (xs : List ℕ) (l l' : EventLoop), l.Coherent →
    forEach (closeTimedOutCgiJob a) xs l = .ok l' () →
      Turns (Expired a) (fun _ => False) l l' := by
  intro xs
  induction xs with
  | nil =>
    intro l l' hl h
    cases h
    exact .refl hl
  | cons x xs ih =>
    intro l l' hl h
    rw [forEach] at h
    cases hfirst : closeTimedOutCgiJob a l x with
    | bodyLimit l₁ =>
      rw [hfirst] at h
      cases h
    | ok l₁ u =>
      rw [hfirst] at h
      have hturns := turns_closeTimedOutCgiJob hl hfirst
      have hrest := ih l₁ l' hturns.coherent h
      refine ⟨hrest.coherent, ?_⟩
      intro fd c' job' hc'
      rcases hrest.client fd c' job' hc' with hsame | ⟨⟨⟩, -⟩ | ⟨c, job, hc, hexpired⟩
      · exact hturns.client fd c' job' hsame
      · -- it has a job now, so it was not the job's end that made it what it is
        rcases hturns.client fd c job hc with hsame | ⟨⟨⟩, -⟩ | ⟨c₀, job₀, -, hexpired₀⟩
        · exact Or.inr (Or.inr ⟨c, job, hsame, hexpired⟩)
        · cases hexpired₀
          cases hexpired

/-- The stale references are no part of it. -/
theorem Coherent.dropStale (hl : l.Coherent) : Coherent { l with staleRefs := [] } where
  sound := ⟨hl.sound.keyed, hl.sound.apart, hl.sound.armed⟩
  client := by
    intro fd c hc
    obtain ⟨job, hphase, hclient⟩ := hl.client fd c hc
    exact ⟨job, hphase, hclient.conn, hclient.jobs, hclient.armed⟩

theorem turns_sweep (hl : l.Coherent) (h : l.sweep a = .ok l' ()) :
    Turns (Became (.sweep a)) Accepted l l' := by
  unfold sweep at h
  cases hclients : closeTimedOutClients { l with staleRefs := [] } a with
  | bodyLimit l₁ =>
    rw [hclients] at h
    cases h
  | ok l₁ u =>
    rw [hclients] at h
    have hfirst := turns_forEach_close (fun _ _ _ => turns_closeTimedOutClient) _ _ _ hl.dropStale
      hclients
    have hsecond := turns_closeTimedOutCgiJobs _ _ _ hfirst.coherent h
    have hback : ∀ (fd : ℕ) (c : Connection) (job : Option FiledJob), l₁.HasClient fd c job →
        l.HasClient fd c job := by
      intro fd c job hc
      rcases hfirst.client fd c job hc with hsame | ⟨⟨⟩, -⟩ | ⟨_, _, -, ⟨⟩⟩
      exact ⟨hsame.conn, hsame.jobs, hsame.armed⟩
    refine ⟨hsecond.coherent, ?_⟩
    intro fd c' job' hc'
    rcases hsecond.client fd c' job' hc' with hsame | ⟨⟨⟩, -⟩ | ⟨c, job, hc, hexpired⟩
    · exact Or.inl (hback fd c' job' hsame)
    · cases hexpired with
      | mk hfail => exact Or.inr (Or.inr ⟨c, _, hback fd c _ hc, .timedOut rfl hfail⟩)

/-! ### Runs -/

/-- **What one event does to the clients.** -/
theorem turns_step {ev : Event} (hl : l.Coherent) (hpossible : l.Possible ev)
    (hunclaimed : l.Unclaimed ev) (h : l.step ev = .ok l' ()) :
    Turns (Became ev) Accepted l l' := by
  cases ev with
  | dispatch fd events a => exact turns_dispatch hl hpossible hunclaimed h
  | sweep a => exact turns_sweep hl h

/-- One event of the loop that meets the condition `P`, and that the kernel allows. -/
def Next (P : EventLoop → Event → Prop) (l l' : EventLoop) : Prop :=
  ∃ ev, l.Possible ev ∧ P l ev ∧ l.step ev = .ok l' ()

/-- The states of the runs whose events meet `P`. -/
def Reaches (P : EventLoop → Event → Prop) (listeners : List Listener) : EventLoop → Prop :=
  Relation.ReflTransGen (Next P) (start listeners)

theorem connections_addServerSockets : ∀ (ls : List Listener) (l : EventLoop),
    (ls.foldl addServerSocket l).connections = l.connections := by
  intro ls
  induction ls with
  | nil => exact fun _ => rfl
  | cons listener ls ih => exact fun l => ih (l.addServerSocket listener)

/-- Before the first event there are only listening sockets. -/
theorem connections_start (listeners : List Listener) (fd : ℕ) :
    (start listeners).connections[fd]? = none := by
  rw [start, connections_addServerSockets]
  exact Std.TreeMap.getElem?_emptyc

theorem coherent_start (listeners : List Listener) : (start listeners).Coherent := by
  have hempty : ∀ (ls : List Listener) (l : EventLoop), l.Keyed →
      (∀ x : ℕ, l.connections[x]? = none) → (∀ x : ℕ, l.cgiJobs[x]? = none) →
        (ls.foldl addServerSocket l).Coherent := by
    intro ls
    induction ls with
    | nil =>
      intro l hkeyed hconns hjobs
      rw [List.foldl_nil]
      refine ⟨⟨hkeyed, fun x _ _ => hjobs x, ?_⟩, ?_⟩
      · intro x job hx
        rw [hjobs x] at hx
        cases hx
      · intro fd c hc
        rw [hconns fd] at hc
        cases hc
    | cons listener ls ih =>
      intro l hkeyed hconns hjobs
      exact ih (l.addServerSocket listener)
        (Keyed.registerEventFd (l := { l with listeners := l.listeners ++ [listener] }) hkeyed
          listener.fd .server _) hconns hjobs
  refine hempty listeners _ ?_ (fun x => ?_) (fun x => ?_)
  · intro x ref href
    rw [Std.TreeMap.getElem?_emptyc] at href
    cases href
  · exact Std.TreeMap.getElem?_emptyc
  · exact Std.TreeMap.getElem?_emptyc

/-- Every state of a run is coherent. -/
theorem Reaches.coherent {P : EventLoop → Event → Prop} {listeners : List Listener}
    (hP : ∀ l ev, P l ev → l.Unclaimed ev) (h : Reaches P listeners l) : l.Coherent := by
  induction h with
  | refl => exact coherent_start listeners
  | tail _ hnext ih =>
    obtain ⟨ev, hpossible, hmeets, hstep⟩ := hnext
    exact (turns_step ih hpossible (hP _ _ hmeets) hstep).coherent

/-- **The rule of invariants** of a client: what holds of a client that was accepted, and is kept
by what an event makes of it, holds of every client in every state of a run. -/
theorem Reaches.invariant {P : EventLoop → Event → Prop} {listeners : List Listener}
    {I : Connection → Option FiledJob → Prop} (hP : ∀ l ev, P l ev → l.Unclaimed ev)
    (haccepted : ∀ c, Accepted c → I c none)
    (hkept : ∀ l ev fd c job c' job', P l ev → l.HasClient fd c job → Phase c job → I c job →
      Became ev fd c job c' job' → I c' job')
    (h : Reaches P listeners l) : ∀ fd c job, l.HasClient fd c job → I c job := by
  induction h with
  | refl =>
    intro fd c job hclient
    have hconn := hclient.conn
    rw [connections_start] at hconn
    cases hconn
  | @tail l₁ l₂ hreach hnext ih =>
    obtain ⟨ev, hpossible, hmeets, hstep⟩ := hnext
    have hl := Reaches.coherent hP hreach
    have hturns := turns_step hl hpossible (hP _ _ hmeets) hstep
    intro fd c' job' hclient
    rcases hturns.client fd c' job' hclient with hsame | ⟨hnew, rfl⟩ | ⟨c, job, hc, hbecame⟩
    · exact ih fd c' job' hsame
    · exact haccepted c' hnew
    · obtain ⟨job₁, hphase, hc₁⟩ := hl.client fd c hc.conn
      obtain rfl := hc.job_eq hc₁
      exact hkept l₁ ev fd c job₁ c' job' hmeets hc₁ hphase (ih fd c job₁ hc₁) hbecame

/-- An event that returns; `next` is the loop behind it. -/
def Returns (P : EventLoop → Event → Prop) (l : EventLoop) (ev : Event) : Prop :=
  l.Possible ev ∧ P l ev ∧ (l.step ev).threw = false

/-- The loop behind an event, however the event ends. -/
def next (l : EventLoop) (ev : Event) : EventLoop := (l.step ev).state

instance (P : EventLoop → Event → Prop) [∀ l ev, Decidable (P l ev)] (l : EventLoop) (ev : Event) :
    Decidable (Returns P l ev) := inferInstanceAs (Decidable (_ ∧ _ ∧ _))

/-- The state behind a list of events. -/
theorem reaches_of_meets {P : EventLoop → Event → Prop} {listeners : List Listener}
    {es : List Event} (h : Run.Meets next (Returns P) (start listeners) es) :
    Reaches P listeners (es.foldl next (start listeners)) := by
  refine h.invariant (I := Reaches P listeners) ?_ .refl
  rintro l ev hl ⟨hpossible, hmeets, hreturns⟩
  exact hl.tail ⟨ev, hpossible, hmeets, Outcome.eq_ok_of_threw hreturns⟩

end

end EventLoop

end Webserv
