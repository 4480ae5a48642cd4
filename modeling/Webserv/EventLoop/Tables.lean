import Webserv.EventLoop.Loop

/-!
# The tables of the event loop

What the operations on the tables leave alone.  Every handler works for one client: it touches
the connection, the jobs and the references of that client, and `Spares` says that the others
are as before.  `Sound` is what the operations keep of the tables as a whole: no descriptor is
both a client's and a pipe's, and every filed job is registered with epoll.
-/

namespace Webserv

namespace EventLoop

/-! ### Looking up -/

section

variable (l : EventLoop) (fd x : ℕ) (c : Connection) (job : CgiJob) (kind : EventKind)
  (events : EpollBits)

@[simp] theorem connections_registerEventFd :
    (l.registerEventFd fd kind events).connections = l.connections := rfl
@[simp] theorem cgiJobs_registerEventFd :
    (l.registerEventFd fd kind events).cgiJobs = l.cgiJobs := rfl

@[simp] theorem cgiJobs_putConnection : (l.putConnection fd c).cgiJobs = l.cgiJobs := rfl
@[simp] theorem eventRefs_putConnection : (l.putConnection fd c).eventRefs = l.eventRefs := rfl
@[simp] theorem connections_putConnection_self :
    (l.putConnection fd c).connections[fd]? = some c := Std.TreeMap.getElem?_insert_self

@[simp] theorem connections_putJob : (l.putJob fd job).connections = l.connections := rfl
@[simp] theorem eventRefs_putJob : (l.putJob fd job).eventRefs = l.eventRefs := rfl
@[simp] theorem cgiJobs_putJob_self : (l.putJob fd job).cgiJobs[fd]? = some job :=
  Std.TreeMap.getElem?_insert_self

@[simp] theorem cgiJobs_closeConnection : (l.closeConnection fd).cgiJobs = l.cgiJobs := rfl
@[simp] theorem eventRefs_closeConnection : (l.closeConnection fd).eventRefs = l.eventRefs := rfl
@[simp] theorem connections_closeConnection_self : (l.closeConnection fd).connections[fd]? = none :=
  Std.TreeMap.getElem?_erase_self

@[simp] theorem connections_unregisterEventFd :
    (l.unregisterEventFd fd).connections = l.connections := by
  unfold unregisterEventFd
  split <;> rfl
@[simp] theorem cgiJobs_unregisterEventFd : (l.unregisterEventFd fd).cgiJobs = l.cgiJobs := by
  unfold unregisterEventFd
  split <;> rfl

@[simp] theorem cgiJobs_modifyEventFd (m : Bool) : (l.modifyEventFd m fd events).cgiJobs =
    l.cgiJobs := by
  unfold modifyEventFd
  split
  · rfl
  · split
    · rfl
    · split <;> rfl

@[simp] theorem cgiJobs_rearmClient (m : Bool) : (l.rearmClient m fd).cgiJobs = l.cgiJobs := by
  unfold rearmClient
  split
  · rfl
  · exact cgiJobs_modifyEventFd l fd _ m

@[simp] theorem cgiJobs_rearmAs (m : Bool) : (l.rearmAs m fd c).cgiJobs = l.cgiJobs :=
  cgiJobs_rearmClient _ fd m

@[simp] theorem connections_closeCgiJob : (l.closeCgiJob x).connections = l.connections := by
  unfold closeCgiJob
  split
  · rfl
  · exact connections_unregisterEventFd l x

@[simp] theorem cgiJobs_closeCgiJob_self : (l.closeCgiJob x).cgiJobs[x]? = none := by
  unfold closeCgiJob
  split
  · next h => exact h
  · exact Std.TreeMap.getElem?_erase_self

variable {l fd x}

theorem eventRefs_registerEventFd_self :
    (l.registerEventFd fd kind events).eventRefs[fd]? = some ⟨kind, fd, l.serial, events⟩ :=
  Std.TreeMap.getElem?_insert_self

theorem eventRefs_registerEventFd_ne (h : x ≠ fd) :
    (l.registerEventFd fd kind events).eventRefs[x]? = l.eventRefs[x]? :=
  Table.getElem?_insert_ne _ _ h

theorem connections_putConnection_ne (h : x ≠ fd) :
    (l.putConnection fd c).connections[x]? = l.connections[x]? := Table.getElem?_insert_ne _ _ h

theorem cgiJobs_putJob_ne (h : x ≠ fd) : (l.putJob fd job).cgiJobs[x]? = l.cgiJobs[x]? :=
  Table.getElem?_insert_ne _ _ h

theorem connections_closeConnection_ne (h : x ≠ fd) :
    (l.closeConnection fd).connections[x]? = l.connections[x]? := Table.getElem?_erase_ne _ h

theorem eventRefs_unregisterEventFd_ne (h : x ≠ fd) :
    (l.unregisterEventFd fd).eventRefs[x]? = l.eventRefs[x]? := by
  unfold unregisterEventFd
  split
  · rfl
  · exact Table.getElem?_erase_ne _ h

theorem eventRefs_modifyEventFd_ne (m : Bool) (h : x ≠ fd) :
    (l.modifyEventFd m fd events).eventRefs[x]? = l.eventRefs[x]? := by
  unfold modifyEventFd
  split
  · rfl
  · split
    · rfl
    · split
      · exact Table.getElem?_insert_ne _ _ h
      · rfl

theorem connections_modifyEventFd_ne (m : Bool) (h : x ≠ fd) :
    (l.modifyEventFd m fd events).connections[x]? = l.connections[x]? := by
  unfold modifyEventFd
  split
  · rfl
  · split
    · rfl
    · split
      · rfl
      · exact connections_closeConnection_ne h

theorem cgiJobs_closeCgiJob_ne {y : ℕ} (h : y ≠ x) :
    (l.closeCgiJob x).cgiJobs[y]? = l.cgiJobs[y]? := by
  unfold closeCgiJob
  split
  · rfl
  · exact Table.getElem?_erase_ne _ h

theorem eventRefs_closeCgiJob_ne {y : ℕ} (h : y ≠ x) :
    (l.closeCgiJob x).eventRefs[y]? = l.eventRefs[y]? := by
  unfold closeCgiJob
  split
  · rfl
  · exact eventRefs_unregisterEventFd_ne h

theorem closeCgiJob_of_none (h : l.cgiJobs[x]? = none) : l.closeCgiJob x = l := by
  rw [closeCgiJob, h]

/-- A mask is changed, or the connection is closed. -/
theorem connections_modifyEventFd (l : EventLoop) (m : Bool) (fd : ℕ) (events : EpollBits) :
    (l.modifyEventFd m fd events).connections = l.connections ∨
      m = false ∧ (l.modifyEventFd m fd events).connections[fd]? = none := by
  unfold modifyEventFd
  split
  · exact Or.inl rfl
  · split
    · exact Or.inl rfl
    · split
      · exact Or.inl rfl
      · next hm => exact Or.inr ⟨Bool.eq_false_iff.mpr hm, connections_closeConnection_self l fd⟩

/-- No connection goes with the mask of a pipe. -/
theorem connections_modifyPipe (hfree : l.connections[fd]? = none) (m : Bool) (x : ℕ) :
    (l.modifyEventFd m fd events).connections[x]? = l.connections[x]? := by
  rcases eq_or_ne x fd with rfl | hne
  · rcases connections_modifyEventFd l m x events with hsame | ⟨-, hgone⟩
    · rw [hsame]
    · rw [hgone, hfree]
  · exact connections_modifyEventFd_ne events m hne

/-- A client that is rearmed is filed as it is now, or closed. -/
theorem connections_rearmAs_self (l : EventLoop) (fd : ℕ) (c : Connection) (m : Bool) :
    (l.rearmAs m fd c).connections[fd]? = some c ∨
      m = false ∧ (l.rearmAs m fd c).connections[fd]? = none := by
  unfold rearmAs rearmClient
  rw [connections_putConnection_self]
  refine (connections_modifyEventFd (l.putConnection fd c) m fd c.buildEpollEvent).imp_left ?_
  intro hsame
  rw [hsame]
  exact connections_putConnection_self l fd c

/-- A client whose mask cannot be changed is closed. -/
theorem rearmAs_false (href : ∃ ref, l.eventRefs[fd]? = some ref ∧ ref.kind = .client)
    (c : Connection) : (l.rearmAs false fd c).connections[fd]? = none := by
  obtain ⟨ref, href, hkind⟩ := href
  unfold rearmAs rearmClient
  rw [connections_putConnection_self]
  dsimp only
  unfold modifyEventFd
  rw [eventRefs_putConnection, href]
  dsimp only
  rw [if_neg (by rw [hkind]; decide)]
  exact connections_closeConnection_self _ fd

end

/-! ### One client at a time -/

/-- A job's pipe is registered as such. -/
def JobArmed (l : EventLoop) (resultFd : ℕ) : Prop :=
  ∃ ref, l.eventRefs[resultFd]? = some ref ∧ ref.kind = .cgi

/-- Every reference is filed under its descriptor. -/
def Keyed (l : EventLoop) : Prop :=
  ∀ (x : ℕ) (ref : EventRef), l.eventRefs[x]? = some ref → ref.fd = x

theorem Keyed.registerEventFd {l : EventLoop} (h : l.Keyed) (fd : ℕ) (kind : EventKind)
    (events : EpollBits) : (l.registerEventFd fd kind events).Keyed := by
  intro x ref href
  rcases eq_or_ne x fd with rfl | hne
  · rw [eventRefs_registerEventFd_self, Option.some.injEq] at href
    rw [← href]
  · rw [eventRefs_registerEventFd_ne kind events hne] at href
    exact h x ref href

theorem Keyed.unregisterEventFd {l : EventLoop} (h : l.Keyed) (fd : ℕ) :
    (l.unregisterEventFd fd).Keyed := by
  unfold EventLoop.unregisterEventFd
  split
  · exact h
  · intro x ref href
    rcases eq_or_ne x fd with rfl | hne
    · rw [Std.TreeMap.getElem?_erase_self] at href
      cases href
    · rw [Table.getElem?_erase_ne _ hne] at href
      exact h x ref href

theorem Keyed.closeCgiJob {l : EventLoop} (h : l.Keyed) (x : ℕ) : (l.closeCgiJob x).Keyed := by
  unfold EventLoop.closeCgiJob
  split
  · exact h
  · exact h.unregisterEventFd x

theorem Keyed.modifyEventFd {l : EventLoop} (h : l.Keyed) (m : Bool) (fd : ℕ)
    (events : EpollBits) : (l.modifyEventFd m fd events).Keyed := by
  unfold EventLoop.modifyEventFd
  split
  · exact h
  · next ref href =>
    split
    · exact h
    · split
      · intro x ref' href'
        rcases eq_or_ne x fd with rfl | hne
        · rw [Std.TreeMap.getElem?_insert_self, Option.some.injEq] at href'
          rw [← href']
          exact h x ref href
        · rw [Table.getElem?_insert_ne _ _ hne] at href'
          exact h x ref' href'
      · exact h

/-- The tables fit together. -/
structure Sound (l : EventLoop) : Prop where
  keyed : l.Keyed
  apart : ∀ (x : ℕ) (c : Connection), l.connections[x]? = some c → l.cgiJobs[x]? = none
  armed : ∀ (x : ℕ) (job : CgiJob), l.cgiJobs[x]? = some job → l.JobArmed x

/-- Between the two loops nothing has changed but the client `fd` and its jobs. -/
structure Spares (fd : ℕ) (l l' : EventLoop) : Prop where
  connections : ∀ x : ℕ, x ≠ fd → l'.connections[x]? = l.connections[x]?
  cgiJobs : ∀ (x : ℕ) (job : CgiJob), job.clientFd ≠ fd →
    (l'.cgiJobs[x]? = some job ↔ l.cgiJobs[x]? = some job)
  clientRefs : ∀ (x : ℕ) (c : Connection), x ≠ fd → l.connections[x]? = some c →
    l'.eventRefs[x]? = l.eventRefs[x]?
  jobRefs : ∀ (x : ℕ) (job : CgiJob), job.clientFd ≠ fd → l.cgiJobs[x]? = some job →
    l'.eventRefs[x]? = l.eventRefs[x]?

namespace Spares

variable {fd : ℕ} {l l' l'' : EventLoop}

theorem refl (fd : ℕ) (l : EventLoop) : Spares fd l l :=
  ⟨fun _ _ => rfl, fun _ _ _ => Iff.rfl, fun _ _ _ _ => rfl, fun _ _ _ _ => rfl⟩

theorem trans (h : Spares fd l l') (h' : Spares fd l' l'') : Spares fd l l'' where
  connections := fun x hx => (h'.connections x hx).trans (h.connections x hx)
  cgiJobs := fun x job hjob => (h'.cgiJobs x job hjob).trans (h.cgiJobs x job hjob)
  clientRefs := fun x c hx hc =>
    (h'.clientRefs x c hx ((h.connections x hx).trans hc)).trans (h.clientRefs x c hx hc)
  jobRefs := fun x job hjob hx =>
    (h'.jobRefs x job hjob ((h.cgiJobs x job hjob).mpr hx)).trans (h.jobRefs x job hjob hx)

end Spares

/-- An operation for the client `fd`, whose descriptor does not become a pipe's. -/
structure Serves (fd : ℕ) (l l' : EventLoop) : Prop where
  sound : l'.Sound
  spares : Spares fd l l'
  noPipe : l.cgiJobs[fd]? = none → l'.cgiJobs[fd]? = none

namespace Serves

variable {fd : ℕ} {l l' l'' : EventLoop}

theorem refl (fd : ℕ) (h : l.Sound) : Serves fd l l := ⟨h, .refl fd l, id⟩

theorem trans (h : Serves fd l l') (h' : Serves fd l' l'') : Serves fd l l'' :=
  ⟨h'.sound, h.spares.trans h'.spares, fun hfd => h'.noPipe (h.noPipe hfd)⟩

end Serves

section

variable {l : EventLoop} {fd resultFd : ℕ} {job : CgiJob}

theorem serves_putConnection (hl : l.Sound) (hfd : l.cgiJobs[fd]? = none) (c : Connection) :
    Serves fd l (l.putConnection fd c) where
  sound :=
    { keyed := hl.keyed
      apart := by
        intro x c' hx
        rcases eq_or_ne x fd with rfl | hne
        · exact hfd
        · rw [connections_putConnection_ne c hne] at hx
          exact hl.apart x c' hx
      armed := hl.armed }
  spares := ⟨fun _ hx => connections_putConnection_ne c hx, fun _ _ _ => Iff.rfl,
    fun _ _ _ _ => rfl, fun _ _ _ _ => rfl⟩
  noPipe := id

theorem serves_closeConnection (hl : l.Sound) (fd : ℕ) : Serves fd l (l.closeConnection fd) where
  sound :=
    { keyed := hl.keyed
      apart := by
        intro x c hx
        rcases eq_or_ne x fd with rfl | hne
        · rw [connections_closeConnection_self] at hx
          cases hx
        · rw [connections_closeConnection_ne hne] at hx
          exact hl.apart x c hx
      armed := hl.armed }
  spares := ⟨fun _ hx => connections_closeConnection_ne hx, fun _ _ _ => Iff.rfl,
    fun _ _ _ _ => rfl, fun _ _ _ _ => rfl⟩
  noPipe := id

/-- The mask of the client is changed, or the client is closed. -/
theorem serves_modifyEventFd (hl : l.Sound) (hfd : l.cgiJobs[fd]? = none) (m : Bool)
    (events : EpollBits) : Serves fd l (l.modifyEventFd m fd events) := by
  have hjob : ∀ (x : ℕ) (job : CgiJob), l.cgiJobs[x]? = some job → x ≠ fd := by
    rintro x job hx rfl
    rw [hfd] at hx
    cases hx
  refine ⟨⟨hl.keyed.modifyEventFd m fd events, ?_, ?_⟩, ⟨?_, by simp, ?_, ?_⟩, by simp⟩
  · intro x c hx
    rw [cgiJobs_modifyEventFd]
    rcases eq_or_ne x fd with rfl | hne
    · exact hfd
    · rw [connections_modifyEventFd_ne events m hne] at hx
      exact hl.apart x c hx
  · intro x job hx
    rw [cgiJobs_modifyEventFd] at hx
    obtain ⟨ref, href, hkind⟩ := hl.armed x job hx
    exact ⟨ref, (eventRefs_modifyEventFd_ne events m (hjob x job hx)).trans href, hkind⟩
  · exact fun x hne => connections_modifyEventFd_ne events m hne
  · exact fun x c hne _ => eventRefs_modifyEventFd_ne events m hne
  · exact fun x job _ hx => eventRefs_modifyEventFd_ne events m (hjob x job hx)

theorem serves_rearmClient (hl : l.Sound) (m : Bool) (fd : ℕ) :
    Serves fd l (l.rearmClient m fd) := by
  unfold rearmClient
  split
  · exact .refl fd hl
  · next c hc => exact serves_modifyEventFd hl (hl.apart fd c hc) m _

theorem serves_rearmAs (hl : l.Sound) (hfd : l.cgiJobs[fd]? = none) (m : Bool) (c : Connection) :
    Serves fd l (l.rearmAs m fd c) :=
  have hput := serves_putConnection hl hfd c
  hput.trans (serves_rearmClient hput.sound m fd)

/-- A reference goes that belongs to the client or to nobody. -/
theorem serves_unregisterEventFd (hl : l.Sound) (hfd : l.cgiJobs[fd]? = none) :
    Serves fd l (l.unregisterEventFd fd) where
  sound :=
    { keyed := hl.keyed.unregisterEventFd fd
      apart := by simpa using hl.apart
      armed := by
        intro x job hx
        rw [cgiJobs_unregisterEventFd] at hx
        have hne : x ≠ fd := by
          rintro rfl
          rw [hfd] at hx
          cases hx
        obtain ⟨ref, href, hkind⟩ := hl.armed x job hx
        exact ⟨ref, (eventRefs_unregisterEventFd_ne hne).trans href, hkind⟩ }
  spares :=
    { connections := by simp
      cgiJobs := by simp
      clientRefs := fun x c hne _ => eventRefs_unregisterEventFd_ne hne
      jobRefs := by
        rintro x job - hx
        refine eventRefs_unregisterEventFd_ne ?_
        rintro rfl
        rw [hfd] at hx
        cases hx }
  noPipe := by simp

/-- A job of the client is closed. -/
theorem serves_closeCgiJob (hl : l.Sound)
    (hjob : ∀ job, l.cgiJobs[resultFd]? = some job → job.clientFd = fd) :
    Serves fd l (l.closeCgiJob resultFd) := by
  cases hfiled : l.cgiJobs[resultFd]? with
  | none =>
    rw [closeCgiJob_of_none hfiled]
    exact .refl fd hl
  | some job =>
    refine ⟨⟨hl.keyed.closeCgiJob resultFd, ?_, ?_⟩, ⟨?_, ?_, ?_, ?_⟩, ?_⟩
    · -- a client's descriptor is not that of the pipe
      intro x c hx
      rw [connections_closeCgiJob] at hx
      have hne : x ≠ resultFd := by
        rintro rfl
        rw [hl.apart x c hx] at hfiled
        cases hfiled
      exact (cgiJobs_closeCgiJob_ne hne).trans (hl.apart x c hx)
    · -- the other jobs stay registered
      intro x job' hx
      have hne : x ≠ resultFd := by
        rintro rfl
        rw [cgiJobs_closeCgiJob_self] at hx
        cases hx
      rw [cgiJobs_closeCgiJob_ne hne] at hx
      obtain ⟨ref, href, hkind⟩ := hl.armed x job' hx
      exact ⟨ref, (eventRefs_closeCgiJob_ne hne).trans href, hkind⟩
    · intro x _
      rw [connections_closeCgiJob]
    · -- the jobs of other clients are not touched
      intro x job' hclient
      rcases eq_or_ne x resultFd with rfl | hne
      · rw [cgiJobs_closeCgiJob_self]
        constructor
        · intro h
          cases h
        · exact fun h => absurd (hjob job' h) hclient
      · rw [cgiJobs_closeCgiJob_ne hne]
    · intro x c _ hx
      refine eventRefs_closeCgiJob_ne ?_
      rintro rfl
      rw [hl.apart x c hx] at hfiled
      cases hfiled
    · intro x job' hclient hx
      refine eventRefs_closeCgiJob_ne ?_
      rintro rfl
      exact hclient (hjob job' hx)
    · intro hnone
      rcases eq_or_ne fd resultFd with rfl | hne
      · exact cgiJobs_closeCgiJob_self l fd
      · rw [cgiJobs_closeCgiJob_ne hne]
        exact hnone

/-- A job of the client is filed as it is now. -/
theorem serves_putJob (hl : l.Sound) {old : CgiJob} (hold : l.cgiJobs[resultFd]? = some old)
    (hclient : old.clientFd = fd) (hjob : job.clientFd = fd) :
    Serves fd l (l.putJob resultFd job) where
  sound :=
    { keyed := hl.keyed
      apart := by
        intro x c hx
        have hne : x ≠ resultFd := by
          rintro rfl
          rw [hl.apart x c hx] at hold
          cases hold
        exact (cgiJobs_putJob_ne job hne).trans (hl.apart x c hx)
      armed := by
        intro x job' hx
        rcases eq_or_ne x resultFd with rfl | hne
        · exact hl.armed x old hold
        · rw [cgiJobs_putJob_ne job hne] at hx
          exact hl.armed x job' hx }
  spares :=
    { connections := fun _ _ => rfl
      cgiJobs := by
        intro x job' hne
        rcases eq_or_ne x resultFd with rfl | hx
        · rw [cgiJobs_putJob_self, hold]
          constructor
          · rintro ⟨rfl⟩
            exact absurd hjob hne
          · rintro ⟨rfl⟩
            exact absurd hclient hne
        · rw [cgiJobs_putJob_ne job hx]
      clientRefs := fun _ _ _ _ => rfl
      jobRefs := fun _ _ _ _ => rfl }
  noPipe := by
    intro hnone
    have hne : fd ≠ resultFd := by
      rintro rfl
      rw [hnone] at hold
      cases hold
    exact (cgiJobs_putJob_ne job hne).trans hnone

/-- A job is filed under a new pipe. -/
theorem serves_newJob (hl : l.Sound) (hfd : fd ≠ resultFd)
    (hfresh : l.connections[resultFd]? = none) (hnone : l.cgiJobs[resultFd]? = none)
    (hjob : job.clientFd = fd) (events : EpollBits) :
    Serves fd l ((l.registerEventFd resultFd .cgi events).putJob resultFd job) where
  sound :=
    { keyed := hl.keyed.registerEventFd resultFd .cgi events
      apart := by
        intro x c hx
        have hne : x ≠ resultFd := by
          rintro rfl
          rw [connections_putJob, connections_registerEventFd, hfresh] at hx
          cases hx
        exact (cgiJobs_putJob_ne job hne).trans (hl.apart x c hx)
      armed := by
        intro x job' hx
        -- the new job has the event that was registered for it
        rcases eq_or_ne x resultFd with rfl | hne
        · exact ⟨_, eventRefs_registerEventFd_self .cgi events, rfl⟩
        · rw [cgiJobs_putJob_ne job hne] at hx
          obtain ⟨ref, href, hkind⟩ := hl.armed x job' hx
          exact ⟨ref, (eventRefs_registerEventFd_ne .cgi events hne).trans href, hkind⟩ }
  spares :=
    { connections := fun _ _ => rfl
      cgiJobs := by
        intro x job' hne
        -- the new job is one of this client, whatever was filed there before
        rcases eq_or_ne x resultFd with rfl | hx
        · rw [cgiJobs_putJob_self, hnone]
          constructor
          · rintro ⟨rfl⟩
            exact absurd hjob hne
          · intro h
            cases h
        · rw [cgiJobs_putJob_ne job hx, cgiJobs_registerEventFd]
      clientRefs := by
        intro x c _ hx
        refine eventRefs_registerEventFd_ne .cgi events ?_
        rintro rfl
        rw [hfresh] at hx
        cases hx
      jobRefs := by
        intro x job' _ hx
        refine eventRefs_registerEventFd_ne .cgi events ?_
        rintro rfl
        rw [hnone] at hx
        cases hx }
  noPipe := fun h => (cgiJobs_putJob_ne job hfd).trans h

/-- The mask of the client's pipe is changed. -/
theorem serves_modifyPipe (hl : l.Sound) (hjob : l.cgiJobs[resultFd]? = some job)
    (hclient : job.clientFd = fd) (m : Bool) (events : EpollBits) :
    Serves fd l (l.modifyEventFd m resultFd events) := by
  have hfresh : l.connections[resultFd]? = none := by
    cases h : l.connections[resultFd]? with
    | none => rfl
    | some c =>
      rw [hl.apart resultFd c h] at hjob
      cases hjob
  have hconn := connections_modifyPipe events hfresh m
  refine ⟨⟨hl.keyed.modifyEventFd m resultFd events, ?_, ?_⟩,
    ⟨fun x _ => hconn x, by simp, ?_, ?_⟩, by simp⟩
  · intro x c hx
    rw [hconn] at hx
    rw [cgiJobs_modifyEventFd]
    exact hl.apart x c hx
  · intro x job' hx
    rw [cgiJobs_modifyEventFd] at hx
    obtain ⟨ref, href, hkind⟩ := hl.armed x job' hx
    rcases eq_or_ne x resultFd with rfl | hne
    · -- the reference stays the pipe's, whatever becomes of its mask
      unfold modifyEventFd
      rw [href]
      dsimp only
      rw [if_neg (by rw [hkind]; decide)]
      cases m with
      | true => exact ⟨_, Std.TreeMap.getElem?_insert_self, hkind⟩
      | false => exact ⟨ref, href, hkind⟩
    · exact ⟨ref, (eventRefs_modifyEventFd_ne events m hne).trans href, hkind⟩
  · intro x c _ hx
    refine eventRefs_modifyEventFd_ne events m ?_
    rintro rfl
    rw [hfresh] at hx
    cases hx
  · intro x job' hne hx
    refine eventRefs_modifyEventFd_ne events m ?_
    rintro rfl
    rw [hjob, Option.some.injEq] at hx
    rw [← hx] at hne
    exact hne hclient

/-! ### Closing a client -/

theorem connections_closeCgiJobs (ks : List ℕ) : ∀ l : EventLoop,
    (ks.foldl closeCgiJob l).connections = l.connections := by
  induction ks with
  | nil => exact fun _ => rfl
  | cons k ks ih => exact fun l => (ih _).trans (connections_closeCgiJob l k)

/-- The jobs of a list are gone. -/
theorem cgiJobs_closeCgiJobs (ks : List ℕ) : ∀ (l : EventLoop) (x : ℕ),
    (ks.foldl closeCgiJob l).cgiJobs[x]? = if x ∈ ks then none else l.cgiJobs[x]? := by
  induction ks with
  | nil => exact fun _ _ => rfl
  | cons k ks ih =>
    intro l x
    rw [List.foldl_cons, ih]
    rcases eq_or_ne x k with rfl | hne
    · rw [cgiJobs_closeCgiJob_self, ite_self, if_pos List.mem_cons_self]
    · rw [cgiJobs_closeCgiJob_ne hne]
      simp [hne]

theorem serves_closeCgiJobs : ∀ (ks : List ℕ) (l : EventLoop), l.Sound →
    (∀ k ∈ ks, ∀ job, l.cgiJobs[k]? = some job → job.clientFd = fd) →
    Serves fd l (ks.foldl closeCgiJob l) := by
  intro ks
  induction ks with
  | nil => exact fun l hl _ => .refl fd hl
  | cons k ks ih =>
    intro l hl hks
    have hfirst := serves_closeCgiJob hl (hks k List.mem_cons_self)
    refine hfirst.trans (ih _ hfirst.sound ?_)
    intro x hx job hjob
    rcases eq_or_ne x k with rfl | hne
    · rw [cgiJobs_closeCgiJob_self] at hjob
      cases hjob
    · rw [cgiJobs_closeCgiJob_ne hne] at hjob
      exact hks x (List.mem_cons_of_mem _ hx) job hjob

theorem serves_closeClient (hl : l.Sound) (hfd : l.cgiJobs[fd]? = none) :
    Serves fd l (l.closeClient fd) := by
  have hjobs : Serves fd l (l.closeCgiJobsForClient fd) := by
    refine serves_closeCgiJobs _ l hl ?_
    intro k hk job hjob
    obtain ⟨job', hjob', hclient⟩ := Table.mem_keysWhere.mp hk
    rw [hjob, Option.some.injEq] at hjob'
    rw [hjob']
    exact of_decide_eq_true hclient
  have hfd' : (l.closeCgiJobsForClient fd).cgiJobs[fd]? = none := by
    rw [closeCgiJobsForClient, cgiJobs_closeCgiJobs, hfd, ite_self]
  have hunregister := serves_unregisterEventFd hjobs.sound hfd'
  exact (hjobs.trans hunregister).trans (serves_closeConnection hunregister.sound fd)

/-- A closed client is not connected. -/
@[simp] theorem connections_closeClient_self (l : EventLoop) (fd : ℕ) :
    (l.closeClient fd).connections[fd]? = none := connections_closeConnection_self _ fd

/-- No job works for a closed client. -/
theorem clientFd_ne_of_closeClient {x : ℕ}
    (h : (l.closeClient fd).cgiJobs[x]? = some job) : job.clientFd ≠ fd := by
  rintro rfl
  have h' : (l.closeCgiJobsForClient job.clientFd).cgiJobs[x]? = some job := by
    rwa [closeClient, cgiJobs_closeConnection, cgiJobs_unregisterEventFd] at h
  rw [closeCgiJobsForClient, cgiJobs_closeCgiJobs] at h'
  split at h'
  · cases h'
  · next hx => exact hx (Table.mem_keysWhere.mpr ⟨job, h', decide_eq_true rfl⟩)

end

end EventLoop

end Webserv
