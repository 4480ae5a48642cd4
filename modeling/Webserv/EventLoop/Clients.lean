import Webserv.EventLoop.Tables

/-!
# One client of the event loop

A client is a connection and the job that works for it, if there is one.  Between two events it is
in one of four phases: it reads, it waits for its script, it is sent what the script writes, or
it is sent the rest of a response.  Each handler is described by what it may leave of its client.
-/

namespace Webserv

namespace EventLoop

/-- A client's job and the pipe it is filed under. -/
abbrev FiledJob := ℕ × CgiJob

/-- The client at `fd`: its connection, the jobs that are filed for it, which are one or none,
and the mask it is registered with. -/
structure HasClient (l : EventLoop) (fd : ℕ) (c : Connection) (job : Option FiledJob) : Prop where
  conn : l.connections[fd]? = some c
  jobs : ∀ (x : ℕ) (j : CgiJob), l.cgiJobs[x]? = some j ∧ j.clientFd = fd ↔ job = some (x, j)
  armed : ∃ ref, l.eventRefs[fd]? = some ref ∧ ref.kind = .client ∧
    ref.events = c.buildEpollEvent

/-- The same, whatever connection is filed and whatever mask is registered. -/
structure Registered (l : EventLoop) (fd : ℕ) (job : Option FiledJob) : Prop where
  jobs : ∀ (x : ℕ) (j : CgiJob), l.cgiJobs[x]? = some j ∧ j.clientFd = fd ↔ job = some (x, j)
  armed : ∃ ref, l.eventRefs[fd]? = some ref ∧ ref.kind = .client

/-- The phases of a client. -/
inductive Phase : Connection → Option FiledJob → Prop
  | reading {c : Connection} : c.state = .reading → Phase c none
  | writing {c : Connection} : c.state = .writing → Phase c none
  /-- The script has not written its header block. -/
  | waiting {c : Connection} {x : ℕ} {j : CgiJob} : c.state = .cgiRunning →
      j.headersSent = false → Phase c (some (x, j))
  /-- What the script writes is relayed. -/
  | streaming {c : Connection} {x : ℕ} {j : CgiJob} : c.state = .writing →
      j.headersSent = true → Phase c (some (x, j))

/-- Every client is in a phase. -/
structure Coherent (l : EventLoop) : Prop where
  sound : l.Sound
  client : ∀ (fd : ℕ) (c : Connection), l.connections[fd]? = some c →
    ∃ job, Phase c job ∧ l.HasClient fd c job

/-- A handler of the client `fd` has left it as `R` says, or closed it. -/
structure Handles (fd : ℕ) (R : Connection → Option FiledJob → Prop) (l l' : EventLoop) : Prop where
  serves : Serves fd l l'
  client : l'.connections[fd]? = none ∨ ∃ c job, l'.HasClient fd c job ∧ R c job

section

variable {l l' : EventLoop} {fd x : ℕ} {c : Connection} {job : Option FiledJob}
  {R : Connection → Option FiledJob → Prop}

/-- The other clients are as before. -/
theorem Spares.hasClient_iff (h : Spares fd l l') (hx : x ≠ fd) :
    l'.HasClient x c job ↔ l.HasClient x c job := by
  have hjobs : ∀ (y : ℕ) (j : CgiJob), l'.cgiJobs[y]? = some j ∧ j.clientFd = x ↔
      l.cgiJobs[y]? = some j ∧ j.clientFd = x := by
    intro y j
    refine and_congr_left ?_
    rintro rfl
    exact h.cgiJobs y j hx
  constructor
  · rintro ⟨hc, hj, ref, href, hkind⟩
    have hc' : l.connections[x]? = some c := (h.connections x hx).symm.trans hc
    exact ⟨hc', fun y j => (hjobs y j).symm.trans (hj y j), ref,
      (h.clientRefs x c hx hc').symm.trans href, hkind⟩
  · rintro ⟨hc, hj, ref, href, hkind⟩
    exact ⟨(h.connections x hx).trans hc, fun y j => (hjobs y j).trans (hj y j), ref,
      (h.clientRefs x c hx hc).trans href, hkind⟩

theorem HasClient.conn_eq {c' : Connection} {job' : Option FiledJob} (h : l.HasClient fd c job)
    (h' : l.HasClient fd c' job') : c' = c :=
  Option.some.inj (h'.conn.symm.trans h.conn)

theorem HasClient.job_eq {c' : Connection} {job' : Option FiledJob} (h : l.HasClient fd c job)
    (h' : l.HasClient fd c' job') : job' = job := by
  ext ⟨y, j⟩
  rw [← h.jobs y j, ← h'.jobs y j]

/-- A client's descriptor is no pipe's. -/
theorem Sound.cgiJobs_eq_none (hl : l.Sound) (h : l.HasClient fd c job) : l.cgiJobs[fd]? = none :=
  hl.apart fd c h.conn

theorem Handles.mono {S : Connection → Option FiledJob → Prop} (h : Handles fd R l l')
    (hRS : ∀ c job, R c job → S c job) : Handles fd S l l' :=
  ⟨h.serves, h.client.imp_right fun ⟨c, job, hc, hR⟩ => ⟨c, job, hc, hRS c job hR⟩⟩

/-- **A handler keeps the loop coherent** when it leaves its client in a phase. -/
theorem Coherent.handles (hl : l.Coherent) (h : Handles fd Phase l l') : l'.Coherent where
  sound := h.serves.sound
  client := by
    intro x c hc
    rcases eq_or_ne x fd with rfl | hx
    · rcases h.client with hnone | ⟨c', job, hclient, hphase⟩
      · rw [hnone] at hc
        cases hc
      · obtain rfl : c' = c := Option.some.inj (hclient.conn.symm.trans hc)
        exact ⟨job, hphase, hclient⟩
    · rw [h.serves.spares.connections x hx] at hc
      obtain ⟨job, hphase, hclient⟩ := hl.client x c hc
      exact ⟨job, hphase, (h.serves.spares.hasClient_iff hx).mpr hclient⟩

/-! ### The operations on one client -/

theorem HasClient.putConnection {c' : Connection} (h : l.HasClient fd c job)
    (hevents : c'.buildEpollEvent = c.buildEpollEvent) :
    (l.putConnection fd c').HasClient fd c' job := by
  obtain ⟨-, hjobs, ref, href, hkind, hmask⟩ := h
  exact ⟨connections_putConnection_self l fd c', hjobs, ref, href, hkind, hmask.trans hevents.symm⟩

theorem HasClient.registered (h : l.HasClient fd c job) : l.Registered fd job := by
  obtain ⟨-, hjobs, ref, href, hkind, -⟩ := h
  exact ⟨hjobs, ref, href, hkind⟩

theorem Registered.putConnection (h : l.Registered fd job) (c : Connection) :
    (l.putConnection fd c).Registered fd job := ⟨h.jobs, h.armed⟩

theorem Registered.rearmAs_eq (h : l.Registered fd job) (m : Bool) (c : Connection) :
    ∃ ref : EventRef, ref.kind = .client ∧ l.rearmAs m fd c =
      if m then { l.putConnection fd c with
        eventRefs := l.eventRefs.insert fd { ref with events := c.buildEpollEvent } }
      else (l.putConnection fd c).closeConnection fd := by
  obtain ⟨-, ref, href, hkind⟩ := h
  refine ⟨ref, hkind, ?_⟩
  rw [EventLoop.rearmAs, rearmClient, connections_putConnection_self]
  dsimp only
  rw [modifyEventFd, eventRefs_putConnection, href]
  dsimp only
  rw [if_neg (by rw [hkind]; decide)]

/-- A client whose mask cannot be changed is closed. -/
theorem Registered.rearmAs_false (h : l.Registered fd job) (c : Connection) :
    (l.rearmAs false fd c).connections[fd]? = none := by
  obtain ⟨ref, -, heq⟩ := h.rearmAs_eq false c
  rw [heq]
  exact connections_closeConnection_self _ fd

theorem Registered.rearmAs_true (h : l.Registered fd job) (c : Connection) :
    (l.rearmAs true fd c).HasClient fd c job := by
  obtain ⟨ref, hkind, heq⟩ := h.rearmAs_eq true c
  rw [heq]
  exact ⟨connections_putConnection_self l fd c, h.jobs, _, Std.TreeMap.getElem?_insert_self,
    hkind, rfl⟩

/-- A client that is rearmed is registered as it is now, or closed. -/
theorem Registered.rearmAs (h : l.Registered fd job) (m : Bool) (c : Connection) :
    (l.rearmAs m fd c).connections[fd]? = none ∨ (l.rearmAs m fd c).HasClient fd c job := by
  cases m with
  | false => exact Or.inl (h.rearmAs_false c)
  | true => exact Or.inr (h.rearmAs_true c)

theorem Registered.handles_rearmAs (hl : l.Sound) (hfd : l.cgiJobs[fd]? = none)
    (h : l.Registered fd job) (m : Bool) (c : Connection) :
    Handles fd (fun c' job' => c' = c ∧ job' = job) l (l.rearmAs m fd c) :=
  ⟨serves_rearmAs hl hfd m c, (h.rearmAs m c).imp_right fun hclient => ⟨c, job, hclient, rfl, rfl⟩⟩

theorem handles_rearmAs (hl : l.Sound) (h : l.HasClient fd c job) (m : Bool) (c' : Connection) :
    Handles fd (fun c₁ job₁ => c₁ = c' ∧ job₁ = job) l (l.rearmAs m fd c') :=
  h.registered.handles_rearmAs hl (hl.cgiJobs_eq_none h) m c'

/-- A closed client. -/
theorem handles_closeClient (hl : l.Sound) (h : l.HasClient fd c job) :
    Handles fd (fun _ _ => False) l (l.closeClient fd) :=
  ⟨serves_closeClient hl (hl.cgiJobs_eq_none h), Or.inl (connections_closeClient_self l fd)⟩

theorem HasClient.job_filed {j : CgiJob} (h : l.HasClient fd c (some (x, j))) :
    l.cgiJobs[x]? = some j ∧ j.clientFd = fd := (h.jobs x j).mpr rfl

/-- The client's job is filed as it is now. -/
theorem HasClient.putJob {j j' : CgiJob} (h : l.HasClient fd c (some (x, j)))
    (hj' : j'.clientFd = fd) : (l.putJob x j').HasClient fd c (some (x, j')) := by
  refine ⟨h.conn, ?_, h.armed⟩
  intro y k
  rcases eq_or_ne y x with rfl | hne
  · rw [cgiJobs_putJob_self]
    constructor
    · rintro ⟨hk, -⟩
      rw [Option.some.inj hk]
    · rintro ⟨⟩
      exact ⟨rfl, hj'⟩
  · rw [cgiJobs_putJob_ne j' hne, h.jobs]
    simp only [Option.some.injEq, Prod.mk.injEq, hne.symm, false_and]

/-- The client's job is closed. -/
theorem HasClient.closeCgiJob {j : CgiJob} (hl : l.Sound) (h : l.HasClient fd c (some (x, j))) :
    (l.closeCgiJob x).HasClient fd c none := by
  obtain ⟨ref, href, hkind⟩ := h.armed
  have hne : fd ≠ x := by
    rintro rfl
    have hfiled := h.job_filed.1
    rw [hl.cgiJobs_eq_none h] at hfiled
    cases hfiled
  refine ⟨by rw [connections_closeCgiJob]; exact h.conn, ?_, ref,
    (eventRefs_closeCgiJob_ne hne).trans href, hkind⟩
  intro y k
  rcases eq_or_ne y x with rfl | hy
  · rw [cgiJobs_closeCgiJob_self]
    simp
  · rw [cgiJobs_closeCgiJob_ne hy, h.jobs]
    simp [hy.symm]

/-- The mask of the client's pipe is changed. -/
theorem HasClient.modifyPipe {j : CgiJob} (hl : l.Sound) (h : l.HasClient fd c (some (x, j)))
    (m : Bool) (events : EpollBits) :
      (l.modifyEventFd m x events).HasClient fd c (some (x, j)) := by
  have hne : fd ≠ x := by
    rintro rfl
    have hfiled := h.job_filed.1
    rw [hl.cgiJobs_eq_none h] at hfiled
    cases hfiled
  obtain ⟨hconn, hjobs, ref, href, hkind⟩ := h
  exact ⟨(connections_modifyEventFd_ne events m hne).trans hconn,
    by rw [cgiJobs_modifyEventFd]; exact hjobs, ref,
    (eventRefs_modifyEventFd_ne events m hne).trans href, hkind⟩

/-- A job is filed for the client under a new pipe. -/
theorem HasClient.newJob {j : CgiJob} (h : l.HasClient fd c none)
    (hfresh : l.connections[x]? = none) (hj : j.clientFd = fd) (events : EpollBits) :
    ((l.registerEventFd x .cgi events).putJob x j).HasClient fd c (some (x, j)) := by
  have hne : fd ≠ x := by
    rintro rfl
    rw [h.conn] at hfresh
    cases hfresh
  obtain ⟨hconn, hjobs, ref, href, hkind⟩ := h
  refine ⟨hconn, ?_, ref, (eventRefs_registerEventFd_ne .cgi events hne).trans href, hkind⟩
  intro y k
  rcases eq_or_ne y x with rfl | hy
  · rw [cgiJobs_putJob_self]
    constructor
    · rintro ⟨⟨⟩, -⟩
      rfl
    · rintro ⟨⟩
      exact ⟨rfl, hj⟩
  · rw [cgiJobs_putJob_ne j hy, cgiJobs_registerEventFd, hjobs]
    simp [hy.symm]

end

end EventLoop

end Webserv
