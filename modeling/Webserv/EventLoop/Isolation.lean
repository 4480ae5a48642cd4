import Webserv.EventLoop.Alone
import Webserv.EventLoop.Operations
import Webserv.EventLoop.IdleTimeout

/-!
# Clients do not disturb each other

The event loop serves all clients from the same tables.  `Client.step` is what one event makes of
one client that is seen by itself: an event of its descriptor, an event of its script's pipe, or
a sweep; every other event leaves it as it is.  Whatever else the loop does between the events
of a client, the client goes through the run of `Client.step`.

## Main results

* `holds_step` — one event.
* `client_run` — **a client of the loop is a client by itself**, in every run.
-/

namespace Webserv

open Bytes

namespace EventLoop

/-! ### Events of one client -/

namespace Client

/-- The end of its time: the client is closed, or its job is. -/
def sweep (a : KernelAnswers) (fd : ℕ) (cl : Client) : Option Client :=
  if cl.conn.state ≠ .cgiRunning && cl.conn.isTimedOut cl.conn.config.timeoutSeconds a.env.now then
    none
  else
    match cl.job with
    | some (x, j) =>
        if j.isTimedOut a.env.now then (settle a fd x (failCgiJob a.env 504 cl.conn j)).state
        else some cl
    | none => some cl

/-- What an event makes of the client `fd`. -/
def step (fd : ℕ) (ev : Event) (cl : Client) : Option Client :=
  match ev with
  | .dispatch y events a =>
      if y = fd then (cl.clientEvent a fd events).state
      else
        match cl.job with
        | some (x, j) => if y = x then (cgiEvent a fd cl.conn x j).state else some cl
        | none => some cl
  | .sweep a => cl.sweep a fd

/-- The events of a run, one after another, until the client is closed. -/
def run (fd : ℕ) (es : List Event) (cl : Option Client) : Option Client :=
  es.foldl (fun cl ev => cl.bind (step fd ev)) cl

end Client

/-- The client of the loop at the descriptor. -/
def client (l : EventLoop) (fd : ℕ) : Option Client :=
  l.connections[fd]?.map fun c =>
    ⟨c, (l.activeCgi fd).bind fun x => (l.cgiJobs[x]?).map fun j => (x, j)⟩

/-- The clients that are accepted have other descriptors. -/
def Elsewhere (fd : ℕ) (l : EventLoop) (ev : Event) : Prop :=
  l.Unclaimed ev ∧ fd ∉ ev.answers.clients

instance (fd : ℕ) (l : EventLoop) (ev : Event) : Decidable (Elsewhere fd l ev) :=
  inferInstanceAs (Decidable (_ ∧ _))

section

variable {l l' : EventLoop} {a : KernelAnswers} {fd x : ℕ} {c : Connection} {j : CgiJob}
  {cl : Option Client} {ev : Event}

theorem client_eq (h : l.Holds fd cl) : l.client fd = cl := by
  unfold client
  cases cl with
  | none =>
    have hgone : l.connections[fd]? = none := h
    rw [hgone]
    rfl
  | some cl =>
    obtain ⟨c, job⟩ := cl
    have hclient : l.HasClient fd c job := h
    rw [hclient.conn, hclient.activeCgi, Option.map_some]
    cases job with
    | none => rfl
    | some p =>
      obtain ⟨x, j⟩ := p
      dsimp only [Option.map_some, Option.bind_some]
      rw [hclient.job_filed.1, Option.map_some]

theorem Coherent.holds (hl : l.Coherent) (fd : ℕ) : ∃ cl, l.Holds fd cl := by
  cases hc : l.connections[fd]? with
  | none => exact ⟨none, hc⟩
  | some c =>
    obtain ⟨job, -, hclient⟩ := hl.client fd c hc
    exact ⟨some ⟨c, job⟩, hclient⟩

/-! ### Events of the others -/

theorem Spares.holds (h : Spares x l l') (hne : fd ≠ x) (hcl : l.Holds fd cl) :
    l'.Holds fd cl := by
  cases cl with
  | none => exact (h.connections fd hne).trans hcl
  | some cl => exact (h.hasClient_iff hne).mpr hcl

/-- Nobody is accepted on the descriptor. -/
def elsewhere (fd : ℕ) : Permits := ⟨True, True, fun _ x => x ≠ fd⟩

/-- Where nobody is connected, nobody comes. -/
theorem gone_op (hl : l.connections[fd]? = none) (h : Op (elsewhere fd) l l') :
    l'.connections[fd]? = none := by
  have hfiled : ∀ {y n : ℕ}, l.Files y n → fd ≠ y := by
    rintro y n ⟨c, hc, -⟩ rfl
    rw [hl] at hc
    cases hc
  cases h with
  | @file y c hfiles => exact (connections_putConnection_ne c (hfiled hfiles)).trans hl
  | mask _ _ => exact hl
  | drop y _ =>
    rcases eq_or_ne fd y with rfl | hne
    · exact connections_closeConnection_self l fd
    · exact (connections_closeConnection_ne hne).trans hl
  | fileJob _ _ => exact hl
  | closeJob x => rwa [connections_closeCgiJob]
  | @close y _ =>
    rcases eq_or_ne fd y with rfl | hne
    · exact connections_closeClient_self l fd
    · exact (connections_closeClient_ne hne).trans hl
  | newJob _ _ _ _ _ => exact hl
  | accept _ _ _ _ hne => exact (connections_putConnection_ne _ (Ne.symm hne)).trans hl
  | forget => exact hl

theorem gone_ops (hl : l.connections[fd]? = none) (h : Ops (elsewhere fd) l l') :
    l'.connections[fd]? = none :=
  h.invariant (I := fun l => l.connections[fd]? = none) (fun _ _ => gone_op) hl

theorem allows_elsewhere (fd : ℕ) (a : KernelAnswers) : (elsewhere fd).Allows a :=
  fun _ _ _ => trivial

theorem holds_addConnections {server : Server} : ∀ (clients : List ℕ) (l : EventLoop),
    l.Sound → clients.Nodup →
    (∀ x ∈ clients, l.connections[x]? = none ∧ l.cgiJobs[x]? = none) →
    (∀ x ∈ clients, ∀ (y : ℕ) (j : CgiJob), l.cgiJobs[y]? = some j → j.clientFd ≠ x) →
    fd ∉ clients → l.Holds fd cl →
    (clients.foldl (fun l fd => l.addConnection a server fd) l).Holds fd cl := by
  intro clients
  induction clients with
  | nil => exact fun _ _ _ _ _ _ hcl => hcl
  | cons y clients ih =>
    intro l hl hnodup hfresh hunclaimed hfd hcl
    obtain ⟨hconn, hjob⟩ := hfresh y List.mem_cons_self
    obtain ⟨hnotMem, hnodup⟩ := List.nodup_cons.mp hnodup
    rw [List.mem_cons, not_or] at hfd
    obtain ⟨hne, hfd⟩ := hfd
    have hfirst := (handles_addConnection hl hconn hjob (hunclaimed y List.mem_cons_self) a
      server).serves
    refine ih _ hfirst.sound hnodup (fun x hx => ?_)
      (fun x hx => hunclaimed x (List.mem_cons_of_mem _ hx)) hfd (hfirst.spares.holds hne hcl)
    have hxy : x ≠ y := by
      rintro rfl
      exact hnotMem hx
    rw [hfirst.spares.connections x hxy]
    exact hfresh x (List.mem_cons_of_mem _ hx)

theorem holds_handleAccept {serverFd : ℕ} (hl : l.Sound) (hfresh : l.FreshClients a)
    (hunclaimed : ∀ x ∈ a.clients, l.activeCgi x = none) (hfd : fd ∉ a.clients)
    (hcl : l.Holds fd cl) : (l.handleAccept a serverFd).Holds fd cl := by
  unfold handleAccept
  split
  · exact hcl
  · exact holds_addConnections a.clients l hl hfresh.1 hfresh.2
      (fun x hx y j hj => of_decide_eq_false (Table.findKey_eq_none.mp (hunclaimed x hx) y j hj))
      hfd hcl

/-- An event of the pipe of another client's job. -/
theorem holds_cgiEvent (hl : l.Coherent) (h : l.handleCgiEvent a x = .ok l' ())
    (hother : ∀ j, l.cgiJobs[x]? = some j → fd ≠ j.clientFd) (hcl : l.Holds fd cl) :
    l'.Holds fd cl := by
  cases hj : l.cgiJobs[x]? with
  | none =>
    rw [handleCgiEvent, hj] at h
    cases h
    exact hcl
  | some j =>
    cases hc : l.connections[j.clientFd]? with
    | none =>
      rw [handleCgiEvent, hj] at h
      dsimp only at h
      rw [hc] at h
      cases h
      have hserves : Serves j.clientFd l (l.closeCgiJob x) :=
        serves_closeCgiJob hl.sound fun k hk => by
          rw [hj] at hk
          rw [← Option.some.inj hk]
      exact hserves.spares.holds (hother j hj) hcl
    | some c =>
      obtain ⟨-, hclient⟩ := hl.clientOf hj hc
      exact (handles_cgiEvent hl.sound hclient h).serves.spares.holds (hother j hj) hcl

/-- An event of another client. -/
theorem holds_clientEvent {y : ℕ} {events : EpollBits} (hl : l.Coherent)
    (hevents : ∀ ref ∈ l.eventRefs[y]?, ref.kind = .client → events.Within ref.events)
    (hpipe : l.FreshPipe a) (h : l.handleClientEvent a y events = .ok l' ()) (hne : fd ≠ y)
    (hcl : l.Holds fd cl) : l'.Holds fd cl := by
  cases hc : l.connections[y]? with
  | none =>
    rw [handleClientEvent, hc] at h
    cases h
    exact hcl
  | some c =>
    obtain ⟨job, hphase, hclient⟩ := hl.client y c hc
    obtain ⟨ref, href, hkind, hmask⟩ := hclient.armed
    have hwithin := hevents ref href hkind
    rw [hmask] at hwithin
    exact (handles_clientEvent hl.sound hclient hphase hwithin hpipe h).serves.spares.holds hne hcl

/-! ### Dispatching -/

theorem holds_dispatch {y : ℕ} {events : EpollBits} (hl : l.Coherent)
    (hpossible : l.Possible (.dispatch y events a))
    (hev : Elsewhere fd l (.dispatch y events a)) (h : l.dispatch a y events = .ok l' ())
    {cl : Client} (hcl : l.Holds fd (some cl)) :
    l'.Holds fd (cl.step fd (.dispatch y events a)) := by
  obtain ⟨c, job⟩ := cl
  have hclient : l.HasClient fd c job := hcl
  obtain ⟨job', hphase, hclient'⟩ := hl.client fd c hclient.conn
  obtain rfl := hclient'.job_eq hclient
  obtain ⟨hwithin, hfresh, hpipe⟩ := hpossible
  obtain ⟨ref₀, href₀, hkind₀, hmask₀⟩ := hclient.armed
  unfold dispatch at h
  unfold Client.step
  dsimp only
  split
  · -- the client's own descriptor
    next hy =>
    subst hy
    have hin : events.epollIn = true → c.state ≠ .cgiRunning ∧ job = none := by
      intro hin
      have hevents := hwithin ref₀ href₀ hkind₀
      rw [hmask₀] at hevents
      have hstate := state_of_epollIn hevents hin
      exact ⟨by rw [hstate]; nofun, hphase.job_of_reading hstate⟩
    rw [href₀] at h
    dsimp only at h
    rw [hkind₀, hl.sound.keyed y ref₀ href₀] at h
    exact (follows_clientEvent hl.sound hclient hin hpipe).holds h
  · next hy =>
    have helse : (∀ k, l.cgiJobs[y]? = some k → fd ≠ k.clientFd) → l'.Holds fd (some ⟨c, job⟩) := by
      intro hother
      split at h
      · cases h
        exact hcl
      · next ref href =>
        have hkey := hl.sound.keyed y ref href
        split at h
        · cases h
          exact hcl
        · cases h
          exact holds_handleAccept hl.sound hfresh hev.1 hev.2 hcl
        · rw [hkey] at h
          exact holds_cgiEvent hl h hother hcl
        · rw [hkey] at h
          exact holds_clientEvent hl hwithin hpipe h (Ne.symm hy) hcl
    cases job with
    | none =>
      refine helse fun k hk hfd => ?_
      have hnone := (hclient.jobs y k).mp ⟨hk, hfd.symm⟩
      cases hnone
    | some p =>
      obtain ⟨x, j⟩ := p
      dsimp only
      split
      · -- the pipe of its job
        next hyx =>
        subst hyx
        obtain ⟨ref, href, hkind⟩ := hl.sound.armed y j hclient.job_filed.1
        rw [href] at h
        dsimp only at h
        rw [hkind, hl.sound.keyed y ref href] at h
        exact (follows_cgiEvent hl.sound hclient).holds h
      · next hyx =>
        refine helse fun k hk hfd => ?_
        have hfiled := (hclient.jobs y k).mp ⟨hk, hfd.symm⟩
        exact hyx (Prod.mk.inj (Option.some.inj hfiled)).1.symm

/-! ### The sweeps -/

theorem holds_closeTimedOutClients : ∀ (fds : List ℕ) (l l' : EventLoop) (cl : Option Client),
    l.Coherent → forEach (closeTimedOutClient a) fds l = .ok l' () → l.Holds fd cl →
      l'.Holds fd (if fd ∈ fds then none else cl) := by
  intro fds
  induction fds with
  | nil =>
    intro l l' cl _ h hcl
    cases h
    exact hcl
  | cons y fds ih =>
    intro l l' cl hl h hcl
    rw [forEach] at h
    cases hfirst : closeTimedOutClient a l y with
    | bodyLimit l₁ =>
      rw [hfirst] at h
      cases h
    | ok l₁ u =>
      rw [hfirst] at h
      have hl₁ := (turns_closeTimedOutClient hl hfirst).coherent
      -- what has become of the first one
      have hclosed : l₁.connections[y]? = none ∧ (fd ≠ y → l₁.Holds fd cl) := by
        cases hc : l.connections[y]? with
        | none =>
          rw [closeTimedOutClient, hc] at hfirst
          cases hfirst
          exact ⟨hc, fun _ => hcl⟩
        | some c =>
          obtain ⟨job, -, hclient⟩ := hl.client y c hc
          obtain ⟨hserves, hgone⟩ := serves_closeTimedOutClient hl.sound hclient hfirst
          exact ⟨hgone, fun hne => hserves.spares.holds hne hcl⟩
      rcases eq_or_ne fd y with rfl | hne
      · have hrest := ih l₁ l' none hl₁ h hclosed.1
        rw [ite_self] at hrest
        rw [if_pos List.mem_cons_self]
        exact hrest
      · have hrest := ih l₁ l' cl hl₁ h (hclosed.2 hne)
        have hmem : fd ∈ y :: fds ↔ fd ∈ fds := by
          rw [List.mem_cons, or_iff_right hne]
        rwa [if_congr hmem rfl rfl]

/-- A client whose job is one of those that are ended. -/
def Client.expire (a : KernelAnswers) (fd : ℕ) (xs : List ℕ) (cl : Client) : Option Client :=
  match cl.job with
  | some (x, j) =>
      if x ∈ xs then (settle a fd x (failCgiJob a.env 504 cl.conn j)).state else some cl
  | none => some cl

/-- A job ends once. -/
theorem expire_settle {l₁ : EventLoop} (h : l.settle a x fd (failCgiJob a.env 504 c j) = .ok l₁ ())
    (xs : List ℕ) :
    (Client.settle a fd x (failCgiJob a.env 504 c j)).state.bind (Client.expire a fd xs) =
      (Client.settle a fd x (failCgiJob a.env 504 c j)).state := by
  rcases over_failCgiJob a.env 504 c j with ⟨c', hover⟩ | ⟨c', hover⟩
  · rw [hover]
    unfold Client.settle Client.rearm
    dsimp only [Outcome.state_ok]
    split
    · rfl
    · rfl
  · rw [hover] at h
    cases h

/-- The end of another client's job. -/
theorem holds_closeTimedOutCgiJob (hl : l.Coherent) (h : closeTimedOutCgiJob a l x = .ok l' ())
    (hother : ∀ j, l.cgiJobs[x]? = some j → fd ≠ j.clientFd) (hcl : l.Holds fd cl) :
    l'.Holds fd cl := by
  cases hj : l.cgiJobs[x]? with
  | none =>
    rw [closeTimedOutCgiJob, hj] at h
    cases h
    exact hcl
  | some j =>
    cases hc : l.connections[j.clientFd]? with
    | none =>
      rw [closeTimedOutCgiJob, hj] at h
      dsimp only at h
      rw [hc] at h
      cases h
      have hserves : Serves j.clientFd l (l.closeCgiJob x) :=
        serves_closeCgiJob hl.sound fun k hk => by
          rw [hj] at hk
          rw [← Option.some.inj hk]
      exact hserves.spares.holds (hother j hj) hcl
    | some c =>
      obtain ⟨-, hclient⟩ := hl.clientOf hj hc
      rw [closeTimedOutCgiJob, hj] at h
      dsimp only at h
      rw [hc] at h
      exact (handles_settle hl.sound hclient (callEnd_failCgiJob a.env 504 c j)
        h).serves.spares.holds (hother j hj) hcl

theorem holds_closeTimedOutCgiJobs : ∀ (xs : List ℕ) (l l' : EventLoop) (cl : Option Client),
    l.Coherent → forEach (closeTimedOutCgiJob a) xs l = .ok l' () → l.Holds fd cl →
      l'.Holds fd (cl.bind (Client.expire a fd xs)) := by
  intro xs
  induction xs with
  | nil =>
    intro l l' cl _ h hcl
    cases h
    have hsame : cl.bind (Client.expire a fd []) = cl := by
      rcases cl with _ | ⟨c, _ | ⟨x, j⟩⟩
      · rfl
      · rfl
      · rw [Option.bind_some, Client.expire]
        exact if_neg List.not_mem_nil
    rwa [hsame]
  | cons y xs ih =>
    intro l l' cl hl h hcl
    rw [forEach] at h
    cases hfirst : closeTimedOutCgiJob a l y with
    | bodyLimit l₁ =>
      rw [hfirst] at h
      cases h
    | ok l₁ u =>
      rw [hfirst] at h
      have hl₁ := (turns_closeTimedOutCgiJob hl hfirst).coherent
      rcases cl with _ | ⟨c, job⟩
      · have hops := ops_closeTimedOutCgiJob (allows_elsewhere fd a) l y
        rw [hfirst] at hops
        exact ih l₁ l' none hl₁ h (gone_ops hcl hops)
      · have hclient : l.HasClient fd c job := hcl
        by_cases hown : ∃ j, job = some (y, j)
        · -- the client's own job ends, and no other job of the list is its own
          obtain ⟨j, rfl⟩ := hown
          obtain ⟨hfiled, hfd⟩ := hclient.job_filed
          rw [closeTimedOutCgiJob, hfiled] at hfirst
          dsimp only at hfirst
          rw [hfd, hclient.conn] at hfirst
          have hsettled := (follows_settle (a := a) hl.sound hclient
            (callEnd_failCgiJob a.env 504 c j)).holds hfirst
          have hrest := ih l₁ l' _ hl₁ h hsettled
          rw [expire_settle hfirst] at hrest
          have hexpire : Client.expire a fd (y :: xs) ⟨c, some (y, j)⟩ =
              (Client.settle a fd y (failCgiJob a.env 504 c j)).state :=
            if_pos List.mem_cons_self
          rwa [Option.bind_some, hexpire]
        · have hrest := ih l₁ l' _ hl₁ h <| holds_closeTimedOutCgiJob hl hfirst
            (fun j hj hfd => hown ⟨j, (hclient.jobs y j).mp ⟨hj, hfd.symm⟩⟩) hcl
          have hexpire : Client.expire a fd (y :: xs) ⟨c, job⟩ =
              Client.expire a fd xs ⟨c, job⟩ := by
            rcases job with _ | ⟨x, j⟩
            · rfl
            · have hne : x ≠ y := by
                rintro rfl
                exact hown ⟨j, rfl⟩
              unfold Client.expire
              dsimp only
              rw [if_congr (by rw [List.mem_cons, or_iff_right hne]) rfl rfl]
          rwa [Option.bind_some, hexpire]

theorem holds_sweep (hl : l.Coherent) (h : l.sweep a = .ok l' ()) {cl : Client}
    (hcl : l.Holds fd (some cl)) : l'.Holds fd (cl.sweep a fd) := by
  obtain ⟨c, job⟩ := cl
  have hclient : l.HasClient fd c job := hcl
  have hcl₀ : Holds { l with staleRefs := [] } fd (some ⟨c, job⟩) :=
    ⟨hclient.conn, hclient.jobs, hclient.armed⟩
  unfold sweep at h
  cases hclients : closeTimedOutClients { l with staleRefs := [] } a with
  | bodyLimit l₁ =>
    rw [hclients] at h
    cases h
  | ok l₁ u =>
    rw [hclients] at h
    -- the two sweeps one after another: the client in the state that each leaves
    have hl₁ := (turns_forEach_close (fun _ _ _ => turns_closeTimedOutClient) _ _ _ hl.dropStale
      hclients).coherent
    have hfirst := holds_closeTimedOutClients _ _ _ _ hl.dropStale hclients hcl₀
    have hsecond := holds_closeTimedOutCgiJobs _ _ _ _ hl₁ h hfirst
    have hidle : fd ∈ getTimedOutFds { l with staleRefs := [] } a.env.now ↔
        (c.state ≠ .cgiRunning && c.isTimedOut c.config.timeoutSeconds a.env.now) = true := by
      unfold getTimedOutFds
      rw [Table.mem_keysWhere]
      constructor
      · rintro ⟨c', hc', hidle⟩
        have heq : c' = c := Option.some.inj (hc'.symm.trans hclient.conn)
        rwa [heq] at hidle
      · exact fun hidle => ⟨c, hclient.conn, hidle⟩
    unfold Client.sweep
    dsimp only
    rw [if_congr hidle rfl rfl] at hfirst hsecond
    split
    · next hup =>
      rwa [if_pos hup] at hsecond
    · next hup =>
      rw [if_neg hup] at hfirst hsecond
      rcases job with _ | ⟨x, j⟩
      · exact hsecond
      · -- whether the job is swept depends on the job alone
        have hfiled : l₁.cgiJobs[x]? = some j := (HasClient.job_filed hfirst).1
        have hmem : x ∈ l₁.cgiJobs.keysWhere (·.isTimedOut a.env.now) ↔
            j.isTimedOut a.env.now = true := by
          rw [Table.mem_keysWhere]
          constructor
          · rintro ⟨j', hj', hup'⟩
            rw [hfiled] at hj'
            rwa [Option.some.inj hj']
          · exact fun hup' => ⟨j, hfiled, hup'⟩
        have hexpire : Client.expire a fd (l₁.cgiJobs.keysWhere (·.isTimedOut a.env.now))
            ⟨c, some (x, j)⟩ = if j.isTimedOut a.env.now then
              (Client.settle a fd x (failCgiJob a.env 504 c j)).state
            else some ⟨c, some (x, j)⟩ := if_congr hmem rfl rfl
        rw [Option.bind_some, hexpire] at hsecond
        exact hsecond

/-! ### Runs -/

/-- **What one event makes of a client.** -/
theorem holds_step (hl : l.Coherent) (hpossible : l.Possible ev) (hev : Elsewhere fd l ev)
    (h : l.step ev = .ok l' ()) (hcl : l.Holds fd cl) :
    l'.Holds fd (cl.bind (Client.step fd ev)) := by
  cases cl with
  | none =>
    have hops := ops_step (p := elsewhere fd) (allows_elsewhere fd ev.answers) trivial hpossible
      fun x hx hfd => hev.2 (hfd ▸ hx)
    rw [h] at hops
    exact gone_ops hcl hops
  | some cl =>
    cases ev with
    | dispatch y events a => exact holds_dispatch hl hpossible hev h hcl
    | sweep a => exact holds_sweep hl h hcl

/-- The events of a run, for a loop that is coherent. -/
theorem holds_run : ∀ (es : List Event) (l : EventLoop) (cl : Option Client), l.Coherent →
    l.Holds fd cl → Run.Meets next (Returns (Elsewhere fd)) l es →
      (es.foldl next l).Holds fd (Client.run fd es cl) := by
  intro es
  induction es with
  | nil => exact fun _ _ _ hcl _ => hcl
  | cons ev es ih =>
    rintro l cl hl hcl ⟨⟨hpossible, hev, hreturns⟩, hrest⟩
    have hstep := Outcome.eq_ok_of_threw hreturns
    exact ih _ _ (turns_step hl hpossible hev.1 hstep).coherent
      (holds_step hl hpossible hev hstep hcl) hrest

/-! ### What a client hears -/

/-- The event is one of the client `fd`. -/
def Client.Hears (fd : ℕ) (ev : Event) (cl : Client) : Prop :=
  match ev with
  | .dispatch y _ _ => y = fd ∨ y ∈ cl.job.map Prod.fst
  | .sweep a =>
      (cl.conn.state ≠ .cgiRunning ∧
        cl.conn.isTimedOut cl.conn.config.timeoutSeconds a.env.now = true) ∨
      ∃ p ∈ cl.job, p.2.isTimedOut a.env.now = true

instance (fd : ℕ) (ev : Event) (cl : Client) : Decidable (cl.Hears fd ev) :=
  match ev with
  | .dispatch _ _ _ => inferInstanceAs (Decidable (_ ∨ _))
  | .sweep _ => inferInstanceAs (Decidable (_ ∨ _))

/-- The events of a run that the client hears as long as it is connected. -/
def heard (fd : ℕ) : EventLoop → List Event → List Event
  | _, [] => []
  | l, ev :: es =>
      if ∃ cl ∈ l.client fd, cl.Hears fd ev then ev :: heard fd (next l ev) es
      else heard fd (next l ev) es

theorem heard_cons_of_hears {es : List Event} (h : ∃ cl ∈ l.client fd, cl.Hears fd ev) :
    heard fd l (ev :: es) = ev :: heard fd (next l ev) es := if_pos h

theorem heard_cons_of_not_hears {es : List Event} (h : ¬ ∃ cl ∈ l.client fd, cl.Hears fd ev) :
    heard fd l (ev :: es) = heard fd (next l ev) es := if_neg h

/-- An event that it does not hear leaves the client as it is. -/
theorem Client.step_eq_self {cl : Client} (h : ¬ cl.Hears fd ev) : cl.step fd ev = some cl := by
  obtain ⟨c, job⟩ := cl
  cases ev with
  | dispatch y events a =>
    have hy : y ≠ fd := fun hy => h (Or.inl hy)
    unfold Client.step
    dsimp only
    rw [if_neg hy]
    rcases job with _ | ⟨x, j⟩
    · rfl
    · have hyx : y ≠ x := by
        rintro rfl
        exact h (Or.inr rfl)
      dsimp only
      rw [if_neg hyx]
  | sweep a =>
    have hidle : ¬ (c.state ≠ .cgiRunning && c.isTimedOut c.config.timeoutSeconds a.env.now) =
        true := by
      intro hidle
      rw [Bool.and_eq_true, decide_eq_true_eq] at hidle
      exact h (Or.inl hidle)
    show Client.sweep a fd ⟨c, job⟩ = some ⟨c, job⟩
    unfold Client.sweep
    dsimp only
    rw [if_neg hidle]
    rcases job with _ | ⟨x, j⟩
    · rfl
    · have hup : ¬ j.isTimedOut a.env.now = true := fun hup => h (Or.inr ⟨(x, j), rfl, hup⟩)
      dsimp only
      rw [if_neg hup]

/-- The client goes through what it hears. -/
theorem holds_heard : ∀ (es : List Event) (l : EventLoop) (cl : Option Client), l.Coherent →
    l.Holds fd cl → Run.Meets next (Returns (Elsewhere fd)) l es →
      (es.foldl next l).Holds fd (Client.run fd (heard fd l es) cl) := by
  intro es
  induction es with
  | nil => exact fun _ _ _ hcl _ => hcl
  | cons ev es ih =>
    rintro l cl hl hcl ⟨⟨hpossible, hev, hreturns⟩, hrest⟩
    have hstep := Outcome.eq_ok_of_threw hreturns
    have hcl' := holds_step hl hpossible hev hstep hcl
    have htail := ih _ _ (turns_step hl hpossible hev.1 hstep).coherent hcl' hrest
    have hclient := client_eq hcl
    cases cl with
    | none =>
      rw [heard_cons_of_not_hears (by rw [hclient]; rintro ⟨cl, ⟨⟩, -⟩)]
      exact htail
    | some cl =>
      by_cases hhears : cl.Hears fd ev
      · rw [heard_cons_of_hears ⟨cl, hclient, hhears⟩]
        exact htail
      · rw [heard_cons_of_not_hears (by rw [hclient]; rintro ⟨cl', ⟨⟩, h⟩; exact hhears h)]
        rwa [Option.bind_some, Client.step_eq_self hhears] at htail

end

/-- **A client of the loop is a client by itself**: whatever happens to the other clients in
between, a run makes of it what its own events make of it. -/
theorem client_run {listeners : List Listener} {l : EventLoop} (hl : Reaches Unclaimed listeners l)
    {fd : ℕ} {es : List Event} (hes : Run.Meets next (Returns (Elsewhere fd)) l es) :
    (es.foldl next l).client fd = Client.run fd es (l.client fd) := by
  have hcoherent := hl.coherent fun _ _ h => h
  obtain ⟨cl, hcl⟩ := hcoherent.holds fd
  rw [client_eq hcl]
  exact client_eq (holds_run es l cl hcoherent hcl hes)

/-- A client is connected, and nobody else. -/
def firstClient : List Event :=
  [.dispatch 3 { epollIn := true } { quiet 0 with clients := [5] }]

/-- A loop with one listening socket. -/
def firstLoop : EventLoop := start [⟨3, scriptServer 100000⟩]

/-- It asks for a script. -/
private def asks : Event :=
  .dispatch 5 { epollIn := true } { quiet 0 with
    recvs := [.data (ascii "GET /cgi/x.py HTTP/1.1\r\nHost: x\r\n\r\n") .none]
    pipe := some 7 }

/-- The script writes. -/
private def answers : Event :=
  .dispatch 7 { epollIn := true } { quiet 1 with
    reads := fun _ => .data (ascii "A: b\r\n\r\nhello") }

/-- The client takes some of it. -/
private def takes : Event :=
  .dispatch 5 { epollOut := true } { quiet 2 with takes := fun _ => [20] }

/-- In between, a second client comes, asks for a script as well, and hangs up. -/
private def shared : List Event :=
  [asks, .dispatch 3 { epollIn := true } { quiet 0 with clients := [6, 8] },
    .dispatch 6 { epollIn := true } { quiet 0 with
      recvs := [.data (ascii "GET /cgi/x.py HTTP/1.1\r\nHost: x\r\n\r\n") .none]
      pipe := some 9 },
    answers, .dispatch 6 { epollHup := true } (quiet 1), takes, .sweep (quiet 2)]

theorem reaches_firstClient : Reaches Unclaimed [⟨3, scriptServer 100000⟩]
    (firstClient.foldl next firstLoop) := reaches_of_meets (by decide +kernel)

private theorem meets_shared :
    Run.Meets next (Returns (Elsewhere 5)) (firstClient.foldl next firstLoop) shared := by
  decide +kernel

theorem client_run_shared :
    (shared.foldl next (firstClient.foldl next firstLoop)).client 5 =
      Client.run 5 shared ((firstClient.foldl next firstLoop).client 5) :=
  client_run reaches_firstClient meets_shared

/-- **Clients do not disturb each other**: a client that hears the same in two runs ends in the
same way, whatever else the two loops serve. -/
theorem client_eq_of_heard_eq {listeners listeners' : List Listener} {l l' : EventLoop}
    (hl : Reaches Unclaimed listeners l) (hl' : Reaches Unclaimed listeners' l') {fd : ℕ}
    {es es' : List Event} (hes : Run.Meets next (Returns (Elsewhere fd)) l es)
    (hes' : Run.Meets next (Returns (Elsewhere fd)) l' es') (hclient : l.client fd = l'.client fd)
    (hheard : heard fd l es = heard fd l' es') :
    (es.foldl next l).client fd = (es'.foldl next l').client fd := by
  have hcoherent := hl.coherent fun _ _ h => h
  have hcoherent' := hl'.coherent fun _ _ h => h
  obtain ⟨cl, hcl⟩ := hcoherent.holds fd
  obtain ⟨cl', hcl'⟩ := hcoherent'.holds fd
  rw [client_eq hcl, client_eq hcl'] at hclient
  subst hclient
  rw [client_eq (holds_heard es l cl hcoherent hcl hes),
    client_eq (holds_heard es' l' cl hcoherent' hcl' hes'), hheard]

private theorem meets_alone :
    Run.Meets next (Returns (Elsewhere 5)) (firstClient.foldl next firstLoop)
      [asks, answers, takes] := by decide +kernel

theorem client_eq_of_heard_eq_shared :
    (shared.foldl next (firstClient.foldl next firstLoop)).client 5 =
      ([asks, answers, takes].foldl next (firstClient.foldl next firstLoop)).client 5 := by
  have hshared : heard 5 (firstClient.foldl next firstLoop) shared = [asks, answers, takes] := by
    rw [shared, heard_cons_of_hears, heard_cons_of_not_hears, heard_cons_of_not_hears,
      heard_cons_of_hears, heard_cons_of_not_hears, heard_cons_of_hears, heard_cons_of_not_hears,
      heard]
    all_goals decide +kernel
  have halone : heard 5 (firstClient.foldl next firstLoop) [asks, answers, takes] =
      [asks, answers, takes] := by
    rw [heard_cons_of_hears, heard_cons_of_hears, heard_cons_of_hears, heard]
    all_goals decide +kernel
  exact client_eq_of_heard_eq reaches_firstClient reaches_firstClient meets_shared meets_alone rfl
    (hshared.trans halone.symm)

end EventLoop

end Webserv
