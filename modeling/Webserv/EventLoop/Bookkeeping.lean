import Webserv.EventLoop.Operations
import Webserv.EventLoop.IdleTimeout

/-!
# The books of the event loop

When every mask can be changed, each operation keeps the books: the references of clients and of
pipes are those of the connections and of the jobs that are filed, a reference that is stale is
invalid and filed no more, and the client of a job is connected.  With what is known of the
clients of a coherent loop this is `BooksBalance`.

## Main results

* `Books.op` — the operations keep the books.
* `booksBalance_of_reaches` — **the books balance in every state of a run**.
-/

namespace Webserv

open Bytes

namespace EventLoop

/-! ### References -/

/-- The references: each has its own number, and the stale ones are invalid and not filed. -/
structure RefsApart (l : EventLoop) : Prop where
  keyed : l.Keyed
  made : ∀ (x : ℕ) (ref : EventRef), l.eventRefs[x]? = some ref → ref.serial < l.serial
  distinct : ∀ (x y : ℕ) (ref ref' : EventRef), l.eventRefs[x]? = some ref →
    l.eventRefs[y]? = some ref' → ref.serial = ref'.serial → x = y
  invalid : ∀ stale ∈ l.staleRefs, stale.kind = .invalid
  staleMade : ∀ stale ∈ l.staleRefs, stale.serial < l.serial
  apart : ∀ stale ∈ l.staleRefs, ∀ (x : ℕ) (ref : EventRef), l.eventRefs[x]? = some ref →
    ref.serial ≠ stale.serial

/-- What is registered under a descriptor. -/
def kindOf (l : EventLoop) (x : ℕ) : Option EventKind := (l.eventRefs[x]?).map (·.kind)

/-- The books of the loop. -/
structure Books (l : EventLoop) : Prop where
  refs : l.RefsApart
  clients : ∀ fd, (l.connections[fd]?).isSome ↔ l.kindOf fd = some .client
  jobs : ∀ x, (l.cgiJobs[x]?).isSome ↔ l.kindOf x = some .cgi
  connected : ∀ (x : ℕ) (j : CgiJob), l.cgiJobs[x]? = some j →
    (l.connections[j.clientFd]?).isSome

section

variable {l l' : EventLoop} {fd x y : ℕ} {kind : EventKind} {events : EpollBits}

theorem RefsApart.congr (h : l.RefsApart) (hrefs : l'.eventRefs = l.eventRefs)
    (hstale : l'.staleRefs = l.staleRefs) (hserial : l'.serial = l.serial) : l'.RefsApart := by
  obtain ⟨hkeyed, hmade, hdistinct, hinvalid, hstaleMade, hapart⟩ := h
  rw [← hrefs] at hmade hdistinct hapart
  rw [← hstale] at hinvalid hstaleMade hapart
  rw [← hserial] at hmade hstaleMade
  refine ⟨fun x ref href => hkeyed x ref (hrefs ▸ href), hmade, hdistinct, hinvalid, hstaleMade,
    hapart⟩

/-- The reference that is made has a new number. -/
theorem RefsApart.registerEventFd (h : l.RefsApart) (fd : ℕ) (kind : EventKind)
    (events : EpollBits) : (l.registerEventFd fd kind events).RefsApart := by
  have hnew : (l.registerEventFd fd kind events).eventRefs[fd]? =
      some ⟨kind, fd, l.serial, events⟩ := eventRefs_registerEventFd_self kind events
  have hcases : ∀ (x : ℕ) (ref : EventRef),
      (l.registerEventFd fd kind events).eventRefs[x]? = some ref →
        (x = fd ∧ ref.serial = l.serial) ∨ (x ≠ fd ∧ l.eventRefs[x]? = some ref) := by
    intro x ref href
    rcases eq_or_ne x fd with rfl | hne
    · rw [hnew, Option.some.injEq] at href
      exact Or.inl ⟨rfl, by rw [← href]⟩
    · rw [eventRefs_registerEventFd_ne kind events hne] at href
      exact Or.inr ⟨hne, href⟩
  refine ⟨h.keyed.registerEventFd fd kind events, ?_, ?_, h.invalid,
    fun stale hstale => Nat.lt_succ_of_lt (h.staleMade stale hstale), ?_⟩
  · intro x ref href
    rcases hcases x ref href with ⟨-, hserial⟩ | ⟨-, hold⟩
    · exact hserial ▸ Nat.lt_succ_self l.serial
    · exact Nat.lt_succ_of_lt (h.made x ref hold)
  · intro x y ref ref' href href' hsame
    rcases hcases x ref href with ⟨rfl, hserial⟩ | ⟨-, hold⟩
    · rcases hcases y ref' href' with ⟨rfl, -⟩ | ⟨-, hold'⟩
      · rfl
      · have hlt := h.made y ref' hold'
        omega
    · rcases hcases y ref' href' with ⟨rfl, hserial'⟩ | ⟨-, hold'⟩
      · have hlt := h.made x ref hold
        omega
      · exact h.distinct x y ref ref' hold hold' hsame
  · intro stale hstale x ref href
    rcases hcases x ref href with ⟨-, hserial⟩ | ⟨-, hold⟩
    · have hlt := h.staleMade stale hstale
      omega
    · exact h.apart stale hstale x ref hold

/-- The reference that goes is the stale one. -/
theorem RefsApart.unregisterEventFd (h : l.RefsApart) (fd : ℕ) :
    (l.unregisterEventFd fd).RefsApart := by
  have hkeyed := h.keyed.unregisterEventFd fd
  unfold EventLoop.unregisterEventFd at hkeyed ⊢
  split at hkeyed
  · exact h
  · next gone hgone =>
    have hcases : ∀ (x : ℕ) (ref : EventRef), (l.eventRefs.erase fd)[x]? = some ref →
        x ≠ fd ∧ l.eventRefs[x]? = some ref := by
      intro x ref href
      rcases eq_or_ne x fd with rfl | hne
      · rw [Std.TreeMap.getElem?_erase_self] at href
        cases href
      · exact ⟨hne, (Table.getElem?_erase_ne _ hne).symm.trans href⟩
    refine ⟨hkeyed, fun x ref href => h.made x ref (hcases x ref href).2,
      fun x y ref ref' href href' =>
        h.distinct x y ref ref' (hcases x ref href).2 (hcases y ref' href').2, ?_, ?_, ?_⟩
    · intro stale hstale
      rcases List.mem_append.mp hstale with hold | hnew
      · exact h.invalid stale hold
      · rw [List.mem_singleton.mp hnew]
    · intro stale hstale
      rcases List.mem_append.mp hstale with hold | hnew
      · exact h.staleMade stale hold
      · rw [List.mem_singleton.mp hnew]
        exact h.made fd gone hgone
    · intro stale hstale x ref href
      obtain ⟨hne, hfiled⟩ := hcases x ref href
      rcases List.mem_append.mp hstale with hold | hnew
      · exact h.apart stale hold x ref hfiled
      · rw [List.mem_singleton.mp hnew]
        exact fun hsame => hne (h.distinct x fd ref gone hfiled hgone hsame)

theorem RefsApart.mask {ref : EventRef} (h : l.RefsApart) (href : l.eventRefs[fd]? = some ref)
    (events : EpollBits) :
    RefsApart { l with eventRefs := l.eventRefs.insert fd { ref with events := events } } := by
  have hcases : ∀ (x : ℕ) (ref' : EventRef),
      (l.eventRefs.insert fd { ref with events := events })[x]? = some ref' →
        ∃ old, l.eventRefs[x]? = some old ∧ ref'.fd = old.fd ∧ ref'.serial = old.serial := by
    intro x ref' href'
    rcases eq_or_ne x fd with rfl | hne
    · rw [Std.TreeMap.getElem?_insert_self, Option.some.injEq] at href'
      exact ⟨ref, href, by rw [← href'], by rw [← href']⟩
    · rw [Table.getElem?_insert_ne _ _ hne] at href'
      exact ⟨ref', href', rfl, rfl⟩
  refine ⟨?_, ?_, ?_, h.invalid, h.staleMade, ?_⟩
  · intro x ref' href'
    obtain ⟨old, hold, hfd, -⟩ := hcases x ref' href'
    exact hfd.trans (h.keyed x old hold)
  · intro x ref' href'
    obtain ⟨old, hold, -, hserial⟩ := hcases x ref' href'
    exact hserial ▸ h.made x old hold
  · intro x y ref₁ ref₂ href₁ href₂ hsame
    obtain ⟨old₁, hold₁, -, hserial₁⟩ := hcases x ref₁ href₁
    obtain ⟨old₂, hold₂, -, hserial₂⟩ := hcases y ref₂ href₂
    exact h.distinct x y old₁ old₂ hold₁ hold₂ (hserial₁.symm.trans (hsame.trans hserial₂))
  · intro stale hstale x ref' href'
    obtain ⟨old, hold, -, hserial⟩ := hcases x ref' href'
    exact hserial ▸ h.apart stale hstale x old hold

/-! ### Kinds -/

theorem kindOf_registerEventFd_self (l : EventLoop) (fd : ℕ) (kind : EventKind)
    (events : EpollBits) : (l.registerEventFd fd kind events).kindOf fd = some kind := by
  rw [kindOf, eventRefs_registerEventFd_self]
  rfl

theorem kindOf_registerEventFd_ne (kind : EventKind) (events : EpollBits) (h : x ≠ fd) :
    (l.registerEventFd fd kind events).kindOf x = l.kindOf x := by
  rw [kindOf, eventRefs_registerEventFd_ne kind events h]
  rfl

theorem kindOf_unregisterEventFd_self (l : EventLoop) (fd : ℕ) :
    (l.unregisterEventFd fd).kindOf fd = none := by
  rw [kindOf, eventRefs_unregisterEventFd_self]
  rfl

theorem kindOf_unregisterEventFd_ne (h : x ≠ fd) :
    (l.unregisterEventFd fd).kindOf x = l.kindOf x := by
  rw [kindOf, eventRefs_unregisterEventFd_ne h]
  rfl

/-- A mask says nothing about the kind. -/
theorem kindOf_mask {ref : EventRef} (href : l.eventRefs[fd]? = some ref) (x : ℕ) :
    kindOf { l with eventRefs := l.eventRefs.insert fd { ref with events := events } } x =
      l.kindOf x := by
  unfold kindOf
  rcases eq_or_ne x fd with rfl | hne
  · have hself : (l.eventRefs.insert x { ref with events := events })[x]? =
        some { ref with events := events } := Std.TreeMap.getElem?_insert_self
    dsimp only
    rw [hself, href]
    rfl
  · exact congrArg _ (Table.getElem?_insert_ne _ _ hne)

/-! ### The operations -/

/-- Nothing but a connection, a job or a mask is another one. -/
theorem Books.congr (hl : l.Books) (hrefs : l'.RefsApart)
    (hconns : ∀ fd : ℕ, (l'.connections[fd]?).isSome = (l.connections[fd]?).isSome)
    (hjobs : ∀ x : ℕ, (l'.cgiJobs[x]?).isSome = (l.cgiJobs[x]?).isSome)
    (hclients : ∀ (x : ℕ) (j' : CgiJob), l'.cgiJobs[x]? = some j' →
      ∃ j, l.cgiJobs[x]? = some j ∧ j'.clientFd = j.clientFd)
    (hkinds : ∀ x, l'.kindOf x = l.kindOf x) : l'.Books where
  refs := hrefs
  clients fd := by rw [hconns, hkinds]; exact hl.clients fd
  jobs x := by rw [hjobs, hkinds]; exact hl.jobs x
  connected := by
    intro x j' hj'
    obtain ⟨j, hj, hclient⟩ := hclients x j' hj'
    rw [hconns, hclient]
    exact hl.connected x j hj

/-- A client's descriptor is not a pipe's. -/
theorem Books.ne_of_job (hl : l.Books) {j : CgiJob} (hj : l.cgiJobs[x]? = some j)
    (hfd : (l.connections[fd]?).isSome) : x ≠ fd := by
  rintro rfl
  have hclient := (hl.clients x).mp hfd
  have hcgi := (hl.jobs x).mp (by rw [hj]; rfl)
  rw [hclient] at hcgi
  cases hcgi

theorem Books.closeCgiJob (hl : l.Books) (x : ℕ) : (l.closeCgiJob x).Books := by
  cases hj : l.cgiJobs[x]? with
  | none =>
    rw [closeCgiJob_of_none hj]
    exact hl
  | some j =>
    have heq : l.closeCgiJob x = { l.unregisterEventFd x with cgiJobs := l.cgiJobs.erase x } := by
      rw [EventLoop.closeCgiJob, hj]
    have hkind : ∀ y, (l.closeCgiJob x).kindOf y = (l.unregisterEventFd x).kindOf y := by
      intro y
      rw [heq]
      rfl
    have hnone : l.connections[x]? = none := by
      rw [← Option.not_isSome_iff_eq_none]
      exact fun hsome => hl.ne_of_job hj hsome rfl
    constructor
    · rw [heq]
      exact (hl.refs.unregisterEventFd x).congr rfl rfl rfl
    · intro fd
      rw [connections_closeCgiJob, hkind]
      rcases eq_or_ne fd x with rfl | hne
      · rw [kindOf_unregisterEventFd_self, hnone]
        simp
      · rw [kindOf_unregisterEventFd_ne hne]
        exact hl.clients fd
    · intro y
      rw [hkind]
      rcases eq_or_ne y x with rfl | hne
      · rw [kindOf_unregisterEventFd_self, cgiJobs_closeCgiJob_self]
        simp
      · rw [kindOf_unregisterEventFd_ne hne, cgiJobs_closeCgiJob_ne hne]
        exact hl.jobs y
    · intro y k hk
      rw [connections_closeCgiJob]
      rcases eq_or_ne y x with rfl | hne
      · rw [cgiJobs_closeCgiJob_self] at hk
        cases hk
      · rw [cgiJobs_closeCgiJob_ne hne] at hk
        exact hl.connected y k hk

theorem Books.closeCgiJobs : ∀ (ks : List ℕ) (l : EventLoop), l.Books →
    (ks.foldl EventLoop.closeCgiJob l).Books := by
  intro ks
  induction ks with
  | nil => exact fun _ hl => hl
  | cons k ks ih => exact fun _ hl => ih _ (hl.closeCgiJob k)

/-- A client goes with its reference, and nobody works for it any more. -/
theorem Books.closeClient (hl : l.Books)
    (hfd : (∃ c, l.connections[fd]? = some c) ∨ l.eventRefs[fd]? = none) :
    (l.closeClient fd).Books := by
  have hjobs : (l.closeCgiJobsForClient fd).Books := Books.closeCgiJobs _ l hl
  have hconns : (l.closeCgiJobsForClient fd).connections = l.connections :=
    connections_closeCgiJobs _ l
  -- what is registered under the descriptor is the client or nothing
  have hkind : (l.closeCgiJobsForClient fd).kindOf fd ≠ some .cgi := by
    rcases hfd with ⟨c, hc⟩ | hnone
    · have hclient := (hjobs.clients fd).mp (by rw [hconns, hc]; rfl)
      rw [hclient]
      nofun
    · have hgone : (l.closeCgiJobsForClient fd).eventRefs[fd]? = none :=
        eventRefs_closeCgiJobs_none _ l hnone
      rw [kindOf, hgone]
      nofun
  constructor
  · exact (hjobs.refs.unregisterEventFd fd).congr rfl rfl rfl
  · intro y
    show ((l.closeClient fd).connections[y]?).isSome ↔
      ((l.closeCgiJobsForClient fd).unregisterEventFd fd).kindOf y = _
    rcases eq_or_ne y fd with rfl | hne
    · rw [kindOf_unregisterEventFd_self, connections_closeClient_self]
      simp
    · rw [kindOf_unregisterEventFd_ne hne, connections_closeClient_ne hne, ← hconns]
      exact hjobs.clients y
  · intro y
    show ((((l.closeCgiJobsForClient fd).unregisterEventFd fd).cgiJobs)[y]?).isSome ↔
      ((l.closeCgiJobsForClient fd).unregisterEventFd fd).kindOf y = _
    rw [cgiJobs_unregisterEventFd, hjobs.jobs y]
    rcases eq_or_ne y fd with rfl | hne
    · rw [kindOf_unregisterEventFd_self]
      simp [hkind]
    · rw [kindOf_unregisterEventFd_ne hne]
  · intro y k hk
    have hne := clientFd_ne_of_closeClient hk
    have hfiled : (l.closeCgiJobsForClient fd).cgiJobs[y]? = some k := by
      rwa [EventLoop.closeClient, cgiJobs_closeConnection, cgiJobs_unregisterEventFd] at hk
    rw [connections_closeClient_ne hne, ← hconns]
    exact hjobs.connected y k hfiled

/-- Every mask can be changed. -/
def reliable : Permits := ⟨False, True, fun _ _ => True⟩

/-- A pipe is a new key of the references and the jobs, and its client stays connected. -/
theorem Books.addCgiJob (hl : l.Books) {c c₀ : Connection} (hc₀ : l.connections[fd]? = some c₀)
    (hfresh : l.connections[x]? = none) (hnone : l.cgiJobs[x]? = none) (now : ℕ) :
    (l.addCgiJob fd x c now).Books := by
  have hkind : ∀ y, (l.addCgiJob fd x c now).kindOf y =
      (l.registerEventFd x .cgi cgiEvents).kindOf y := fun _ => rfl
  refine ⟨(hl.refs.registerEventFd x .cgi cgiEvents).congr rfl rfl rfl, fun y => ?_, fun y => ?_,
    ?_⟩
  · show (l.connections[y]?).isSome ↔ _
    rw [hkind]
    rcases eq_or_ne y x with rfl | hne
    · rw [kindOf_registerEventFd_self, hfresh]
      simp
    · rw [kindOf_registerEventFd_ne _ _ hne]
      exact hl.clients y
  · rw [hkind]
    rcases eq_or_ne y x with rfl | hne
    · have hself : (l.addCgiJob fd y c now).cgiJobs[y]? = some _ :=
        cgiJobs_putJob_self (l.registerEventFd y .cgi cgiEvents) y _
      rw [kindOf_registerEventFd_self, hself]
      simp
    · have hother : (l.addCgiJob fd x c now).cgiJobs[y]? = l.cgiJobs[y]? :=
        cgiJobs_putJob_ne _ hne
      rw [kindOf_registerEventFd_ne _ _ hne, hother]
      exact hl.jobs y
  · intro y k hk
    show (l.connections[k.clientFd]?).isSome
    rcases eq_or_ne y x with rfl | hne
    · have hself : CgiJob.new fd y cgiHeaderBufLimit c.config.timeoutSeconds now = k :=
        Option.some.inj
          ((cgiJobs_putJob_self (l.registerEventFd y .cgi cgiEvents) y _).symm.trans hk)
      rw [← hself, show (CgiJob.new fd y cgiHeaderBufLimit c.config.timeoutSeconds now).clientFd =
        fd from rfl, hc₀]
      rfl
    · exact hl.connected y k ((cgiJobs_putJob_ne _ hne).symm.trans hk)

/-- A new descriptor has been nobody's client so far: no job has to be looked at again. -/
theorem Books.addConnection (hl : l.Books) (a : KernelAnswers) (server : Server)
    (hconn : l.connections[fd]? = none) (hjob : l.cgiJobs[fd]? = none) :
    (l.addConnection a server fd).Books := by
  have hkind : ∀ y, (l.addConnection a server fd).kindOf y = (l.registerEventFd fd .client
      { epollIn := true, epollRdhup := true }).kindOf y := fun _ => rfl
  refine ⟨(RefsApart.registerEventFd (l := l) hl.refs fd .client _).congr rfl rfl rfl,
    fun y => ?_, fun y => ?_, ?_⟩
  · rw [hkind]
    rcases eq_or_ne y fd with rfl | hne
    · have hself : (l.addConnection a server y).connections[y]? = some _ :=
        connections_putConnection_self { l with counter := l.counter + 1 } y _
      rw [kindOf_registerEventFd_self, hself]
      simp
    · have hother : (l.addConnection a server fd).connections[y]? = l.connections[y]? :=
        connections_putConnection_ne _ hne
      rw [kindOf_registerEventFd_ne _ _ hne, hother]
      exact hl.clients y
  · show (l.cgiJobs[y]?).isSome ↔ _
    rw [hkind]
    rcases eq_or_ne y fd with rfl | hne
    · rw [kindOf_registerEventFd_self, hjob]
      simp
    · rw [kindOf_registerEventFd_ne _ _ hne]
      exact hl.jobs y
  · intro y k hk
    have hconnected := hl.connected y k hk
    rcases eq_or_ne k.clientFd fd with heq | hne
    · rw [heq, hconn] at hconnected
      cases hconnected
    · have hother : (l.addConnection a server fd).connections[k.clientFd]? =
          l.connections[k.clientFd]? := connections_putConnection_ne _ hne
      rw [hother]
      exact hconnected

/-- **The operations keep the books.** -/
theorem Books.op (hl : l.Books) (h : Op reliable l l') : l'.Books := by
  cases h with
  | @file fd c hfiles =>
    obtain ⟨c₀, hc₀, -⟩ := hfiles
    refine hl.congr (hl.refs.congr rfl rfl rfl) (fun y => ?_) (fun _ => rfl)
      (fun _ j hj => ⟨j, hj, rfl⟩) (fun _ => rfl)
    rcases eq_or_ne y fd with rfl | hne
    · rw [connections_putConnection_self, hc₀]
      rfl
    · rw [connections_putConnection_ne c hne]
  | @mask fd ref events href =>
    exact hl.congr (hl.refs.mask href events) (fun _ => rfl) (fun _ => rfl)
      (fun _ j hj => ⟨j, hj, rfl⟩) (kindOf_mask href)
  | drop _ hdrops => exact hdrops.elim
  | @fileJob x j j' hj hclient =>
    refine hl.congr (hl.refs.congr rfl rfl rfl) (fun _ => rfl) (fun y => ?_) ?_ (fun _ => rfl)
    · rcases eq_or_ne y x with rfl | hne
      · rw [cgiJobs_putJob_self, hj]
        rfl
      · rw [cgiJobs_putJob_ne j' hne]
    · intro y k hk
      rcases eq_or_ne y x with rfl | hne
      · rw [cgiJobs_putJob_self, Option.some.injEq] at hk
        exact ⟨j, hj, by rw [← hk, hclient]⟩
      · rw [cgiJobs_putJob_ne j' hne] at hk
        exact ⟨k, hk, rfl⟩
  | closeJob x => exact hl.closeCgiJob x
  | close hfd => exact hl.closeClient (hfd.imp_right fun h => h.resolve_right id)
  | @newJob fd x c now _ hfiles hfresh hnone =>
    obtain ⟨c₀, hc₀, -⟩ := hfiles
    exact hl.addCgiJob hc₀ hfresh hnone now
  | accept a server hconn hjob _ => exact hl.addConnection a server hconn hjob
  | forget =>
    -- between the batches only the references without an entry are forgotten
    obtain ⟨hkeyed, hmade, hdistinct, -, -, -⟩ := hl.refs
    exact hl.congr ⟨hkeyed, hmade, hdistinct, List.forall_mem_nil _, List.forall_mem_nil _,
      List.forall_mem_nil _⟩ (fun _ => rfl) (fun _ => rfl) (fun _ j hj => ⟨j, hj, rfl⟩)
      (fun _ => rfl)

theorem books_start (listeners : List Listener) : (start listeners).Books := by
  -- listeners are added one after another to a loop that serves nobody
  have hempty : ∀ (ls : List Listener) (l : EventLoop), l.RefsApart →
      (∀ x : ℕ, l.connections[x]? = none) → (∀ x : ℕ, l.cgiJobs[x]? = none) →
      (∀ x kind, l.kindOf x = some kind → kind = .server) →
        (ls.foldl addServerSocket l).Books := by
    intro ls
    induction ls with
    | nil =>
      intro l hrefs hconns hjobs hkinds
      refine ⟨hrefs, fun y => ?_, fun y => ?_, fun x j hj => ?_⟩
      · rw [List.foldl_nil, hconns y]
        exact ⟨nofun, fun h => nomatch hkinds y .client h⟩
      · rw [List.foldl_nil, hjobs y]
        exact ⟨nofun, fun h => nomatch hkinds y .cgi h⟩
      · rw [List.foldl_nil, hjobs x] at hj
        cases hj
    | cons listener ls ih =>
      intro l hrefs hconns hjobs hkinds
      have hlisteners : RefsApart { l with listeners := l.listeners ++ [listener] } :=
        hrefs.congr rfl rfl rfl
      refine ih (l.addServerSocket listener)
        (hlisteners.registerEventFd listener.fd .server { epollIn := true }) hconns hjobs ?_
      intro x kind hkind
      rcases eq_or_ne x listener.fd with rfl | hne
      · exact (Option.some.inj ((kindOf_registerEventFd_self _ listener.fd .server
          { epollIn := true }).symm.trans hkind)).symm
      · exact hkinds x kind ((kindOf_registerEventFd_ne .server
          { epollIn := true } hne).symm.trans hkind)
  have hnone : ∀ x : ℕ, (∅ : Table EventRef)[x]? = none := fun _ => Std.TreeMap.getElem?_emptyc
  refine hempty listeners _ ⟨?_, ?_, ?_, ?_, ?_, ?_⟩ (fun _ => Std.TreeMap.getElem?_emptyc)
    (fun _ => Std.TreeMap.getElem?_emptyc) ?_
  · exact fun x ref href => nomatch (hnone x).symm.trans href
  · exact fun x ref href => nomatch (hnone x).symm.trans href
  · exact fun x _ ref _ href => nomatch (hnone x).symm.trans href
  · exact List.forall_mem_nil _
  · exact List.forall_mem_nil _
  · exact List.forall_mem_nil _
  · intro x kind hkind
    rw [kindOf, hnone x] at hkind
    cases hkind

/-! ### Runs -/

/-- Every mask that the event changes can be changed. -/
def Reliable (_ : EventLoop) (ev : Event) : Prop :=
  ∀ site fd, ev.answers.modifies site fd = true

variable {listeners : List Listener} {ev : Event}

theorem Reliable.allows (h : Reliable l ev) : reliable.Allows ev.answers := by
  intro site x hfails
  rw [h site x] at hfails
  cases hfails

theorem books_of_reaches (h : Reaches Reliable listeners l) : l.Books :=
  h.kept (p := reliable) trivial (fun _ _ hev => ⟨hev.allows, fun _ _ => trivial⟩)
    (books_start listeners) fun _ _ => Books.op

/-- A new client comes on a descriptor that no job is filed for: the clients of the jobs are
connected. -/
theorem Books.unclaimed (hl : l.Books) {a : KernelAnswers} (hfresh : l.FreshClients a) :
    ∀ x ∈ a.clients, l.activeCgi x = none := by
  intro x hx
  refine Table.findKey_eq_none.mpr fun y j hj => decide_eq_false ?_
  rintro rfl
  have hconnected := hl.connected y j hj
  rw [(hfresh.2 _ hx).1] at hconnected
  cases hconnected

theorem coherent_of_reaches (h : Reaches Reliable listeners l) : l.Coherent := by
  induction h with
  | refl => exact coherent_start listeners
  | @tail l₁ l₂ hreach hnext ih =>
    obtain ⟨ev, hpossible, -, hstep⟩ := hnext
    cases ev with
    | dispatch fd events a =>
      have hunclaimed := (books_of_reaches hreach).unclaimed hpossible.2.1
      exact (turns_dispatch ih hpossible hunclaimed hstep).coherent
    | sweep a => exact (turns_sweep ih hstep).coherent

/-- The books of the loop balance. -/
structure BooksBalance (l : EventLoop) : Prop where
  clientRef : ∀ (fd : ℕ) (c : Connection), l.connections[fd]? = some c →
    ∃! p : ℕ × EventRef, l.eventRefs[p.1]? = some p.2 ∧ p.2.kind = .client ∧ p.2.fd = fd
  pipeRef : ∀ (x : ℕ) (j : CgiJob), l.cgiJobs[x]? = some j →
    ∃! p : ℕ × EventRef, l.eventRefs[p.1]? = some p.2 ∧ p.2.kind = .cgi ∧ p.2.fd = x
  clientOfRef : ∀ (x : ℕ) (ref : EventRef), l.eventRefs[x]? = some ref → ref.kind = .client →
    ∃ c, l.connections[ref.fd]? = some c
  jobOfRef : ∀ (x : ℕ) (ref : EventRef), l.eventRefs[x]? = some ref → ref.kind = .cgi →
    ∃ j, l.cgiJobs[ref.fd]? = some j
  /-- A reference is known by its serial number. -/
  apart : ∀ stale ∈ l.staleRefs, ∀ (x : ℕ) (ref : EventRef), l.eventRefs[x]? = some ref →
    ref.serial ≠ stale.serial
  invalid : ∀ stale ∈ l.staleRefs, stale.kind = .invalid
  oneJob : ∀ (x y : ℕ) (j k : CgiJob), l.cgiJobs[x]? = some j → l.cgiJobs[y]? = some k →
    j.clientFd = k.clientFd → x = y
  owner : ∀ (x : ℕ) (j : CgiJob), l.cgiJobs[x]? = some j →
    ∃ c, l.connections[j.clientFd]? = some c ∧ (c.state = .cgiRunning ∨ c.state = .writing)

/-- A descriptor that is registered has one reference. -/
theorem Books.uniqueRef (hl : l.Books) (h : l.kindOf x = some kind) :
    ∃! p : ℕ × EventRef, l.eventRefs[p.1]? = some p.2 ∧ p.2.kind = kind ∧ p.2.fd = x := by
  obtain ⟨ref, href, hkind⟩ := Option.map_eq_some_iff.mp h
  refine ⟨(x, ref), ⟨href, hkind, hl.refs.keyed x ref href⟩, ?_⟩
  rintro ⟨y, ref'⟩ ⟨href', -, hfd⟩
  obtain rfl : y = x := (hl.refs.keyed y ref' href').symm.trans hfd
  exact Prod.ext rfl (Option.some.inj (href'.symm.trans href))

/-- What is registered under a reference's own descriptor is the reference. -/
theorem Books.kindOf_fd (hl : l.Books) {ref : EventRef} (href : l.eventRefs[x]? = some ref) :
    l.kindOf ref.fd = some ref.kind := by
  rw [hl.refs.keyed x ref href, kindOf, href]
  rfl

/-- **The books balance in every state of a run** in which every mask can be changed. -/
theorem booksBalance_of_reaches (h : Reaches Reliable listeners l) : l.BooksBalance := by
  have hl := books_of_reaches h
  have hcoherent := coherent_of_reaches h
  have howner : ∀ (x : ℕ) (j : CgiJob), l.cgiJobs[x]? = some j →
      ∃ c, Phase c (some (x, j)) ∧ l.HasClient j.clientFd c (some (x, j)) := by
    intro x j hj
    obtain ⟨c, hc⟩ := Option.isSome_iff_exists.mp (hl.connected x j hj)
    exact ⟨c, hcoherent.clientOf hj hc⟩
  refine ⟨?_, ?_, ?_, ?_, hl.refs.apart, hl.refs.invalid, ?_, ?_⟩
  · intro fd c hc
    exact hl.uniqueRef ((hl.clients fd).mp (by rw [hc]; rfl))
  · intro x j hj
    exact hl.uniqueRef ((hl.jobs x).mp (by rw [hj]; rfl))
  · intro x ref href hkind
    rw [← Option.isSome_iff_exists, hl.clients, hl.kindOf_fd href, hkind]
  · intro x ref href hkind
    rw [← Option.isSome_iff_exists, hl.jobs, hl.kindOf_fd href, hkind]
  · intro x y j k hj hk hsame
    obtain ⟨c, -, hclient⟩ := howner x j hj
    have hfiled := (hclient.jobs y k).mp ⟨hk, hsame.symm⟩
    exact (Prod.mk.inj (Option.some.inj hfiled)).1
  · intro x j hj
    obtain ⟨c, hphase, hclient⟩ := howner x j hj
    refine ⟨c, hclient.conn, ?_⟩
    cases hphase with
    | waiting hstate _ => exact Or.inl hstate
    | streaming hstate _ => exact Or.inr hstate

end

/-! ### A script at work -/

/-- A script has begun its response, a second client has come and gone. -/
private def busyLoop : List Event :=
  requestFrom "GET /cgi/x.py HTTP/1.1\r\nHost: x\r\n\r\n" ++ [
    .dispatch 7 { epollIn := true } { quiet 0 with
      reads := fun _ => .data (ascii "A: b\r\n\r\nhello") },
    .dispatch 3 { epollIn := true } { quiet 0 with clients := [6, 8] },
    .dispatch 6 { epollHup := true } (quiet 0)]

theorem booksBalance_busyLoop :
    (busyLoop.foldl next (start [⟨3, scriptServer 100000⟩])).BooksBalance := by
  have hmeets : Run.Meets next (Returns fun _ _ => True) (start [⟨3, scriptServer 100000⟩])
      busyLoop := by decide +kernel
  have hreliable : ∀ ev ∈ busyLoop, ∀ site fd, ev.answers.modifies site fd = true := by
    simp [busyLoop, requestFrom, Event.answers, quiet]
  refine booksBalance_of_reaches (reaches_of_meets
    ((hmeets.and_of_forall hreliable).mono ?_))
  rintro l ev ⟨⟨hpossible, -, hreturns⟩, hev⟩
  exact ⟨hpossible, hev, hreturns⟩

end EventLoop

end Webserv
