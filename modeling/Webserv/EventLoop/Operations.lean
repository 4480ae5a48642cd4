import Mathlib.Logic.Relation
import Webserv.EventLoop.Runs

/-!
# Operations on the tables

Every handler is a chain of operations on the tables: a connection or a job is filed as it is
now, a mask is set, a job or a client is closed, a job or a client is new.  An `Op` is one of
them, with what the handler knows when it does it.  What each operation keeps, every event
keeps, also one that ends with an exception.

## Main results

* `ops_step` — **an event is a chain of operations**.
* `Reaches.kept` — the rule of invariants that operations keep.
* `Attached.next` — every client is registered, in every run.
-/

namespace Webserv

namespace EventLoop

/-- What the kernel and the clients may do to the loop. -/
structure Permits where
  /-- `epoll_ctl` may fail to change a mask. -/
  drops : Prop
  /-- Scripts are started. -/
  starts : Prop
  /-- The jobs that may be filed when `accept` returns the descriptor. -/
  admits : Table CgiJob → ℕ → Prop

/-- The connection with the number `n` is filed under `fd`. -/
def Files (l : EventLoop) (fd n : ℕ) : Prop :=
  ∃ c, l.connections[fd]? = some c ∧ c.connNum = n

/-- One operation on the tables. -/
inductive Op (p : Permits) (l : EventLoop) : EventLoop → Prop
  | file {fd : ℕ} {c : Connection} : l.Files fd c.connNum → Op p l (l.putConnection fd c)
  | mask {fd : ℕ} {ref : EventRef} (events : EpollBits) : l.eventRefs[fd]? = some ref →
      Op p l { l with eventRefs := l.eventRefs.insert fd { ref with events := events } }
  /-- The end of `_modifyEventFd` when the mask cannot be changed. -/
  | drop (fd : ℕ) : p.drops → Op p l (l.closeConnection fd)
  | fileJob {x : ℕ} {j j' : CgiJob} : l.cgiJobs[x]? = some j → j'.clientFd = j.clientFd →
      Op p l (l.putJob x j')
  | closeJob (x : ℕ) : Op p l (l.closeCgiJob x)
  | close {fd : ℕ} : (∃ c, l.connections[fd]? = some c) ∨ l.eventRefs[fd]? = none ∨ p.drops →
      Op p l (l.closeClient fd)
  | newJob {fd x : ℕ} {c : Connection} (now : ℕ) : p.starts → l.Files fd c.connNum →
      l.connections[x]? = none → l.cgiJobs[x]? = none → Op p l (l.addCgiJob fd x c now)
  | accept {fd : ℕ} (a : KernelAnswers) (server : Server) : l.connections[fd]? = none →
      l.cgiJobs[fd]? = none → p.admits l.cgiJobs fd → Op p l (l.addConnection a server fd)
  | forget : Op p l { l with staleRefs := [] }

/-- A chain of operations. -/
abbrev Ops (p : Permits) : EventLoop → EventLoop → Prop := Relation.ReflTransGen (Op p)

/-- Masks that cannot be changed are permitted. -/
def Permits.Allows (p : Permits) (a : KernelAnswers) : Prop :=
  ∀ site x, a.modifies site x = false → p.drops

section

variable {p : Permits} {l l' : EventLoop} {a : KernelAnswers} {fd x : ℕ} {c : Connection}
  {j : CgiJob}

/-- **The rule of invariants** for a chain of operations. -/
theorem Ops.invariant {I : EventLoop → Prop} (hI : ∀ l l', I l → Op p l l' → I l')
    (h : Ops p l l') (hl : I l) : I l' := by
  induction h with
  | refl => exact hl
  | tail _ hop ih => exact hI _ _ ih hop

/-- A call after a call. -/
theorem Ops.andThen {o : Outcome EventLoop Unit}
    {f : EventLoop → Unit → Outcome EventLoop Unit} (ho : Ops p l o.state)
    (hf : ∀ l' u, o = .ok l' u → Ops p l' (f l' u).state) : Ops p l (o.andThen f).state := by
  cases o with
  | bodyLimit l' => exact ho
  | ok l' u => exact ho.trans (hf l' u rfl)

/-- The connection that has been looked up. -/
theorem files_of_eq (h : l.connections[fd]? = some c) : l.Files fd c.connNum := ⟨c, h, rfl⟩

/-! ### Rearming -/

theorem ops_modifyEventFd {m : Bool} (hm : m = false → p.drops) (fd : ℕ) (events : EpollBits) :
    Ops p l (l.modifyEventFd m fd events) := by
  unfold modifyEventFd
  split
  · exact .refl
  · next ref href =>
    split
    · exact .refl
    · split
      · exact .single (.mask events href)
      · next hfalse => exact .single (.drop fd (hm (Bool.eq_false_iff.mpr hfalse)))

theorem ops_rearmAs {m : Bool} (hm : m = false → p.drops) (h : l.Files fd c.connNum) :
    Ops p l (l.rearmAs m fd c) := by
  unfold rearmAs rearmClient
  refine Relation.ReflTransGen.head (.file h) ?_
  split
  · exact .refl
  · exact ops_modifyEventFd hm fd _

theorem ops_refuse (ha : p.Allows a) (h : l.Files fd c.connNum) (code : ℕ) :
    Ops p l (l.refuse a fd c code).state := by
  have hserves := (serves_sendError a.env code c).connNum
  unfold refuse
  cases herror : sendError a.env code c with
  | bodyLimit c' =>
    rw [herror] at hserves
    have hc' : l.Files fd c'.connNum := hserves.symm ▸ h
    exact .single (.file hc')
  | ok c' u =>
    rw [herror] at hserves
    have hc' : l.Files fd c'.setWriting.connNum := hserves.symm ▸ h
    exact ops_rearmAs (ha .answer fd) hc'

/-! ### Scripts -/

theorem ops_apiStartCgi (ha : p.Allows a) (hstarts : p.starts) (hpipe : l.FreshPipe a)
    (h : l.Files fd c.connNum) (info : CgiRequestInfo) :
    Ops p l (l.apiStartCgi a fd c info).state := by
  unfold apiStartCgi
  cases hx : a.pipe with
  | none => exact ops_refuse ha h 500
  | some x =>
    obtain ⟨hfresh, hnone⟩ := hpipe x hx
    have hnew : Ops p l (l.addCgiJob fd x c a.env.now) :=
      .single (.newJob a.env.now hstarts h hfresh hnone)
    have hadded : (l.addCgiJob fd x c a.env.now).Files fd c.setCgiRunning.connNum := h
    have hrearm := hnew.trans (ops_rearmAs (ha .run fd) hadded)
    dsimp only
    generalize (l.addCgiJob fd x c a.env.now).rearmAs (a.modifies .run fd) fd c.setCgiRunning = l₁
      at hrearm ⊢
    split
    · exact hrearm
    · next c₁ hc₁ =>
      have hc : l₁.Files fd c₁.connNum := files_of_eq hc₁
      split
      · -- the script runs
        exact hrearm.tail (.file (c := { c₁ with request := dropBodyFile c₁.request }) hc)
      · have hc' : (l₁.closeCgiJob x).Files fd c₁.connNum := by
          unfold Files
          rwa [connections_closeCgiJob]
        exact (hrearm.tail (.closeJob x)).trans
          (ops_refuse (c := { c₁ with request := dropBodyFile c₁.request }) ha hc' 502)

theorem ops_forgetBodyFile (l : EventLoop) (fd : ℕ) : Ops p l (l.forgetBodyFile fd) := by
  unfold forgetBodyFile
  split
  · exact .refl
  · next c hc => exact .single (.file ⟨c, hc, rfl⟩)

theorem ops_settle (ha : p.Allows a) {o : Outcome (Connection × CgiJob) CgiFate}
    (hj : l.cgiJobs[x]? = some j) (hc : l.Files j.clientFd c.connNum)
    (hserves : c.Serves o.state.1) (hend : CallEnd c j o) :
    Ops p l (l.settle a x j.clientFd o).state := by
  have hfiled : l.Files j.clientFd o.state.1.connNum := hserves.connNum.symm ▸ hc
  cases hend with
  | @bodyLimit c' j' hclient _ =>
    have hput : Ops p l (l.putConnection j.clientFd c') := .single (.file hfiled)
    exact hput.tail (.fileJob hj hclient)
  | @ok c' j' fate hw =>
    have hput : Ops p l (l.putJob x j') := .single (.fileJob hj hw.clientFd)
    have hfiled' : (l.putJob x j').Files j.clientFd c'.connNum := hfiled
    cases fate with
    | wait => exact hput.tail (.file hfiled')
    | streamed => exact hput.trans (ops_rearmAs (ha .relay j.clientFd) hfiled')
    | ended => exact (hput.trans (ops_rearmAs (ha .relay j.clientFd) hfiled')).tail (.closeJob x)

theorem ops_handleCgiEvent (ha : p.Allows a) (x : ℕ) :
    Ops p l (l.handleCgiEvent a x).state := by
  unfold handleCgiEvent
  split
  · exact .refl
  · next j hj =>
    split
    · exact .single (.closeJob x)
    · next c hc =>
      exact ops_settle ha hj (files_of_eq hc) (relays_serves.cgiEvent a.env c j (a.reads x))
        (callEnd_cgiEvent a.env c j (a.reads x))

/-! ### Clients -/

theorem ops_tryRead (ha : p.Allows a) (hstarts : p.starts) (hpipe : l.FreshPipe a)
    (h : l.Files fd c.connNum) : Ops p l (l.tryRead a fd c).state := by
  have hnum := connNum_readLoop a.env a.recvs c
  unfold tryRead
  cases hread : readLoop a.env c a.recvs with
  | bodyLimit c' =>
    rw [hread] at hnum
    have hc' : l.Files fd c'.connNum := hnum.symm ▸ h
    exact .single (.file hc')
  | ok c' fate =>
    rw [hread] at hnum
    have hc' : l.Files fd c'.connNum := hnum.symm ▸ h
    have hput : Ops p l (l.putConnection fd c') := .single (.file hc')
    cases fate with
    | nothing => exact hput
    | stuck => exact hput
    | close => exact hput.tail (.close (Or.inl ⟨c', connections_putConnection_self l fd c'⟩))
    | answered => exact ops_rearmAs (ha .answer fd) hc'
    | script info =>
      apply Ops.andThen (ops_apiStartCgi ha hstarts hpipe hc' info)
      exact fun l' _ _ => ops_forgetBodyFile l' fd

theorem ops_catchTryRead (ha : p.Allows a) (fd : ℕ) (o : Outcome EventLoop Unit) :
    Ops p o.state (catchTryRead a fd o).state := by
  cases o with
  | ok l u => exact .refl
  | bodyLimit l =>
    unfold catchTryRead
    dsimp only
    split
    · exact .refl
    · next c hc =>
      have hc' : l.Files fd (closing c).connNum := ⟨c, hc, rfl⟩
      exact ops_refuse ha hc' 413

theorem ops_handleRead (ha : p.Allows a) (hstarts : p.starts) (hpipe : l.FreshPipe a) (fd : ℕ) :
    Ops p l (l.handleRead a fd).state := by
  unfold handleRead
  split
  · exact .refl
  · next c hc =>
    split
    · exact .refl
    · exact (ops_tryRead ha hstarts hpipe (files_of_eq hc)).trans (ops_catchTryRead ha fd _)

theorem ops_afterWrite (ha : p.Allows a) (h : l.connections[fd]? = some c) :
    Ops p l (l.afterWrite a fd c) := by
  unfold afterWrite
  have hreading : l.Files fd (c.setReading a.env.now).connNum := ⟨c, h, rfl⟩
  have hwriting : l.Files fd c.setWriting.connNum := ⟨c, h, rfl⟩
  split
  · split
    · exact ops_rearmAs (ha .write fd) hreading
    · exact .single (.close (Or.inl ⟨c, h⟩))
  · exact ops_rearmAs (ha .write fd) hwriting

theorem ops_afterRelay (ha : p.Allows a) (l : EventLoop) (fd : ℕ) :
    Ops p l (l.afterRelay a fd) := by
  unfold afterRelay
  split
  · exact .refl
  · next c hc =>
    have hwriting : l.Files fd c.setWriting.connNum := ⟨c, hc, rfl⟩
    exact ops_rearmAs (ha .write fd) hwriting

theorem ops_handleWrite (ha : p.Allows a) (l : EventLoop) (fd : ℕ) :
    Ops p l (l.handleWrite a fd).state := by
  unfold handleWrite
  split
  · exact .refl
  · next c hc =>
    have hsent : l.Files fd (c.sendLoop a.env.now (a.takes fd)).connNum :=
      (serves_sendLoop a.env.now (a.takes fd) c).connNum ▸ files_of_eq hc
    have hput : Ops p l (l.putConnection fd (c.sendLoop a.env.now (a.takes fd))) :=
      .single (.file hsent)
    dsimp only
    refine hput.trans ?_
    split
    · next x _ =>
      split
      · have hpipe := ops_modifyEventFd (l := l.putConnection fd
          (c.sendLoop a.env.now (a.takes fd))) (ha .pipe x) x cgiEvents
        apply Ops.andThen (hpipe.trans (ops_handleCgiEvent ha x))
        exact fun l' _ _ => ops_afterRelay ha l' fd
      · exact ops_afterRelay ha _ fd
    · exact ops_afterWrite ha (connections_putConnection_self l fd _)

theorem ops_handleClientEvent (ha : p.Allows a) (hstarts : p.starts) (hpipe : l.FreshPipe a)
    (fd : ℕ) (events : EpollBits) : Ops p l (l.handleClientEvent a fd events).state := by
  unfold handleClientEvent
  split
  · exact .refl
  · next c hc =>
    have hclose : Ops p l (l.closeClient fd) := .single (.close (Or.inl ⟨c, hc⟩))
    split
    · exact hclose
    · split
      · split
        · exact hclose
        · have hhalf : l.Files fd c.setPeerHalfClosed.connNum := ⟨c, hc, rfl⟩
          exact .single (.file hhalf)
      · split
        · exact ops_handleRead ha hstarts hpipe fd
        · split
          · exact ops_handleWrite ha l fd
          · exact .refl

/-! ### New clients -/

theorem ops_addConnections {server : Server} : ∀ (clients : List ℕ) (l : EventLoop),
    clients.Nodup → (∀ x ∈ clients, l.connections[x]? = none ∧ l.cgiJobs[x]? = none) →
    (∀ x ∈ clients, p.admits l.cgiJobs x) →
    Ops p l (clients.foldl (fun l fd => l.addConnection a server fd) l) := by
  intro clients
  induction clients with
  | nil => exact fun l _ _ _ => .refl
  | cons fd clients ih =>
    intro l hnodup hfresh hadmits
    obtain ⟨hnotMem, hnodup⟩ := List.nodup_cons.mp hnodup
    obtain ⟨hconn, hjob⟩ := hfresh fd List.mem_cons_self
    refine Relation.ReflTransGen.head
      (.accept a server hconn hjob (hadmits fd List.mem_cons_self)) (ih _ hnodup ?_ ?_)
    · intro x hx
      have hne : x ≠ fd := by
        rintro rfl
        exact hnotMem hx
      obtain ⟨hconn', hjob'⟩ := hfresh x (List.mem_cons_of_mem _ hx)
      exact ⟨(connections_putConnection_ne _ hne).trans hconn', hjob'⟩
    · exact fun x hx => hadmits x (List.mem_cons_of_mem _ hx)

theorem ops_handleAccept (hfresh : l.FreshClients a)
    (hadmits : ∀ x ∈ a.clients, p.admits l.cgiJobs x) (serverFd : ℕ) :
      Ops p l (l.handleAccept a serverFd) := by
  unfold handleAccept
  split
  · exact .refl
  · exact ops_addConnections a.clients l hfresh.1 hfresh.2 hadmits

theorem ops_dispatch {events : EpollBits} (ha : p.Allows a) (hstarts : p.starts)
    (hpossible : l.Possible (.dispatch fd events a))
    (hadmits : ∀ x ∈ a.clients, p.admits l.cgiJobs x) :
    Ops p l (l.dispatch a fd events).state := by
  obtain ⟨-, hfresh, hpipe⟩ := hpossible
  unfold dispatch
  split
  · exact .refl
  · next ref _ =>
    split
    · exact .refl
    · exact ops_handleAccept hfresh hadmits ref.fd
    · exact ops_handleCgiEvent ha ref.fd
    · exact ops_handleClientEvent ha hstarts hpipe ref.fd events

/-! ### The sweeps -/

theorem eventRefs_unregisterEventFd_self (l : EventLoop) (fd : ℕ) :
    (l.unregisterEventFd fd).eventRefs[fd]? = none := by
  unfold unregisterEventFd
  split
  · next h => exact h
  · exact Std.TreeMap.getElem?_erase_self

/-- No reference comes by closing a job. -/
theorem eventRefs_closeCgiJob_none {y : ℕ} (h : l.eventRefs[y]? = none) (x : ℕ) :
    (l.closeCgiJob x).eventRefs[y]? = none := by
  rcases eq_or_ne y x with rfl | hne
  · unfold closeCgiJob
    split
    · exact h
    · exact eventRefs_unregisterEventFd_self l y
  · rw [eventRefs_closeCgiJob_ne hne]
    exact h

theorem eventRefs_closeCgiJobs_none {y : ℕ} : ∀ (ks : List ℕ) (l : EventLoop),
    l.eventRefs[y]? = none → (ks.foldl closeCgiJob l).eventRefs[y]? = none := by
  intro ks
  induction ks with
  | nil => exact fun l h => h
  | cons k ks ih => exact fun l h => ih _ (eventRefs_closeCgiJob_none h k)

theorem eventRefs_closeClient_self (l : EventLoop) (fd : ℕ) :
    (l.closeClient fd).eventRefs[fd]? = none := eventRefs_unregisterEventFd_self _ fd

theorem eventRefs_closeClient_none {y : ℕ} (h : l.eventRefs[y]? = none) (fd : ℕ) :
    (l.closeClient fd).eventRefs[y]? = none := by
  rcases eq_or_ne y fd with rfl | hne
  · exact eventRefs_closeClient_self l y
  · exact (eventRefs_unregisterEventFd_ne hne).trans (eventRefs_closeCgiJobs_none _ l h)

theorem connections_closeClient_ne {y : ℕ} (hne : y ≠ fd) :
    (l.closeClient fd).connections[y]? = l.connections[y]? := by
  rw [closeClient, connections_closeConnection_ne hne, connections_unregisterEventFd,
    closeCgiJobsForClient, connections_closeCgiJobs]

/-- A client whose connection is gone is not registered either, if masks can be changed. -/
def Attended (p : Permits) (fd : ℕ) (l : EventLoop) : Prop :=
  (∃ c, l.connections[fd]? = some c) ∨ l.eventRefs[fd]? = none ∨ p.drops

/-- The same permits, and nothing new. -/
def Permits.still (p : Permits) : Permits := ⟨p.drops, False, fun _ _ => False⟩

theorem Op.of_still (h : Op p.still l l') : Op p l l' := by
  cases h with
  | file h => exact .file h
  | mask events h => exact .mask events h
  | drop fd h => exact .drop fd h
  | fileJob h h' => exact .fileJob h h'
  | closeJob x => exact .closeJob x
  | close h => exact .close h
  | newJob now h => exact h.elim
  | accept a server _ _ h => exact h.elim
  | forget => exact .forget

theorem Attended.op (hl : Attended p fd l) (h : Op p.still l l') : Attended p fd l' := by
  cases h with
  | @file y c _ =>
    rcases eq_or_ne fd y with rfl | hne
    · exact Or.inl ⟨c, connections_putConnection_self l fd c⟩
    · exact hl.imp_left fun ⟨c', hc'⟩ => ⟨c', (connections_putConnection_ne c hne).trans hc'⟩
  | @mask y ref events href =>
    refine hl.imp_right (Or.imp_left fun hnone => ?_)
    have hne : fd ≠ y := by
      rintro rfl
      rw [href] at hnone
      cases hnone
    exact (Table.getElem?_insert_ne _ _ hne).trans hnone
  | drop _ hdrops => exact Or.inr (Or.inr hdrops)
  | fileJob _ _ => exact hl
  | closeJob x =>
    refine hl.imp ?_ (Or.imp_left fun hnone => eventRefs_closeCgiJob_none hnone x)
    exact fun ⟨c, hc⟩ => ⟨c, by rw [connections_closeCgiJob]; exact hc⟩
  | @close y _ =>
    rcases eq_or_ne fd y with rfl | hne
    · exact Or.inr (Or.inl (eventRefs_closeClient_self l fd))
    · refine hl.imp ?_ (Or.imp_left fun hnone => eventRefs_closeClient_none hnone y)
      exact fun ⟨c, hc⟩ => ⟨c, (connections_closeClient_ne hne).trans hc⟩
  | newJob _ hstarts => exact hstarts.elim
  | accept _ _ _ _ hadmits => exact hadmits.elim
  | forget => exact hl

theorem ops_closeTimedOutClient (ha : p.Allows a) (l : EventLoop) (fd : ℕ) :
    Ops p l (closeTimedOutClient a l fd).state := by
  unfold closeTimedOutClient
  split
  · exact .refl
  · next c hc =>
    have hserves := (serves_sendError a.env 408 c).connNum
    cases herror : sendError a.env 408 c with
    | bodyLimit c' =>
      rw [herror] at hserves
      have hc' : l.Files fd c'.connNum := hserves.symm ▸ files_of_eq hc
      exact .single (.file hc')
    | ok c' u =>
      rw [herror] at hserves
      have hc' : l.Files fd c'.connNum := hserves.symm ▸ files_of_eq hc
      -- the writing may have closed the client, which is closed again
      have hwrite : Ops p.still (l.putConnection fd c')
          ((l.putConnection fd c').handleWrite a fd).state :=
        ops_handleWrite (p := p.still) ha _ fd
      have hattended : Attended p fd ((l.putConnection fd c').handleWrite a fd).state :=
        hwrite.invariant (fun _ _ => Attended.op)
          (Or.inl ⟨c', connections_putConnection_self l fd c'⟩)
      have hops : Ops p l ((l.putConnection fd c').handleWrite a fd).state :=
        .head (.file hc') (hwrite.lift id fun _ _ => Op.of_still)
      apply hops.andThen
      intro l' u heq
      rw [heq] at hattended
      exact .single (.close hattended)

theorem ops_closeTimedOutCgiJob (ha : p.Allows a) (l : EventLoop) (x : ℕ) :
    Ops p l (closeTimedOutCgiJob a l x).state := by
  unfold closeTimedOutCgiJob
  split
  · exact .refl
  · next j hj =>
    split
    · exact .single (.closeJob x)
    · next c hc =>
      exact ops_settle ha hj (files_of_eq hc) (relays_serves.failCgiJob a.env 504 c j)
        (callEnd_failCgiJob a.env 504 c j)

theorem ops_forEach {f : EventLoop → ℕ → Outcome EventLoop Unit}
    (hf : ∀ l fd, Ops p l (f l fd).state) : ∀ (fds : List ℕ) (l : EventLoop),
      Ops p l (forEach f fds l).state := by
  intro fds
  induction fds with
  | nil => exact fun l => .refl
  | cons fd fds ih =>
    intro l
    apply (hf l fd).andThen
    exact fun l' _ _ => ih l'

theorem ops_closeTimedOutClients (ha : p.Allows a) (l : EventLoop) :
    Ops p l (l.closeTimedOutClients a).state := ops_forEach (ops_closeTimedOutClient ha) _ l

theorem ops_sweep (ha : p.Allows a) (l : EventLoop) : Ops p l (l.sweep a).state := by
  have hclients : Ops p l (closeTimedOutClients { l with staleRefs := [] } a).state :=
    .head .forget (ops_closeTimedOutClients ha _)
  apply hclients.andThen
  exact fun l' _ _ => ops_forEach (ops_closeTimedOutCgiJob ha) _ l'

/-! ### Runs -/

/-- **An event is a chain of operations.** -/
theorem ops_step {ev : Event} (ha : p.Allows ev.answers) (hstarts : p.starts)
    (hpossible : l.Possible ev) (hadmits : ∀ x ∈ ev.answers.clients, p.admits l.cgiJobs x) :
    Ops p l (l.step ev).state := by
  cases ev with
  | dispatch fd events a => exact ops_dispatch ha hstarts hpossible hadmits
  | sweep a => exact ops_sweep ha l

/-- **The rule of invariants**: what holds before the first event and is kept by the operations
that the events of a run permit, holds in every state of the run. -/
theorem Reaches.kept {P : EventLoop → Event → Prop} {listeners : List Listener}
    {I : EventLoop → Prop} (hstarts : p.starts)
    (hpermits : ∀ l ev, P l ev → p.Allows ev.answers ∧
      ∀ x ∈ ev.answers.clients, p.admits l.cgiJobs x)
    (hstart : I (start listeners)) (hkept : ∀ l l', I l → Op p l l' → I l')
    (h : Reaches P listeners l) : I l := by
  induction h with
  | refl => exact hstart
  | tail _ hnext ih =>
    obtain ⟨ev, hpossible, hmeets, hstep⟩ := hnext
    obtain ⟨hallows, hadmits⟩ := hpermits _ ev hmeets
    have hops := ops_step hallows hstarts hpossible hadmits
    rw [hstep] at hops
    exact hops.invariant hkept ih

/-! ### Registered clients -/

/-- Every connection is registered, whatever masks could not be changed. -/
structure Attached (l : EventLoop) : Prop where
  keyed : l.Keyed
  apart : ∀ (x : ℕ) (c : Connection), l.connections[x]? = some c → l.cgiJobs[x]? = none
  registered : ∀ (x : ℕ) (c : Connection), l.connections[x]? = some c →
    ∃ ref, l.eventRefs[x]? = some ref ∧ ref.kind = .client

/-- The pipe of a job is nobody's client. -/
theorem Attached.ne_of_job (hl : l.Attached) {x y : ℕ} {j : CgiJob} {c : Connection}
    (hj : l.cgiJobs[x]? = some j) (hc : l.connections[y]? = some c) : y ≠ x := by
  rintro rfl
  rw [hl.apart y c hc] at hj
  cases hj

theorem Attached.connections_of_job (hl : l.Attached) {x : ℕ} {j : CgiJob}
    (hj : l.cgiJobs[x]? = some j) : l.connections[x]? = none :=
  Option.eq_none_iff_forall_ne_some.mpr fun _ hc => hl.ne_of_job hj hc rfl

theorem Attached.closeCgiJob (hl : l.Attached) (x : ℕ) : (l.closeCgiJob x).Attached := by
  cases hj : l.cgiJobs[x]? with
  | none =>
    rw [closeCgiJob_of_none hj]
    exact hl
  | some j =>
    refine ⟨hl.keyed.closeCgiJob x, fun y c hc => ?_, fun y c hc => ?_⟩
    · rw [connections_closeCgiJob] at hc
      rw [cgiJobs_closeCgiJob_ne (hl.ne_of_job hj hc)]
      exact hl.apart y c hc
    · rw [connections_closeCgiJob] at hc
      rw [eventRefs_closeCgiJob_ne (hl.ne_of_job hj hc)]
      exact hl.registered y c hc

theorem Attached.closeCgiJobs : ∀ (ks : List ℕ) (l : EventLoop), l.Attached →
    (ks.foldl EventLoop.closeCgiJob l).Attached := by
  intro ks
  induction ks with
  | nil => exact fun _ hl => hl
  | cons k ks ih => exact fun _ hl => ih _ (hl.closeCgiJob k)

theorem Attached.closeConnection (hl : l.Attached) (fd : ℕ) : (l.closeConnection fd).Attached := by
  have hcases : ∀ (x : ℕ) (c : Connection), (l.closeConnection fd).connections[x]? = some c →
      l.connections[x]? = some c := by
    intro x c hc
    rcases eq_or_ne x fd with rfl | hne
    · rw [connections_closeConnection_self] at hc
      cases hc
    · exact (connections_closeConnection_ne hne).symm.trans hc
  exact ⟨hl.keyed, fun x c hc => hl.apart x c (hcases x c hc),
    fun x c hc => hl.registered x c (hcases x c hc)⟩

/-- A client goes with its reference. -/
theorem Attached.closeClient (hl : l.Attached) (fd : ℕ) : (l.closeClient fd).Attached := by
  have hjobs : (l.closeCgiJobsForClient fd).Attached := .closeCgiJobs _ l hl
  have hne : ∀ (x : ℕ) (c : Connection), (l.closeClient fd).connections[x]? = some c → x ≠ fd := by
    rintro x c hc rfl
    rw [connections_closeClient_self] at hc
    cases hc
  have hcases : ∀ (x : ℕ) (c : Connection), (l.closeClient fd).connections[x]? = some c →
      (l.closeCgiJobsForClient fd).connections[x]? = some c := by
    intro x c hc
    rw [connections_closeClient_ne (hne x c hc)] at hc
    rw [closeCgiJobsForClient, connections_closeCgiJobs]
    exact hc
  refine ⟨hjobs.keyed.unregisterEventFd fd, fun x c hc => ?_, fun x c hc => ?_⟩
  · have hapart := hjobs.apart x c (hcases x c hc)
    rwa [EventLoop.closeClient, cgiJobs_closeConnection, cgiJobs_unregisterEventFd]
  · have hregistered := hjobs.registered x c (hcases x c hc)
    rwa [← eventRefs_unregisterEventFd_ne (hne x c hc)] at hregistered

theorem Attached.op (hl : l.Attached) (h : Op p l l') : l'.Attached := by
  cases h with
  | @file fd c hfiles =>
    obtain ⟨c₀, hc₀, -⟩ := hfiles
    have hcases : ∀ (x : ℕ) (d : Connection), (l.putConnection fd c).connections[x]? = some d →
        ∃ e, l.connections[x]? = some e := by
      intro x d hd
      rcases eq_or_ne x fd with rfl | hne
      · exact ⟨c₀, hc₀⟩
      · exact ⟨d, (connections_putConnection_ne c hne).symm.trans hd⟩
    refine ⟨hl.keyed, fun x d hd => ?_, fun x d hd => ?_⟩
    · obtain ⟨e, he⟩ := hcases x d hd
      exact hl.apart x e he
    · obtain ⟨e, he⟩ := hcases x d hd
      exact hl.registered x e he
  | @mask fd ref events href =>
    refine ⟨fun x ref' href' => ?_, hl.apart, fun x d hd => ?_⟩
    · rcases eq_or_ne x fd with rfl | hne
      · have hself : (l.eventRefs.insert x { ref with events := events })[x]? =
            some { ref with events := events } := Std.TreeMap.getElem?_insert_self
        rw [hself, Option.some.injEq] at href'
        rw [← href']
        exact hl.keyed x ref href
      · exact hl.keyed x ref' ((Table.getElem?_insert_ne _ _ hne).symm.trans href')
    · rcases eq_or_ne x fd with rfl | hne
      · obtain ⟨old, hold, hkind⟩ := hl.registered x d hd
        rw [href, Option.some.injEq] at hold
        exact ⟨_, Std.TreeMap.getElem?_insert_self, hold ▸ hkind⟩
      · obtain ⟨ref', href', hkind⟩ := hl.registered x d hd
        exact ⟨ref', (Table.getElem?_insert_ne _ _ hne).trans href', hkind⟩
  | drop fd _ => exact hl.closeConnection fd
  | @fileJob x j j' hj _ =>
    refine ⟨hl.keyed, fun y d hd => ?_, hl.registered⟩
    rw [cgiJobs_putJob_ne _ (hl.ne_of_job hj hd)]
    exact hl.apart y d hd
  | closeJob x => exact hl.closeCgiJob x
  | @close fd _ => exact hl.closeClient fd
  | @newJob fd x c now _ _ hfree _ =>
    have hne : ∀ (y : ℕ) (d : Connection), l.connections[y]? = some d → y ≠ x := by
      rintro y d hd rfl
      rw [hfree] at hd
      cases hd
    -- the pipe is nobody's client, so no client loses its reference
    refine ⟨hl.keyed.registerEventFd x .cgi cgiEvents, fun y d hd => ?_, fun y d hd => ?_⟩
    · exact (cgiJobs_putJob_ne _ (hne y d hd)).trans (hl.apart y d hd)
    · obtain ⟨ref, href, hkind⟩ := hl.registered y d hd
      exact ⟨ref, (eventRefs_registerEventFd_ne .cgi cgiEvents (hne y d hd)).trans href, hkind⟩
  | @accept fd a server _ hjob _ =>
    have hcases : ∀ (x : ℕ) (d : Connection),
        (l.addConnection a server fd).connections[x]? = some d →
          x = fd ∨ (x ≠ fd ∧ l.connections[x]? = some d) := by
      intro x d hd
      rcases eq_or_ne x fd with rfl | hne
      · exact Or.inl rfl
      · exact Or.inr ⟨hne, (connections_putConnection_ne _ hne).symm.trans hd⟩
    -- the new client has its reference, and no job
    refine ⟨Keyed.registerEventFd hl.keyed fd .client _, fun x d hd => ?_, fun x d hd => ?_⟩
    · rcases hcases x d hd with rfl | ⟨-, hd'⟩
      · exact hjob
      · exact hl.apart x d hd'
    · rcases hcases x d hd with rfl | ⟨hne, hd'⟩
      · exact ⟨_, eventRefs_registerEventFd_self .client _, rfl⟩
      · obtain ⟨ref, href, hkind⟩ := hl.registered x d hd'
        exact ⟨ref, (eventRefs_registerEventFd_ne .client _ hne).trans href, hkind⟩
  | forget => exact ⟨hl.keyed, hl.apart, hl.registered⟩

theorem attached_start (listeners : List Listener) : (start listeners).Attached := by
  refine ⟨(coherent_start listeners).sound.keyed, ?_, ?_⟩
  all_goals simp [connections_start]

/-- Whatever the kernel does is permitted. -/
def anything : Permits := ⟨True, True, fun _ _ => True⟩

/-- An event keeps the clients registered. -/
theorem Attached.next {ev : Event} (hl : l.Attached) (hpossible : l.Possible ev) :
    (next l ev).Attached := by
  have hops : Ops anything l (EventLoop.next l ev) :=
    ops_step (fun _ _ _ => trivial) trivial hpossible fun _ _ => trivial
  exact hops.invariant (fun _ _ => Attached.op) hl

end

end EventLoop

end Webserv
