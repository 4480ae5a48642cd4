import Webserv.EventLoop.IdleTimeout
import Webserv.EventLoop.Operations

/-!
# A connection that is announced as closing

An error page says `Connection: close`.  Whether the connection is closed behind it is decided
by `_handleWrite`, which asks the request that was refused.  In between, the client is registered
for being written to, so that nothing is read from it.

## Main results

* `keepsItsWord` — **an announced connection is closed**, in a run in which the request of every
  client that is drained says the same as its error page.
* `not_keepsItsWord` — a request without `Host` is refused, and the next one is waited for.
-/

namespace Webserv

open Bytes

/-- If the end of the connection has been announced, it is being written to. -/
def Connection.Committed (c : Connection) : Prop :=
  c.closeAnnounced = true → c.state = .writing ∧ c.writeBuffer.items ≠ []

theorem Connection.Committed.of_not {c : Connection} (h : c.closeAnnounced = false) :
    c.Committed := by
  intro hann
  rw [h] at hann
  cases hann

/-- What is queued stays queued. -/
theorem queued_queue (c : Connection) (blocks : List Bytes) :
    c.writeBuffer.items <+: (c.queue blocks).state.writeBuffer.items := by
  obtain ⟨done, rest, -, hq, -⟩ := c.writeBuffer.appendAll_spec blocks
  cases h : (c.writeBuffer.appendAll blocks).2 with
  | true =>
    rw [queue_ok h]
    exact List.prefix_append _ _
  | false =>
    rw [queue_refused h, Outcome.state_bodyLimit, Connection.writeBuffer_setWriteBuffer, hq]
    exact List.prefix_append _ _

theorem relays_queued : Relays fun c c' => c.writeBuffer.items <+: c'.writeBuffer.items where
  refl _ := List.prefix_rfl
  trans := List.IsPrefix.trans
  queue := queued_queue
  sendError env code c := by
    have hqueue := queued_queue c [errorResponse env code c.config]
    unfold sendError
    cases h : c.queue [errorResponse env code c.config] with
    | ok c' u =>
      rw [h] at hqueue
      exact hqueue
    | bodyLimit c' =>
      rw [h] at hqueue
      exact hqueue
  setWriting _ := List.prefix_rfl
  headers _ _ := List.prefix_rfl

/-- Behind an error page there is something to be sent. -/
theorem committed_sendError {env : Env} {code : ℕ} {c c' : Connection} {u : Unit}
    (h : sendError env code c = .ok c' u) : c'.setWriting.Committed := by
  intro _
  rw [eq_of_sendError_ok h]
  refine ⟨rfl, fun hnil => ?_⟩
  have hitems : c.writeBuffer.items ++ errorResponse env code c.config = [] := hnil
  exact errorResponse_ne_nil env code c.config (List.append_eq_nil_iff.mp hitems).2

namespace EventLoop

/-- The client at `x` is registered for what it does, and keeps its word. -/
structure Faithful (l : EventLoop) (x : ℕ) : Prop where
  mask : ∀ (c : Connection) (ref : EventRef), l.connections[x]? = some c →
    l.eventRefs[x]? = some ref → ref.kind = .client → ref.events = c.buildEpollEvent
  committed : ∀ c : Connection, l.connections[x]? = some c → c.Committed

/-- The clients in `S` are faithful. -/
def FaithfulOn (S : ℕ → Prop) (l : EventLoop) : Prop := ∀ x, S x → l.Faithful x

/-- The clients in `S` are faithful, but perhaps for one. -/
def FaithfulBut (S : ℕ → Prop) (fd : ℕ) (l : EventLoop) : Prop := ∀ x, S x → x ≠ fd → l.Faithful x

section

variable {S : ℕ → Prop} {l l' : EventLoop} {a : KernelAnswers} {fd x : ℕ} {c c' : Connection}
  {u : Unit}

theorem FaithfulOn.but (h : FaithfulOn S l) (fd : ℕ) : FaithfulBut S fd l := fun x hx _ => h x hx

theorem Faithful.congr (h : l.Faithful x) (hconn : l'.connections[x]? = l.connections[x]?)
    (hrefs : ∀ ref, l'.eventRefs[x]? = some ref → ref.kind = .client → l.eventRefs[x]? = some ref) :
    l'.Faithful x :=
  ⟨fun c ref hc href hkind => h.mask c ref (hconn ▸ hc) (hrefs ref href hkind) hkind,
    fun c hc => h.committed c (hconn ▸ hc)⟩

theorem Faithful.of_none (h : l.connections[x]? = none) : l.Faithful x := by
  have hno : ∀ c : Connection, l.connections[x]? ≠ some c := by
    intro c hc
    rw [h] at hc
    cases hc
  exact ⟨fun c _ hc => absurd hc (hno c), fun c hc => absurd hc (hno c)⟩

/-! ### References that go -/

theorem eventRefs_unregisterEventFd_some {ref : EventRef}
    (h : (l.unregisterEventFd fd).eventRefs[x]? = some ref) : l.eventRefs[x]? = some ref := by
  rcases eq_or_ne x fd with rfl | hne
  · rw [eventRefs_unregisterEventFd_self] at h
    cases h
  · rwa [eventRefs_unregisterEventFd_ne hne] at h

theorem eventRefs_closeCgiJob_some {y : ℕ} {ref : EventRef}
    (h : (l.closeCgiJob x).eventRefs[y]? = some ref) : l.eventRefs[y]? = some ref := by
  unfold closeCgiJob at h
  split at h
  · exact h
  · exact eventRefs_unregisterEventFd_some h

theorem eventRefs_closeCgiJobs_some {y : ℕ} {ref : EventRef} : ∀ (ks : List ℕ) (l : EventLoop),
    (ks.foldl closeCgiJob l).eventRefs[y]? = some ref → l.eventRefs[y]? = some ref := by
  intro ks
  induction ks with
  | nil => exact fun _ h => h
  | cons k ks ih => exact fun l h => eventRefs_closeCgiJob_some (ih _ h)

/-! ### The operations -/

theorem FaithfulOn.closeCgiJob (h : FaithfulOn S l) (x : ℕ) : FaithfulOn S (l.closeCgiJob x) :=
  fun y hy => (h y hy).congr (by rw [connections_closeCgiJob]) fun _ href _ =>
    eventRefs_closeCgiJob_some href

theorem FaithfulBut.closeCgiJob (h : FaithfulBut S fd l) (x : ℕ) :
    FaithfulBut S fd (l.closeCgiJob x) :=
  fun y hy hne => (h y hy hne).congr (by rw [connections_closeCgiJob]) fun _ href _ =>
    eventRefs_closeCgiJob_some href

/-- The client goes. -/
theorem FaithfulBut.closeClient (h : FaithfulBut S fd l) : FaithfulOn S (l.closeClient fd) := by
  intro x hx
  rcases eq_or_ne x fd with rfl | hne
  · exact .of_none (connections_closeClient_self l x)
  · refine (h x hx hne).congr (connections_closeClient_ne hne) fun ref href _ => ?_
    exact eventRefs_closeCgiJobs_some _ l (eventRefs_unregisterEventFd_some href)

theorem FaithfulBut.put (h : FaithfulBut S fd l) (c : Connection) :
    FaithfulBut S fd (l.putConnection fd c) :=
  fun x hx hne => (h x hx hne).congr (connections_putConnection_ne c hne) fun _ href _ => href

/-- The connection does what it did. -/
theorem FaithfulOn.put (h : FaithfulOn S l) (hc : l.connections[fd]? = some c)
    (hstate : c'.state = c.state) (hcommitted : S fd → c'.Committed) :
    FaithfulOn S (l.putConnection fd c') := by
  intro x hx
  rcases eq_or_ne x fd with rfl | hne
  · have hself := connections_putConnection_self l x c'
    refine ⟨fun d ref hd href hkind => ?_, fun d hd => ?_⟩
    · rw [hself] at hd
      cases hd
      rw [buildEpollEvent_congr hstate]
      exact (h x hx).mask c ref hc href hkind
    · rw [hself] at hd
      cases hd
      exact hcommitted hx
  · exact (h.but fd).put c' x hx hne

theorem FaithfulOn.putJob (h : FaithfulOn S l) (x : ℕ) (j : CgiJob) :
    FaithfulOn S (l.putJob x j) :=
  fun y hy => (h y hy).congr rfl fun _ href _ => href

/-- A pipe is not a client. -/
theorem FaithfulBut.addCgiJob (h : FaithfulBut S fd l) (x : ℕ) (c : Connection) (now : ℕ) :
    FaithfulBut S fd (l.addCgiJob fd x c now) := by
  intro y hy hne
  refine (h y hy hne).congr rfl fun ref href hkind => ?_
  rcases eq_or_ne y x with rfl | hx
  · have hself : (l.addCgiJob fd y c now).eventRefs[y]? = some ⟨.cgi, y, l.serial, cgiEvents⟩ :=
      eventRefs_registerEventFd_self .cgi cgiEvents
    rw [hself] at href
    cases href
    cases hkind
  · exact (eventRefs_registerEventFd_ne .cgi cgiEvents hx).symm.trans href

/-- The mask of a pipe. -/
theorem FaithfulOn.modifyPipe (h : FaithfulOn S l) (hx : l.connections[x]? = none) (m : Bool)
    (events : EpollBits) : FaithfulOn S (l.modifyEventFd m x events) := by
  have hconn := connections_modifyPipe events hx m
  intro y hy
  rcases eq_or_ne y x with rfl | hne
  · exact .of_none ((hconn y).trans hx)
  · exact (h y hy).congr (hconn y) fun _ href _ =>
      (eventRefs_modifyEventFd_ne events m hne).symm.trans href

/-- A client that is rearmed is registered for what it does, or gone. -/
theorem rearmAs_self (l : EventLoop) (m : Bool) (fd : ℕ) (c : Connection) :
    (l.rearmAs m fd c).connections[fd]? = none ∨
      (l.rearmAs m fd c).connections[fd]? = some c ∧ ∀ ref,
        (l.rearmAs m fd c).eventRefs[fd]? = some ref → ref.kind = .client →
          ref.events = c.buildEpollEvent := by
  unfold rearmAs rearmClient
  rw [connections_putConnection_self]
  dsimp only
  unfold modifyEventFd
  cases href : (l.putConnection fd c).eventRefs[fd]? with
  | none =>
    refine Or.inr ⟨connections_putConnection_self l fd c, fun ref href' => ?_⟩
    rw [href] at href'
    cases href'
  | some ref =>
    dsimp only
    split
    · next hinvalid =>
      refine Or.inr ⟨connections_putConnection_self l fd c, fun ref' href' hkind => ?_⟩
      rw [href] at href'
      cases href'
      rw [hinvalid] at hkind
      cases hkind
    · split
      · refine Or.inr ⟨connections_putConnection_self l fd c, fun ref' href' _ => ?_⟩
        rw [Std.TreeMap.getElem?_insert_self] at href'
        cases href'
        rfl
      · exact Or.inl (connections_closeConnection_self _ fd)

theorem FaithfulBut.rearmAs {m : Bool} (h : FaithfulBut S fd l)
    (hc : S fd → c.Committed ∨
      m = false ∧ ∃ ref, l.eventRefs[fd]? = some ref ∧ ref.kind = .client) :
    FaithfulOn S (l.rearmAs m fd c) := by
  intro x hx
  rcases eq_or_ne x fd with rfl | hne
  · rcases rearmAs_self l m x c with hgone | ⟨hself, hmask⟩
    · exact .of_none hgone
    · rcases hc hx with hcommitted | ⟨rfl, hregistered⟩
      · refine ⟨fun d ref hd => ?_, fun d hd => ?_⟩
        · rw [hself] at hd
          cases hd
          exact hmask ref
        · rw [hself] at hd
          cases hd
          exact hcommitted
      · exact .of_none (rearmAs_false hregistered c)
  · have hput := h.put c x hx hne
    unfold EventLoop.rearmAs rearmClient
    rw [connections_putConnection_self]
    exact hput.congr (connections_modifyEventFd_ne _ m hne) fun _ href _ =>
      (eventRefs_modifyEventFd_ne _ m hne).symm.trans href

/-- The one client is not there any more. -/
theorem FaithfulBut.of_gone (h : FaithfulBut S fd l) (hgone : l.connections[fd]? = none) :
    FaithfulOn S l := by
  intro x hx
  rcases eq_or_ne x fd with rfl | hne
  · exact .of_none hgone
  · exact h x hx hne

theorem faithfulBut_iff : FaithfulBut S fd l ↔ FaithfulOn (fun x => S x ∧ x ≠ fd) l :=
  ⟨fun h x hx => h x hx.1 hx.2, fun h x hx hne => h x ⟨hx, hne⟩⟩

/-- Whatever the one client is rearmed for. -/
theorem FaithfulBut.rearm (h : FaithfulBut S fd l) (m : Bool) (c : Connection) :
    FaithfulBut S fd (l.rearmAs m fd c) := by
  rw [faithfulBut_iff] at h ⊢
  exact (h.but fd).rearmAs fun hfd => absurd rfl hfd.2

theorem FaithfulBut.refuse (h : FaithfulBut S fd l) (a : KernelAnswers) (c : Connection)
    (code : ℕ) : FaithfulBut S fd (l.refuse a fd c code).state := by
  unfold EventLoop.refuse
  cases sendError a.env code c with
  | bodyLimit c₁ => exact h.put c₁
  | ok c₁ u => exact h.rearm _ c₁.setWriting

theorem FaithfulBut.apiStartCgi (h : FaithfulBut S fd l) (a : KernelAnswers) (c : Connection)
    (info : CgiRequestInfo) : FaithfulBut S fd (l.apiStartCgi a fd c info).state := by
  unfold EventLoop.apiStartCgi
  cases a.pipe with
  | none => exact h.refuse a c 500
  | some x =>
    have hrunning := (h.addCgiJob x c a.env.now).rearm (a.modifies .run fd) c.setCgiRunning
    dsimp only
    generalize (l.addCgiJob fd x c a.env.now).rearmAs (a.modifies .run fd) fd c.setCgiRunning = l₁
      at hrunning ⊢
    split
    · exact hrunning
    · split
      · exact hrunning.put _
      · exact (hrunning.closeCgiJob x).refuse a _ 502

/-! ### The handlers -/

theorem faithful_refuse {code : ℕ} (h : FaithfulBut S fd l)
    (hok : l.refuse a fd c code = .ok l' u) : FaithfulOn S l' := by
  unfold refuse at hok
  cases herror : sendError a.env code c with
  | bodyLimit c₁ =>
    rw [herror] at hok
    cases hok
  | ok c₁ v =>
    rw [herror] at hok
    cases hok
    exact h.rearmAs fun _ => Or.inl (committed_sendError herror)

theorem faithful_apiStartCgi {info : CgiRequestInfo} (h : FaithfulBut S fd l)
    (hann : c.closeAnnounced = false) (hok : l.apiStartCgi a fd c info = .ok l' u) :
    FaithfulOn S l' := by
  unfold apiStartCgi at hok
  cases hx : a.pipe with
  | none =>
    rw [hx] at hok
    exact faithful_refuse h hok
  | some x =>
    rw [hx] at hok
    dsimp only at hok
    have hrunning : FaithfulOn S ((l.addCgiJob fd x c a.env.now).rearmAs (a.modifies .run fd) fd
        c.setCgiRunning) := (h.addCgiJob x c a.env.now).rearmAs fun _ => Or.inl (.of_not hann)
    generalize (l.addCgiJob fd x c a.env.now).rearmAs (a.modifies .run fd) fd c.setCgiRunning = l₁
      at hrunning hok
    cases hc₁ : l₁.connections[fd]? with
    | none =>
      rw [hc₁] at hok
      cases hok
      exact hrunning
    | some c₁ =>
      rw [hc₁] at hok
      dsimp only at hok
      cases hstarted : startCgi a.env.fs a.world c₁.request c₁.config info with
      | some _ =>
        rw [hstarted] at hok
        cases hok
        exact hrunning.put hc₁ rfl fun hfd => (hrunning fd hfd).committed c₁ hc₁
      | none =>
        rw [hstarted] at hok
        exact faithful_refuse ((hrunning.but fd).closeCgiJob x) hok

theorem FaithfulOn.forgetBodyFile (h : FaithfulOn S l) (fd : ℕ) :
    FaithfulOn S (l.forgetBodyFile fd) := by
  unfold EventLoop.forgetBodyFile
  cases hc : l.connections[fd]? with
  | none => exact h
  | some c => exact h.put hc rfl fun hfd => (h fd hfd).committed c hc

/-- What is done for a job keeps the client's word. -/
theorem faithful_settle {j : CgiJob} {o : Outcome (Connection × CgiJob) CgiFate}
    (h : FaithfulOn S l) (hc : l.connections[fd]? = some c) (ho : CallEnd c j o)
    (hqueued : c.writeBuffer.items <+: o.state.1.writeBuffer.items)
    (hok : l.settle a x fd o = .ok l' u) : FaithfulOn S l' := by
  cases ho with
  | bodyLimit => cases hok
  | @ok c₁ j₁ fate hw =>
    have hput := h.putJob x j₁
    have hcommitted : fate ≠ .wait → S fd → c₁.Committed := by
      intro hfate hfd hann
      refine ⟨hw.writing hfate, ?_⟩
      rcases hw.announced hann with hbefore | ⟨-, hitems⟩
      · -- announced before: what was queued then is still there
        intro hnil
        have hc₁ : c₁.writeBuffer.items = [] := hnil
        rw [Outcome.state_ok, hc₁, List.prefix_nil] at hqueued
        exact ((h fd hfd).committed c hc hbefore).2 hqueued
      · exact hitems
    cases fate with
    | wait =>
      cases hok
      obtain ⟨rfl, -⟩ := hw.wait rfl
      have hfiled : (l.putJob x j₁).connections[fd]? = some c₁ := hc
      exact hput.put hfiled rfl fun hfd => (h fd hfd).committed c₁ hc
    | streamed =>
      cases hok
      exact (hput.but fd).rearmAs fun hfd => Or.inl (hcommitted nofun hfd)
    | ended =>
      cases hok
      exact ((hput.but fd).rearmAs fun hfd => Or.inl (hcommitted nofun hfd)).closeCgiJob x

theorem faithful_handleCgiEvent (h : FaithfulOn S l) (hok : l.handleCgiEvent a x = .ok l' u) :
    FaithfulOn S l' := by
  unfold handleCgiEvent at hok
  cases hj : l.cgiJobs[x]? with
  | none =>
    rw [hj] at hok
    cases hok
    exact h
  | some j =>
    rw [hj] at hok
    dsimp only at hok
    cases hc : l.connections[j.clientFd]? with
    | none =>
      rw [hc] at hok
      cases hok
      exact h.closeCgiJob x
    | some c =>
      rw [hc] at hok
      exact faithful_settle h hc (callEnd_cgiEvent a.env c j (a.reads x))
        (relays_queued.cgiEvent a.env c j (a.reads x)) hok

/-- Nothing is announced to a client that is being read from. -/
theorem faithful_handleRead (h : FaithfulOn S l) (hc : l.connections[fd]? = some c)
    (hann : c.closeAnnounced = false) (hok : l.handleRead a fd = .ok l' u) : FaithfulOn S l' := by
  unfold handleRead at hok
  rw [hc] at hok
  dsimp only at hok
  split at hok
  · cases hok
    exact h
  · have hleaves := readLeaves_readLoop a.env a.recvs c
    unfold tryRead at hok
    cases hread : readLoop a.env c a.recvs with
    | bodyLimit c₁ =>
      rw [hread] at hok
      dsimp only [catchTryRead] at hok
      rw [connections_putConnection_self] at hok
      exact faithful_refuse ((h.but fd).put c₁) hok
    | ok c₁ fate =>
      rw [hread] at hok hleaves
      cases hleaves with
      | nothing hreceives =>
        -- more is awaited: the state and the announcement are as they were
        cases hok
        exact h.put hc hreceives.state fun _ => .of_not (hreceives.announced.trans hann)
      | stuck hreceives =>
        cases hok
        exact h.put hc hreceives.state fun _ => .of_not (hreceives.announced.trans hann)
      | close =>
        cases hok
        exact ((h.but fd).put c₁).closeClient
      | answered hstate hqueued =>
        cases hok
        refine (h.but fd).rearmAs fun _ => Or.inl fun hann₁ => ⟨hstate, ?_⟩
        -- announced just now, so something has been queued behind it
        rcases hqueued hann₁ with hbefore | hitems
        · rw [hann] at hbefore
          cases hbefore
        · exact hitems
      | script info _ hsame =>
        dsimp only at hok
        cases hapi : l.apiStartCgi a fd c₁ info with
        | bodyLimit l₁ =>
          -- the exception leaves the loop as the script's start has left it
          rw [hapi] at hok
          have hbut : FaithfulBut S fd l₁ := by
            have hstate := (h.but fd).apiStartCgi a c₁ info
            rwa [hapi] at hstate
          dsimp only [Outcome.andThen_bodyLimit, catchTryRead] at hok
          cases hc₂ : l₁.connections[fd]? with
          | none =>
            rw [hc₂] at hok
            cases hok
            exact hbut.of_gone hc₂
          | some c₂ =>
            rw [hc₂] at hok
            exact faithful_refuse hbut hok
        | ok l₁ v =>
          rw [hapi] at hok
          cases hok
          exact (faithful_apiStartCgi (h.but fd) (hsame.trans hann) hapi).forgetBodyFile fd

/-- When a client has been written to, it is rearmed or closed. -/
theorem faithful_afterWrite (h : FaithfulBut S fd l)
    (hfd : S fd → c.writeBuffer.items = [] → a.modifies .write fd = true →
      c.closeAnnounced = true → c.peerHalfClosed = true ∨ c.request.keepAlive = false)
    (hregistered : ∃ ref, l.eventRefs[fd]? = some ref ∧ ref.kind = .client) :
    FaithfulOn S (l.afterWrite a fd c) := by
  unfold afterWrite
  split
  · next hempty =>
    split
    · next hkeep =>
      rw [Bool.and_eq_true, Bool.not_eq_true'] at hkeep
      refine h.rearmAs fun hS => ?_
      cases hm : a.modifies .write fd with
      | false => exact Or.inr ⟨rfl, hregistered⟩
      | true =>
        refine Or.inl fun hann => ?_
        rcases hfd hS ((c.writeBuffer.isEmpty_iff).mp hempty) hm hann with hhalf | hclose
        · rw [hkeep.1] at hhalf
          cases hhalf
        · rw [hkeep.2] at hclose
          cases hclose
    · exact h.closeClient
  · next hfull =>
    exact h.rearmAs fun _ => Or.inl fun _ =>
      ⟨rfl, fun hnil => hfull ((c.writeBuffer.isEmpty_iff).mpr hnil)⟩

theorem faithful_afterRelay (h : FaithfulBut S fd l)
    (hfd : S fd → a.modifies .write fd = true → l.Faithful fd)
    (hregistered : ∀ c : Connection, l.connections[fd]? = some c →
      ∃ ref, l.eventRefs[fd]? = some ref ∧ ref.kind = .client) :
    FaithfulOn S (l.afterRelay a fd) := by
  unfold afterRelay
  cases hc : l.connections[fd]? with
  | none => exact h.of_gone hc
  | some c =>
    refine h.rearmAs fun hS => ?_
    cases hm : a.modifies .write fd with
    | false => exact Or.inr ⟨rfl, hregistered c hc⟩
    | true =>
      exact Or.inl fun hann => ⟨rfl, ((hfd hS hm).committed c hc hann).2⟩

/-- The client's error page is all that it is sent, if the socket takes that. -/
def ClosesBehind (l : EventLoop) (a : KernelAnswers) (fd : ℕ) (c : Connection) : Prop :=
  c.closeAnnounced = true → c.writeBuffer.items.length ≤ (a.takes fd).sum →
    a.modifies .write fd = true →
      l.activeCgi fd = none ∧ (c.peerHalfClosed = true ∨ c.request.keepAlive = false)

/-- A client that has something left to send keeps its word when some of it has been taken. -/
theorem Faithful.putConnection (h : l.Faithful fd) (hc : l.connections[fd]? = some c)
    (hstate : c'.state = c.state) (hann : c'.closeAnnounced = c.closeAnnounced)
    (hleft : c.closeAnnounced = true → c'.writeBuffer.items ≠ []) :
    (l.putConnection fd c').Faithful fd := by
  refine ⟨fun d ref hd href hkind => ?_, fun d hd => ?_⟩
  · rw [connections_putConnection_self] at hd
    cases hd
    rw [buildEpollEvent_congr hstate]
    exact h.mask c ref hc href hkind
  · rw [connections_putConnection_self] at hd
    cases hd
    intro hc'
    have hbefore := hann.symm.trans hc'
    exact ⟨hstate.trans (h.committed c hc hbefore).1, hleft hbefore⟩

theorem faithful_handleWrite (hl : l.Attached) (h : FaithfulBut S fd l)
    (hfd : S fd → l.Faithful fd ∧ ∀ c ∈ l.connections[fd]?, l.ClosesBehind a fd c)
    (hok : l.handleWrite a fd = .ok l' u) : FaithfulOn S l' := by
  unfold handleWrite at hok
  cases hc : l.connections[fd]? with
  | none =>
    rw [hc] at hok
    cases hok
    exact h.of_gone hc
  | some c =>
    rw [hc] at hok
    dsimp only at hok
    have hregistered := hl.registered fd c hc
    have hnum : (c.sendLoop a.env.now (a.takes fd)).connNum = c.connNum :=
      (serves_sendLoop a.env.now (a.takes fd) c).connNum
    -- of the client only the queue and the times change
    obtain ⟨t, hsent⟩ := sendLoop_eq a.env.now (a.takes fd) c
    have hdrained : (c.sendLoop a.env.now (a.takes fd)).writeBuffer.items = [] →
        c.writeBuffer.items.length ≤ (a.takes fd).sum := by
      rw [hsent]
      exact List.drop_eq_nil_iff.mp
    have hstate : (c.sendLoop a.env.now (a.takes fd)).state = c.state := by rw [hsent]
    have hann : (c.sendLoop a.env.now (a.takes fd)).closeAnnounced = c.closeAnnounced := by
      rw [hsent]
    have hhalf : (c.sendLoop a.env.now (a.takes fd)).peerHalfClosed = c.peerHalfClosed := by
      rw [hsent]
    have hreq : (c.sendLoop a.env.now (a.takes fd)).request = c.request := by rw [hsent]
    generalize c.sendLoop a.env.now (a.takes fd) = c₁ at hok hnum hdrained hstate hann hhalf hreq
    have hput : FaithfulBut S fd (l.putConnection fd c₁) := h.put c₁
    have hops : Ops anything l (l.putConnection fd c₁) := .single (.file ⟨c, hc, hnum.symm⟩)
    cases hx : (l.putConnection fd c₁).activeCgi fd with
    | none =>
      -- no script: the queue is all that there is to send
      rw [hx] at hok
      cases hok
      refine faithful_afterWrite hput (fun hS hnil hm hc₁ => ?_) hregistered
      rw [hhalf, hreq]
      exact ((hfd hS).2 c hc (hann.symm.trans hc₁) (hdrained hnil) hm).2
    | some x =>
      -- a pipe is nobody's client, so its mask says nothing about one
      have hfree : (l.putConnection fd c₁).connections[x]? = none := by
        obtain ⟨j, hj, -⟩ := Table.findKey_eq_some hx
        have hattached := hops.invariant (fun _ _ => Attached.op) hl
        exact hattached.connections_of_job hj
      -- the client itself keeps its word unless its mask cannot be changed
      have hkeeps : S fd → a.modifies .write fd = true → (l.putConnection fd c₁).Faithful fd := by
        intro hS hm
        obtain ⟨hfaithful, hcloses⟩ := hfd hS
        refine hfaithful.putConnection hc hstate hann fun hbefore hnil => ?_
        have hnone := (hcloses c hc hbefore (hdrained hnil) hm).1
        rw [show l.activeCgi fd = some x from hx] at hnone
        cases hnone
      rw [hx] at hok
      dsimp only at hok
      split at hok
      · have hpipe : Ops anything l ((l.putConnection fd c₁).modifyEventFd (a.modifies .pipe x) x
            cgiEvents) := hops.trans (ops_modifyEventFd (fun _ => trivial) x cgiEvents)
        have hrelay : Ops anything l _ :=
          hpipe.trans (ops_handleCgiEvent (a := a) (fun _ _ _ => trivial) x)
        cases hevent : ((l.putConnection fd c₁).modifyEventFd (a.modifies .pipe x) x
            cgiEvents).handleCgiEvent a x with
        | bodyLimit l₁ =>
          rw [hevent] at hok
          cases hok
        | ok l₁ v =>
          rw [hevent] at hok hrelay
          cases hok
          have hattached : l₁.Attached := hrelay.invariant (fun _ _ => Attached.op) hl
          refine faithful_afterRelay ?_ (fun hS hm => ?_) (hattached.registered fd)
          · rw [faithfulBut_iff] at hput ⊢
            exact faithful_handleCgiEvent (hput.modifyPipe hfree _ cgiEvents) hevent
          · -- the same relay, for the set that is the client alone
            have hone : FaithfulOn (fun y => y = fd) (l.putConnection fd c₁) := by
              rintro y rfl
              exact hkeeps hS hm
            exact faithful_handleCgiEvent (hone.modifyPipe hfree _ cgiEvents) hevent fd rfl
      · cases hok
        exact faithful_afterRelay hput hkeeps fun _ _ => hregistered

/-! ### Events -/

theorem FaithfulOn.addConnection (h : FaithfulOn S l) (a : KernelAnswers) (server : Server)
    (fd : ℕ) : FaithfulOn S (l.addConnection a server fd) := by
  intro x hx
  rcases eq_or_ne x fd with rfl | hne
  · have hself : (l.addConnection a server x).connections[x]? =
        some (accepted server (l.listeners.map (·.server)) x l.counter a.env.now) :=
      connections_putConnection_self ..
    have hmask : (l.addConnection a server x).eventRefs[x]? =
        some ⟨.client, x, l.serial, { epollIn := true, epollRdhup := true }⟩ :=
      eventRefs_registerEventFd_self ..
    refine ⟨fun c ref hc href _ => ?_, fun c hc => ?_⟩
    · rw [hself] at hc
      rw [hmask] at href
      cases hc
      cases href
      rfl
    · rw [hself] at hc
      cases hc
      exact .of_not rfl
  · exact (h x hx).congr (connections_putConnection_ne _ hne) fun _ href _ =>
      (eventRefs_registerEventFd_ne _ _ hne).symm.trans href

theorem faithful_addConnections {server : Server} : ∀ (clients : List ℕ) (l : EventLoop),
    FaithfulOn S l → FaithfulOn S (clients.foldl (fun l fd => l.addConnection a server fd) l) := by
  intro clients
  induction clients with
  | nil => exact fun _ h => h
  | cons fd clients ih => exact fun l h => ih _ (h.addConnection a server fd)

/-- What is read from a client is read before anything has been announced. -/
theorem Faithful.reading {ref : EventRef} {events : EpollBits} (h : l.Faithful fd)
    (hc : l.connections[fd]? = some c) (href : l.eventRefs[fd]? = some ref)
    (hkind : ref.kind = .client) (hwithin : events.Within ref.events)
    (hin : events.epollIn = true) : c.closeAnnounced = false := by
  have hmask := hwithin.epollIn hin
  rw [h.mask c ref hc href hkind] at hmask
  cases hann : c.closeAnnounced with
  | false => rfl
  | true =>
    have hstate := (h.committed c hc hann).1
    unfold Connection.buildEpollEvent at hmask
    rw [hstate] at hmask
    cases hmask

theorem faithful_closeTimedOutClient (hl : l.Attached) (h : ∀ x, l.Faithful x)
    (hok : closeTimedOutClient a l fd = .ok l' u) : ∀ x, l'.Faithful x := by
  unfold closeTimedOutClient at hok
  cases hc : l.connections[fd]? with
  | none =>
    rw [hc] at hok
    cases hok
    exact h
  | some c =>
    rw [hc] at hok
    dsimp only at hok
    cases herror : sendError a.env 408 c with
    | bodyLimit c₁ =>
      rw [herror] at hok
      cases hok
    | ok c₁ v =>
      rw [herror] at hok
      dsimp only at hok
      have hnum := (serves_sendError a.env 408 c).connNum
      rw [herror] at hnum
      have hattached : (l.putConnection fd c₁).Attached :=
        hl.op (p := anything) (.file ⟨c, hc, hnum.symm⟩)
      cases hwrite : (l.putConnection fd c₁).handleWrite a fd with
      | bodyLimit l₁ =>
        rw [hwrite] at hok
        cases hok
      | ok l₁ w =>
        rw [hwrite] at hok
        cases hok
        -- the others are faithful all the time, and the client goes
        have hothers : FaithfulOn (· ≠ fd) l := fun x _ => h x
        have hbut := (hothers.but fd).put c₁
        have hwritten := faithful_handleWrite hattached hbut (fun hfd => absurd rfl hfd) hwrite
        have hclosed : FaithfulOn (fun _ => True) (l₁.closeClient fd) :=
          FaithfulBut.closeClient fun x _ hne => hwritten x hne
        exact fun x => hclosed x trivial

theorem faithful_closeTimedOutCgiJob (h : FaithfulOn S l)
    (hok : closeTimedOutCgiJob a l x = .ok l' u) : FaithfulOn S l' := by
  unfold closeTimedOutCgiJob at hok
  cases hj : l.cgiJobs[x]? with
  | none =>
    rw [hj] at hok
    cases hok
    exact h
  | some j =>
    rw [hj] at hok
    dsimp only at hok
    cases hc : l.connections[j.clientFd]? with
    | none =>
      rw [hc] at hok
      cases hok
      exact h.closeCgiJob x
    | some c =>
      rw [hc] at hok
      exact faithful_settle h hc (callEnd_failCgiJob a.env 504 c j)
        (relays_queued.failCgiJob a.env 504 c j) hok

/-- A sweep keeps what its steps keep. -/
theorem forEach_ok {I : EventLoop → Prop} {f : EventLoop → ℕ → Outcome EventLoop Unit}
    (hf : ∀ l fd l', I l → f l fd = .ok l' () → I l') : ∀ (fds : List ℕ) (l l' : EventLoop),
      I l → forEach f fds l = .ok l' () → I l' := by
  intro fds
  induction fds with
  | nil =>
    intro l l' hl hok
    cases hok
    exact hl
  | cons fd fds ih =>
    intro l l' hl hok
    unfold forEach at hok
    cases hfirst : f l fd with
    | bodyLimit l₁ =>
      rw [hfirst] at hok
      cases hok
    | ok l₁ v =>
      rw [hfirst] at hok
      exact ih l₁ l' (hf l fd l₁ hl hfirst) hok

/-- All clients are registered for what they do, and keep their word. -/
structure AllFaithful (l : EventLoop) : Prop where
  attached : l.Attached
  faithful : ∀ x, l.Faithful x

theorem AllFaithful.on (h : l.AllFaithful) : FaithfulOn (fun _ => True) l := fun x _ => h.faithful x

theorem allFaithful_sweep (h : l.AllFaithful) (hok : l.sweep a = .ok l' ()) : l'.AllFaithful := by
  unfold sweep at hok
  have hstale : AllFaithful { l with staleRefs := [] } :=
    ⟨⟨h.attached.keyed, h.attached.apart, h.attached.registered⟩,
      fun x => (h.faithful x).congr rfl fun _ href _ => href⟩
  cases hclients : closeTimedOutClients { l with staleRefs := [] } a with
  | bodyLimit l₁ =>
    rw [hclients] at hok
    cases hok
  | ok l₁ v =>
    rw [hclients] at hok
    have hfirst : l₁.AllFaithful := by
      refine forEach_ok (fun l fd l' hl hclose => ⟨?_, ?_⟩) _ _ _ hstale hclients
      · have hops := ops_closeTimedOutClient (p := anything) (a := a) (fun _ _ _ => trivial) l fd
        rw [hclose] at hops
        exact Ops.invariant (fun _ _ => Attached.op) hops hl.attached
      · exact faithful_closeTimedOutClient hl.attached hl.faithful hclose
    refine forEach_ok (fun l x l' hl hfail => ⟨?_, ?_⟩) _ _ _ hfirst hok
    · have hops := ops_closeTimedOutCgiJob (p := anything) (a := a) (fun _ _ _ => trivial) l x
      rw [hfail] at hops
      exact Ops.invariant (fun _ _ => Attached.op) hops hl.attached
    · exact fun y => faithful_closeTimedOutCgiJob hl.on hfail y trivial

/-- A client is drained only if its request says the same as its error page: the connection is
closed then. -/
def ClosesWhenDrained (l : EventLoop) : Event → Prop
  | .sweep _ => True
  | .dispatch fd events a => Event.WritesTo fd (.dispatch fd events a) →
      ∀ c ∈ l.connections[fd]?, l.ClosesBehind a fd c

instance (l : EventLoop) (a : KernelAnswers) (fd : ℕ) (c : Connection) :
    Decidable (l.ClosesBehind a fd c) := inferInstanceAs (Decidable (_ → _ → _ → _))

instance (fd x : ℕ) (events : EpollBits) (a : KernelAnswers) :
    Decidable (Event.WritesTo fd (.dispatch x events a)) :=
  inferInstanceAs (Decidable (_ ∧ _ ∧ _ ∧ _ ∧ _ ∧ _))

instance (l : EventLoop) (ev : Event) : Decidable (l.ClosesWhenDrained ev) :=
  match ev with
  | .sweep _ => inferInstanceAs (Decidable True)
  | .dispatch _ _ _ => inferInstanceAs (Decidable (_ → ∀ c ∈ _, _))

theorem faithful_handleClientEvent {ref : EventRef} {events : EpollBits} (hl : l.AllFaithful)
    (href : l.eventRefs[fd]? = some ref) (hkind : ref.kind = .client)
    (hwithin : events.Within ref.events)
    (hcloses : l.ClosesWhenDrained (.dispatch fd events a))
    (hok : l.handleClientEvent a fd events = .ok l' u) : FaithfulOn (fun _ => True) l' := by
  have h := hl.on
  unfold handleClientEvent at hok
  cases hc : l.connections[fd]? with
  | none =>
    rw [hc] at hok
    cases hok
    exact h
  | some c =>
    rw [hc] at hok
    dsimp only at hok
    split at hok
    · cases hok
      exact (h.but fd).closeClient
    · next herror =>
      split at hok
      · split at hok
        · cases hok
          exact (h.but fd).closeClient
        · -- half closed: nothing is queued, and what was committed stays so
          cases hok
          exact h.put hc rfl fun _ => (hl.faithful fd).committed c hc
      · next hrdhup =>
        split at hok
        · next hin =>
          exact faithful_handleRead h hc
            ((hl.faithful fd).reading hc href hkind hwithin hin) hok
        · next hnotIn =>
          split at hok
          · next hout =>
            -- this is the branch that writes, so a drained client is closed
            have hwrites : Event.WritesTo fd (.dispatch fd events a) := by
              rw [Bool.or_eq_true, not_or] at herror
              simp only [Bool.not_eq_true] at herror hrdhup hnotIn
              exact ⟨rfl, hout, herror.1, herror.2, hrdhup, hnotIn⟩
            exact faithful_handleWrite hl.attached (h.but fd)
              (fun _ => ⟨hl.faithful fd, hcloses hwrites⟩) hok
          · cases hok
            exact h

theorem allFaithful_step {ev : Event} (hl : l.AllFaithful)
    (h : Returns ClosesWhenDrained l ev) : (next l ev).AllFaithful := by
  obtain ⟨hpossible, hcloses, hreturns⟩ := h
  have hok : l.step ev = .ok (next l ev) () := Outcome.eq_ok_of_threw hreturns
  have hattached := hl.attached.next hpossible
  cases ev with
  | sweep a => exact allFaithful_sweep hl hok
  | dispatch fd events a =>
    refine ⟨hattached, ?_⟩
    -- what holds of all clients, but for those that are being looked at
    suffices h : FaithfulOn (fun _ => True) (next l (.dispatch fd events a)) from
      fun x => h x trivial
    generalize next l (.dispatch fd events a) = l' at hok
    replace hok : l.dispatch a fd events = .ok l' () := hok
    unfold dispatch at hok
    cases href : l.eventRefs[fd]? with
    | none =>
      rw [href] at hok
      cases hok
      exact hl.on
    | some ref =>
      rw [href] at hok
      dsimp only at hok
      have hfd := hl.attached.keyed fd ref href
      cases hkind : ref.kind with
      | invalid =>
        rw [hkind] at hok
        cases hok
        exact hl.on
      | server =>
        rw [hkind] at hok
        cases hok
        unfold handleAccept
        split
        · exact hl.on
        · exact faithful_addConnections _ _ hl.on
      | cgi =>
        rw [hkind] at hok
        exact faithful_handleCgiEvent hl.on hok
      | client =>
        rw [hkind, hfd] at hok
        exact faithful_handleClientEvent hl href hkind (hpossible.1 ref href hkind) hcloses hok

end

/-- **An announced connection has something to be sent**: behind the last byte it is gone. -/
def KeepsItsWord (l : EventLoop) : Prop :=
  ∀ (fd : ℕ) (c : Connection), l.connections[fd]? = some c → c.Committed

theorem allFaithful_start (listeners : List Listener) : (start listeners).AllFaithful :=
  ⟨attached_start listeners, fun x => .of_none (connections_start listeners x)⟩

/-- **An announced connection is closed**: in a run in which the request of every client that is
drained says the same as its error page, nothing is read from a client any more that an error
page has been queued for, and behind the last byte of the page it is gone. -/
theorem keepsItsWord {listeners : List Listener} {es : List Event}
    (h : Run.Meets next (Returns ClosesWhenDrained) (start listeners) es) :
    (es.foldl next (start listeners)).KeepsItsWord := by
  have hfaithful := h.invariant (I := AllFaithful) (fun _ _ hl hev => allFaithful_step hl hev)
    (allFaithful_start listeners)
  exact fun fd c hc => (hfaithful.faithful fd).committed c hc

/-! ### A request without `Host` -/

/-- A client sends a request, and takes all that is sent. -/
private def refusedRequest (request : String) : List Event :=
  requestFrom request ++
    [.dispatch 5 { epollOut := true } { quiet 0 with takes := fun _ => [100000] }]

/-- A server that runs scripts. -/
private def refusing : EventLoop := start [⟨3, scriptServer 100000⟩]

/-- The request says `close` itself. -/
theorem keepsItsWord_close :
    ((refusedRequest "GET / HTTP/1.1\r\nConnection: close\r\n\r\n").foldl next
      refusing).KeepsItsWord :=
  keepsItsWord (by decide +kernel)

/-- A request without a host. -/
private def withoutHost : List Event := refusedRequest "GET / HTTP/1.1\r\n\r\n"

/-- **A connection that has been announced as closing is read from.** -/
theorem not_keepsItsWord : ∃ listeners es,
    Run.Meets next (Returns fun _ _ => True) (start listeners) es ∧
      ¬ (es.foldl next (start listeners)).KeepsItsWord := by
  refine ⟨[⟨3, scriptServer 100000⟩], withoutHost, by decide +kernel, fun hkeeps => ?_⟩
  have hreads : ((withoutHost.foldl next refusing).connections[5]?).any
      (fun c => c.closeAnnounced && c.state = .reading) = true := by decide +kernel
  cases hc : (withoutHost.foldl next refusing).connections[5]? with
  | none =>
    rw [hc] at hreads
    cases hreads
  | some c =>
    rw [hc, Option.any_some, Bool.and_eq_true, decide_eq_true_eq] at hreads
    have hwriting := (hkeeps 5 c hc hreads.1).1
    rw [hreads.2] at hwriting
    cases hwriting

end EventLoop

end Webserv
