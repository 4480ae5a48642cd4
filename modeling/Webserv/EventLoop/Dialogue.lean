import Webserv.EventLoop.Arriving
import Webserv.EventLoop.Isolation
import Webserv.EventLoop.Readiness

/-!
# A dialogue with a client

A client sends its requests one after another, each when it has the answer to the one before, and
the server is told of them in any pieces and sends its answers in any pieces, while it serves other
clients in between.  What the client is sent are the answers to its requests, in their order.

## Main definitions

* `sentTo` — what the socket of a client takes in a run.
* `Exchange` — a request, and the events by which it comes in and its answer goes out.
* `Dialogue` — exchanges one after another.

## Main results

* `Exchange.Fair.sent` — one exchange.
* `sentTo_dialogue` — **every request of a dialogue is answered**, by nothing but the answer that
  the handler gives to what has been read of it.
-/

namespace Webserv

open Bytes

namespace EventLoop

/-! ### What is sent -/

/-- What the socket of the client `fd` takes during an event. -/
def sentAt (fd : ℕ) (l : EventLoop) : Event → Bytes
  | .dispatch y events a => if y = fd then l.sentBytes a fd events else []
  | .sweep a =>
      match l.connections[fd]? with
      | none => []
      | some c =>
          if c.state ≠ .cgiRunning && c.isTimedOut c.config.timeoutSeconds a.env.now then
            match sendError a.env 408 c with
            | .bodyLimit _ => []
            | .ok c _ => c.writeBuffer.items.take (a.takes fd).sum
          else []

/-- What it takes in a run. -/
def sentTo (fd : ℕ) : EventLoop → List Event → Bytes
  | _, [] => []
  | l, ev :: es => l.sentAt fd ev ++ sentTo fd (next l ev) es

namespace Client

/-- What the client is sent during an event. -/
def sends (fd : ℕ) (ev : Event) (cl : Client) : Bytes :=
  match ev with
  | .dispatch y events a =>
      if y ≠ fd || events.epollErr || events.epollHup || events.epollRdhup || events.epollIn then []
      else if events.epollOut then cl.conn.writeBuffer.items.take (a.takes fd).sum
      else []
  | .sweep a =>
      if cl.conn.state ≠ .cgiRunning &&
          cl.conn.isTimedOut cl.conn.config.timeoutSeconds a.env.now then
        match sendError a.env 408 cl.conn with
        | .bodyLimit _ => []
        | .ok c _ => c.writeBuffer.items.take (a.takes fd).sum
      else []

/-- What it is sent in a run. -/
def sent (fd : ℕ) : List Event → Option Client → Bytes
  | [], _ => []
  | ev :: es, cl => cl.elim [] (sends fd ev) ++ sent fd es (cl.bind (step fd ev))

end Client

section

variable {l : EventLoop} {fd : ℕ} {ev : Event} {cl : Client} {es : List Event}

theorem sentAt_eq (h : l.connections[fd]? = some cl.conn) : l.sentAt fd ev = cl.sends fd ev := by
  unfold sentAt Client.sends
  cases ev with
  | dispatch y events a =>
    dsimp only
    by_cases hy : y = fd
    · rw [if_pos hy, sentBytes, h]
      dsimp only
      simp only [ne_eq, hy, not_true_eq_false, decide_false, Bool.false_or]
    · rw [if_neg hy, if_pos (by simp [hy])]
  | sweep a =>
    dsimp only
    rw [h]

theorem sentAt_gone (h : l.connections[fd]? = none) : l.sentAt fd ev = [] := by
  unfold sentAt
  cases ev with
  | dispatch y events a =>
    dsimp only
    rw [sentBytes, h, ite_self]
  | sweep a =>
    dsimp only
    rw [h]

/-- An event that the client does not hear sends nothing to it. -/
theorem Client.sends_eq_nil (h : ¬ cl.Hears fd ev) : cl.sends fd ev = [] := by
  unfold Client.sends
  cases ev with
  | dispatch y events a =>
    have hy : y ≠ fd := fun hy => h (Or.inl hy)
    dsimp only
    rw [if_pos (by simp [hy])]
  | sweep a =>
    dsimp only
    refine if_neg fun hidle => h (Or.inl ?_)
    rwa [Bool.and_eq_true, decide_eq_true_eq] at hidle

/-- **What the client is sent, it is sent during the events that it hears.** -/
theorem sentTo_eq : ∀ (es : List Event) (l : EventLoop) (cl : Option Client), l.Coherent →
    l.Holds fd cl → Run.Meets next (Returns (Elsewhere fd)) l es →
      sentTo fd l es = Client.sent fd (heard fd l es) cl := by
  intro es
  induction es with
  | nil => exact fun _ _ _ _ _ => rfl
  | cons ev es ih =>
    rintro l cl hl hcl ⟨⟨hpossible, hev, hreturns⟩, hrest⟩
    have hstep := Outcome.eq_ok_of_threw hreturns
    have hcl' := holds_step hl hpossible hev hstep hcl
    have htail := ih _ _ (turns_step hl hpossible hev.1 hstep).coherent hcl' hrest
    have hclient := client_eq hcl
    rw [sentTo]
    cases cl with
    | none =>
      have hgone : l.connections[fd]? = none := hcl
      rw [heard_cons_of_not_hears (by rw [hclient]; rintro ⟨cl, ⟨⟩, -⟩), sentAt_gone hgone]
      exact htail
    | some cl =>
      have hconn : l.HasClient fd cl.conn cl.job := hcl
      rw [sentAt_eq hconn.conn]
      by_cases hhears : cl.Hears fd ev
      · rw [heard_cons_of_hears ⟨cl, hclient, hhears⟩, Client.sent]
        exact congrArg (cl.sends fd ev ++ ·) htail
      · rw [heard_cons_of_not_hears (by rw [hclient]; rintro ⟨cl', ⟨⟩, h⟩; exact hhears h),
          Client.sends_eq_nil hhears]
        rwa [Option.bind_some, Client.step_eq_self hhears] at htail

theorem Client.sent_append (fd : ℕ) : ∀ (es es' : List Event) (cl : Option Client),
    Client.sent fd (es ++ es') cl =
      Client.sent fd es cl ++ Client.sent fd es' (Client.run fd es cl) := by
  intro es es'
  induction es with
  | nil => exact fun _ => rfl
  | cons ev es ih =>
    intro cl
    rw [List.cons_append, Client.sent, Client.sent, ih, List.append_assoc]
    rfl

theorem Client.run_append (fd : ℕ) (es es' : List Event) (cl : Option Client) :
    Client.run fd (es ++ es') cl = Client.run fd es' (Client.run fd es cl) :=
  List.foldl_append

end

/-! ### One exchange -/

/-- A request of a client, and how it comes in and its answer goes out: readable events with the
pieces that they bring, and writable events.  Of either kind the last one stands by itself. -/
structure Exchange where
  parts : RequestParts
  reads : List (KernelAnswers × List Bytes)
  last : KernelAnswers × List Bytes
  writes : List KernelAnswers
  lastWrite : KernelAnswers

/-- How much the socket takes in these writable events. -/
def taken (fd : ℕ) (writes : List KernelAnswers) : ℕ :=
  (writes.map fun a => (a.takes fd).sum).sum

@[simp] theorem taken_cons (fd : ℕ) (a : KernelAnswers) (writes : List KernelAnswers) :
    taken fd (a :: writes) = (a.takes fd).sum + taken fd writes := rfl

/-- `EPOLLIN` of a client. -/
def readable (fd : ℕ) (a : KernelAnswers) : Event := .dispatch fd { epollIn := true } a

/-- `EPOLLOUT` of a client. -/
def writable (fd : ℕ) (a : KernelAnswers) : Event := .dispatch fd { epollOut := true } a

namespace Exchange

variable (fd : ℕ) (c : Connection) (x : Exchange)

/-- The events of an exchange: the reads, then the writes. -/
def events : List Event :=
  x.reads.map (readable fd ·.1) ++ readable fd x.last.1 :: x.writes.map (writable fd) ++
    [writable fd x.lastWrite]

/-- The answer to the request of a client of this server. -/
def answer : Bytes := x.parts.answer x.last.1.env c

/-- The client wants to send another request. -/
def keepsAlive : Bool := x.parts.received.request.keepAlive

/-- The conditions on an exchange. -/
structure Fair : Prop where
  served : x.parts.Served x.last.1.env.fs.statAnswer c
  /-- The files stay what they are while the request comes in. -/
  stat : ∀ r ∈ x.reads, r.1.env.fs.statAnswer = x.last.1.env.fs.statAnswer
  brings : (∀ r ∈ x.reads, Brings r.1.recvs r.2) ∧ Brings x.last.1.recvs x.last.2
  text : x.parts.text = (x.reads.flatMap Prod.snd ++ x.last.2).flatten
  /-- The last readable event brings something. -/
  ends : x.last.2 ≠ []
  fits : (x.answer c).length ≤ (x.parts.server c).getMaxBody
  rearms : x.last.1.modifies .answer fd = true ∧
    ∀ a ∈ x.writes ++ [x.lastWrite], a.modifies .write fd = true
  unsent : taken fd x.writes < (x.answer c).length
  drained : (x.answer c).length ≤ taken fd x.writes + (x.lastWrite.takes fd).sum

end Exchange

section

variable {fd : ℕ} {c c' : Connection} {p : RequestParts} {stat : StatAnswer} {a : KernelAnswers}

theorem step_readable (c : Connection) :
    Client.step fd (readable fd a) ⟨c, none⟩ = (Client.handleRead a fd c).state := if_pos rfl

theorem sends_readable (cl : Client) : cl.sends fd (readable fd a) = [] := by
  unfold Client.sends readable
  dsimp only
  rw [if_pos (by simp)]

theorem step_writable (c : Connection) : Client.step fd (writable fd a) ⟨c, none⟩ =
    Client.afterWrite a fd (c.sendLoop a.env.now (a.takes fd)) := if_pos rfl

theorem sends_writable (cl : Client) :
    cl.sends fd (writable fd a) = cl.conn.writeBuffer.items.take (a.takes fd).sum := by
  unfold Client.sends writable
  dsimp only
  rw [if_neg (by simp), if_pos rfl]

/-- **The readable events that leave bytes missing.** -/
theorem run_reads (hc : c.Awaits) (hp : p.Served stat c) {more : Bytes} (hmore : more ≠ []) :
    ∀ {reads : List (KernelAnswers × List Bytes)} {pieces : List Bytes} {c' : Connection},
      Coming stat c .head pieces c' → (∀ q ∈ pieces, q ≠ []) →
      (∀ r ∈ reads, r.1.env.fs.statAnswer = stat ∧ Brings r.1.recvs r.2) →
      p.text = (pieces ++ reads.flatMap Prod.snd).flatten ++ more →
      ∃ c'', Client.run fd (reads.map (readable fd ·.1)) (some ⟨c', none⟩) = some ⟨c'', none⟩ ∧
        Client.sent fd (reads.map (readable fd ·.1)) (some ⟨c', none⟩) = [] ∧
        Coming stat c .head (pieces ++ reads.flatMap Prod.snd) c'' := by
  intro reads
  induction reads with
  | nil =>
    intro pieces c' h _ _ _
    exact ⟨c', rfl, rfl, by rwa [List.flatMap_nil, List.append_nil]⟩
  | cons r reads ih =>
    intro pieces c' h hpieces hreads htext
    obtain ⟨henv, hbrings⟩ := hreads r List.mem_cons_self
    rw [List.flatMap_cons, ← List.append_assoc] at htext ⊢
    have hpieces' : ∀ q ∈ pieces ++ r.2, q ≠ [] := by
      intro q hq
      rcases List.mem_append.mp hq with hq | hq
      · exact hpieces q hq
      · exact hbrings.ne_nil q hq
    have htext' : p.text =
        (pieces ++ r.2).flatten ++ ((reads.flatMap Prod.snd).flatten ++ more) := by
      rw [htext, List.flatten_append, List.append_assoc]
    obtain ⟨c₁, hread, hcoming⟩ := h.readLoop_waits hc hp henv (by simp [hmore]) hbrings hpieces
      htext'
    have hstep : Client.step fd (readable fd r.1) ⟨c', none⟩ = some ⟨c₁, none⟩ := by
      rw [step_readable, Client.handleRead, Client.tryRead, hread]
      rfl
    obtain ⟨c₂, hrun, hsent, hcoming'⟩ := ih hcoming hpieces'
      (fun r' hr' => hreads r' (List.mem_cons_of_mem r hr')) htext
    refine ⟨c₂, ?_, ?_, hcoming'⟩
    · rw [List.map_cons, Client.run, List.foldl_cons, Option.bind_some, hstep]
      exact hrun
    · rw [List.map_cons, Client.sent, Option.elim_some, sends_readable, List.nil_append,
        Option.bind_some, hstep, hsent]

/-- **The readable event that brings the last byte**: the client has its answer queued. -/
theorem step_lastRead (hc : c.Awaits) (hp : p.Served stat c) {pieces ds : List Bytes}
    (h : Coming stat c .head pieces c') (hpieces : ∀ q ∈ pieces, q ≠ [])
    (henv : a.env.fs.statAnswer = stat) (hbrings : Brings a.recvs ds) (hne : ds ≠ [])
    (htext : p.text = (pieces ++ ds).flatten)
    (hfits : (p.answer a.env c).length ≤ (p.server c).getMaxBody)
    (hrearms : a.modifies .answer fd = true) :
    ∃ c'', Client.step fd (readable fd a) ⟨c', none⟩ = some ⟨c'', none⟩ ∧
      Answering p c (p.answer a.env c) c'' := by
  obtain ⟨sa, c₁, hread, harrived⟩ := h.readLoop_last hc hp henv hbrings hne hpieces htext
  obtain ⟨c₂, hdispatch, hanswering⟩ := harrived.answered hfits sa
  refine ⟨c₂, ?_, hanswering⟩
  rw [step_readable, Client.handleRead, Client.tryRead, hread, hdispatch]
  dsimp only [Client.catchTryRead, Outcome.state_ok]
  rw [Client.rearm, if_pos hrearms]

/-- **Some of the answer is written.** -/
theorem run_writes : ∀ {writes : List KernelAnswers} {rest : Bytes} {c' : Connection},
    Answering p c rest c' → (∀ a ∈ writes, a.modifies .write fd = true) →
    taken fd writes < rest.length →
    ∃ c'', Client.run fd (writes.map (writable fd)) (some ⟨c', none⟩) = some ⟨c'', none⟩ ∧
      Client.sent fd (writes.map (writable fd)) (some ⟨c', none⟩) =
        rest.take (taken fd writes) ∧
      Answering p c (rest.drop (taken fd writes)) c'' := by
  intro writes
  induction writes with
  | nil => exact fun {rest c'} h _ _ => ⟨c', rfl, rfl, h⟩
  | cons a writes ih =>
    intro rest c' h hrearms hunsent
    rw [taken_cons] at hunsent ⊢
    obtain ⟨t, hsendLoop⟩ := sendLoop_eq a.env.now (a.takes fd) c'
    set c₁ := c'.sendLoop a.env.now (a.takes fd)
    have hqueued : c₁.writeBuffer.items = rest.drop (a.takes fd).sum := by
      rw [hsendLoop, ← h.queued]
      rfl
    have hleft : ¬ c₁.writeBuffer.isEmpty = true := by
      rw [Fifo.isEmpty_iff, hqueued, List.drop_eq_nil_iff]
      omega
    have hstep : Client.step fd (writable fd a) ⟨c', none⟩ = some ⟨c₁.setWriting, none⟩ := by
      rw [step_writable, Client.afterWrite, if_neg hleft, Client.rearm,
        if_pos (hrearms a List.mem_cons_self)]
    have hanswering : Answering p c (rest.drop (a.takes fd).sum) c₁.setWriting := by
      rw [← hqueued]
      refine ⟨rfl, ?_, ?_, ?_, ?_⟩
      · exact (by rw [hsendLoop] : c₁.request = c'.request) ▸ h.keepAlive
      · exact (by rw [hsendLoop] : c₁.config = c'.config) ▸ h.config
      · exact (by rw [hsendLoop] : c₁.configuration = c'.configuration) ▸ h.servers
      · exact (by rw [hsendLoop] : c₁.peerHalfClosed = c'.peerHalfClosed) ▸ h.halfClosed
    obtain ⟨c₂, hrun, hsent, hdone⟩ := ih hanswering
      (fun b hb => hrearms b (List.mem_cons_of_mem a hb)) (by rw [List.length_drop]; omega)
    rw [List.drop_drop] at hdone
    refine ⟨c₂, ?_, ?_, hdone⟩
    · rw [List.map_cons, Client.run, List.foldl_cons, Option.bind_some, hstep]
      exact hrun
    · rw [List.map_cons, Client.sent, Option.elim_some, sends_writable, Option.bind_some, hstep,
        hsent, h.queued, List.take_add]

/-- **The rest of the answer is written**: the client is read from again, or closed. -/
theorem step_lastWrite {rest : Bytes} (h : Answering p c rest c')
    (hrearms : a.modifies .write fd = true) (hdrained : rest.length ≤ (a.takes fd).sum) :
    Client.sends fd (writable fd a) ⟨c', none⟩ = rest ∧
      if p.received.request.keepAlive then
        ∃ c'', Client.step fd (writable fd a) ⟨c', none⟩ = some ⟨c'', none⟩ ∧ c''.Awaits ∧
          c''.config = p.server c ∧ c''.configuration = c.configuration
      else Client.step fd (writable fd a) ⟨c', none⟩ = none := by
  obtain ⟨t, hsendLoop⟩ := sendLoop_eq a.env.now (a.takes fd) c'
  set c₁ := c'.sendLoop a.env.now (a.takes fd) with hc₁
  have hempty : c₁.writeBuffer.isEmpty = true := by
    rw [Fifo.isEmpty_iff, hsendLoop]
    show c'.writeBuffer.items.drop (a.takes fd).sum = []
    rwa [h.queued, List.drop_eq_nil_iff]
  have hopen : c₁.peerHalfClosed = false := by
    rw [hsendLoop]
    exact h.halfClosed
  have hkeep : c₁.request.keepAlive = p.received.request.keepAlive := by
    rw [hsendLoop]
    exact h.keepAlive
  refine ⟨by rw [sends_writable, h.queued, List.take_of_length_le hdrained], ?_⟩
  rw [step_writable, ← hc₁, Client.afterWrite, if_pos hempty, hopen, hkeep]
  cases hlast : p.received.request.keepAlive with
  | false =>
    rw [if_neg Bool.false_ne_true, if_neg (by simp)]
  | true =>
    rw [if_pos rfl, if_pos (by simp), Client.rearm, if_pos hrearms]
    refine ⟨_, rfl, awaits_setReading c₁ a.env.now, ?_, ?_⟩
    · show c₁.config = p.server c
      rw [hsendLoop]
      exact h.config
    · show c₁.configuration = c.configuration
      rw [hsendLoop]
      exact h.servers

/-- **One exchange**: the client is sent the answer to its request, and then waits for the next
one, or is closed. -/
theorem Exchange.Fair.sent {x : Exchange} (h : x.Fair fd c) (hc : c.Awaits) :
    Client.sent fd (x.events fd) (some ⟨c, none⟩) = x.answer c ∧
      if x.keepsAlive then
        ∃ c', Client.run fd (x.events fd) (some ⟨c, none⟩) = some ⟨c', none⟩ ∧ c'.Awaits ∧
          c'.config = x.parts.server c ∧ c'.configuration = c.configuration
      else Client.run fd (x.events fd) (some ⟨c, none⟩) = none := by
  obtain ⟨hreads, hlast⟩ := h.brings
  obtain ⟨hanswer, hwrite⟩ := h.rearms
  have hmore : x.last.2.flatten ≠ [] := by
    obtain ⟨d, ds, hds⟩ := List.exists_cons_of_ne_nil h.ends
    have hd := hlast.ne_nil d (by simp [hds])
    simp [hds, hd]
  have hpieces : ∀ q ∈ x.reads.flatMap Prod.snd, q ≠ [] := by
    intro q hq
    obtain ⟨r, hr, hq⟩ := List.mem_flatMap.mp hq
    exact (hreads r hr).ne_nil q hq
  -- the request comes in
  obtain ⟨c₁, hrun₁, hsent₁, hcoming⟩ := @run_reads fd c _ _ hc h.served _ hmore _ _ _
    (coming_start hc) (by simp) (fun r hr => ⟨h.stat r hr, hreads r hr⟩)
    (by rw [h.text, List.flatten_append, List.nil_append])
  rw [List.nil_append] at hcoming
  obtain ⟨c₂, hstep₂, hanswering⟩ := step_lastRead hc h.served hcoming hpieces rfl hlast h.ends
    h.text h.fits hanswer
  -- and its answer goes out
  obtain ⟨c₃, hrun₃, hsent₃, hrest⟩ := run_writes hanswering
    (fun a ha => hwrite a (List.mem_append_left _ ha)) h.unsent
  obtain ⟨hsent₄, hend⟩ := step_lastWrite hrest (hwrite x.lastWrite (by simp))
    (by rw [List.length_drop]; exact Nat.sub_le_of_le_add (by rw [Nat.add_comm]; exact h.drained))
  have hevents : x.events fd = x.reads.map (readable fd ·.1) ++ ([readable fd x.last.1] ++
      (x.writes.map (writable fd) ++ [writable fd x.lastWrite])) := by
    simp [Exchange.events]
  have hrun₂ : Client.run fd [readable fd x.last.1] (some ⟨c₁, none⟩) = some ⟨c₂, none⟩ := hstep₂
  have hsent₂ : Client.sent fd [readable fd x.last.1] (some ⟨c₁, none⟩) = [] :=
    congrArg (· ++ []) (sends_readable ⟨c₁, none⟩)
  constructor
  · have hlastSent : Client.sent fd [writable fd x.lastWrite] (some ⟨c₃, none⟩) =
        (x.answer c).drop (taken fd x.writes) :=
      (List.append_nil _).trans hsent₄
    rw [hevents, Client.sent_append, hsent₁, hrun₁, Client.sent_append, hsent₂, hrun₂,
      Client.sent_append, hsent₃, hrun₃, hlastSent]
    exact List.take_append_drop _ _
  · have hrun : Client.run fd (x.events fd) (some ⟨c, none⟩) =
        Client.step fd (writable fd x.lastWrite) ⟨c₃, none⟩ := by
      rw [hevents, Client.run_append, hrun₁, Client.run_append, hrun₂, Client.run_append, hrun₃]
      rfl
    rw [hrun]
    exact hend

end

/-! ### One exchange after another -/

section

variable {fd : ℕ} {c c' : Connection} {p : RequestParts} {stat : StatAnswer} {x : Exchange}

theorem server_congr (p : RequestParts) (hconfig : c'.config = c.config)
    (hservers : c'.configuration = c.configuration) : p.server c' = p.server c := by
  rw [RequestParts.server, hconfig, hservers]
  rfl

/-- Of the connection only its listener and the servers count. -/
theorem served_congr (hconfig : c'.config = c.config)
    (hservers : c'.configuration = c.configuration) (h : p.Served stat c) : p.Served stat c' := by
  have hserver := server_congr p hconfig hservers
  have hlimit : p.limit c' = p.limit c := by
    rw [RequestParts.limit, hserver]
    rfl
  obtain ⟨⟨hrequestLine, hline, hunbroken, hlines, hhost, hbody⟩, hlimits, hroom, hplain⟩ := h
  rw [← hconfig] at hline
  rw [← hserver, ← hlimit] at hbody
  rw [← hconfig, ← hservers] at hlimits
  rw [← hconfig, ← hlimit] at hroom
  rw [← hserver] at hplain
  exact ⟨⟨hrequestLine, hline, hunbroken, hlines, hhost, hbody⟩, hlimits, hroom, hplain⟩

theorem Exchange.answer_congr (x : Exchange) (hconfig : c'.config = c.config)
    (hservers : c'.configuration = c.configuration) : x.answer c' = x.answer c := by
  rw [answer, answer, RequestParts.answer, server_congr x.parts hconfig hservers]
  rfl

theorem Exchange.Fair.congr (hconfig : c'.config = c.config)
    (hservers : c'.configuration = c.configuration) (h : x.Fair fd c) : x.Fair fd c' := by
  have hanswer := x.answer_congr hconfig hservers
  have hserver := server_congr x.parts hconfig hservers
  obtain ⟨hserved, hstat, hbrings, htext, hends, hfits, hrearms, hunsent, hdrained⟩ := h
  rw [← hanswer] at hfits hunsent hdrained
  rw [← hserver] at hfits
  exact ⟨served_congr hconfig hservers hserved, hstat, hbrings, htext, hends, hfits, hrearms,
    hunsent, hdrained⟩

/-- Exchanges one after another: a request finds the connection on the server that the one before
was for, and only the last one may ask for the connection to be closed. -/
inductive Dialogue (fd : ℕ) : Connection → List Exchange → Prop
  | done (c : Connection) : Dialogue fd c []
  | exchange {c : Connection} {x : Exchange} {xs : List Exchange} : x.Fair fd c →
      (xs ≠ [] → x.keepsAlive = true) → Dialogue fd (c.overideConf (x.parts.server c)) xs →
      Dialogue fd c (x :: xs)

/-- What is to be sent. -/
def answersTo : Connection → List Exchange → Bytes
  | _, [] => []
  | c, x :: xs => x.answer c ++ answersTo (c.overideConf (x.parts.server c)) xs

/-- The client by itself. -/
theorem Dialogue.sent {xs : List Exchange} (h : Dialogue fd c xs) : ∀ {c' : Connection},
    c'.Awaits → c'.config = c.config → c'.configuration = c.configuration →
    Client.sent fd (xs.flatMap (Exchange.events fd)) (some ⟨c', none⟩) = answersTo c xs ∧
      if xs.all Exchange.keepsAlive then
        ∃ c'', Client.run fd (xs.flatMap (Exchange.events fd)) (some ⟨c', none⟩) =
          some ⟨c'', none⟩ ∧ c''.Awaits
      else Client.run fd (xs.flatMap (Exchange.events fd)) (some ⟨c', none⟩) = none := by
  induction h with
  | done c =>
    intro c' hc' _ _
    exact ⟨rfl, c', rfl, hc'⟩
  | @exchange c x xs hfair hkeeps hrest ih =>
    intro c' hc' hconfig hservers
    obtain ⟨hsent, hend⟩ := (hfair.congr hconfig hservers).sent hc'
    rw [List.flatMap_cons, Client.sent_append, Client.run_append, hsent,
      x.answer_congr hconfig hservers, answersTo, List.all_cons]
    cases hkeep : x.keepsAlive with
    | true =>
      rw [hkeep, if_pos rfl] at hend
      obtain ⟨c₁, hrun, hawaits, hconfig₁, hservers₁⟩ := hend
      rw [hrun, Bool.true_and]
      obtain ⟨hrestSent, hrestEnd⟩ := ih hawaits
        (hconfig₁.trans (server_congr x.parts hconfig hservers)) (hservers₁.trans hservers)
      exact ⟨congrArg (x.answer c ++ ·) hrestSent, hrestEnd⟩
    | false =>
      rw [hkeep, if_neg Bool.false_ne_true] at hend
      -- the client is closed, and this was the last request
      have hlast : xs = [] := by
        by_contra hne
        exact Bool.false_ne_true (hkeep.symm.trans (hkeeps hne))
      subst hlast
      rw [hend]
      exact ⟨rfl, rfl⟩

end

/-- **Every request of a dialogue is answered**: the client is sent the answers that the handler
gives to what has been read of its requests, in their order and nothing else, whatever pieces they
come and go in and whoever else is served in between.  Then it is waited for, unless its last
request has asked for the connection to be closed. -/
theorem sentTo_dialogue {listeners : List Listener} {l : EventLoop}
    (hl : Reaches Unclaimed listeners l) {fd : ℕ} {c : Connection} {es : List Event}
    {xs : List Exchange} (hes : Run.Meets next (Returns (Elsewhere fd)) l es)
    (hclient : l.client fd = some ⟨c, none⟩) (hc : c.Awaits) (hxs : Dialogue fd c xs)
    (hheard : heard fd l es = xs.flatMap (Exchange.events fd)) :
    sentTo fd l es = answersTo c xs ∧
      if xs.all Exchange.keepsAlive then
        ∃ c', (es.foldl next l).client fd = some ⟨c', none⟩ ∧ c'.Awaits
      else (es.foldl next l).client fd = none := by
  have hcoherent := hl.coherent fun _ _ h => h
  obtain ⟨cl, hcl⟩ := hcoherent.holds fd
  obtain rfl := (client_eq hcl).symm.trans hclient
  have hsent := sentTo_eq es l _ hcoherent hcl hes
  have hrun := client_eq (holds_heard es l _ hcoherent hcl hes)
  rw [hheard] at hsent hrun
  rw [hsent, hrun]
  exact hxs.sent hc rfl rfl

/-- A request without a body. -/
private def getParts (name : String) (lines : List Bytes) : RequestParts where
  line := ascii "GET " ++ ascii name ++ ascii " HTTP/1.1\r\n"
  method := ascii "GET"
  uri := ascii name
  lines := lines
  host := ascii "x"
  wire := []
  body := []

/-- The first request comes in two pieces, and its answer goes out in two. -/
private def firstExchange : Exchange where
  parts := getParts "/a" [ascii "Host: x"]
  reads := [({ quiet 0 with recvs := [.data (ascii "GET /a HTTP/1.1\r\nHo") .none] },
    [ascii "GET /a HTTP/1.1\r\nHo"])]
  last := ({ quiet 0 with recvs := [.data (ascii "st: x\r\n\r\n") .none] },
    [ascii "st: x\r\n\r\n"])
  writes := [{ quiet 0 with takes := fun _ => [20] }]
  lastWrite := { quiet 0 with takes := fun _ => [700, 700] }

/-- The second one asks for the connection to be closed. -/
private def secondExchange : Exchange where
  parts := getParts "/b" [ascii "Host: x", ascii "Connection: close"]
  reads := []
  last := ({ quiet 1 with
    recvs := [.data (ascii "GET /b HTTP/1.1\r\nHost: x\r\nConnection: close\r\n\r\n") .none] },
    [ascii "GET /b HTTP/1.1\r\nHost: x\r\nConnection: close\r\n\r\n"])
  writes := []
  lastWrite := { quiet 1 with takes := fun _ => [1400] }

/-- A client of a server that runs scripts. -/
private def dialogueClient : Connection :=
  accepted (scriptServer 100000) [scriptServer 100000] 5 0 0

private theorem lines_host : AcceptedLines ∅ [ascii "Host: x"] :=
  acceptedLines_cons_iff.mpr ⟨by decide, ascii "host", by decide, by decide, by simp, by simp,
    acceptedLines_nil _⟩

private theorem lines_close : AcceptedLines ∅ [ascii "Host: x", ascii "Connection: close"] :=
  acceptedLines_cons_iff.mpr ⟨by decide, ascii "host", by decide, by decide, by simp, by simp,
    acceptedLines_cons_iff.mpr ⟨by decide, ascii "connection", by decide, by decide, by decide,
      by decide, acceptedLines_nil _⟩⟩

private theorem brings_one {d : Bytes} (hd : d ≠ []) : Brings [.data d .none] [d] :=
  .cons ⟨hd, .none, rfl⟩ .nil

private theorem fair_firstExchange : firstExchange.Fair 5 dialogueClient where
  served := {
    accepted := {
      requestLine := ⟨by decide, by decide +kernel, by decide, by decide +kernel, [], [CR], [],
        0, 0, 0, by decide +kernel, by decide, by decide, by decide⟩
      line := ⟨by decide, by decide, by decide +kernel⟩
      unbroken := by decide +kernel
      lines := lines_host
      host := ⟨ascii "x", 0, by decide +kernel, by decide +kernel⟩
      body := .none ⟨by decide, Or.inl ⟨by decide +kernel, by decide +kernel⟩⟩ }
    limits := by decide
    room := by decide +kernel
    noScript := by decide +kernel }
  stat := fun r hr => by rw [List.mem_singleton.mp hr]; rfl
  brings := ⟨fun r hr => by rw [List.mem_singleton.mp hr]; exact brings_one (by decide),
    brings_one (by decide)⟩
  text := by decide +kernel
  ends := by decide
  fits := by decide +kernel
  rearms := ⟨rfl, List.forall_mem_cons.mpr ⟨rfl, List.forall_mem_cons.mpr ⟨rfl, nofun⟩⟩⟩
  unsent := by decide +kernel
  drained := by decide +kernel

private theorem fair_secondExchange : secondExchange.Fair 5
    (dialogueClient.overideConf (firstExchange.parts.server dialogueClient)) where
  served := {
    accepted := {
      requestLine := ⟨by decide, by decide +kernel, by decide, by decide +kernel, [], [CR], [],
        0, 0, 0, by decide +kernel, by decide, by decide, by decide⟩
      line := ⟨by decide, by decide, by decide +kernel⟩
      unbroken := by decide +kernel
      lines := lines_close
      host := ⟨ascii "x", 0, by decide +kernel, by decide +kernel⟩
      body := .none ⟨by decide, Or.inl ⟨by decide +kernel, by decide +kernel⟩⟩ }
    limits := by decide +kernel
    room := by decide +kernel
    noScript := by decide +kernel }
  stat := nofun
  brings := ⟨nofun, brings_one (by decide)⟩
  text := by decide +kernel
  ends := by decide
  fits := by decide +kernel
  rearms := ⟨rfl, List.forall_mem_cons.mpr ⟨rfl, nofun⟩⟩
  unsent := by decide +kernel
  drained := by decide +kernel

private theorem dialogue_twice : Dialogue 5 dialogueClient [firstExchange, secondExchange] :=
  .exchange fair_firstExchange (fun _ => by decide +kernel)
    (.exchange fair_secondExchange (fun h => absurd rfl h) (.done _))

/-- Between the requests another client comes and goes. -/
private def dialogueRun : List Event :=
  [readable 5 { quiet 0 with recvs := [.data (ascii "GET /a HTTP/1.1\r\nHo") .none] },
    .dispatch 3 { epollIn := true } { quiet 0 with clients := [6] },
    readable 5 { quiet 0 with recvs := [.data (ascii "st: x\r\n\r\n") .none] },
    writable 5 { quiet 0 with takes := fun _ => [20] },
    writable 5 { quiet 0 with takes := fun _ => [700, 700] },
    .dispatch 6 { epollHup := true } (quiet 1),
    readable 5 { quiet 1 with recvs :=
      [.data (ascii "GET /b HTTP/1.1\r\nHost: x\r\nConnection: close\r\n\r\n") .none] },
    writable 5 { quiet 1 with takes := fun _ => [1400] }]

private theorem meets_dialogueRun :
    Run.Meets next (Returns (Elsewhere 5)) (firstClient.foldl next firstLoop) dialogueRun := by
  decide +kernel

private theorem heard_dialogueRun : heard 5 (firstClient.foldl next firstLoop) dialogueRun =
    [firstExchange, secondExchange].flatMap (Exchange.events 5) := by
  rw [dialogueRun, heard_cons_of_hears, heard_cons_of_not_hears, heard_cons_of_hears,
    heard_cons_of_hears, heard_cons_of_hears, heard_cons_of_not_hears, heard_cons_of_hears,
    heard_cons_of_hears, heard]
  · rfl
  all_goals decide +kernel

/-- Two requests are answered, and the client is closed. -/
theorem sentTo_dialogueRun :
    sentTo 5 (firstClient.foldl next firstLoop) dialogueRun =
        answersTo dialogueClient [firstExchange, secondExchange] ∧
      if [firstExchange, secondExchange].all Exchange.keepsAlive then
        ∃ c', (dialogueRun.foldl next (firstClient.foldl next firstLoop)).client 5 =
          some ⟨c', none⟩ ∧ c'.Awaits
      else (dialogueRun.foldl next (firstClient.foldl next firstLoop)).client 5 = none :=
  sentTo_dialogue reaches_firstClient meets_dialogueRun (by rfl) (awaits_accepted ..) dialogue_twice
    heard_dialogueRun

end EventLoop

end Webserv
