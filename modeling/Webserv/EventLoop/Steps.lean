import Webserv.EventLoop.Clients

/-!
# What a handler leaves of its client

One theorem for each handler of the event loop.  `Relayed`, `Written`, `HasRead` and their like say
what may have become of the client and its job, in terms of the functions that work for the two;
that nothing else has changed is the `Serves` of every `Handles`.

## Main results

* `handles_settle`, `handles_write`, `handles_read` — a call for a job, the writing and the
  reading of a client.
* `Coherent.step` — **the loop stays coherent**.
-/

namespace Webserv

open Bytes

namespace EventLoop

variable {l l' : EventLoop} {a : KernelAnswers} {fd x : ℕ} {c : Connection} {j : CgiJob}
  {job : Option FiledJob}

/-! ### Calls for a job -/

/-- What a call for the job on the pipe `x` leaves when it ends as `o`. -/
inductive Relayed (x : ℕ) (o : Outcome (Connection × CgiJob) CgiFate) :
    Connection → Option FiledJob → Prop
  | goesOn {c : Connection} {j : CgiJob} {fate : CgiFate} : o = .ok (c, j) fate → fate ≠ .ended →
      Relayed x o c (some (x, j))
  | ended {c : Connection} {j : CgiJob} : o = .ok (c, j) .ended → Relayed x o c none

theorem handles_settle {o : Outcome (Connection × CgiJob) CgiFate} (hl : l.Sound)
    (h : l.HasClient fd c (some (x, j))) (ho : CallEnd c j o)
    (hsettle : l.settle a x fd o = .ok l' ()) : Handles fd (Relayed x o) l l' := by
  obtain ⟨hfiled, hclient⟩ := h.job_filed
  cases ho with
  | bodyLimit => cases hsettle
  | @ok c' j' fate hw =>
    have hj' : j'.clientFd = fd := hw.clientFd.trans hclient
    have hput := serves_putJob hl hfiled hclient hj'
    have hclient' := h.putJob hj'
    cases fate with
    | wait =>
      cases hsettle
      obtain ⟨rfl, -⟩ := hw.wait rfl
      exact ⟨hput.trans (serves_putConnection hput.sound (hput.sound.cgiJobs_eq_none hclient') _),
        Or.inr ⟨_, _, hclient'.putConnection rfl, .goesOn rfl nofun⟩⟩
    | streamed =>
      cases hsettle
      have hrearm := handles_rearmAs hput.sound hclient' (a.modifies .relay fd) c'
      refine ⟨hput.trans hrearm.serves, hrearm.client.imp_right ?_⟩
      rintro ⟨c₁, job₁, hc₁, rfl, rfl⟩
      exact ⟨_, _, hc₁, .goesOn rfl nofun⟩
    | ended =>
      cases hsettle
      have hrearm := handles_rearmAs hput.sound hclient' (a.modifies .relay fd) c'
      have hclose : ∀ k, ((l.putJob x j').rearmAs (a.modifies .relay fd) fd c').cgiJobs[x]? =
          some k → k.clientFd = fd := by
        intro k hk
        rw [cgiJobs_rearmAs, cgiJobs_putJob_self] at hk
        rw [← Option.some.inj hk, hj']
      refine ⟨(hput.trans hrearm.serves).trans (serves_closeCgiJob hrearm.serves.sound hclose), ?_⟩
      rcases hrearm.client with hgone | ⟨c₁, job₁, hc₁, rfl, rfl⟩
      · exact Or.inl (by rw [connections_closeCgiJob]; exact hgone)
      · exact Or.inr ⟨_, _, hc₁.closeCgiJob hrearm.serves.sound, .ended rfl⟩

/-- `_handleCgiEvent`, for a job whose client is connected. -/
theorem handles_cgiEvent (hl : l.Sound) (h : l.HasClient fd c (some (x, j)))
    (hevent : l.handleCgiEvent a x = .ok l' ()) :
    Handles fd (Relayed x (cgiEvent a.env c j (a.reads x))) l l' := by
  obtain ⟨hfiled, hclient⟩ := h.job_filed
  refine handles_settle (a := a) hl h (callEnd_cgiEvent a.env c j (a.reads x)) ?_
  rw [← hevent, handleCgiEvent, hfiled]
  dsimp only
  rw [hclient, h.conn]

/-- The phase a client is in when a call for its job has returned. -/
theorem Relayed.phase {o : Outcome (Connection × CgiJob) CgiFate} {c' : Connection}
    {job' : Option FiledJob} (h : Relayed x o c' job') (hphase : Phase c (some (x, j)))
    (ho : CallEnd c j o) : Phase c' job' := by
  cases h with
  | ended heq =>
    rw [heq] at ho
    exact .writing (ho.of_ok.writing nofun)
  | @goesOn j' fate heq hfate =>
    rw [heq] at ho
    have hw := ho.of_ok
    cases fate with
    | ended => exact absurd rfl hfate
    | streamed => exact .streaming (hw.writing nofun) (hw.streamed rfl)
    | wait =>
      obtain ⟨rfl, hsent⟩ := hw.wait rfl
      cases hphase with
      | waiting hstate hunsent => exact .waiting hstate (hsent.trans hunsent)
      | streaming hstate hsent' => exact .streaming hstate (hsent.trans hsent')

/-- A client that is being written to is written to further on. -/
theorem Relayed.writing {o : Outcome (Connection × CgiJob) CgiFate} {c' : Connection}
    {job' : Option FiledJob} (h : Relayed x o c' job') (hstate : c.state = .writing)
    (ho : CallEnd c j o) : c'.state = .writing := by
  cases h with
  | ended heq =>
    rw [heq] at ho
    exact ho.of_ok.writing nofun
  | @goesOn j' fate heq hfate =>
    rw [heq] at ho
    rcases eq_or_ne fate .wait with rfl | hne
    · rw [(ho.of_ok.wait rfl).1]
      exact hstate
    · exact ho.of_ok.writing hne

/-! ### Writing -/

theorem HasClient.activeCgi (h : l.HasClient fd c job) :
    l.activeCgi fd = job.map Prod.fst := by
  cases hfirst : l.activeCgi fd with
  | none =>
    cases job with
    | none => rfl
    | some p =>
      obtain ⟨hfiled, hclient⟩ := h.job_filed
      have hother := Table.findKey_eq_none.mp hfirst p.1 p.2 hfiled
      exact absurd hclient (of_decide_eq_false hother)
  | some k =>
    obtain ⟨j, hj, hclient⟩ := Table.findKey_eq_some hfirst
    rw [(h.jobs k j).mp ⟨hj, of_decide_eq_true hclient⟩]
    rfl

/-- The loop sends what the socket takes, from the front of the buffer. -/
theorem sendLoop_eq (now : ℕ) : ∀ (takes : List ℕ) (c : Connection), ∃ t,
    c.sendLoop now takes =
      { c with writeBuffer := c.writeBuffer.consume takes.sum, lastActive := t } := by
  intro takes
  induction takes with
  | nil => exact fun c => ⟨c.lastActive, rfl⟩
  | cons n takes ih =>
    intro c
    rw [Connection.sendLoop]
    split
    · next hempty =>
      have hitems : c.writeBuffer.consume (n :: takes).sum = c.writeBuffer := by
        rw [Fifo.consume, (c.writeBuffer.isEmpty_iff).mp hempty, List.drop_nil,
          ← (c.writeBuffer.isEmpty_iff).mp hempty]
      exact ⟨c.lastActive, by rw [hitems]⟩
    · obtain ⟨t, ht⟩ := ih (c.send n now)
      rw [ht, List.sum_cons]
      unfold Connection.send
      split
      · next hzero => exact ⟨t, by rw [hzero, Nat.zero_add]⟩
      · exact ⟨t, by rw [Fifo.consume, Fifo.consume, Fifo.consume, List.drop_drop]⟩

/-- The state is none of the business of `send`. -/
theorem state_sendLoop (now : ℕ) (takes : List ℕ) (c : Connection) :
    (c.sendLoop now takes).state = c.state := by
  obtain ⟨t, ht⟩ := sendLoop_eq now takes c
  rw [ht]

theorem buildEpollEvent_congr {c c' : Connection} (h : c'.state = c.state) :
    c'.buildEpollEvent = c.buildEpollEvent := by
  unfold Connection.buildEpollEvent
  rw [h]

/-- What `_handleWrite` leaves of a client; `sent` is its connection when the socket takes no
more. -/
inductive Written (a : KernelAnswers) (fd : ℕ) (sent : Connection) (job : Option FiledJob) :
    Connection → Option FiledJob → Prop
  | next : job = none → sent.writeBuffer.isEmpty = true → sent.peerHalfClosed = false →
      sent.request.keepAlive = true → a.modifies .write fd = true →
      Written a fd sent job (sent.setReading a.env.now) none
  | unsent : job = none → sent.writeBuffer.isEmpty = false →
      Written a fd sent job sent.setWriting none
  /-- There is enough to be sent without the job. -/
  | full : job.isSome → ¬ sent.writeBuffer.size < cgiStreamLwm →
      Written a fd sent job sent.setWriting job
  | relayed {x : ℕ} {j : CgiJob} {c : Connection} {job' : Option FiledJob} :
      job = some (x, j) → sent.writeBuffer.size < cgiStreamLwm →
      Relayed x (cgiEvent a.env sent j (a.reads x)) c job' → Written a fd sent job c.setWriting job'

theorem handles_afterRelay (hl : l.Sound) (h : l.HasClient fd c job) :
    Handles fd (fun c' job' => c' = c.setWriting ∧ job' = job) l (l.afterRelay a fd) := by
  unfold afterRelay
  rw [h.conn]
  exact handles_rearmAs hl h _ c.setWriting

theorem handles_write (hl : l.Sound) (h : l.HasClient fd c job)
    (hwrite : l.handleWrite a fd = .ok l' ()) :
    Handles fd (Written a fd (c.sendLoop a.env.now (a.takes fd)) job) l l' := by
  unfold handleWrite at hwrite
  rw [h.conn] at hwrite
  dsimp only at hwrite
  have hsent : (l.putConnection fd (c.sendLoop a.env.now (a.takes fd))).HasClient fd
      (c.sendLoop a.env.now (a.takes fd)) job :=
    h.putConnection (buildEpollEvent_congr (state_sendLoop _ _ c))
  have hput := serves_putConnection hl (hl.cgiJobs_eq_none h) (c.sendLoop a.env.now (a.takes fd))
  generalize c.sendLoop a.env.now (a.takes fd) = sent at hsent hput hwrite ⊢
  rw [hsent.activeCgi] at hwrite
  cases job with
  | none =>
    cases hwrite
    unfold afterWrite
    split
    · next hempty =>
      split
      · next hkeep =>
        -- everything is sent, and the next request is awaited
        rw [Bool.and_eq_true, Bool.not_eq_true'] at hkeep
        have hrearm := serves_rearmAs hput.sound (hput.sound.cgiJobs_eq_none hsent)
          (a.modifies .write fd) (sent.setReading a.env.now)
        refine ⟨hput.trans hrearm, ?_⟩
        cases hm : a.modifies .write fd with
        | false => exact Or.inl (hsent.registered.rearmAs_false _)
        | true =>
          exact Or.inr ⟨_, _, hsent.registered.rearmAs_true _, .next rfl hempty hkeep.1 hkeep.2 hm⟩
      · exact ⟨hput.trans (serves_closeClient hput.sound (hput.sound.cgiJobs_eq_none hsent)),
          Or.inl (connections_closeClient_self _ fd)⟩
    · next hempty =>
      have hrearm := handles_rearmAs hput.sound hsent (a.modifies .write fd) sent.setWriting
      refine ⟨hput.trans hrearm.serves, hrearm.client.imp_right ?_⟩
      rintro ⟨c', job', hc', rfl, rfl⟩
      exact ⟨_, _, hc', .unsent rfl (Bool.eq_false_iff.mpr hempty)⟩
  | some p =>
    obtain ⟨x, j⟩ := p
    dsimp only [Option.map_some] at hwrite
    split at hwrite
    · next hroom =>
      -- there is room: the pipe is armed, and its job relays at once
      obtain ⟨hfiled, hclient⟩ := hsent.job_filed
      have hpipe := serves_modifyPipe hput.sound hfiled hclient (a.modifies .pipe x) cgiEvents
      have hsent' := hsent.modifyPipe hput.sound (a.modifies .pipe x) cgiEvents
      generalize EventLoop.modifyEventFd _ _ x cgiEvents = l₁ at hwrite hpipe hsent'
      cases hevent : l₁.handleCgiEvent a x with
      | bodyLimit l₂ =>
        rw [hevent] at hwrite
        cases hwrite
      | ok l₂ u =>
        rw [hevent] at hwrite
        cases hwrite
        have hrelay := handles_cgiEvent hpipe.sound hsent' hevent
        have hserves := (hput.trans hpipe).trans hrelay.serves
        rcases hrelay.client with hgone | ⟨c₁, job₁, hc₁, hrelayed⟩
        · -- the client went with its mask, and nothing more is done
          have hsame : l₂.afterRelay a fd = l₂ := by rw [afterRelay, hgone]
          rw [hsame]
          exact ⟨hserves, Or.inl hgone⟩
        · have hafter := handles_afterRelay (a := a) hrelay.serves.sound hc₁
          refine ⟨hserves.trans hafter.serves, hafter.client.imp_right ?_⟩
          rintro ⟨c', job', hc', rfl, rfl⟩
          exact ⟨_, _, hc', .relayed rfl hroom hrelayed⟩
    · next hfull =>
      -- no room: the job waits until more has been sent
      cases hwrite
      have hafter := handles_afterRelay (a := a) hput.sound hsent
      refine ⟨hput.trans hafter.serves, hafter.client.imp_right ?_⟩
      rintro ⟨c', job', hc', rfl, rfl⟩
      exact ⟨_, _, hc', .full rfl hfull⟩

/-- The phase depends on the state alone. -/
theorem Phase.congr {c' : Connection} (h : Phase c job) (hstate : c'.state = c.state) :
    Phase c' job := by
  cases h with
  | reading h => exact .reading (hstate.trans h)
  | writing h => exact .writing (hstate.trans h)
  | waiting h hunsent => exact .waiting (hstate.trans h) hunsent
  | streaming h hsent => exact .streaming (hstate.trans h) hsent

/-- A client that is written to may change its connection and stay in its phase. -/
theorem Phase.setWriting (h : Phase c job) (hstate : c.state = .writing) :
    Phase c.setWriting job := h.congr hstate.symm

theorem Written.phase {sent c' : Connection} {job' : Option FiledJob}
    (h : Written a fd sent job c' job') (hphase : Phase sent job) (hstate : sent.state = .writing) :
    Phase c' job' := by
  cases h with
  | next _ _ _ _ _ => exact .reading rfl
  | unsent hjob _ => exact .writing rfl
  | full _ _ => exact hphase.setWriting hstate
  | @relayed x j c₁ job₁ hjob hroom hrelayed =>
    subst hjob
    have hend := callEnd_cgiEvent a.env sent j (a.reads x)
    exact (hrelayed.phase hphase hend).setWriting (hrelayed.writing hstate hend)

/-! ### Reading -/

/-- The connection when an error page is refused. -/
def refusedBy (env : Env) (code : ℕ) (c : Connection) : Option Connection :=
  match sendError env code c with
  | .bodyLimit c => some c
  | .ok _ _ => none

/-- The connection when an exception leaves the `try` block of `_handleRead`. -/
def interruption (a : KernelAnswers) (fd : ℕ) (c : Connection) : Option Connection :=
  match readLoop a.env c a.recvs with
  | .bodyLimit c => some c
  | .ok c (.script info) =>
      if a.pipe = none then refusedBy a.env 500 c
      else if a.modifies .run fd &&
          (startCgi a.env.fs a.world c.request c.config info).isNone then
        refusedBy a.env 502 { c.setCgiRunning with request := dropBodyFile c.request }
      else none
  | .ok _ _ => none

/-- What `_handleRead` leaves of a client that reads. -/
inductive HasRead (a : KernelAnswers) (c : Connection) : Connection → Option FiledJob → Prop
  | nothing {c₁ : Connection} : readLoop a.env c a.recvs = .ok c₁ .nothing → HasRead a c c₁ none
  | stuck {c₁ : Connection} : readLoop a.env c a.recvs = .ok c₁ .stuck → HasRead a c c₁ none
  | answered {c₁ : Connection} : readLoop a.env c a.recvs = .ok c₁ .answered → HasRead a c c₁ none
  | started {c₁ : Connection} {info : CgiRequestInfo} (fd x : ℕ) (req : HttpRequest) :
      readLoop a.env c a.recvs = .ok c₁ (.script info) →
      HasRead a c { c₁.setCgiRunning with request := req }
        (some (x, CgiJob.new fd x cgiHeaderBufLimit c₁.config.timeoutSeconds a.env.now))
  | refused {c₁ c₂ : Connection} (code : ℕ) (req : HttpRequest) :
      sendError a.env code c₁ = .ok c₂ () → HasRead a c { c₂.setWriting with request := req } none

theorem HasRead.phase {c' : Connection} {job' : Option FiledJob} (h : HasRead a c c' job')
    (hstate : c.state = .reading) : Phase c' job' := by
  have hleaves := readLeaves_readLoop a.env a.recvs c
  cases h with
  | nothing hread =>
    rw [hread] at hleaves
    cases hleaves with
    | nothing hrec => exact .reading (hrec.state.trans hstate)
  | stuck hread =>
    rw [hread] at hleaves
    cases hleaves with
    | stuck hrec => exact .reading (hrec.state.trans hstate)
  | answered hread =>
    rw [hread] at hleaves
    cases hleaves with
    | answered hwriting _ => exact .writing hwriting
  | started fd x req _ => exact .waiting rfl rfl
  | refused code req _ => exact .writing rfl

/-- How the `try` block ends. -/
inductive Tried (a : KernelAnswers) (fd : ℕ) (c : Connection)
    (R : Connection → Option FiledJob → Prop) (l : EventLoop) : Outcome EventLoop Unit → Prop
  | ok {l' : EventLoop} : interruption a fd c = none → Handles fd R l l' →
      Tried a fd c R l (.ok l' ())
  | bodyLimit {l' : EventLoop} {c' : Connection} : interruption a fd c = some c' →
      l'.connections[fd]? = some c' → Serves fd l l' → l'.Registered fd none →
      Tried a fd c R l (.bodyLimit l')

/-- An error page is queued, or the exception leaves the loop with the connection filed. -/
theorem refuse_cases (hl : l.Sound) (hfd : l.cgiJobs[fd]? = none) (h : l.Registered fd job)
    (c : Connection) (code : ℕ) :
    (∃ c' l', sendError a.env code c = .ok c' () ∧ l.refuse a fd c code = .ok l' () ∧
      Handles fd (fun c₁ job₁ => c₁ = c'.setWriting ∧ job₁ = job) l l') ∨
    ∃ c' l', sendError a.env code c = .bodyLimit c' ∧ l.refuse a fd c code = .bodyLimit l' ∧
      l'.connections[fd]? = some c' ∧ Serves fd l l' ∧ l'.Registered fd job := by
  unfold refuse
  cases herror : sendError a.env code c with
  | ok c' u => exact Or.inl ⟨c', _, rfl, rfl, h.handles_rearmAs hl hfd _ _⟩
  | bodyLimit c' =>
    exact Or.inr ⟨c', _, rfl, rfl, connections_putConnection_self l fd c',
      serves_putConnection hl hfd c', h.putConnection c'⟩

/-- What starting a script leaves of a client: it waits, or it is refused. -/
inductive Launched (a : KernelAnswers) (c : Connection) : Connection → Option FiledJob → Prop
  | started (fd x : ℕ) (req : HttpRequest) :
      Launched a c { c.setCgiRunning with request := req }
        (some (x, CgiJob.new fd x cgiHeaderBufLimit c.config.timeoutSeconds a.env.now))
  | refused {c₁ c₂ : Connection} (code : ℕ) (req : HttpRequest) :
      sendError a.env code c₁ = .ok c₂ () → Launched a c { c₂.setWriting with request := req } none

theorem Launched.withRequest {c' : Connection} {job' : Option FiledJob} (h : Launched a c c' job')
    (req : HttpRequest) : Launched a c { c' with request := req } job' := by
  cases h with
  | started fd x _ => exact .started fd x req
  | @refused c₁ c₂ code _ herror =>
    exact show Launched a c { c₂.setWriting with request := req } none from
      .refused code req herror

theorem Handles.forgetBodyFile (h : Handles fd (Launched a c) l l') :
    Handles fd (Launched a c) l (l'.forgetBodyFile fd) := by
  rcases h.client with hgone | ⟨c', job', hc', hlaunched⟩
  · have hsame : l'.forgetBodyFile fd = l' := by rw [EventLoop.forgetBodyFile, hgone]
    rw [hsame]
    exact h
  · unfold EventLoop.forgetBodyFile
    rw [hc'.conn]
    exact ⟨h.serves.trans
        (serves_putConnection h.serves.sound (h.serves.sound.cgiJobs_eq_none hc') _),
      Or.inr ⟨_, job', hc'.putConnection rfl, hlaunched.withRequest _⟩⟩

/-- The pipe for a script is a new descriptor. -/
def FreshPipe (l : EventLoop) (a : KernelAnswers) : Prop :=
  ∀ x ∈ a.pipe, l.connections[x]? = none ∧ l.cgiJobs[x]? = none

theorem serves_addCgiJob (hl : l.Sound) (hfd : fd ≠ x) (hfresh : l.connections[x]? = none)
    (hnone : l.cgiJobs[x]? = none) (c : Connection) (now : ℕ) :
    Serves fd l (l.addCgiJob fd x c now) :=
  have hjob : (CgiJob.new fd x cgiHeaderBufLimit c.config.timeoutSeconds now).clientFd = fd := rfl
  have hnew := serves_newJob hl hfd hfresh hnone hjob cgiEvents
  ⟨⟨hnew.sound.keyed, hnew.sound.apart, hnew.sound.armed⟩,
    ⟨hnew.spares.connections, hnew.spares.cgiJobs,
    hnew.spares.clientRefs, hnew.spares.jobRefs⟩, hnew.noPipe⟩

theorem HasClient.addCgiJob (h : l.HasClient fd c none) (hfresh : l.connections[x]? = none)
    (c₁ : Connection) (now : ℕ) : (l.addCgiJob fd x c₁ now).HasClient fd c
      (some (x, CgiJob.new fd x cgiHeaderBufLimit c₁.config.timeoutSeconds now)) :=
  have hnew := h.newJob hfresh
    (j := CgiJob.new fd x cgiHeaderBufLimit c₁.config.timeoutSeconds now) rfl cgiEvents
  ⟨hnew.conn, hnew.jobs, hnew.armed⟩

theorem tried_apiStartCgi {c₁ : Connection} {info : CgiRequestInfo} (hl : l.Sound)
    (h : l.HasClient fd c none) (hpipe : l.FreshPipe a)
    (hread : readLoop a.env c a.recvs = .ok c₁ (.script info)) :
    Tried a fd c (Launched a c₁) l (l.apiStartCgi a fd c₁ info) := by
  have hfd := hl.cgiJobs_eq_none h
  unfold apiStartCgi
  cases hx : a.pipe with
  | none =>
    dsimp only
    rcases refuse_cases (a := a) hl hfd h.registered c₁ 500 with
      ⟨c', l', herror, hrefuse, hhandles⟩ | ⟨c', l', herror, hrefuse, hconn, hserves, hreg⟩
    · rw [hrefuse]
      refine .ok ?_ (hhandles.mono ?_)
      · simp only [interruption, hread, hx, refusedBy, herror, if_true]
      rintro _ _ ⟨rfl, rfl⟩
      exact .refused 500 c'.request herror
    · rw [hrefuse]
      refine .bodyLimit ?_ hconn hserves hreg
      simp only [interruption, hread, hx, refusedBy, herror, if_true]
  | some x =>
    obtain ⟨hfresh, hnone⟩ := hpipe x hx
    dsimp only
    have hne : fd ≠ x := by
      rintro rfl
      rw [h.conn] at hfresh
      cases hfresh
    have hserves := serves_addCgiJob hl hne hfresh hnone c₁ a.env.now
    have hclient := h.addCgiJob hfresh c₁ a.env.now
    generalize l.addCgiJob fd x c₁ a.env.now = l₁ at hserves hclient ⊢
    have hfd₁ := hserves.sound.cgiJobs_eq_none hclient
    cases hm : a.modifies .run fd with
    | false =>
      -- the client's mask cannot be changed, and the client goes
      have hgone := hclient.registered.rearmAs_false c₁.setCgiRunning
      rw [hgone]
      refine .ok ?_ ⟨hserves.trans (serves_rearmAs hserves.sound hfd₁ _ _), Or.inl hgone⟩
      simp only [interruption, hread, hx, hm, reduceCtorEq, Bool.false_and, Bool.false_eq_true,
        if_false]
    | true =>
      have hrearm := hserves.trans (serves_rearmAs hserves.sound hfd₁ true c₁.setCgiRunning)
      have hrunning := hclient.registered.rearmAs_true c₁.setCgiRunning
      generalize l₁.rearmAs true fd c₁.setCgiRunning = l₂ at hrearm hrunning ⊢
      rw [hrunning.conn]
      dsimp only
      cases hstart : startCgi a.env.fs a.world c₁.setCgiRunning.request
        c₁.setCgiRunning.config info with
      | some e =>
        -- the script runs, and the job is the client's
        dsimp only
        have hstart' : startCgi a.env.fs a.world c₁.request c₁.config info = some e := hstart
        refine .ok ?_ ⟨hrearm.trans
            (serves_putConnection hrearm.sound (hrearm.sound.cgiJobs_eq_none hrunning) _),
          Or.inr ⟨_, _, hrunning.putConnection rfl, .started fd x _⟩⟩
        simp only [interruption, hread, hx, hm, hstart', reduceCtorEq, if_false,
          Option.isNone_some, Bool.and_false, Bool.false_eq_true]
      | none =>
        dsimp only
        -- the job is taken back before the client gets its 502
        have hclose := hrearm.trans (serves_closeCgiJob hrearm.sound fun k hk => by
          rw [hrunning.job_filed.1] at hk
          rw [← Option.some.inj hk]
          exact hrunning.job_filed.2)
        have hidle := hrunning.closeCgiJob hrearm.sound
        have hfd₂ := hclose.sound.cgiJobs_eq_none hidle
        have hstart' : startCgi a.env.fs a.world c₁.request c₁.config info = none := hstart
        rcases refuse_cases (a := a) hclose.sound hfd₂ hidle.registered
            { c₁.setCgiRunning with request := dropBodyFile c₁.request } 502 with
          ⟨c', l', herror, hrefuse, hhandles⟩ | ⟨c', l', herror, hrefuse, hconn, hserves', hreg⟩
        · refine (congrArg (Tried a fd c (Launched a c₁) l) hrefuse).mpr (.ok ?_ ?_)
          · simp only [interruption, hread, hx, hm, hstart', refusedBy, herror, reduceCtorEq,
              if_false, Option.isNone_none, Bool.and_self, if_true]
          refine ⟨hclose.trans hhandles.serves, hhandles.client.imp_right ?_⟩
          rintro ⟨_, _, hc', rfl, rfl⟩
          exact ⟨_, _, hc', .refused 502 c'.request herror⟩
        · refine (congrArg (Tried a fd c (Launched a c₁) l) hrefuse).mpr
            (.bodyLimit ?_ hconn (hclose.trans hserves') hreg)
          simp only [interruption, hread, hx, hm, hstart', refusedBy, herror, reduceCtorEq,
            if_false, Option.isNone_none, Bool.and_self, if_true]

theorem tried_tryRead (hl : l.Sound) (h : l.HasClient fd c none) (hpipe : l.FreshPipe a) :
    Tried a fd c (HasRead a c) l (l.tryRead a fd c) := by
  have hfd := hl.cgiJobs_eq_none h
  have hleaves := readLeaves_readLoop a.env a.recvs c
  unfold tryRead
  cases hread : readLoop a.env c a.recvs with
  | bodyLimit c₁ =>
    exact .bodyLimit (by simp only [interruption, hread]) (connections_putConnection_self l fd c₁)
      (serves_putConnection hl hfd c₁) (h.registered.putConnection c₁)
  | ok c₁ fate =>
    rw [hread] at hleaves
    have hput := serves_putConnection hl hfd c₁
    cases hleaves with
    | nothing hrec =>
      have hevents := buildEpollEvent_congr hrec.state
      exact .ok (by simp only [interruption, hread])
        ⟨hput, Or.inr ⟨c₁, none, h.putConnection hevents, .nothing hread⟩⟩
    | stuck hrec =>
      have hevents := buildEpollEvent_congr hrec.state
      exact .ok (by simp only [interruption, hread])
        ⟨hput, Or.inr ⟨c₁, none, h.putConnection hevents, .stuck hread⟩⟩
    | close =>
      exact .ok (by simp only [interruption, hread])
        ⟨hput.trans (serves_closeClient hput.sound hfd), Or.inl (connections_closeClient_self _ fd)⟩
    | answered _ _ =>
      refine .ok (by simp only [interruption, hread])
        ((handles_rearmAs hl h (a.modifies .answer fd) c₁).mono ?_)
      rintro _ _ ⟨rfl, rfl⟩
      exact .answered hread
    -- the script is started by the same call, and the file of the body is given up
    | script info _ _ =>
      have htried := tried_apiStartCgi hl h hpipe hread
      dsimp only
      generalize l.apiStartCgi a fd c₁ info = o at htried ⊢
      cases htried with
      | bodyLimit hint hconn hserves hreg => exact .bodyLimit hint hconn hserves hreg
      | ok hint hhandles =>
        refine .ok hint (hhandles.forgetBodyFile.mono ?_)
        intro c' job' hlaunched
        cases hlaunched with
        | started fd x req => exact .started fd x req hread
        | refused code req herror => exact .refused code req herror

/-- The request says that the connection is to be closed. -/
def closing (c : Connection) : Connection :=
  { c with request := { c.request with
      headers := c.request.headers.insert (ascii "connection") (ascii "close") } }

/-- How `_handleRead` ends for a client without a job that does not wait for one. -/
theorem handleRead_cases (hl : l.Sound) (h : l.HasClient fd c none)
    (hstate : c.state ≠ .cgiRunning) (hpipe : l.FreshPipe a) :
    (∃ l', l.handleRead a fd = .ok l' () ∧ Handles fd (HasRead a c) l l' ∧
      ∀ c', interruption a fd c = some c' → refusedBy a.env 413 (closing c') = none) ∨
    ∃ l' c', l.handleRead a fd = .bodyLimit l' ∧ interruption a fd c = some c' ∧
      refusedBy a.env 413 (closing c') ≠ none := by
  have htried := tried_tryRead hl h hpipe
  unfold handleRead
  rw [h.conn]
  dsimp only
  rw [if_neg hstate]
  generalize l.tryRead a fd c = o at htried ⊢
  cases htried with
  | @ok l' hint hhandles =>
    refine Or.inl ⟨l', rfl, hhandles, ?_⟩
    rw [hint]
    rintro c' ⟨⟩
  | @bodyLimit l₁ c₁ hint hconn hserves hreg =>
    have hcatch : catchTryRead a fd (.bodyLimit l₁) = l₁.refuse a fd (closing c₁) 413 := by
      rw [catchTryRead]
      dsimp only
      rw [hconn]
      rfl
    rw [hcatch]
    rcases refuse_cases (a := a) hserves.sound (hserves.sound.apart fd c₁ hconn) hreg
        (closing c₁) 413 with
      ⟨c', l', herror, hrefuse, hhandles⟩ | ⟨c', l', herror, hrefuse, -, -, -⟩
    · refine Or.inl ⟨l', hrefuse, ⟨hserves.trans hhandles.serves, hhandles.client.imp_right ?_⟩, ?_⟩
      · rintro ⟨_, _, hc', rfl, rfl⟩
        exact ⟨_, _, hc', .refused 413 c'.request herror⟩
      · rw [hint]
        rintro _ ⟨⟩
        simp only [refusedBy, herror]
    · refine Or.inr ⟨l', c₁, hrefuse, hint, ?_⟩
      simp only [refusedBy, herror, ne_eq, reduceCtorEq, not_false_eq_true]

end EventLoop

end Webserv
