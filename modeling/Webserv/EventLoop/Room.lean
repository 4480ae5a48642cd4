import Webserv.Cgi.Room
import Webserv.EventLoop.Gate
import Webserv.EventLoop.IdleTimeout
import Webserv.EventLoop.Operations
import Webserv.EventLoop.Rounds

/-!
# Exceptions that leave the loop

Nothing above `run` catches a `BodyLimitException`.  Where one is caught the handler queues
something itself, and `sendError` is called in places that no handler covers.  `HasRoom` goes
through the calls of one event that queue something, and says for each of them that there is
room for it, or for what the handler queues instead.  A reading is taken round by round.

## Main results

* `threw_step_iff` — no exception leaves an event **if and only if** it has room.
* `staysUp_iff` — the same of a run.
-/

namespace Webserv

open Bytes

namespace EventLoop

section

variable {l : EventLoop} {a : KernelAnswers} {fd x : ℕ} {c : Connection} {j : CgiJob}

/-! ### Room -/

/-- The blocks of an answer are queued, or the 413 page of the handler of `_handleRead` fits
behind those that are. -/
def AnswerRoom (env : Env) (c : Connection) (blocks : List Bytes) : Prop :=
  c.writeBuffer.LeavesRoom blocks (errorResponse env 413 c.config).length

/-- A script is to be started: there is room for the page if it is not. -/
def StartFits (a : KernelAnswers) (fd : ℕ) (c : Connection) (info : CgiRequestInfo) : Prop :=
  if a.pipe = none then AnswerRoom a.env c [errorResponse a.env 500 c.config]
  else a.modifies .run fd = true → startCgi a.env.fs a.world c.request c.config info = none →
    AnswerRoom a.env c [errorResponse a.env 502 c.config]

/-- There is room for what is done with a request. -/
def DeedFits (a : KernelAnswers) (fd : ℕ) (c : Connection) : Deed → Prop
  | .script info => StartFits a fd c info
  | .lost code => AnswerRoom a.env c [errorResponse a.env code c.config]
  | .reply r => AnswerRoom a.env c r.blocks

/-- If the request is there, there is room for what is done with it. -/
def RequestFits (a : KernelAnswers) (fd : ℕ) (answers : SpoolAnswers) (c : Connection) : Prop :=
  Dispatchable c → DeedFits a fd (spooled answers c) (deed a.env answers c)

/-- A piece that the read buffer refuses, or the body: there is room for the 413 page.  A piece
that is parsed: there is room for the page of an error, or for what is done with the request. -/
def PieceFits (a : KernelAnswers) (fd : ℕ) (d : Bytes) (answers : SpoolAnswers)
    (c : Connection) : Prop :=
  (PieceRefused a.env d answers c → PageFits a.env 413 c) ∧
  ∀ c₁, c.request.erased = false → c.recv d a.env.now = .ok c₁ () →
    match feed a.env.fs.statAnswer (resumeBodyIfNeeded c₁) with
    | .bodyLimit c₂ => PageFits a.env 413 c₂
    | .ok c₂ _ =>
        if c₂.request.parseState = .error then
          AnswerRoom a.env c₂ [errorResponse a.env c₂.request.errorCode c₂.config]
        else RequestFits a fd answers (pieceSpooled a.env answers c₂)

/-- A round of the loop of `_handleRead`. -/
def RoundFits (a : KernelAnswers) (fd : ℕ) (c : Connection) : List RecvAnswer → Prop
  | [] => RequestFits a fd .none (drained a.env .none c)
  | .again answers :: _ => RequestFits a fd answers (drained a.env answers c)
  | .eof answers :: _ =>
      c.request.parseState = .body → RequestFits a fd answers (closedBehind a.env answers c)
  | .data d answers :: _ => PieceFits a fd d answers c

/-- A readable event of a client that is not waiting for a script. -/
def ReadFits (a : KernelAnswers) (fd : ℕ) (c : Connection) : Prop :=
  c.state ≠ .cgiRunning →
    ∀ s rest, ComesTo a.env s rest c a.recvs → RoundFits a fd s rest

/-- An event of the pipe `x`. -/
def PipeFits (l : EventLoop) (a : KernelAnswers) (x : ℕ) : Prop :=
  ∀ j ∈ l.cgiJobs[x]?, ∀ c ∈ l.connections[j.clientFd]?, CgiFits a.env c j (a.reads x)

/-- `_handleWrite` looks at the pipe of the client's job, if there is little left to send. -/
def WriteFits (l : EventLoop) (a : KernelAnswers) (fd : ℕ) (c : Connection) : Prop :=
  let c := c.sendLoop a.env.now (a.takes fd)
  ∀ x ∈ l.activeCgi fd, c.writeBuffer.size < cgiStreamLwm →
    ∀ j ∈ l.cgiJobs[x]?, CgiFits a.env c j (a.reads x)

/-- An event of the client `fd`. -/
def ClientFits (l : EventLoop) (a : KernelAnswers) (fd : ℕ) (events : EpollBits) : Prop :=
  ∀ c ∈ l.connections[fd]?,
    (events.epollErr || events.epollHup || events.epollRdhup) = false →
      if events.epollIn then ReadFits a fd c
      else events.epollOut = true → WriteFits l a fd c

/-- An event of the descriptor `fd`. -/
def DispatchFits (l : EventLoop) (a : KernelAnswers) (fd : ℕ) (events : EpollBits) : Prop :=
  ∀ ref ∈ l.eventRefs[fd]?,
    match ref.kind with
    | .invalid => True
    | .server => True
    | .cgi => PipeFits l a ref.fd
    | .client => ClientFits l a ref.fd events

/-- A client that is too late: there is room for the 408 page, and then for what the writing
does. -/
def TimedOutFits (a : KernelAnswers) (l : EventLoop) (fd : ℕ) : Prop :=
  ∀ c ∈ l.connections[fd]?, PageFits a.env 408 c ∧
    WriteFits l a fd { c with
      writeBuffer := c.writeBuffer.push (errorResponse a.env 408 c.config)
      closeAnnounced := true }

/-- A job that is too late. -/
def JobFits (a : KernelAnswers) (l : EventLoop) (x : ℕ) : Prop :=
  ∀ j ∈ l.cgiJobs[x]?, ∀ c ∈ l.connections[j.clientFd]?, EndFits a.env 504 c j

/-- A sweep over some descriptors, one after another. -/
def EachFits (f : EventLoop → ℕ → Outcome EventLoop Unit) (fits : EventLoop → ℕ → Prop) :
    List ℕ → EventLoop → Prop
  | [], _ => True
  | fd :: fds, l => fits l fd ∧ EachFits f fits fds (f l fd).state

/-- The sweeps behind a batch of events. -/
def SweepFits (l : EventLoop) (a : KernelAnswers) : Prop :=
  let l₀ := { l with staleRefs := [] }
  let l₁ := (closeTimedOutClients l₀ a).state
  EachFits (closeTimedOutClient a) (TimedOutFits a) (l₀.getTimedOutFds a.env.now) l₀ ∧
    EachFits (closeTimedOutCgiJob a) (JobFits a) (l₁.cgiJobs.keysWhere (·.isTimedOut a.env.now)) l₁

/-- There is room for what an event queues. -/
def HasRoom (l : EventLoop) : Event → Prop
  | .dispatch fd events a => DispatchFits l a fd events
  | .sweep a => SweepFits l a

/-! ### Calls that queue something -/

theorem threw_settle (o : Outcome (Connection × CgiJob) CgiFate) :
    (l.settle a x fd o).threw = o.threw := by
  cases o with
  | bodyLimit s => rfl
  | ok s fate => cases fate <;> rfl

theorem threw_handleCgiEvent (l : EventLoop) (a : KernelAnswers) (x : ℕ) :
    (l.handleCgiEvent a x).threw = false ↔ PipeFits l a x := by
  unfold handleCgiEvent PipeFits
  cases l.cgiJobs[x]? with
  | none => simp
  | some j =>
    cases hc : l.connections[j.clientFd]? with
    | none => simp [hc]
    | some c =>
      simp only [hc, Option.mem_some_iff, forall_eq']
      rw [threw_settle]
      exact threw_cgiEvent a.env c j (a.reads x)

theorem threw_closeTimedOutCgiJob (a : KernelAnswers) (l : EventLoop) (x : ℕ) :
    (closeTimedOutCgiJob a l x).threw = false ↔ JobFits a l x := by
  unfold closeTimedOutCgiJob JobFits
  cases l.cgiJobs[x]? with
  | none => simp
  | some j =>
    cases hc : l.connections[j.clientFd]? with
    | none => simp [hc]
    | some c =>
      simp only [hc, Option.mem_some_iff, forall_eq']
      rw [threw_settle]
      exact threw_failCgiJob a.env 504 c j

theorem threw_andThen_ok (o : Outcome EventLoop Unit) (f : EventLoop → EventLoop) :
    (o.andThen fun l _ => .ok (f l) ()).threw = o.threw := by
  cases o <;> rfl

/-! ### Writing -/

theorem threw_handleWrite (hl : l.Attached) (hc : l.connections[fd]? = some c) :
    (l.handleWrite a fd).threw = false ↔ WriteFits l a fd c := by
  unfold handleWrite WriteFits
  rw [hc]
  dsimp only
  generalize c.sendLoop a.env.now (a.takes fd) = sent
  have hactive : (l.putConnection fd sent).activeCgi fd = l.activeCgi fd := rfl
  rw [hactive]
  cases hx : l.activeCgi fd with
  | none => simp
  | some x =>
    obtain ⟨j, hj, hclient⟩ := Table.findKey_eq_some hx
    simp only [Option.mem_some_iff, forall_eq', hj]
    split
    · next hlittle =>
      -- the pipe is looked at for the client as it has become
      have hfree : (l.putConnection fd sent).connections[x]? = none := by
        rw [connections_putConnection_ne sent (hl.ne_of_job hj hc).symm]
        exact hl.connections_of_job hj
      rw [threw_andThen_ok, threw_handleCgiEvent]
      unfold PipeFits
      rw [cgiJobs_modifyEventFd, cgiJobs_putConnection, hj]
      simp only [Option.mem_some_iff, forall_eq', connections_modifyPipe _ hfree]
      have hfd : j.clientFd = fd := of_decide_eq_true hclient
      simp [hfd, hlittle]
    · next hmuch => simp [hmuch]

/-! ### Reading -/

theorem pageFits_closing (env : Env) (code : ℕ) (c : Connection) :
    PageFits env code (closing c) ↔ PageFits env code c := Iff.rfl

theorem threw_refuse (l : EventLoop) (a : KernelAnswers) (fd : ℕ) (c : Connection) (code : ℕ) :
    (l.refuse a fd c code).threw = false ↔ PageFits a.env code c := by
  rw [← threw_sendError a.env code c]
  unfold refuse
  cases sendError a.env code c <;> exact Iff.rfl

/-- The `try` block throws when it is interrupted, and leaves the connection filed. -/
inductive Interrupted (fd : ℕ) : Outcome EventLoop Unit → Option Connection → Prop
  | returned {o : Outcome EventLoop Unit} : o.threw = false → Interrupted fd o none
  | threw {l : EventLoop} {c : Connection} : l.connections[fd]? = some c →
      Interrupted fd (.bodyLimit l) (some c)

theorem interrupted_refuse (l : EventLoop) (a : KernelAnswers) (fd : ℕ) (c : Connection)
    (code : ℕ) : Interrupted fd (l.refuse a fd c code) (refusedBy a.env code c) := by
  unfold refusedBy refuse
  cases sendError a.env code c with
  | ok c' u => exact .returned rfl
  | bodyLimit c' => exact .threw (connections_putConnection_self l fd c')

theorem interrupted_apiStartCgi {c₁ : Connection} {info : CgiRequestInfo} (hl : l.Attached)
    (hpipe : l.FreshPipe a) (hc : l.connections[fd]? = some c)
    (hread : readLoop a.env c a.recvs = .ok c₁ (.script info)) :
    Interrupted fd (l.apiStartCgi a fd c₁ info) (interruption a fd c) := by
  unfold apiStartCgi interruption
  rw [hread]
  dsimp only
  cases hx : a.pipe with
  | none =>
    simp only [if_true]
    exact interrupted_refuse l a fd c₁ 500
  | some x =>
    simp only [reduceCtorEq, if_false]
    have hne : fd ≠ x := by
      rintro rfl
      rw [(hpipe fd hx).1] at hc
      cases hc
    cases hm : a.modifies .run fd with
    | false =>
      -- the client is closed, and nothing is queued for it
      have hgone : ((l.addCgiJob fd x c₁ a.env.now).rearmAs false fd
          c₁.setCgiRunning).connections[fd]? = none := by
        apply rearmAs_false
        obtain ⟨ref, href, hkind⟩ := hl.registered fd c hc
        exact ⟨ref, (eventRefs_registerEventFd_ne .cgi cgiEvents hne).trans href, hkind⟩
      simp only [hgone, Bool.false_and, Bool.false_eq_true, if_false]
      exact .returned rfl
    | true =>
      have hrunning : ((l.addCgiJob fd x c₁ a.env.now).rearmAs true fd
          c₁.setCgiRunning).connections[fd]? = some c₁.setCgiRunning := by
        refine (connections_rearmAs_self _ fd c₁.setCgiRunning true).resolve_right ?_
        exact fun h => absurd h.1 (by decide)
      simp only [hrunning, Bool.true_and]
      have hsame : startCgi a.env.fs a.world c₁.setCgiRunning.request c₁.setCgiRunning.config info =
          startCgi a.env.fs a.world c₁.request c₁.config info := rfl
      rw [hsame]
      cases startCgi a.env.fs a.world c₁.request c₁.config info with
      | some e =>
        simp only [Option.isNone_some, Bool.false_eq_true, if_false]
        exact .returned rfl
      | none =>
        simp only [Option.isNone_none, if_true]
        exact interrupted_refuse _ a fd { c₁.setCgiRunning with
          request := dropBodyFile c₁.request } 502

theorem interrupted_tryRead (hl : l.Attached) (hpipe : l.FreshPipe a)
    (hc : l.connections[fd]? = some c) :
    Interrupted fd (l.tryRead a fd c) (interruption a fd c) := by
  unfold tryRead
  cases hread : readLoop a.env c a.recvs with
  | bodyLimit c₁ =>
    have hint : interruption a fd c = some c₁ := by simp only [interruption, hread]
    rw [hint]
    exact .threw (connections_putConnection_self l fd c₁)
  | ok c₁ fate =>
    cases fate with
    | nothing =>
      have hint : interruption a fd c = none := by simp only [interruption, hread]
      rw [hint]
      exact .returned rfl
    | stuck =>
      have hint : interruption a fd c = none := by simp only [interruption, hread]
      rw [hint]
      exact .returned rfl
    | close =>
      have hint : interruption a fd c = none := by simp only [interruption, hread]
      rw [hint]
      exact .returned rfl
    | answered =>
      have hint : interruption a fd c = none := by simp only [interruption, hread]
      rw [hint]
      exact .returned rfl
    | script info =>
      have hstarted := interrupted_apiStartCgi hl hpipe hc hread
      dsimp only
      generalize l.apiStartCgi a fd c₁ info = o at hstarted ⊢
      generalize interruption a fd c = i at hstarted ⊢
      cases hstarted with
      | returned hreturns =>
        apply Interrupted.returned
        rw [threw_andThen_ok, hreturns]
      | threw hfiled => exact .threw hfiled

/-- A page is queued, or the exception is left to the handler. -/
theorem answerRoom_page_iff (env : Env) (code : ℕ) (c : Connection) :
    AnswerRoom env c [errorResponse env code c.config] ↔
      PageFits env code c ∨ PageFits env 413 c :=
  Fifo.leavesRoom_singleton_iff (errorResponse_ne_nil env code c.config) _

theorem forall_refusedBy_iff (env : Env) (code : ℕ) (c : Connection) :
    (∀ c' ∈ refusedBy env code c, PageFits env 413 c') ↔
      AnswerRoom env c [errorResponse env code c.config] := by
  rw [answerRoom_page_iff]
  unfold refusedBy
  by_cases hfits : PageFits env code c
  · rw [sendError_ok hfits]
    simp [hfits]
  · rw [sendError_refused (Nat.lt_of_not_le hfits)]
    simp [hfits]

/-- The exception of the `try` block, if there is one, does not leave the handler. -/
def Undisturbed (a : KernelAnswers) (fd : ℕ) : Outcome Connection ReadFate → Prop
  | .bodyLimit c => PageFits a.env 413 c
  | .ok c (.script info) => StartFits a fd c info
  | .ok _ _ => True

theorem forall_interruption_iff (a : KernelAnswers) (fd : ℕ) (c : Connection) :
    (∀ c' ∈ interruption a fd c, PageFits a.env 413 c') ↔
      Undisturbed a fd (readLoop a.env c a.recvs) := by
  unfold interruption
  cases readLoop a.env c a.recvs with
  | bodyLimit c₁ => simp [Undisturbed]
  | ok c₁ fate =>
    cases fate with
    | nothing => simp [Undisturbed]
    | close => simp [Undisturbed]
    | answered => simp [Undisturbed]
    | stuck => simp [Undisturbed]
    | script info =>
      unfold Undisturbed StartFits
      dsimp only
      by_cases hpipe : a.pipe = none
      · rw [if_pos hpipe, if_pos hpipe]
        exact forall_refusedBy_iff a.env 500 c₁
      · rw [if_neg hpipe, if_neg hpipe]
        have hpage := forall_refusedBy_iff a.env 502 { c₁.setCgiRunning with
          request := dropBodyFile c₁.request }
        cases hm : a.modifies .run fd with
        | false => simp
        | true =>
          cases hstart : startCgi a.env.fs a.world c₁.request c₁.config info with
          | some e => simp
          | none => exact hpage.trans ⟨fun h _ _ => h, fun h => h rfl rfl⟩

theorem undisturbed_page {code : ℕ} :
    Undisturbed a fd (answer (sendError a.env code c)) ↔
      AnswerRoom a.env c [errorResponse a.env code c.config] := by
  rw [answerRoom_page_iff]
  by_cases hfits : PageFits a.env code c
  · rw [sendError_ok hfits]
    exact iff_of_true trivial (Or.inl hfits)
  · rw [sendError_refused (Nat.lt_of_not_le hfits)]
    exact (or_iff_right hfits).symm

theorem undisturbed_queue {blocks : List Bytes} :
    Undisturbed a fd (answer (c.queue blocks)) ↔ AnswerRoom a.env c blocks := by
  cases hall : (c.writeBuffer.appendAll blocks).2 with
  | true =>
    rw [queue_ok hall]
    exact iff_of_true trivial (Fifo.leavesRoom_of_true hall _)
  | false =>
    rw [queue_refused hall]
    exact (Fifo.leavesRoom_iff_of_false hall _).symm

theorem undisturbed_dispatch (answers : SpoolAnswers) :
    Undisturbed a fd (tryDispatchComplete a.env answers c) ↔ RequestFits a fd answers c := by
  by_cases hd : Dispatchable c
  · unfold RequestFits
    rw [tryDispatchComplete_eq a.env answers hd]
    refine Iff.trans ?_ ⟨fun h _ => h, fun h => h hd⟩
    cases deed a.env answers c with
    | script info => exact Iff.rfl
    | lost code => exact undisturbed_page
    | reply r => exact undisturbed_queue
  · rw [tryDispatchComplete_of_not hd]
    exact iff_of_true trivial fun h => absurd h hd

theorem undisturbed_readEof (answers : SpoolAnswers) :
    Undisturbed a fd (readEof a.env answers c) ↔
      (c.request.parseState = .body → RequestFits a fd answers (closedBehind a.env answers c)) := by
  rw [readEof_eq]
  split
  · next h =>
    rw [undisturbed_dispatch]
    exact ⟨fun hfits _ => hfits, fun hfits => hfits h.1⟩
  · next h => exact iff_of_true trivial fun hbody hd => absurd ⟨hbody, hd⟩ h

/-- A piece with which the parser throws. -/
theorem pieceFits_of_threw {d : Bytes} {answers : SpoolAnswers} {c₁ c₂ : Connection}
    (hheld : c.request.erased = false) (hrecv : c.recv d a.env.now = .ok c₁ ())
    (hfeed : feed a.env.fs.statAnswer (resumeBodyIfNeeded c₁) = .bodyLimit c₂) :
    PieceFits a fd d answers c ↔ PageFits a.env 413 c₂ := by
  unfold PieceFits
  rw [pieceRefused_of_held hheld, hrecv]
  constructor
  · intro h
    have hpage := h.2 c₁ hheld rfl
    rwa [hfeed] at hpage
  · intro h
    refine ⟨nofun, ?_⟩
    rintro c' - ⟨⟩
    rwa [hfeed]

/-- A piece that is parsed. -/
theorem pieceFits_of_parsed {d : Bytes} {answers : SpoolAnswers} {c₁ c₂ : Connection}
    (hheld : c.request.erased = false) (hrecv : c.recv d a.env.now = .ok c₁ ())
    (hfeed : feed a.env.fs.statAnswer (resumeBodyIfNeeded c₁) = .ok c₂ ()) :
    PieceFits a fd d answers c ↔
      if c₂.request.parseState = .error then
        AnswerRoom a.env c₂ [errorResponse a.env c₂.request.errorCode c₂.config]
      else RequestFits a fd answers (pieceSpooled a.env answers c₂) := by
  unfold PieceFits
  rw [pieceRefused_of_held hheld, hrecv]
  constructor
  · intro h
    have hpage := h.2 c₁ hheld rfl
    rwa [hfeed] at hpage
  · intro h
    refine ⟨nofun, ?_⟩
    rintro c' - ⟨⟩
    rwa [hfeed]

/-- **An exception is caught for good exactly when each round of the loop finds room.** -/
theorem byRounds_undisturbed (a : KernelAnswers) (fd : ℕ) :
    ByRounds a.env (fun _ => True) (Undisturbed a fd) (RoundFits a fd) where
  receives _ _ := trivial
  none {s} _ := by
    rw [readAgain_eq a.env .none ⟨s, []⟩]
    exact undisturbed_dispatch .none
  again {s} answers _ _ := by
    rw [readAgain_eq a.env answers ⟨s, []⟩]
    exact undisturbed_dispatch answers
  eof answers _ _ := undisturbed_readEof answers
  refused {s d answers} _ _ hrefused := by
    refine ⟨fun h => ⟨fun _ => h, ?_⟩, fun h => h.1 hrefused⟩
    intro c₁ hheld hok
    rw [pieceRefused_of_held hheld, hok] at hrefused
    cases hrefused
  stuck _ _ herased htaken := by
    refine iff_of_true trivial ⟨fun h => absurd h htaken, ?_⟩
    intro c₁ hheld
    rw [herased] at hheld
    cases hheld
  threw _ _ _ hheld hrecv hfeed := (pieceFits_of_threw hheld hrecv hfeed).symm
  parsed answers _ _ hheld hrecv hfeed := by
    refine Iff.trans ?_ (pieceFits_of_parsed hheld hrecv hfeed).symm
    rw [undisturbed_page, undisturbed_dispatch]
    split
    · exact Iff.rfl
    · exact ⟨fun h hd => h hd hd, fun h _ => h⟩

theorem readFits_iff (a : KernelAnswers) (fd : ℕ) (c : Connection) :
    ReadFits a fd c ↔
      (c.state ≠ .cgiRunning → ∀ c' ∈ interruption a fd c, PageFits a.env 413 c') :=
  imp_congr_right fun _ => ((byRounds_undisturbed a fd).readLoop_iff a.recvs c trivial).symm.trans
    (forall_interruption_iff a fd c).symm

theorem threw_handleRead (hl : l.Attached) (hpipe : l.FreshPipe a)
    (hc : l.connections[fd]? = some c) :
    (l.handleRead a fd).threw = false ↔ ReadFits a fd c := by
  rw [readFits_iff]
  unfold handleRead
  rw [hc]
  dsimp only
  split
  · next hstate => simp [hstate]
  · next hstate =>
    have htried := interrupted_tryRead hl hpipe hc
    generalize interruption a fd c = i at htried ⊢
    generalize l.tryRead a fd c = o at htried ⊢
    cases htried with
    | @returned o hreturns =>
      cases o with
      | ok l' u => simp [catchTryRead]
      | bodyLimit l' => cases hreturns
    | @threw l' c' hfiled =>
      have hcatch : catchTryRead a fd (.bodyLimit l') = l'.refuse a fd (closing c') 413 := by
        rw [catchTryRead]
        dsimp only
        rw [hfiled]
        rfl
      rw [hcatch, threw_refuse, pageFits_closing]
      simp [hstate]

/-! ### Events -/

theorem threw_handleClientEvent {events : EpollBits} (hl : l.Attached) (hpipe : l.FreshPipe a) :
    (l.handleClientEvent a fd events).threw = false ↔ ClientFits l a fd events := by
  unfold handleClientEvent ClientFits
  cases hc : l.connections[fd]? with
  | none => simp
  | some c =>
    simp only [Option.mem_some_iff, forall_eq']
    cases herr : events.epollErr || events.epollHup with
    | true => simp
    | false =>
      simp only [Bool.false_or, Bool.false_eq_true, if_false]
      cases hrdhup : events.epollRdhup with
      | true =>
        simp only [if_true]
        split <;> simp
      | false =>
        simp only [Bool.false_eq_true, if_false, forall_const]
        split
        · exact threw_handleRead hl hpipe hc
        · split
          · next hout => simp [hout, threw_handleWrite hl hc]
          · next hout => simp [hout]

theorem threw_dispatch {events : EpollBits} (hl : l.Attached) (hpipe : l.FreshPipe a) :
    (l.dispatch a fd events).threw = false ↔ DispatchFits l a fd events := by
  unfold dispatch DispatchFits
  cases l.eventRefs[fd]? with
  | none => simp
  | some ref =>
    simp only [Option.mem_some_iff, forall_eq']
    cases ref.kind with
    | invalid => simp
    | server => simp
    | cgi => exact threw_handleCgiEvent l a ref.fd
    | client => exact threw_handleClientEvent hl hpipe

/-! ### Sweeps -/

theorem threw_closeTimedOutClient (hl : l.Attached) :
    (closeTimedOutClient a l fd).threw = false ↔ TimedOutFits a l fd := by
  unfold closeTimedOutClient TimedOutFits
  cases hc : l.connections[fd]? with
  | none => simp
  | some c =>
    simp only [Option.mem_some_iff, forall_eq']
    by_cases hfits : PageFits a.env 408 c
    · rw [sendError_ok hfits]
      have hput : (l.putConnection fd { c with
          writeBuffer := c.writeBuffer.push (errorResponse a.env 408 c.config)
          closeAnnounced := true }).Attached := hl.op (p := anything) (.file ⟨c, hc, rfl⟩)
      dsimp only
      rw [threw_andThen_ok, threw_handleWrite hput (connections_putConnection_self l fd _)]
      exact (and_iff_right hfits).symm
    · rw [sendError_refused (Nat.lt_of_not_le hfits)]
      exact iff_of_false nofun fun h => hfits h.1

/-- A sweep returns when each of its steps does. -/
theorem threw_forEach {f : EventLoop → ℕ → Outcome EventLoop Unit}
    {fits : EventLoop → ℕ → Prop} {I : EventLoop → Prop} (hI : ∀ l fd, I l → I (f l fd).state)
    (hf : ∀ l fd, I l → ((f l fd).threw = false ↔ fits l fd)) :
    ∀ (fds : List ℕ) (l : EventLoop), I l →
      ((forEach f fds l).threw = false ↔ EachFits f fits fds l) := by
  intro fds
  induction fds with
  | nil => exact fun _ _ => iff_of_true rfl trivial
  | cons fd fds ih =>
    intro l hl
    have hfirst := hf l fd hl
    have hrest := ih (f l fd).state (hI l fd hl)
    unfold forEach EachFits
    cases ho : f l fd with
    | bodyLimit l' =>
      rw [ho] at hfirst
      exact iff_of_false (by simp) fun h => by simpa using hfirst.mpr h.1
    | ok l' u =>
      rw [ho] at hfirst hrest
      exact hrest.trans (and_iff_right (hfirst.mp rfl)).symm

theorem threw_sweep (hl : l.Attached) : (l.sweep a).threw = false ↔ SweepFits l a := by
  have ha : anything.Allows a := fun _ _ _ => trivial
  have hstart : ({ l with staleRefs := [] } : EventLoop).Attached := hl.op (p := anything) .forget
  have hclients := @threw_forEach (closeTimedOutClient a) (TimedOutFits a) Attached
    (fun l fd h => (ops_closeTimedOutClient ha l fd).invariant (fun _ _ => Attached.op) h)
    (fun l fd h => threw_closeTimedOutClient h)
    (getTimedOutFds { l with staleRefs := [] } a.env.now) _ hstart
  unfold sweep SweepFits
  dsimp only
  rw [← hclients]
  change _ ↔ (closeTimedOutClients { l with staleRefs := [] } a).threw = false ∧ _
  cases closeTimedOutClients { l with staleRefs := [] } a with
  | bodyLimit l' => exact iff_of_false nofun fun h => absurd h.1 nofun
  | ok l' u =>
    refine Iff.trans ?_ (and_iff_right rfl).symm
    exact threw_forEach (I := fun _ => True) (fun _ _ _ => trivial)
      (fun l x _ => threw_closeTimedOutCgiJob a l x) _ l' trivial

/-! ### Runs -/

/-- **No exception leaves an event if and only if it has room.** -/
theorem threw_step_iff {ev : Event} (hl : l.Attached) (hpossible : l.Possible ev) :
    (l.step ev).threw = false ↔ HasRoom l ev := by
  cases ev with
  | dispatch fd events a => exact threw_dispatch hl hpossible.2.2
  | sweep a => exact threw_sweep hl

/-- No exception leaves an event of the run. -/
def StaysUp (listeners : List Listener) (es : List Event) : Prop :=
  Run.Meets next (fun l ev => (l.step ev).threw = false) (start listeners) es

instance (listeners : List Listener) (es : List Event) : Decidable (StaysUp listeners es) :=
  inferInstanceAs (Decidable (Run.Meets next _ _ _))

/-- **The server stays up exactly when every event of the run has room.** -/
theorem staysUp_iff {listeners : List Listener} {es : List Event}
    (hes : Run.Meets next Possible (start listeners) es) :
    StaysUp listeners es ↔ Run.Meets next HasRoom (start listeners) es :=
  Run.Meets.iff_of_invariant (J := Attached) (fun _ _ hl hpossible => hl.next hpossible)
    (fun _ _ hl hpossible => threw_step_iff hl hpossible) (attached_start listeners) hes

/-! ### A small limit -/

/-- A server without locations, whose limit is smaller than any error page. -/
private def smallListeners : List Listener :=
  [⟨3, { Server.empty with root := ascii "/www", timeoutSeconds := 60, clientMaxBodySize := 100 }⟩]

/-- A client connects, and sends a request without a Host. -/
private def smallRun : List Event :=
  [.dispatch 3 { epollIn := true } { quiet 0 with clients := [5] },
    .dispatch 5 { epollIn := true } { quiet 0 with
      recvs := [.data (ascii "GET / HTTP/1.1\r\n\r\n") .none] }]

private theorem possible_smallRun : Run.Meets next Possible (start smallListeners) smallRun := by
  decide +kernel

theorem staysUp_iff_smallRun : StaysUp smallListeners smallRun ↔
    Run.Meets next HasRoom (start smallListeners) smallRun := staysUp_iff possible_smallRun

/-- **A client can stop the server with a size limit.** -/
theorem not_staysUp : ∃ listeners es, Run.Meets next Possible (start listeners) es ∧
    (∀ listener ∈ listeners, 0 < listener.server.clientMaxBodySize) ∧
    ¬ StaysUp listeners es :=
  ⟨smallListeners, smallRun, possible_smallRun, by decide +kernel, by decide +kernel⟩

end

end EventLoop

end Webserv
