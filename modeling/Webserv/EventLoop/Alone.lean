import Webserv.EventLoop.Steps

/-!
# A client by itself

The handlers of the event loop look their client up in the tables, file it again and register
masks.  `Client` is one client without the tables: its connection, and the job that works for it.
Each handler has its counterpart here, which is given the client and returns what is left of it;
`none` is a client that has been closed.

## Main results

* `follows_clientEvent`, `follows_cgiEvent` — **a handler does with its client what the
  counterpart does**, and an exception leaves the one exactly if it leaves the other.
-/

namespace Webserv

open Bytes

namespace EventLoop

/-- A client: its connection, and the job that works for it. -/
structure Client where
  conn : Connection
  job : Option FiledJob

namespace Client

/-- The client is registered as it is now, or closed. -/
def rearm (modifies : Bool) (cl : Client) : Option Client := if modifies then some cl else none

/-- An error page is queued and the mask is set. -/
def refuse (a : KernelAnswers) (fd : ℕ) (cl : Client) (code : ℕ) : Outcome (Option Client) Unit :=
  match sendError a.env code cl.conn with
  | .bodyLimit c => .bodyLimit (some { cl with conn := c })
  | .ok c _ => .ok (rearm (a.modifies .answer fd) { cl with conn := c.setWriting }) ()

/-- `_ApiStartCgi`, for a client without a job. -/
def startScript (a : KernelAnswers) (fd : ℕ) (c : Connection) (info : CgiRequestInfo) :
    Outcome (Option Client) Unit :=
  match a.pipe with
  | none => refuse a fd ⟨c, none⟩ 500
  | some x =>
      let c' := { c.setCgiRunning with request := dropBodyFile c.request }
      if a.modifies .run fd then
        match startCgi a.env.fs a.world c.request c.config info with
        | some _ => .ok (some ⟨c', some (x,
            CgiJob.new fd x cgiHeaderBufLimit c.config.timeoutSeconds a.env.now)⟩) ()
        | none => refuse a fd ⟨c', none⟩ 502
      else .ok none ()

/-- The file of a body is closed. -/
def forgetBodyFile (cl : Client) : Client :=
  { cl with conn := { cl.conn with request := { cl.conn.request with
      opened := false
      openedFile := if 0 < cl.conn.request.openedFile then -1
        else cl.conn.request.openedFile } } }

/-- What a call for the job on the pipe `x` leaves of the client. -/
def settle (a : KernelAnswers) (fd x : ℕ) :
    Outcome (Connection × CgiJob) CgiFate → Outcome (Option Client) Unit
  | .bodyLimit s => .bodyLimit (some ⟨s.1, some (x, s.2)⟩)
  | .ok s .wait => .ok (some ⟨s.1, some (x, s.2)⟩) ()
  | .ok s .streamed => .ok (rearm (a.modifies .relay fd) ⟨s.1, some (x, s.2)⟩) ()
  | .ok s .ended => .ok (rearm (a.modifies .relay fd) ⟨s.1, none⟩) ()

/-- `_handleCgiEvent`, for the job `j` on the pipe `x`. -/
def cgiEvent (a : KernelAnswers) (fd : ℕ) (c : Connection) (x : ℕ) (j : CgiJob) :
    Outcome (Option Client) Unit :=
  settle a fd x (Webserv.cgiEvent a.env c j (a.reads x))

/-- The `try` block of `_handleRead`. -/
def tryRead (a : KernelAnswers) (fd : ℕ) (c : Connection) : Outcome (Option Client) Unit :=
  match readLoop a.env c a.recvs with
  | .bodyLimit c => .bodyLimit (some ⟨c, none⟩)
  | .ok c .nothing | .ok c .stuck => .ok (some ⟨c, none⟩) ()
  | .ok _ .close => .ok none ()
  | .ok c .answered => .ok (rearm (a.modifies .answer fd) ⟨c, none⟩) ()
  | .ok c (.script info) =>
      (startScript a fd c info).andThen fun cl _ => .ok (cl.map forgetBodyFile) ()

/-- The handler of the `try` block. -/
def catchTryRead (a : KernelAnswers) (fd : ℕ) :
    Outcome (Option Client) Unit → Outcome (Option Client) Unit
  | .ok cl _ => .ok cl ()
  | .bodyLimit none => .ok none ()
  | .bodyLimit (some cl) => refuse a fd { cl with conn := closing cl.conn } 413

/-- `_handleRead`, for a client that reads and has no job. -/
def handleRead (a : KernelAnswers) (fd : ℕ) (c : Connection) : Outcome (Option Client) Unit :=
  catchTryRead a fd (tryRead a fd c)

/-- What `_handleWrite` does behind a block. -/
def afterWrite (a : KernelAnswers) (fd : ℕ) (c : Connection) : Option Client :=
  if c.writeBuffer.isEmpty then
    if !c.peerHalfClosed && c.request.keepAlive then
      rearm (a.modifies .write fd) ⟨c.setReading a.env.now, none⟩
    else none
  else rearm (a.modifies .write fd) ⟨c.setWriting, none⟩

/-- The mask of a client whose script has more output. -/
def afterRelay (a : KernelAnswers) (fd : ℕ) (cl : Client) : Option Client :=
  rearm (a.modifies .write fd) { cl with conn := cl.conn.setWriting }

/-- `_handleWrite`. -/
def handleWrite (a : KernelAnswers) (fd : ℕ) (cl : Client) : Outcome (Option Client) Unit :=
  let c := cl.conn.sendLoop a.env.now (a.takes fd)
  match cl.job with
  | some (x, j) =>
      if c.writeBuffer.size < cgiStreamLwm then
        (cgiEvent a fd c x j).andThen fun cl _ => .ok (cl.bind (afterRelay a fd)) ()
      else .ok (afterRelay a fd ⟨c, some (x, j)⟩) ()
  | none => .ok (afterWrite a fd c) ()

/-- `_handleClientEvent`. -/
def clientEvent (a : KernelAnswers) (fd : ℕ) (events : EpollBits) (cl : Client) :
    Outcome (Option Client) Unit :=
  if events.epollErr || events.epollHup then .ok none ()
  else if events.epollRdhup then
    if cl.conn.writeBuffer.isEmpty || cl.job.isSome then .ok none ()
    else .ok (some { cl with conn := cl.conn.setPeerHalfClosed }) ()
  else if events.epollIn then handleRead a fd cl.conn
  else if events.epollOut then handleWrite a fd cl
  else .ok (some cl) ()

end Client

/-! ### The client in the tables -/

/-- What the tables hold for the descriptor. -/
def Holds (l : EventLoop) (fd : ℕ) : Option Client → Prop
  | none => l.connections[fd]? = none
  | some cl => l.HasClient fd cl.conn cl.job

/-- A handler of the client `fd` has done with it what its counterpart does. -/
inductive Follows (fd : ℕ) (l : EventLoop) :
    Outcome EventLoop Unit → Outcome (Option Client) Unit → Prop
  | ok {l' : EventLoop} {cl : Option Client} : Serves fd l l' → l'.Holds fd cl →
      Follows fd l (.ok l' ()) (.ok cl ())
  | bodyLimit {l' : EventLoop} {cl : Client} : Serves fd l l' →
      l'.connections[fd]? = some cl.conn → l'.Registered fd cl.job →
      Follows fd l (.bodyLimit l') (.bodyLimit (some cl))

section

variable {l l₁ l' : EventLoop} {a : KernelAnswers} {fd x : ℕ} {c : Connection} {j : CgiJob}
  {job : Option FiledJob} {o : Outcome EventLoop Unit} {r : Outcome (Option Client) Unit}

/-- Something has been done for the client before. -/
theorem Follows.after (h : Follows fd l₁ o r) (hserves : Serves fd l l₁) : Follows fd l o r := by
  cases h with
  | ok hserves' hholds => exact .ok (hserves.trans hserves') hholds
  | bodyLimit hserves' hconn hreg => exact .bodyLimit (hserves.trans hserves') hconn hreg

/-- A call after a call. -/
theorem Follows.andThen {f : EventLoop → Unit → Outcome EventLoop Unit}
    {g : Option Client → Unit → Outcome (Option Client) Unit} (h : Follows fd l o r)
    (hf : ∀ l' cl, Serves fd l l' → l'.Holds fd cl → Follows fd l' (f l' ()) (g cl ())) :
    Follows fd l (o.andThen f) (r.andThen g) := by
  cases h with
  | ok hserves hholds => exact (hf _ _ hserves hholds).after hserves
  | bodyLimit hserves hconn hreg => exact .bodyLimit hserves hconn hreg

/-- An exception leaves the one if it leaves the other. -/
theorem Follows.threw (h : Follows fd l o r) : o.threw = r.threw := by
  cases h with
  | ok _ _ => rfl
  | bodyLimit _ _ _ => rfl

theorem Follows.holds (h : Follows fd l o r) (ho : o = .ok l' ()) : l'.Holds fd r.state := by
  subst ho
  cases h with
  | ok _ hholds => exact hholds

theorem Follows.serves (h : Follows fd l o r) : Serves fd l o.state := by
  cases h with
  | ok hserves _ => exact hserves
  | bodyLimit hserves _ _ => exact hserves

/-! ### Rearming -/

theorem holds_rearmAs (h : l.Registered fd job) (m : Bool) (c : Connection) :
    (l.rearmAs m fd c).Holds fd (Client.rearm m ⟨c, job⟩) := by
  cases m with
  | false => exact h.rearmAs_false c
  | true => exact h.rearmAs_true c

theorem follows_rearmAs (hl : l.Sound) (hfd : l.cgiJobs[fd]? = none) (h : l.Registered fd job)
    (m : Bool) (c : Connection) :
    Follows fd l (.ok (l.rearmAs m fd c) ()) (.ok (Client.rearm m ⟨c, job⟩) ()) :=
  .ok (serves_rearmAs hl hfd m c) (holds_rearmAs h m c)

theorem follows_refuse (hl : l.Sound) (hfd : l.cgiJobs[fd]? = none) (h : l.Registered fd job)
    (c : Connection) (code : ℕ) :
    Follows fd l (l.refuse a fd c code) (Client.refuse a fd ⟨c, job⟩ code) := by
  unfold refuse Client.refuse
  dsimp only
  cases sendError a.env code c with
  | bodyLimit c' =>
    exact .bodyLimit (serves_putConnection hl hfd c') (connections_putConnection_self l fd c')
      (h.putConnection c')
  | ok c' u => exact follows_rearmAs hl hfd h (a.modifies .answer fd) c'.setWriting

theorem follows_closeClient (hl : l.Sound) (hfd : l.cgiJobs[fd]? = none) :
    Follows fd l (.ok (l.closeClient fd) ()) (.ok none ()) :=
  .ok (serves_closeClient hl hfd) (connections_closeClient_self l fd)

/-! ### Scripts -/

theorem follows_apiStartCgi (hl : l.Sound) (h : l.HasClient fd c none) (hpipe : l.FreshPipe a)
    (c₁ : Connection) (info : CgiRequestInfo) :
    Follows fd l (l.apiStartCgi a fd c₁ info) (Client.startScript a fd c₁ info) := by
  unfold apiStartCgi Client.startScript
  cases hx : a.pipe with
  | none => exact follows_refuse hl (hl.cgiJobs_eq_none h) h.registered c₁ 500
  | some x =>
    obtain ⟨hfresh, hnone⟩ := hpipe x hx
    dsimp only
    have hne : fd ≠ x := by
      rintro rfl
      rw [h.conn] at hfresh
      cases hfresh
    have hserves := serves_addCgiJob hl hne hfresh hnone c₁ a.env.now
    have hclient := h.addCgiJob hfresh c₁ a.env.now
    generalize l.addCgiJob fd x c₁ a.env.now = l₁ at hserves hclient ⊢
    have hrearm := hserves.trans (serves_rearmAs hserves.sound
      (hserves.sound.cgiJobs_eq_none hclient) (a.modifies .run fd) c₁.setCgiRunning)
    cases hm : a.modifies .run fd with
    | false =>
      have hgone := hclient.registered.rearmAs_false c₁.setCgiRunning
      rw [hm] at hrearm
      rw [hgone, if_neg Bool.false_ne_true]
      exact .ok hrearm hgone
    | true =>
      have hrunning := hclient.registered.rearmAs_true c₁.setCgiRunning
      rw [hm] at hrearm
      generalize l₁.rearmAs true fd c₁.setCgiRunning = l₂ at hrearm hrunning ⊢
      rw [hrunning.conn, if_pos rfl]
      dsimp only [Connection.setCgiRunning]
      cases startCgi a.env.fs a.world c₁.request c₁.config info with
      | some e =>
        exact .ok (hrearm.trans (serves_putConnection hrearm.sound
          (hrearm.sound.cgiJobs_eq_none hrunning) _)) (hrunning.putConnection rfl)
      | none =>
        -- the job is taken back before the client gets its 502
        have hclose := hrearm.trans (serves_closeCgiJob hrearm.sound fun k hk => by
          rw [hrunning.job_filed.1] at hk
          rw [← Option.some.inj hk]
          exact hrunning.job_filed.2)
        have hidle := hrunning.closeCgiJob hrearm.sound
        exact (follows_refuse hclose.sound (hclose.sound.cgiJobs_eq_none hidle) hidle.registered _
          502).after hclose

theorem follows_forgetBodyFile (hl : l.Sound) {cl : Option Client} (h : l.Holds fd cl) :
    Follows fd l (.ok (l.forgetBodyFile fd) ()) (.ok (cl.map Client.forgetBodyFile) ()) := by
  unfold forgetBodyFile
  cases cl with
  | none =>
    have hgone : l.connections[fd]? = none := h
    rw [hgone]
    exact .ok (.refl fd hl) hgone
  | some cl =>
    have hclient : l.HasClient fd cl.conn cl.job := h
    rw [hclient.conn]
    exact .ok (serves_putConnection hl (hl.cgiJobs_eq_none hclient) _)
      (hclient.putConnection rfl)

theorem follows_settle {o : Outcome (Connection × CgiJob) CgiFate} (hl : l.Sound)
    (h : l.HasClient fd c (some (x, j))) (ho : CallEnd c j o) :
    Follows fd l (l.settle a x fd o) (Client.settle a fd x o) := by
  obtain ⟨hfiled, hclient⟩ := h.job_filed
  cases ho with
  | @bodyLimit c' j' hfd _ =>
    -- both are filed as they are
    have hput := serves_putConnection hl (hl.cgiJobs_eq_none h) c'
    have hfd' : j'.clientFd = fd := hfd.trans hclient
    exact .bodyLimit (hput.trans (serves_putJob hput.sound hfiled hclient hfd'))
      (connections_putConnection_self l fd c') ((h.putJob hfd').registered.putConnection c')
  | @ok c' j' fate hw =>
    have hj' : j'.clientFd = fd := hw.clientFd.trans hclient
    have hput := serves_putJob hl hfiled hclient hj'
    have hclient' := h.putJob hj'
    have hfd := hput.sound.cgiJobs_eq_none hclient'
    cases fate with
    | wait =>
      obtain ⟨rfl, -⟩ := hw.wait rfl
      exact .ok (hput.trans (serves_putConnection hput.sound hfd _)) (hclient'.putConnection rfl)
    | streamed =>
      exact (follows_rearmAs hput.sound hfd hclient'.registered (a.modifies .relay fd) c').after
        hput
    | ended =>
      have hrearm := serves_rearmAs hput.sound hfd (a.modifies .relay fd) c'
      have hclose : ∀ k, ((l.putJob x j').rearmAs (a.modifies .relay fd) fd c').cgiJobs[x]? =
          some k → k.clientFd = fd := by
        intro k hk
        rw [cgiJobs_rearmAs, cgiJobs_putJob_self] at hk
        rw [← Option.some.inj hk, hj']
      refine .ok ((hput.trans hrearm).trans (serves_closeCgiJob hrearm.sound hclose)) ?_
      have hholds := holds_rearmAs hclient'.registered (a.modifies .relay fd) c'
      cases hm : a.modifies .relay fd with
      | false =>
        rw [hm] at hholds
        exact (congrArg (·[fd]?) (connections_closeCgiJob _ x)).trans hholds
      | true =>
        rw [hm] at hholds hrearm
        exact HasClient.closeCgiJob hrearm.sound hholds

/-- **`_handleCgiEvent`**, for a job whose client is connected. -/
theorem follows_cgiEvent (hl : l.Sound) (h : l.HasClient fd c (some (x, j))) :
    Follows fd l (l.handleCgiEvent a x) (Client.cgiEvent a fd c x j) := by
  obtain ⟨hfiled, hclient⟩ := h.job_filed
  have hsettle : l.handleCgiEvent a x = l.settle a x fd (cgiEvent a.env c j (a.reads x)) := by
    rw [handleCgiEvent, hfiled]
    dsimp only
    rw [hclient, h.conn]
  rw [hsettle]
  exact follows_settle hl h (callEnd_cgiEvent a.env c j (a.reads x))

/-! ### Reading -/

theorem follows_tryRead (hl : l.Sound) (h : l.HasClient fd c none) (hpipe : l.FreshPipe a) :
    Follows fd l (l.tryRead a fd c) (Client.tryRead a fd c) := by
  have hfd := hl.cgiJobs_eq_none h
  have hleaves := readLeaves_readLoop a.env a.recvs c
  unfold tryRead Client.tryRead
  cases hread : readLoop a.env c a.recvs with
  | bodyLimit c₁ =>
    exact .bodyLimit (serves_putConnection hl hfd c₁) (connections_putConnection_self l fd c₁)
      (h.registered.putConnection c₁)
  | ok c₁ fate =>
    rw [hread] at hleaves
    have hput := serves_putConnection hl hfd c₁
    cases fate with
    | nothing =>
      cases hleaves with
      | nothing hrec => exact .ok hput (h.putConnection (buildEpollEvent_congr hrec.state))
    | stuck =>
      cases hleaves with
      | stuck hrec => exact .ok hput (h.putConnection (buildEpollEvent_congr hrec.state))
    | close => exact (follows_closeClient hput.sound hfd).after hput
    | answered => exact follows_rearmAs hl hfd h.registered (a.modifies .answer fd) c₁
    | script info =>
      refine (follows_apiStartCgi hl h hpipe c₁ info).andThen ?_
      exact fun l' cl hserves hholds => follows_forgetBodyFile hserves.sound hholds

theorem follows_handleRead (hl : l.Sound) (h : l.HasClient fd c none)
    (hstate : c.state ≠ .cgiRunning) (hpipe : l.FreshPipe a) :
    Follows fd l (l.handleRead a fd) (Client.handleRead a fd c) := by
  have htried := follows_tryRead hl h hpipe
  unfold handleRead Client.handleRead
  rw [h.conn]
  dsimp only
  rw [if_neg hstate]
  generalize l.tryRead a fd c = o at htried ⊢
  generalize Client.tryRead a fd c = r at htried ⊢
  cases htried with
  | ok hserves hholds => exact .ok hserves hholds
  | @bodyLimit l₁ cl hserves hconn hreg =>
    have hcatch : catchTryRead a fd (.bodyLimit l₁) = l₁.refuse a fd (closing cl.conn) 413 := by
      rw [catchTryRead]
      dsimp only
      rw [hconn]
      rfl
    rw [hcatch]
    exact (follows_refuse hserves.sound (hserves.sound.apart fd _ hconn) hreg _ 413).after hserves

/-! ### Writing -/

theorem follows_afterWrite (hl : l.Sound) (hfd : l.cgiJobs[fd]? = none) (h : l.Registered fd none)
    (c : Connection) :
    Follows fd l (.ok (l.afterWrite a fd c) ()) (.ok (Client.afterWrite a fd c) ()) := by
  unfold afterWrite Client.afterWrite
  split
  · split
    · exact follows_rearmAs hl hfd h (a.modifies .write fd) (c.setReading a.env.now)
    · exact follows_closeClient hl hfd
  · exact follows_rearmAs hl hfd h (a.modifies .write fd) c.setWriting

theorem follows_afterRelay (hl : l.Sound) {cl : Option Client} (h : l.Holds fd cl) :
    Follows fd l (.ok (l.afterRelay a fd) ()) (.ok (cl.bind (Client.afterRelay a fd)) ()) := by
  unfold afterRelay
  cases cl with
  | none =>
    have hgone : l.connections[fd]? = none := h
    rw [hgone]
    exact .ok (.refl fd hl) hgone
  | some cl =>
    have hclient : l.HasClient fd cl.conn cl.job := h
    rw [hclient.conn]
    exact follows_rearmAs hl (hl.cgiJobs_eq_none hclient) hclient.registered
      (a.modifies .write fd) cl.conn.setWriting

theorem follows_handleWrite (hl : l.Sound) {cl : Client} (h : l.HasClient fd cl.conn cl.job) :
    Follows fd l (l.handleWrite a fd) (cl.handleWrite a fd) := by
  obtain ⟨c, job⟩ := cl
  have hput := serves_putConnection hl (hl.cgiJobs_eq_none h) (c.sendLoop a.env.now (a.takes fd))
  have hsent : (l.putConnection fd (c.sendLoop a.env.now (a.takes fd))).HasClient fd
      (c.sendLoop a.env.now (a.takes fd)) job :=
    h.putConnection (buildEpollEvent_congr (state_sendLoop a.env.now (a.takes fd) c))
  unfold handleWrite Client.handleWrite
  rw [h.conn]
  dsimp only
  generalize l.putConnection fd (c.sendLoop a.env.now (a.takes fd)) = l₁ at hput hsent ⊢
  generalize c.sendLoop a.env.now (a.takes fd) = c₁ at hsent ⊢
  refine Follows.after ?_ hput
  rw [hsent.activeCgi]
  cases job with
  | none =>
    exact follows_afterWrite hput.sound (hput.sound.cgiJobs_eq_none hsent) hsent.registered c₁
  | some p =>
    obtain ⟨x, j⟩ := p
    dsimp only [Option.map_some]
    split
    · -- the script is looked at, with its pipe armed again
      have hclient := hsent.job_filed
      have hpipe := serves_modifyPipe hput.sound hclient.1 hclient.2 (a.modifies .pipe x) cgiEvents
      have harmed := hsent.modifyPipe hput.sound (a.modifies .pipe x) cgiEvents
      refine ((follows_cgiEvent hpipe.sound harmed).after hpipe).andThen ?_
      exact fun l' cl hserves hholds => follows_afterRelay hserves.sound hholds
    · have hholds : l₁.Holds fd (some ⟨c₁, some (x, j)⟩) := hsent
      exact follows_afterRelay hput.sound hholds

/-- **`_handleClientEvent`**: an event of the registered mask. -/
theorem follows_clientEvent {events : EpollBits} {cl : Client} (hl : l.Sound)
    (h : l.HasClient fd cl.conn cl.job)
    (hin : events.epollIn = true → cl.conn.state ≠ .cgiRunning ∧ cl.job = none)
    (hpipe : l.FreshPipe a) :
    Follows fd l (l.handleClientEvent a fd events) (cl.clientEvent a fd events) := by
  obtain ⟨c, job⟩ := cl
  have hfd := hl.cgiJobs_eq_none h
  unfold handleClientEvent Client.clientEvent
  rw [h.conn]
  dsimp only
  rw [h.activeCgi, Option.isSome_map]
  split
  · exact follows_closeClient hl hfd
  · split
    · split
      · exact follows_closeClient hl hfd
      · exact .ok (serves_putConnection hl hfd _) (h.putConnection rfl)
    · split
      · next hread =>
        obtain ⟨hstate, rfl⟩ := hin hread
        exact follows_handleRead hl h hstate hpipe
      · split
        · exact follows_handleWrite hl h
        · exact .ok (.refl fd hl) h

end

end EventLoop

end Webserv
