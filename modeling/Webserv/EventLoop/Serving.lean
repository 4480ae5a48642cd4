import Webserv.Cgi.Stream
import Webserv.EventLoop.Reading

/-!
# What serving leaves alone

From the dispatch of a request to the end of its response a connection is written to, by the
handler or for a script, and drained.  None of it touches what the connection is and what it
reads: `Connection.Serves`.
-/

namespace Webserv

open Bytes

/-- `c'` has come from `c` by serving it. -/
structure Connection.Serves (c c' : Connection) : Prop where
  connNum : c'.connNum = c.connNum
  fd : c'.fd = c.fd
  config : c'.config = c.config
  servers : c'.configuration = c.configuration
  readBuffer : c'.readBuffer = c.readBuffer
  limit : c'.writeBuffer.limit = c.writeBuffer.limit

namespace Connection.Serves

theorem refl (c : Connection) : c.Serves c := ⟨rfl, rfl, rfl, rfl, rfl, rfl⟩

theorem trans {c₁ c₂ c₃ : Connection} (h : c₁.Serves c₂) (h' : c₂.Serves c₃) : c₁.Serves c₃ :=
  ⟨h'.connNum.trans h.connNum, h'.fd.trans h.fd, h'.config.trans h.config,
    h'.servers.trans h.servers, h'.readBuffer.trans h.readBuffer, h'.limit.trans h.limit⟩

end Connection.Serves

/-! ### The write buffer -/

theorem serves_send (c : Connection) (n now : ℕ) : c.Serves (c.send n now) := by
  unfold Connection.send
  split
  · exact .refl c
  · exact ⟨rfl, rfl, rfl, rfl, rfl, rfl⟩

theorem serves_sendLoop (now : ℕ) : ∀ (takes : List ℕ) (c : Connection),
    c.Serves (c.sendLoop now takes) := by
  intro takes
  induction takes with
  | nil => exact fun c => .refl c
  | cons n takes ih =>
    intro c
    rw [Connection.sendLoop]
    split
    · exact .refl c
    · exact (serves_send c n now).trans (ih _)

/-- Appending keeps the limit. -/
theorem limit_appendBlocks (wb : ByteQueue) (blocks : List Bytes) :
    (appendBlocks wb blocks).state.limit = wb.limit := by
  obtain ⟨done, rest, -, hq, -⟩ := wb.appendAll_spec blocks
  cases h : (wb.appendAll blocks).2 with
  | true => rw [appendBlocks_of_true h]; rfl
  | false =>
    rw [appendBlocks_of_false h, Outcome.state_bodyLimit, hq]
    rfl

theorem serves_queue (c : Connection) (blocks : List Bytes) : c.Serves (c.queue blocks).state := by
  have hlimit := limit_appendBlocks c.writeBuffer blocks
  unfold Connection.queue
  cases h : appendBlocks c.writeBuffer blocks with
  | ok wb a =>
    rw [h] at hlimit
    exact ⟨rfl, rfl, rfl, rfl, rfl, hlimit⟩
  | bodyLimit wb =>
    rw [h] at hlimit
    exact ⟨rfl, rfl, rfl, rfl, rfl, hlimit⟩

theorem serves_sendError (env : Env) (code : ℕ) (c : Connection) :
    c.Serves (sendError env code c).state := by
  have hqueue := serves_queue c [errorResponse env code c.config]
  unfold sendError
  cases h : c.queue [errorResponse env code c.config] with
  | ok c' a =>
    rw [h] at hqueue
    exact hqueue.trans ⟨rfl, rfl, rfl, rfl, rfl, rfl⟩
  | bodyLimit c' =>
    rw [h] at hqueue
    exact hqueue

/-- The client is set to writing. -/
theorem serves_answer {c : Connection} {o : Outcome Connection Unit} (h : c.Serves o.state) :
    c.Serves (answer o).state := by
  cases o with
  | ok c' u => exact Connection.Serves.trans h ⟨rfl, rfl, rfl, rfl, rfl, rfl⟩
  | bodyLimit c' => exact h

theorem serves_tryDispatchComplete (env : Env) (a : SpoolAnswers) (c : Connection) :
    c.Serves (tryDispatchComplete env a c).state := by
  unfold tryDispatchComplete
  split
  · exact .refl c
  · extract_lets c₁ c₂
    have h₂ : c.Serves c₂ := by
      dsimp only [c₂]
      split
      · exact ⟨rfl, rfl, rfl, rfl, rfl, rfl⟩
      · exact ⟨rfl, rfl, rfl, rfl, rfl, rfl⟩
    clear_value c₂
    split
    · split
      · exact h₂.trans (serves_answer (serves_sendError env _ c₂))
      · exact h₂
    · have hreply : c.Serves { c₂ with
          request := (handle env (cleanupBodyTmpFile c₂.request) c₂.config).request } :=
        h₂.trans ⟨rfl, rfl, rfl, rfl, rfl, rfl⟩
      exact hreply.trans (serves_answer (serves_queue _ _))

/-- A connection keeps its number while it reads. -/
theorem connNum_readLoop (env : Env) (answers : List RecvAnswer) (c : Connection) :
    (readLoop env c answers).state.connNum = c.connNum := by
  cases readLoop_cases env answers c with
  | nothing c₁ hc₁ ho => rw [ho]; exact hc₁.connNum
  | close c₁ hc₁ ho => rw [ho]; exact hc₁.connNum
  | stuck c₁ hc₁ ho => rw [ho]; exact hc₁.connNum
  | threw c₁ hc₁ ho => rw [ho]; exact hc₁.connNum
  | parseError c₁ hc₁ hp ho =>
    rw [ho]
    exact (serves_answer (serves_sendError env _ c₁)).connNum.trans hc₁.connNum
  | dispatched a c₁ hc₁ hd ho =>
    rw [ho]
    exact (serves_tryDispatchComplete env a c₁).connNum.trans hc₁.connNum

/-! ### Scripts -/

/-- A relation that everything done for a script keeps: blocks are queued, or an error page, and
the client is set to writing. -/
structure Relays (R : Connection → Connection → Prop) : Prop where
  refl : ∀ c, R c c
  trans : ∀ {c₁ c₂ c₃}, R c₁ c₂ → R c₂ c₃ → R c₁ c₃
  queue : ∀ c blocks, R c (c.queue blocks).state
  sendError : ∀ env code c, R c (sendError env code c).state
  setWriting : ∀ c, R c c.setWriting
  headers : ∀ c headers, R c { c with request := { c.request with headers := headers } }

namespace Relays

variable {R : Connection → Connection → Prop} (hR : Relays R)

include hR

theorem queue_ok {c c' : Connection} {blocks : List Bytes} {u : Unit}
    (h : c.queue blocks = .ok c' u) : R c c' := by
  have hqueue := hR.queue c blocks
  rwa [h] at hqueue

theorem queue_bodyLimit {c c' : Connection} {blocks : List Bytes}
    (h : c.queue blocks = .bodyLimit c') : R c c' := by
  have hqueue := hR.queue c blocks
  rwa [h] at hqueue

theorem sendError_ok {env : Env} {code : ℕ} {c c' : Connection} {u : Unit}
    (h : Webserv.sendError env code c = .ok c' u) : R c c' := by
  have herror := hR.sendError env code c
  rwa [h] at herror

theorem sendError_bodyLimit {env : Env} {code : ℕ} {c c' : Connection}
    (h : Webserv.sendError env code c = .bodyLimit c') : R c c' := by
  have herror := hR.sendError env code c
  rwa [h] at herror

theorem failCgiJob (env : Env) (code : ℕ) (c : Connection) (job : CgiJob) :
    R c (failCgiJob env code c job).state.1 := by
  unfold Webserv.failCgiJob
  split
  · cases h : c.queue [zeroChunk] with
    | ok c' u =>
      exact hR.trans (hR.queue_ok h) (hR.trans (hR.headers c' _) (hR.setWriting _))
    | bodyLimit c' => exact hR.queue_bodyLimit h
  · cases h : Webserv.sendError env code c with
    | ok c' u => exact hR.trans (hR.sendError_ok h) (hR.setWriting c')
    | bodyLimit c' => exact hR.sendError_bodyLimit h

theorem finishCgiJob (env : Env) (c : Connection) (job : CgiJob) :
    R c (finishCgiJob env c job).state.1 := by
  unfold Webserv.finishCgiJob
  split
  · cases h : c.queue (if c.request.method = ascii "HEAD" then [] else [zeroChunk]) with
    | ok c' u => exact hR.trans (hR.queue_ok h) (hR.setWriting c')
    | bodyLimit c' => exact hR.queue_bodyLimit h
  · cases h : Webserv.sendError env 502 c with
    | ok c' u => exact hR.trans (hR.sendError_ok h) (hR.setWriting c')
    | bodyLimit c' => exact hR.sendError_bodyLimit h

theorem relayBody (c : Connection) (job : CgiJob) (d : Bytes) :
    R c (relayBody c job d).state.1 := by
  unfold Webserv.relayBody
  cases h : c.queue (chunkBlocks d) with
  | ok c' u => exact hR.trans (hR.queue_ok h) (hR.setWriting c')
  | bodyLimit c' => exact hR.queue_bodyLimit h

theorem relayLeftover (c : Connection) (job : CgiJob) (bodyStart : ℕ) :
    R c (relayLeftover c job bodyStart).state.1 := by
  have hbody := hR.relayBody c job (job.resultBuffer.items.drop bodyStart)
  unfold Webserv.relayLeftover
  cases h : Webserv.relayBody c job (job.resultBuffer.items.drop bodyStart) with
  | ok s fate =>
    rw [h] at hbody
    exact hbody
  | bodyLimit s =>
    rw [h] at hbody
    exact hbody

theorem relayHead (c : Connection) (job : CgiJob) (bodyStart : ℕ) :
    R c (relayHead c job bodyStart).state.1 := by
  -- the head is queued as one block
  have hhead := hR.queue c [cgiResponseHead (job.resultBuffer.items.take bodyStart) c.request]
  unfold Connection.queue at hhead
  unfold Webserv.relayHead flushCgiHeaders
  cases h : appendBlocks c.writeBuffer
      [cgiResponseHead (job.resultBuffer.items.take bodyStart) c.request] with
  | bodyLimit wb =>
    rw [h] at hhead
    exact hhead
  | ok wb u =>
    rw [h] at hhead
    exact hR.trans hhead (hR.relayLeftover _ _ bodyStart)

theorem cgiData (env : Env) (c : Connection) (job : CgiJob) (d : Bytes) :
    R c (cgiData env c job d).state.1 := by
  unfold Webserv.cgiData
  dsimp only
  split
  · exact hR.relayBody c _ d
  · split
    · exact hR.refl c
    · split
      · split
        · exact hR.failCgiJob env 502 c _
        · exact hR.refl c
      · exact hR.relayHead c _ _

/-- **The rule** for an event of a pipe. -/
theorem cgiEvent (env : Env) (c : Connection) (job : CgiJob) (a : ReadAnswer) :
    R c (cgiEvent env c job a).state.1 := by
  have htry : R c (cgiTry env c job a).state.1 := by
    cases a with
    | data d => exact hR.cgiData env c job d
    | eof => exact hR.finishCgiJob env c _
    | again => exact hR.refl c
  unfold Webserv.cgiEvent
  split
  · exact hR.failCgiJob env 502 c job
  · split
    · exact hR.refl c
    · cases h : cgiTry env c job a with
      | ok s fate =>
        rw [h] at htry
        exact htry
      | bodyLimit s =>
        rw [h] at htry
        exact hR.trans htry (hR.failCgiJob env 413 s.1 s.2)

end Relays

/-- What is done for a script serves the client. -/
theorem relays_serves : Relays Connection.Serves where
  refl := .refl
  trans := .trans
  queue := serves_queue
  sendError := serves_sendError
  setWriting _ := ⟨rfl, rfl, rfl, rfl, rfl, rfl⟩
  headers _ _ := ⟨rfl, rfl, rfl, rfl, rfl, rfl⟩

/-! ### What is left when a call ends -/

/-- A call for a job has returned. -/
structure WorkedFor (c : Connection) (job : CgiJob) (c' : Connection) (job' : CgiJob)
    (fate : CgiFate) : Prop where
  clientFd : job'.clientFd = job.clientFd
  wait : fate = .wait → c' = c ∧ job'.headersSent = job.headersSent
  writing : fate ≠ .wait → c'.state = .writing
  streamed : fate = .streamed → job'.headersSent = true
  /-- An error page is queued when the job ends, and not before. -/
  announced : c'.closeAnnounced = true →
    c.closeAnnounced = true ∨ (fate = .ended ∧ c'.writeBuffer.items ≠ [])

/-- How a call for a job ends.  One that throws has queued no error page. -/
inductive CallEnd (c : Connection) (job : CgiJob) : Outcome (Connection × CgiJob) CgiFate → Prop
  | ok {c' : Connection} {job' : CgiJob} {fate : CgiFate} : WorkedFor c job c' job' fate →
      CallEnd c job (.ok (c', job') fate)
  | bodyLimit {c' : Connection} {job' : CgiJob} : job'.clientFd = job.clientFd →
      c'.closeAnnounced = c.closeAnnounced → CallEnd c job (.bodyLimit (c', job'))

namespace CallEnd

variable {c c₁ : Connection} {job job₁ : CgiJob} {o : Outcome (Connection × CgiJob) CgiFate}

/-- Only the client of the job and what it has sent matter. -/
theorem of_job (h : CallEnd c job₁ o) (hfd : job₁.clientFd = job.clientFd)
    (hsent : job₁.headersSent = job.headersSent) : CallEnd c job o := by
  cases h with
  | ok hw =>
    exact .ok ⟨hw.clientFd.trans hfd,
      fun hwait => ⟨(hw.wait hwait).1, (hw.wait hwait).2.trans hsent⟩,
      hw.writing, hw.streamed, hw.announced⟩
  | bodyLimit hclient hann => exact .bodyLimit (hclient.trans hfd) hann

theorem of_ok {c' : Connection} {job' : CgiJob} {fate : CgiFate}
    (h : CallEnd c job (.ok (c', job') fate)) : WorkedFor c job c' job' fate := by
  cases h with
  | ok hw => exact hw

end CallEnd

theorem closeAnnounced_queue (c : Connection) (blocks : List Bytes) :
    (c.queue blocks).state.closeAnnounced = c.closeAnnounced := by
  unfold Connection.queue
  cases appendBlocks c.writeBuffer blocks with
  | ok wb u => rfl
  | bodyLimit wb => rfl

/-- Blocks are queued, and the client writes. -/
theorem workedFor_queue {c c₁ c' : Connection} {job : CgiJob} {blocks : List Bytes} {u : Unit}
    (h : c.queue blocks = .ok c₁ u) (hstate : c'.state = .writing)
    (hannounced : c'.closeAnnounced = c₁.closeAnnounced) : WorkedFor c job c' job .ended := by
  refine ⟨rfl, nofun, fun _ => hstate, nofun, ?_⟩
  rw [hannounced, eq_of_queue_ok h]
  exact Or.inl

/-- An error page is queued, and the client writes. -/
theorem workedFor_sendError {env : Env} {code : ℕ} {c c' : Connection} {job : CgiJob} {u : Unit}
    (h : sendError env code c = .ok c' u) : WorkedFor c job c'.setWriting job .ended := by
  rw [eq_of_sendError_ok h]
  refine ⟨rfl, nofun, fun _ => rfl, nofun, fun _ => Or.inr ⟨rfl, ?_⟩⟩
  intro hnil
  have hitems : c.writeBuffer.items ++ errorResponse env code c.config = [] := hnil
  exact errorResponse_ne_nil env code c.config (List.append_eq_nil_iff.mp hitems).2

/-- An error page that is refused announces nothing. -/
theorem closeAnnounced_sendError_refused {env : Env} {code : ℕ} {c c' : Connection}
    (h : sendError env code c = .bodyLimit c') : c'.closeAnnounced = c.closeAnnounced := by
  rcases Nat.lt_or_ge c.writeBuffer.limit
      (c.writeBuffer.size + (errorResponse env code c.config).length) with hroom | hroom
  · rw [sendError_refused hroom] at h
    cases h
    rfl
  · rw [sendError_ok hroom] at h
    cases h

theorem callEnd_failCgiJob (env : Env) (code : ℕ) (c : Connection) (job : CgiJob) :
    CallEnd c job (failCgiJob env code c job) := by
  unfold failCgiJob
  split
  · cases hqueue : c.queue [zeroChunk] with
    | bodyLimit c₁ =>
      refine .bodyLimit rfl ?_
      have hann := closeAnnounced_queue c [zeroChunk]
      rwa [hqueue] at hann
    | ok c₁ u => exact .ok (workedFor_queue hqueue rfl rfl)
  · cases herror : sendError env code c with
    | bodyLimit c₁ => exact .bodyLimit rfl (closeAnnounced_sendError_refused herror)
    | ok c₁ u => exact .ok (workedFor_sendError herror)

theorem callEnd_finishCgiJob (env : Env) (c : Connection) (job : CgiJob) :
    CallEnd c job (finishCgiJob env c job) := by
  unfold finishCgiJob
  split
  · cases hqueue : c.queue (if c.request.method = ascii "HEAD" then [] else [zeroChunk]) with
    | bodyLimit c₁ =>
      refine .bodyLimit rfl ?_
      have hann := closeAnnounced_queue c
        (if c.request.method = ascii "HEAD" then [] else [zeroChunk])
      rwa [hqueue] at hann
    | ok c₁ u => exact .ok (workedFor_queue hqueue rfl rfl)
  · cases herror : sendError env 502 c with
    | bodyLimit c₁ => exact .bodyLimit rfl (closeAnnounced_sendError_refused herror)
    | ok c₁ u => exact .ok (workedFor_sendError herror)

/-- A block is relayed, or refused. -/
theorem relayBody_cases (c : Connection) (job : CgiJob) (d : Bytes) :
    ∃ c', c'.closeAnnounced = c.closeAnnounced ∧
      (relayBody c job d = .bodyLimit (c', job) ∨ relayBody c job d =
        .ok (c'.setWriting, { job with bodyWritten := job.bodyWritten + d.length }) .streamed) := by
  have hann := closeAnnounced_queue c (chunkBlocks d)
  unfold relayBody
  cases hqueue : c.queue (chunkBlocks d) with
  | bodyLimit c₁ =>
    rw [hqueue] at hann
    exact ⟨c₁, hann, Or.inl rfl⟩
  | ok c₁ u =>
    rw [hqueue] at hann
    exact ⟨c₁, hann, Or.inr rfl⟩

theorem callEnd_relayBody {c : Connection} {job : CgiJob} (hsent : job.headersSent = true)
    (d : Bytes) : CallEnd c job (relayBody c job d) := by
  obtain ⟨c', hann, h | h⟩ := relayBody_cases c job d
  · rw [h]
    exact .bodyLimit rfl hann
  · rw [h]
    exact .ok ⟨rfl, nofun, fun _ => rfl, fun _ => hsent, fun hc' => Or.inl (hann.symm.trans hc')⟩

theorem callEnd_relayHead (c : Connection) (job : CgiJob) (bodyStart : ℕ) :
    CallEnd c job (relayHead c job bodyStart) := by
  unfold relayHead
  cases flushCgiHeaders job.resultBuffer.items bodyStart c.request c.writeBuffer with
  | bodyLimit wb => exact .bodyLimit rfl rfl
  | ok wb code =>
    dsimp only
    unfold relayLeftover
    dsimp only
    obtain ⟨c', hann, h | h⟩ := relayBody_cases (c.setWriteBuffer wb)
      { job with headersSent := true } (job.resultBuffer.items.drop bodyStart)
    · rw [h]
      exact .bodyLimit rfl hann
    · rw [h]
      exact .ok ⟨rfl, nofun, fun _ => rfl, fun _ => rfl, fun hc' => Or.inl (hann.symm.trans hc')⟩

theorem callEnd_cgiData (env : Env) (c : Connection) (job : CgiJob) (d : Bytes) :
    CallEnd c job (cgiData env c job d) := by
  unfold cgiData
  dsimp only
  split
  · next hsent =>
    have hread : ({ job with parentRequest := job.parentRequest + 1 } : CgiJob).headersSent =
        true :=
      hsent
    exact (callEnd_relayBody hread d).of_job rfl rfl
  · split
    · exact .bodyLimit rfl rfl
    · next buf _ =>
      split
      · split
        · exact (callEnd_failCgiJob env 502 c _).of_job rfl rfl
        · exact .ok ⟨rfl, fun _ => ⟨rfl, rfl⟩, fun h => absurd rfl h, nofun, Or.inl⟩
      · exact (callEnd_relayHead c _ _).of_job rfl rfl

theorem callEnd_cgiTry (env : Env) (c : Connection) (job : CgiJob) (a : ReadAnswer) :
    CallEnd c job (cgiTry env c job a) := by
  cases a with
  | data d => exact callEnd_cgiData env c job d
  | eof => exact (callEnd_finishCgiJob env c { job with parentRequest := 0 }).of_job rfl rfl
  | again => exact .ok ⟨rfl, fun _ => ⟨rfl, rfl⟩, fun h => absurd rfl h, nofun, Or.inl⟩

/-- The handler of the `try` block ends the job. -/
theorem CallEnd.catchBodyLimit {env : Env} {c : Connection} {job : CgiJob}
    {o : Outcome (Connection × CgiJob) CgiFate} (h : CallEnd c job o) :
    CallEnd c job (catchBodyLimit env o) := by
  cases h with
  | ok hw => exact .ok hw
  | @bodyLimit c₁ job₁ hclient hann =>
    have hfail := callEnd_failCgiJob env 413 c₁ job₁
    show CallEnd c job (failCgiJob env 413 c₁ job₁)
    rcases over_failCgiJob env 413 c₁ job₁ with ⟨c', hover⟩ | ⟨c', hover⟩
    · rw [hover] at hfail ⊢
      have hw := hfail.of_ok
      exact .ok ⟨hclient, nofun, hw.writing, nofun,
        fun hc' => hw.announced hc' |>.imp_left hann.symm.trans⟩
    · rw [hover] at hfail ⊢
      cases hfail with
      | bodyLimit _ hann' => exact .bodyLimit hclient (hann'.trans hann)

theorem callEnd_cgiEvent (env : Env) (c : Connection) (job : CgiJob) (a : ReadAnswer) :
    CallEnd c job (cgiEvent env c job a) := by
  unfold cgiEvent
  split
  · exact callEnd_failCgiJob env 502 c job
  · split
    · exact .ok ⟨rfl, fun _ => ⟨rfl, rfl⟩, fun h => absurd rfl h, nofun, Or.inl⟩
    · exact (callEnd_cgiTry env c job a).catchBodyLimit

/-! ### What is left when a reading ends -/

/-- How a reading ends, as far as responses go: nothing is queued by reading alone, and an error
page is queued only with the fate that says so. -/
inductive ReadLeaves (c : Connection) : Outcome Connection ReadFate → Prop
  | nothing {c' : Connection} : c.Receives c' → ReadLeaves c (.ok c' .nothing)
  | close (c' : Connection) : ReadLeaves c (.ok c' .close)
  | stuck {c' : Connection} : c.Receives c' → ReadLeaves c (.ok c' .stuck)
  | answered {c' : Connection} : c'.state = .writing →
      (c'.closeAnnounced = true → c.closeAnnounced = true ∨ c'.writeBuffer.items ≠ []) →
      ReadLeaves c (.ok c' .answered)
  | script {c' : Connection} (info : CgiRequestInfo) :
      c'.writeBuffer.items = c.writeBuffer.items → c'.closeAnnounced = c.closeAnnounced →
      ReadLeaves c (.ok c' (.script info))
  | bodyLimit {c' : Connection} : c'.closeAnnounced = c.closeAnnounced →
      ReadLeaves c (.bodyLimit c')

theorem readLeaves_sendError {env : Env} {code : ℕ} {c c₁ : Connection}
    (h : c₁.closeAnnounced = c.closeAnnounced) :
    ReadLeaves c (answer (sendError env code c₁)) := by
  cases herror : sendError env code c₁ with
  | bodyLimit c₂ => exact .bodyLimit ((closeAnnounced_sendError_refused herror).trans h)
  | ok c₂ u =>
    have hw := @workedFor_sendError env code c₁ c₂ (CgiJob.new 0 0 0 0 0) u herror
    refine .answered rfl fun hann => ?_
    rcases hw.announced hann with hc₁ | ⟨-, hitems⟩
    · exact Or.inl (h.symm.trans hc₁)
    · exact Or.inr hitems

theorem readLeaves_respond {env : Env} {c c₁ : Connection}
    (h : c₁.closeAnnounced = c.closeAnnounced) : ReadLeaves c (respond env c₁) := by
  unfold respond
  dsimp only
  set reply := handle env (cleanupBodyTmpFile c₁.request) c₁.config
  have hann := closeAnnounced_queue { c₁ with request := reply.request } reply.blocks
  cases hqueue : ({ c₁ with request := reply.request } : Connection).queue reply.blocks with
  | bodyLimit c₂ =>
    rw [hqueue] at hann
    exact .bodyLimit (hann.trans h)
  | ok c₂ u =>
    rw [hqueue] at hann
    exact .answered rfl fun hc₂ => Or.inl ((hann.trans h).symm.trans hc₂)

theorem readLeaves_tryDispatchComplete {env : Env} {a : SpoolAnswers} {c c₁ : Connection}
    (h : c.Receives c₁) : ReadLeaves c (tryDispatchComplete env a c₁) := by
  unfold tryDispatchComplete
  split
  · exact .nothing h
  · extract_lets c₂ c₃
    have hc₃ : c₃.closeAnnounced = c.closeAnnounced ∧
        c₃.writeBuffer.items = c.writeBuffer.items := by
      simp only [c₃]
      split
      · exact ⟨h.announced, h.queued⟩
      · exact ⟨h.announced, h.queued⟩
    clear_value c₃
    split
    · split
      · exact readLeaves_sendError hc₃.1
      · exact .script _ hc₃.2 hc₃.1
    · exact readLeaves_respond hc₃.1

theorem readLeaves_readLoop (env : Env) (answers : List RecvAnswer) (c : Connection) :
    ReadLeaves c (readLoop env c answers) := by
  cases readLoop_cases env answers c with
  | nothing c₁ hc₁ ho =>
    rw [ho]
    exact .nothing hc₁
  | close c₁ hc₁ ho =>
    rw [ho]
    exact .close c₁
  | stuck c₁ hc₁ ho =>
    rw [ho]
    exact .stuck hc₁
  | threw c₁ hc₁ ho =>
    rw [ho]
    exact .bodyLimit hc₁.announced
  | parseError c₁ hc₁ hp ho =>
    rw [ho]
    exact readLeaves_sendError hc₁.announced
  | dispatched a c₁ hc₁ hd ho =>
    rw [ho]
    exact readLeaves_tryDispatchComplete hc₁

end Webserv
