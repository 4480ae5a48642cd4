import Webserv.EventLoop.Reading
import Webserv.ResponseHandler.Framing

/-!
# One response for a request

A response is appended to the write buffer piece by piece, and the buffer holds no more
than the body limit of the server.  When a piece is refused, the handler of `_handleRead`
appends a 413 page behind what is there.  So the client is sent one response when all of
it fits or none of it does.

## Main results

* `answersOnce_iff` — when a reading that dispatches a request adds one response to the
  write buffer.
-/

namespace Webserv

open Bytes

/-- The handler's reply to the request of a client. -/
def replyTo (env : Env) (c : Connection) : Reply :=
  handle env (cleanupBodyTmpFile c.request) c.config

/-- A reading of `c` dispatches a request that is not for a script; `c₁` is what has become
of the connection then. -/
structure Dispatches (env : Env) (c : Connection) (answers : List RecvAnswer)
    (c₁ : Connection) : Prop where
  receives : c.Receives c₁
  dispatchable : Dispatchable c₁
  isFile : pathRequiresCgiBodySpool c₁.request c₁.config = false
  reads : ∃ a, readLoop env c answers = tryDispatchComplete env a c₁

/-- If `_handleRead` returns, it has queued one response, which is the 413 page if any of
the response was refused. -/
def AnswersOnce (env : Env) (c : Connection) (answers : List RecvAnswer) : Prop :=
  ∀ c' fate, catchRead env (readLoop env c answers) = .ok c' fate →
    ∃ added, c'.writeBuffer.items = c.writeBuffer.items ++ added ∧ OneResponse added ∧
      ((readLoop env c answers).threw = true → added = errorResponse env 413 c'.config)

/-- The response fits as a whole and is one response, or no part of it fits, or there is
no room for the 413 page behind the part that fits. -/
def AnswerFits (env : Env) (c : Connection) : Prop :=
  let reply := replyTo env c
  let n := Fifo.admitted c.writeBuffer.room reply.blocks
  if n = reply.blocks.flatten.length then
    c.request.method ≠ ascii "HEAD" ∧ Unbroken reply.location
  else n = 0 ∨ c.writeBuffer.limit <
    c.writeBuffer.size + n + (errorResponse env 413 c.config).length

/-- A request that is not for a script is answered by the handler. -/
theorem tryDispatchComplete_file {env : Env} {a : SpoolAnswers} {c : Connection}
    (h : Dispatchable c) (hfile : pathRequiresCgiBodySpool c.request c.config = false) :
    ∃ c' : Connection, tryDispatchComplete env a c = answer (c'.queue (replyTo env c).blocks) ∧
      c'.writeBuffer = c.writeBuffer ∧ c'.config = c.config ∧
      c'.request = (replyTo env c).request := by
  have hcgi : resolveCgiRequest c.setProcessing.request c.setProcessing.config = none := by
    have hsome := isSome_resolveCgiRequest c.request c.config
    rw [hfile, Option.isSome_eq_false_iff, Option.isNone_iff_eq_none] at hsome
    exact hsome
  unfold tryDispatchComplete
  rw [if_neg (by simp [h.1, h.2])]
  extract_lets c₁ c₂
  have hspool : c₂ = c.setProcessing := if_neg (Bool.not_eq_true _ ▸ hfile)
  clear_value c₂
  subst hspool
  rw [hcgi]
  exact ⟨{ c.setProcessing with request := (replyTo env c).request }, rfl, rfl, rfl, rfl⟩

/-- What the client of a dispatched request is left with. -/
theorem answersOnce_iff_of_ok {env : Env} {c c₂ : Connection} {answers : List RecvAnswer}
    (added : Bytes) (hread : readLoop env c answers = .ok c₂ .answered)
    (hadded : c₂.writeBuffer.items = c.writeBuffer.items ++ added) :
    AnswersOnce env c answers ↔ OneResponse added := by
  unfold AnswersOnce
  rw [hread]
  constructor
  · intro h
    obtain ⟨added', hitems, hone, -⟩ := h c₂ .answered rfl
    rw [hadded] at hitems
    rwa [List.append_cancel_left hitems]
  · rintro hone c' fate ⟨⟩
    exact ⟨added, hadded, hone, by simp⟩

/-- The page of the handler finds no room: the exception goes on. -/
theorem catchRead_refused {env : Env} {c : Connection}
    (h : c.writeBuffer.limit < c.writeBuffer.size + (errorResponse env 413 c.config).length) :
    ∃ c', catchRead env (.bodyLimit c) = .bodyLimit c' := by
  have hsend : ∀ req : HttpRequest, ∃ c',
      answer (sendError env 413 { c with request := req }) = .bodyLimit c' := fun req =>
    ⟨_, congrArg answer (@sendError_refused env 413 { c with request := req } h)⟩
  exact hsend _

/-- The page of the handler is queued. -/
theorem catchRead_ok {env : Env} {c : Connection}
    (h : c.writeBuffer.size + (errorResponse env 413 c.config).length ≤ c.writeBuffer.limit) :
    ∃ c', catchRead env (.bodyLimit c) = .ok c' .answered ∧
      c'.writeBuffer = c.writeBuffer.push (errorResponse env 413 c.config) ∧
      c'.config = c.config := by
  have hsend : ∀ req : HttpRequest, ∃ c',
      answer (sendError env 413 { c with request := req }) = .ok c' .answered ∧
        c'.writeBuffer = c.writeBuffer.push (errorResponse env 413 c.config) ∧
        c'.config = c.config := fun req =>
    ⟨_, congrArg answer (@sendError_ok env 413 { c with request := req } h), rfl, rfl⟩
  exact hsend _

/-- What the client is left with when a part of its response has been refused. -/
theorem answersOnce_iff_of_refused {env : Env} {c c₂ : Connection} {answers : List RecvAnswer}
    (done : Bytes) (hread : readLoop env c answers = .bodyLimit c₂)
    (hdone : c₂.writeBuffer.items = c.writeBuffer.items ++ done) :
    AnswersOnce env c answers ↔ done = [] ∨
      c₂.writeBuffer.limit < c₂.writeBuffer.size + (errorResponse env 413 c₂.config).length := by
  unfold AnswersOnce
  rw [hread]
  by_cases hfits : c₂.writeBuffer.limit <
      c₂.writeBuffer.size + (errorResponse env 413 c₂.config).length
  · obtain ⟨c₃, hcatch⟩ := catchRead_refused hfits
    simp [hcatch, hfits]
  · obtain ⟨c₃, hcatch, hbuffer, hconfig⟩ := catchRead_ok (Nat.le_of_not_lt hfits)
    rw [hcatch]
    simp only [hfits, or_false]
    constructor
    · intro h
      obtain ⟨added, hitems, -, hpage⟩ := h _ _ rfl
      rw [hpage rfl, hconfig, hbuffer, Fifo.items_push, hdone] at hitems
      -- the page is all that has been added, and it stands behind what fits
      have hlength := congrArg List.length hitems
      simp only [List.length_append] at hlength
      exact List.eq_nil_of_length_eq_zero (by omega)
    · rintro rfl c' fate ⟨⟩
      refine ⟨errorResponse env 413 c₂.config, ?_, oneResponse_errorResponse env 413 c₂.config,
        fun _ => by rw [hconfig]⟩
      rw [hbuffer, Fifo.items_push, hdone, List.append_nil]

/-- **A request is answered with one response exactly when its answer fits**, or nothing
of it does, or not even the error page: then an exception leaves the handler. -/
theorem answersOnce_iff {env : Env} (hfs : env.fs.Unchanging) {c c₁ : Connection}
    {answers : List RecvAnswer} (h : Dispatches env c answers c₁) :
    AnswersOnce env c answers ↔ AnswerFits env c₁ := by
  obtain ⟨a, hread⟩ := h.reads
  obtain ⟨c₂, hdispatch, hbuffer, hconfig, -⟩ :=
    @tryDispatchComplete_file env a c₁ h.dispatchable h.isFile
  rw [hdispatch] at hread
  have hanswers := answers_handle env hfs (cleanupBodyTmpFile c₁.request) c₁.config
  have hqueued : c₂.writeBuffer.items = c.writeBuffer.items := by
    rw [hbuffer, h.receives.queued]
  obtain ⟨hsize, hall⟩ := Fifo.appendAll_admitted (replyTo env c₁).blocks c₂.writeBuffer
  unfold AnswerFits
  dsimp only
  rw [← hbuffer, ← hconfig]
  cases hfits : (c₂.writeBuffer.appendAll (replyTo env c₁).blocks).2 with
  | true =>
    rw [if_pos (hall.mp hfits)]
    rw [queue_ok hfits] at hread
    rw [answersOnce_iff_of_ok (replyTo env c₁).blocks.flatten hread
      (by simp [Connection.setWriting, hqueued])]
    exact oneResponse_flatten_iff hanswers
  | false =>
    rw [if_neg fun heq => Bool.false_ne_true (hfits ▸ hall.mpr heq)]
    rw [queue_refused hfits] at hread
    obtain ⟨done, rest, -, hpush, -⟩ :=
      Fifo.appendAll_spec (replyTo env c₁).blocks c₂.writeBuffer
    have hn : Fifo.admitted c₂.writeBuffer.room (replyTo env c₁).blocks = done.flatten.length := by
      rw [hpush, Fifo.size_push] at hsize
      omega
    rw [answersOnce_iff_of_refused done.flatten hread (by simp [hpush, hqueued]), hn,
      List.length_eq_zero_iff]
    simp only [hpush, Connection.writeBuffer_setWriteBuffer, Fifo.limit_push, Fifo.size_push]
    rfl

/-- The ordinary way to a dispatch: the piece that has come completes the request. -/
theorem dispatches_of_data {env : Env} {c c₀ c₁ : Connection} {d : Bytes} {a : SpoolAnswers}
    {rest : List RecvAnswer} (hheld : c.request.erased = false)
    (hrecv : c.recv d env.now = .ok c₀ ())
    (hfeed : feed env.fs.statAnswer (resumeBodyIfNeeded c₀) = .ok c₁ ())
    (hd : Dispatchable c₁) (hfile : pathRequiresCgiBodySpool c₁.request c₁.config = false) :
    Dispatches env c (.data d a :: rest) c₁ where
  receives := by
    have h₀ := receives_recv c d env.now
    have h₁ := receives_feed env.fs.statAnswer (resumeBodyIfNeeded c₀)
    rw [hrecv] at h₀
    rw [hfeed] at h₁
    exact (h₀.trans (receives_resumeBodyIfNeeded c₀)).trans h₁
  dispatchable := hd
  isFile := hfile
  reads := by
    have hfed : readFed env a c₁ = tryDispatchComplete env a c₁ := by
      simp [readFed, maybeCompletePostWithoutLength, hd.1, hfile]
    refine ⟨a, ?_⟩
    rw [readLoop_held hheld, hrecv, Outcome.andThen_ok, hfeed, Outcome.andThen_ok, hfed]
    cases ho : tryDispatchComplete env a c₁ with
    | bodyLimit c₂ => rfl
    | ok c₂ fate =>
      cases fate with
      | nothing => exact absurd ho (tryDispatchComplete_ne_nothing hd)
      | close => rfl
      | answered => rfl
      | script info => rfl
      | stuck => rfl

/-! ### A file that does not fit -/

/-- Every path is that of one file of 600 bytes. -/
def oneFile : FileSystem :=
  { FileSystem.empty with
    stat := fun _ => .ok ⟨false, true, 600⟩
    openRead := fun _ => .ok (List.replicate 600 97) }

theorem unchanging_oneFile : oneFile.Unchanging := by
  rintro path content st ⟨⟩ ⟨⟩
  exact List.length_replicate.symm

/-- A client of a server whose limit is as long as the file. -/
def smallClient : Connection := Connection.new 5 { Server.empty with clientMaxBodySize := 600 } 0

/-- A request for a file. -/
def getFile : Bytes := ascii "GET /a HTTP/1.1\r\nHost: x\r\n\r\n"

/-- The client when its request has been parsed. -/
def smallClientFed : Connection :=
  (feed oneFile.statAnswer (resumeBodyIfNeeded (smallClient.recv getFile 0).state)).state

theorem dispatches_smallClient :
    Dispatches ⟨oneFile, 0, 0⟩ smallClient [.data getFile .none] smallClientFed :=
  dispatches_of_data rfl (Outcome.eq_ok_of_threw (by decide +kernel))
    (Outcome.eq_ok_of_threw (by decide +kernel)) ⟨by decide +kernel, by decide +kernel⟩
    (by decide +kernel)

/-- The file's header section fits, its one block does not, and the 413 page fits behind
the header section. -/
theorem answersOnce_smallClient_iff :
    AnswersOnce ⟨oneFile, 0, 0⟩ smallClient [.data getFile .none] ↔
      AnswerFits ⟨oneFile, 0, 0⟩ smallClientFed :=
  answersOnce_iff unchanging_oneFile dispatches_smallClient

/-- **A response may stay queued in part, in front of a 413 page.** -/
theorem not_answersOnce : ∃ env c answers c₁, env.fs.Unchanging ∧ Dispatches env c answers c₁ ∧
    ¬ AnswersOnce env c answers := by
  refine ⟨⟨oneFile, 0, 0⟩, smallClient, [.data getFile .none], smallClientFed, unchanging_oneFile,
    dispatches_smallClient, ?_⟩
  intro h
  have hsent : (catchRead ⟨oneFile, 0, 0⟩
      (readLoop ⟨oneFile, 0, 0⟩ smallClient [.data getFile .none])).returns
        (fun c' _ => decide (¬ OneResponse c'.writeBuffer.items)) = true := by decide +kernel
  obtain ⟨c', fate, ho, hmany⟩ := Outcome.exists_of_returns hsent
  obtain ⟨added, hitems, hone, -⟩ := h c' fate ho
  apply of_decide_eq_true hmany
  rw [hitems]
  exact hone

end Webserv
