import Webserv.Cgi.Job

/-!
# The stream of one script

A script's job and its client through the events that concern the two: the pipe
is readable, the client is writable, a sweep finds the job or the client too old,
the client is gone.  `CgiStream` adds to the pair what a proof wants to speak of and
no function of the program keeps: the output read so far, where `findHeaderEnd` saw
the body begin, the head and everything that was queued.  The events use the functions
of `Cgi.Job` unchanged, and the record is written down from their results.

## Main results

* `unsentStep_pump` — what an event of the pipe does before the head is queued.
* `sentStep_pump` — what it does afterwards.
* `Relays.step` — a stream that goes on relays the output in whole chunks.
-/

namespace Webserv

open Bytes ChunkedCoding

/-- The bytes of an answer. -/
def ReadAnswer.bytes : ReadAnswer → Bytes
  | .data d => d
  | .eof => []
  | .again => []

/-- What `read` into a buffer of 60 KiB may return. -/
def ReadAnswer.WellFormed : ReadAnswer → Prop
  | .data d => d ≠ [] ∧ d.length ≤ 60 * 1024
  | .eof => True
  | .again => True

/-- The job was closed in the call. -/
def hasEnded : Outcome (Connection × CgiJob) CgiFate → Bool
  | .ok _ .ended => true
  | _ => false

/-- A job and the connection it writes to. -/
structure CgiStream where
  conn : Connection
  job : CgiJob
  /-- The job is filed. -/
  isOpen : Bool
  /-- An exception has left the event loop, and the program is over. -/
  escaped : Bool
  /-- What was read from the pipe. -/
  output : Bytes
  eof : Bool
  /-- Where `findHeaderEnd` saw the body begin. -/
  bodyStart : Option ℕ
  /-- The response head, once it is queued. -/
  head : Option Bytes
  /-- All that was queued for the response. -/
  queued : Bytes
  /-- The zero chunk was queued. -/
  terminated : Bool

namespace CgiStream

/-- A job that was started for a client, which now waits for it. -/
def start (c : Connection) (job : CgiJob) : CgiStream where
  conn := c.setCgiRunning
  job := job
  isOpen := true
  escaped := false
  output := []
  eof := false
  bodyStart := none
  head := none
  queued := []
  terminated := false

/-- The result of a call that has read `data`, or the end of file, is filed. -/
def record (s : CgiStream) (data : Bytes) (eof : Bool)
    (r : Outcome (Connection × CgiJob) CgiFate) : CgiStream :=
  let new := r.state.1.writeBuffer.items.drop s.conn.writeBuffer.size
  let buffered := s.job.resultBuffer.items ++ data
  { conn := r.state.1
    job := r.state.2
    isOpen := !hasEnded r
    escaped := r.threw
    output := s.output ++ data
    eof := s.eof || eof
    bodyStart := if s.job.headersSent then s.bodyStart else findHeaderEnd buffered
    head :=
      if !s.job.headersSent && r.state.2.headersSent then
        (findHeaderEnd buffered).map fun n => cgiResponseHead (buffered.take n) s.conn.request
      else s.head
    queued := s.queued ++ new
    terminated := s.terminated ||
      (hasEnded r && r.state.2.headersSent && zeroChunk.isSuffixOf new) }

/-- `_handleCgiEvent`. -/
def pump (env : Env) (a : ReadAnswer) (s : CgiStream) : CgiStream :=
  let reads := readsPipe s.conn s.job
  s.record (if reads then a.bytes else []) (reads && a == .eof) (cgiEvent env s.conn s.job a)

/-- The job's end in `_closeTimedOutCgiJobs`. -/
def timeOut (env : Env) (s : CgiStream) : CgiStream :=
  s.record [] false (failCgiJob env 504 s.conn s.job)

/-- The sends of `_handleWrite`. -/
def drain (env : Env) (takes : List ℕ) (s : CgiStream) : CgiStream :=
  { s with conn := s.conn.sendLoop env.now takes }

/-- An event, with what the kernel answers to the calls it leads to. -/
inductive Event where
  /-- The pipe is readable. -/
  | readable (env : Env) (a : ReadAnswer)
  /-- The client is writable. -/
  | writable (env : Env) (takes : List ℕ) (a : ReadAnswer)
  /-- The sweep over the jobs. -/
  | sweep (env : Env)
  /-- The sweep over the clients. -/
  | sweepClients (env : Env) (takes : List ℕ) (a : ReadAnswer)
  /-- The client is gone. -/
  | closed

/-- Is the job there to be worked on? -/
def live (s : CgiStream) : Bool := s.isOpen && !s.escaped

/-- `setWriting`, unless an exception has left the event. -/
def setWriting (s : CgiStream) : CgiStream :=
  if s.escaped then s else { s with conn := s.conn.setWriting }

/-- `_handleWrite`: the job of a client that has little left to send is pumped. -/
def write (env : Env) (takes : List ℕ) (a : ReadAnswer) (s : CgiStream) : CgiStream :=
  let s := s.drain env takes
  if s.live then
    (if s.conn.writeBuffer.size < cgiStreamLwm then s.pump env a else s).setWriting
  else s

/-- The end of the job with its client. -/
def close (s : CgiStream) : CgiStream := { s with isOpen := false }

/-- Is the client silent for too long?  One that waits for its script is let alone. -/
def expires (env : Env) (s : CgiStream) : Bool :=
  s.conn.state != .cgiRunning && s.conn.isTimedOut s.conn.config.timeoutSeconds env.now

/-- The client's end in `_closeTimedOutClients`: a 408 page, what can be sent, and the
close. -/
def expire (env : Env) (takes : List ℕ) (a : ReadAnswer) (s : CgiStream) : CgiStream :=
  match sendError env 408 s.conn with
  | .bodyLimit c => { s with conn := c, escaped := true }
  | .ok c _ =>
      let page := errorResponse env 408 s.conn.config
      (({ s with conn := c, queued := s.queued ++ page } : CgiStream).write env takes a).close

/-- One event; a client is registered for writing when it is in that state. -/
def step (s : CgiStream) : Event → CgiStream
  | .readable env a => if s.live then s.pump env a else s
  | .writable env takes a => if s.conn.state = .writing then s.write env takes a else s
  | .sweep env => if s.live && s.job.isTimedOut env.now then s.timeOut env else s
  | .sweepClients env takes a => if s.live && s.expires env then s.expire env takes a else s
  | .closed => s.close

/-- A run of events. -/
def run (s : CgiStream) (es : List Event) : CgiStream := es.foldl step s

end CgiStream

/-! ### Queueing -/

/-- The head is queued whole or not at all. -/
theorem flushCgiHeaders_cases (data : Bytes) (sep : ℕ) (req : HttpRequest) (wb : ByteQueue) :
    flushCgiHeaders data sep req wb = .ok (wb.push (cgiResponseHead (data.take sep) req)) () ∨
      ∃ wb', flushCgiHeaders data sep req wb = .bodyLimit wb' := by
  unfold flushCgiHeaders
  generalize cgiResponseHead (data.take sep) req = head
  cases hall : (wb.appendAll [head]).2 with
  | true =>
    rw [appendBlocks_of_true hall, List.flatten_cons, List.flatten_nil, List.append_nil]
    exact Or.inl rfl
  | false => exact Or.inr ⟨_, appendBlocks_of_false hall⟩

/-- There is no room for the zero chunk. -/
def NoRoomToEnd (wb : ByteQueue) : Prop := wb.limit < wb.size + zeroChunk.length

instance (wb : ByteQueue) : Decidable (NoRoomToEnd wb) := inferInstanceAs (Decidable (_ < _))

/-- The zero chunk behind a head, or the exception. -/
theorem failCgiJob_sent {env : Env} {code : ℕ} {c : Connection} {job : CgiJob}
    (h : job.headersSent = true) :
    (¬ NoRoomToEnd c.writeBuffer ∧ ∃ c', failCgiJob env code c job = .ok (c', job) .ended ∧
      c'.writeBuffer = c.writeBuffer.push zeroChunk) ∨
    (NoRoomToEnd c.writeBuffer ∧ failCgiJob env code c job = .bodyLimit (c, job)) := by
  unfold failCgiJob
  rw [if_pos h]
  by_cases hroom : NoRoomToEnd c.writeBuffer
  · right
    have hnone : c.writeBuffer.append zeroChunk = none :=
      Fifo.append_eq_none_iff.mpr ⟨by decide, hroom⟩
    have hall := Fifo.appendAll_singleton_of_none hnone
    rw [queue_refused (by rw [hall]), hall]
    exact ⟨hroom, rfl⟩
  · left
    have hall : c.writeBuffer.appendAll [zeroChunk] = (c.writeBuffer.push zeroChunk, true) := by
      have hfit := Fifo.appendAll_of_fits [zeroChunk] c.writeBuffer
        (by rw [List.flatten_cons, List.flatten_nil, List.append_nil]
            exact Nat.le_of_not_lt hroom)
      rwa [List.flatten_cons, List.flatten_nil, List.append_nil] at hfit
    rw [queue_ok (by rw [hall])]
    exact ⟨hroom, _, rfl, by simp [Connection.setWriting]⟩

/-- The job is over, by its end or by an exception. -/
def Over (job : CgiJob) (r : Outcome (Connection × CgiJob) CgiFate) : Prop :=
  (∃ c, r = .ok (c, job) .ended) ∨ ∃ c, r = .bodyLimit (c, job)

theorem over_failCgiJob (env : Env) (code : ℕ) (c : Connection) (job : CgiJob) :
    Over job (failCgiJob env code c job) := by
  unfold failCgiJob
  split
  · cases c.queue [zeroChunk] with
    | bodyLimit c' => exact Or.inr ⟨c', rfl⟩
    | ok c' _ => exact Or.inl ⟨_, rfl⟩
  · cases sendError env code c with
    | bodyLimit c' => exact Or.inr ⟨c', rfl⟩
    | ok c' _ => exact Or.inl ⟨c'.setWriting, rfl⟩

theorem over_finishCgiJob (env : Env) (c : Connection) (job : CgiJob) :
    Over job (finishCgiJob env c job) := by
  unfold finishCgiJob
  split
  · cases c.queue (if c.request.method = ascii "HEAD" then [] else [zeroChunk]) with
    | bodyLimit c' => exact Or.inr ⟨c', rfl⟩
    | ok c' _ => exact Or.inl ⟨c'.setWriting, rfl⟩
  · cases sendError env 502 c with
    | bodyLimit c' => exact Or.inr ⟨c', rfl⟩
    | ok c' _ => exact Or.inl ⟨c'.setWriting, rfl⟩

/-- The handler ends the job, too. -/
theorem Over.catchBodyLimit {env : Env} {job : CgiJob}
    {r : Outcome (Connection × CgiJob) CgiFate} (h : Over job r) :
    Over job (catchBodyLimit env r) := by
  rcases h with ⟨c, rfl⟩ | ⟨c, rfl⟩
  · exact Or.inl ⟨c, rfl⟩
  · exact over_failCgiJob env 413 c job

namespace CgiStream

/-! ### After the head -/

/-- What no event changes once the head is queued. -/
structure Kept (s s' : CgiStream) : Prop where
  head : s'.head = s.head
  bodyStart : s'.bodyStart = s.bodyStart
  headersSent : s'.job.headersSent = true

/-- `writeChunk` for `d` is refused behind the blocks `done`. -/
structure Refused (wb : ByteQueue) (d : Bytes) (done : List Bytes) : Prop where
  stop : ∃ xs rest, chunkBlocks d = done ++ xs :: rest ∧ (wb.push done.flatten).append xs = none
  fits : done.flatten = [] ∨ wb.size + done.flatten.length ≤ wb.limit

theorem refused_of_false {wb : ByteQueue} {d : Bytes}
    (h : (wb.appendAll (chunkBlocks d)).2 = false) :
    ∃ done, Refused wb d done ∧ (wb.appendAll (chunkBlocks d)).1 = wb.push done.flatten := by
  obtain ⟨done, rest, hblocks, hq, -, hstop⟩ := wb.appendAll_spec (chunkBlocks d)
  obtain ⟨xs, rest', rfl, hnone⟩ := hstop h
  refine ⟨done, ⟨⟨xs, rest', hblocks, hnone⟩, ?_⟩, hq⟩
  rcases Fifo.size_appendAll_le (chunkBlocks d) wb with hsame | hle
  · have hlen := congrArg Fifo.size (hq.symm.trans hsame)
    rw [Fifo.size_push] at hlen
    exact Or.inl (List.length_eq_zero_iff.mp (by omega))
  · rw [hq, Fifo.size_push] at hle
    exact Or.inr hle

/-- What an event does to a stream whose head is queued.  `early` is the event's own
reason to end the job, and `d` is what it has read. -/
inductive SentStep (early : Prop) (d : Bytes) (s s' : CgiStream) : Prop
  | idle : s'.isOpen = true → s'.escaped = false → s'.output = s.output → s'.eof = s.eof →
      s'.queued = s.queued → s'.terminated = s.terminated → SentStep early d s s'
  /-- A whole chunk was queued. -/
  | relayed : s'.isOpen = true → s'.escaped = false → s'.output = s.output ++ d →
      s'.eof = s.eof → s'.queued = s.queued ++ encodeChunk d → s'.terminated = s.terminated →
      SentStep early d s s'
  /-- The end of the output; a HEAD request gets no zero chunk. -/
  | finished (zero : Bool) : s'.isOpen = false → s'.escaped = false → s'.output = s.output →
      s'.eof = true → s'.queued = s.queued ++ (if zero then zeroChunk else []) →
      s'.terminated = (s.terminated || zero) → SentStep early d s s'
  /-- The job is ended early. -/
  | failed : early → ¬ NoRoomToEnd s.conn.writeBuffer → s'.isOpen = false → s'.escaped = false →
      s'.output = s.output → s'.eof = s.eof → s'.queued = s.queued ++ zeroChunk →
      s'.terminated = true → SentStep early d s s'
  /-- The job is ended early because the chunk found no room. -/
  | refused (done : List Bytes) : Refused s.conn.writeBuffer d done →
      ¬ NoRoomToEnd (s.conn.writeBuffer.push done.flatten) → s'.isOpen = false →
      s'.escaped = false → s'.output = s.output ++ d → s'.eof = s.eof →
      s'.queued = s.queued ++ done.flatten ++ zeroChunk → s'.terminated = true →
      SentStep early d s s'
  /-- There was no room for the zero chunk. -/
  | escaped (x : Bytes) (done : List Bytes) :
      done = [] ∨ Refused s.conn.writeBuffer d done → s'.escaped = true →
      s'.output = s.output ++ x → s'.queued = s.queued ++ done.flatten →
      s'.terminated = s.terminated → SentStep early d s s'

/-- `s'` is the record of a stream `s` after a call that read `d`. -/
structure Filed (s : CgiStream) (d : Bytes) (eof : Bool)
    (r : Outcome (Connection × CgiJob) CgiFate) (s' : CgiStream) : Prop where
  isOpen : s'.isOpen = !hasEnded r
  escaped : s'.escaped = r.threw
  output : s'.output = s.output ++ d
  eof : s'.eof = (s.eof || eof)
  queued : ∀ x, r.state.1.writeBuffer = s.conn.writeBuffer.push x → s'.queued = s.queued ++ x
  goesOn : hasEnded r = false → s'.terminated = s.terminated
  ends : ∀ x, r.state.1.writeBuffer = s.conn.writeBuffer.push x → hasEnded r = true →
    r.state.2.headersSent = true → zeroChunk <:+ x → s'.terminated = true

theorem filed_record (s : CgiStream) (d : Bytes) (eof : Bool)
    (r : Outcome (Connection × CgiJob) CgiFate) : Filed s d eof r (s.record d eof r) where
  isOpen := rfl
  escaped := rfl
  output := rfl
  eof := rfl
  queued := by
    intro x hx
    show s.queued ++ r.state.1.writeBuffer.items.drop s.conn.writeBuffer.size = s.queued ++ x
    rw [hx, Fifo.items_push, Fifo.size_eq, List.drop_left]
  goesOn := by
    intro h
    simp [record, h]
  ends := by
    intro x hx hend hsent hsuf
    simp only [record, hend, hsent, hx, Fifo.items_push, Fifo.size_eq, List.drop_left,
      List.isSuffixOf_iff_suffix.mpr hsuf, Bool.and_self, Bool.or_true]

/-- `_failCgiJob` as the event's own doing. -/
theorem sentStep_early {env : Env} {code : ℕ} {s : CgiStream} {d : Bytes} {early : Prop}
    (hsent : s.job.headersSent = true) (hearly : early) :
    SentStep early d s (s.record [] false (failCgiJob env code s.conn s.job)) := by
  have hf := filed_record s [] false (failCgiJob env code s.conn s.job)
  have hout := hf.output.trans (List.append_nil _)
  have heof := hf.eof.trans (Bool.or_false _)
  rcases @failCgiJob_sent env code s.conn _ hsent with
    ⟨hroom, c', hr, hc'⟩ | ⟨-, hr⟩
  · rw [hr] at hf hout heof ⊢
    exact .failed hearly hroom hf.isOpen hf.escaped hout heof (hf.queued _ hc')
      (hf.ends _ hc' rfl hsent List.suffix_rfl)
  · rw [hr] at hf ⊢
    exact .escaped [] [] (Or.inl rfl) hf.escaped hf.output
      (hf.queued [] (Fifo.push_nil _).symm) (hf.goesOn rfl)

/-- `_failCgiJob` behind `done` of the blocks of a chunk. -/
theorem sentStep_refused {env : Env} {code : ℕ} {s s' : CgiStream} {c : Connection}
    {job : CgiJob} {d : Bytes} {done : List Bytes} {early : Prop} (hsent : job.headersSent = true)
    (hc : c.writeBuffer = s.conn.writeBuffer.push done.flatten)
    (href : Refused s.conn.writeBuffer d done)
    (hf : Filed s d false (failCgiJob env code c job) s') : SentStep early d s s' := by
  have heof : s'.eof = s.eof := hf.eof.trans (Bool.or_false _)
  rcases @failCgiJob_sent env code c _ hsent with
    ⟨hroom, c', hr, hc'⟩ | ⟨-, hr⟩
  · rw [hr] at hf
    have hpush : c'.writeBuffer = s.conn.writeBuffer.push (done.flatten ++ zeroChunk) := by
      rw [← Fifo.push_push, ← hc]
      exact hc'
    have hq := hf.queued _ hpush
    rw [← List.append_assoc] at hq
    rw [hc] at hroom
    exact .refused done href hroom hf.isOpen hf.escaped hf.output heof hq
      (hf.ends _ hpush rfl hsent (List.suffix_append _ _))
  · rw [hr] at hf
    exact .escaped d done (Or.inr href) hf.escaped hf.output (hf.queued _ hc) (hf.goesOn rfl)

/-- A block of the body, with the handler of the `try` block. -/
theorem sentStep_relayBody {env : Env} {s s' : CgiStream} {c : Connection} {job : CgiJob}
    {d : Bytes} {early : Prop} (hsent : job.headersSent = true)
    (hc : c.writeBuffer = s.conn.writeBuffer)
    (hf : Filed s d false (catchBodyLimit env (relayBody c job d)) s') :
    SentStep early d s s' := by
  have heof : s'.eof = s.eof := hf.eof.trans (Bool.or_false _)
  cases hall : (c.writeBuffer.appendAll (chunkBlocks d)).2 with
  | true =>
    simp only [relayBody, queue_ok hall, catchBodyLimit] at hf
    have hq := hf.queued (encodeChunk d) (by simp [Connection.setWriting, flatten_chunkBlocks, hc])
    exact .relayed hf.isOpen hf.escaped hf.output heof hq (hf.goesOn rfl)
  | false =>
    -- some blocks of the chunk may be queued when the exception comes
    simp only [relayBody, queue_refused hall, catchBodyLimit] at hf
    obtain ⟨done, href, hq⟩ := refused_of_false hall
    rw [hc] at href
    apply sentStep_refused hsent _ href hf
    show (c.writeBuffer.appendAll (chunkBlocks d)).1 = _
    rw [hq, hc]

/-- The end of the output, with the handler of the `try` block. -/
theorem sentStep_finish {env : Env} {s : CgiStream} {job : CgiJob} {d : Bytes} {early : Prop}
    (hsent : job.headersSent = true) :
    SentStep early d s (s.record [] true (catchBodyLimit env (finishCgiJob env s.conn job))) := by
  have hf := filed_record s [] true (catchBodyLimit env (finishCgiJob env s.conn job))
  have hout := hf.output.trans (List.append_nil _)
  have heof := hf.eof.trans (Bool.or_true _)
  by_cases hhead : s.conn.request.method = ascii "HEAD"
  · -- nothing is queued, and nothing can be refused
    have hr : catchBodyLimit env (finishCgiJob env s.conn job) =
        .ok (s.conn.setWriting, job) .ended := by
      simp only [finishCgiJob, hsent, if_true, hhead]
      rfl
    rw [hr] at hf hout heof ⊢
    refine .finished false hf.isOpen hf.escaped hout heof (hf.queued [] ?_) ?_
    · exact (Fifo.push_nil _).symm
    · have hzero : zeroChunk ≠ [] := by decide
      simp [record, hasEnded, hsent, Connection.setWriting, hzero, Fifo.size_eq]
  · by_cases hroom : NoRoomToEnd s.conn.writeBuffer
    · -- the handler finds no room for the zero chunk either
      have hnone : s.conn.writeBuffer.append zeroChunk = none :=
        Fifo.append_eq_none_iff.mpr ⟨by decide, hroom⟩
      have hall := Fifo.appendAll_singleton_of_none hnone
      have hr : finishCgiJob env s.conn job = .bodyLimit (s.conn, job) := by
        simp only [finishCgiJob, hsent, if_true, hhead, if_false]
        rw [queue_refused (by rw [hall]), hall]
        rfl
      rw [hr] at hf hout ⊢
      rcases @failCgiJob_sent env 413 s.conn _ hsent with
        ⟨hno, -⟩ | ⟨-, hfail⟩
      · exact absurd hroom hno
      · simp only [catchBodyLimit, hfail] at hf hout ⊢
        exact .escaped [] [] (Or.inl rfl) hf.escaped hf.output
          (hf.queued [] (Fifo.push_nil _).symm) (hf.goesOn rfl)
    · have hall : s.conn.writeBuffer.appendAll [zeroChunk] =
          (s.conn.writeBuffer.push zeroChunk, true) := by
        have hfit := Fifo.appendAll_of_fits [zeroChunk] s.conn.writeBuffer
          (by rw [List.flatten_cons, List.flatten_nil, List.append_nil]
              exact Nat.le_of_not_lt hroom)
        rwa [List.flatten_cons, List.flatten_nil, List.append_nil] at hfit
      simp only [finishCgiJob, hsent, if_true, hhead, if_false, queue_ok (by rw [hall]),
        catchBodyLimit] at hf hout heof ⊢
      have hq := hf.queued zeroChunk (by simp [Connection.setWriting])
      have ht := hf.ends zeroChunk (by simp [Connection.setWriting]) rfl hsent List.suffix_rfl
      exact .finished true hf.isOpen hf.escaped hout heof hq (by rw [ht, Bool.or_true])

/-- An event that comes to its `read`. -/
theorem pump_reads {env : Env} {a : ReadAnswer} {s : CgiStream}
    (h : readsPipe s.conn s.job = true) :
    s.pump env a = s.record a.bytes (a == .eof)
      (catchBodyLimit env (cgiTry env s.conn s.job a)) := by
  have hevent : cgiEvent env s.conn s.job a = catchBodyLimit env (cgiTry env s.conn s.job a) := by
    simp only [readsPipe, Bool.and_eq_true, decide_eq_true_eq, Bool.not_eq_true'] at h
    rw [cgiEvent, if_neg (Nat.not_lt.mpr h.1), if_neg (by rw [h.2]; simp)]
  simp [pump, h, hevent]

/-- An event of a pipe that has been read too often. -/
theorem pump_many {env : Env} {a : ReadAnswer} {s : CgiStream}
    (h : limitInternalRecursion < s.job.parentRequest) :
    s.pump env a = s.record [] false (failCgiJob env 502 s.conn s.job) := by
  have hreads : readsPipe s.conn s.job = false := by simp [readsPipe, Nat.not_le.mpr h]
  simp [pump, cgiEvent, hreads, h]

/-- Above the high water mark the pipe is left alone. -/
theorem pump_held {env : Env} {a : ReadAnswer} {s : CgiStream} (hsent : s.job.headersSent = true)
    (h : s.job.parentRequest ≤ limitInternalRecursion)
    (hheld : cgiStreamHwm ≤ s.conn.writeBuffer.size) :
    s.pump env a = s.record [] false (.ok (s.conn, s.job) .wait) := by
  have hreads : readsPipe s.conn s.job = false := by simp [readsPipe, hsent, hheld]
  simp [pump, cgiEvent, hreads, Nat.not_lt.mpr h, hsent, hheld]

/-- Nothing was done. -/
theorem sentStep_wait {early : Prop} {d : Bytes} (s : CgiStream) :
    SentStep early d s (s.record [] false (.ok (s.conn, s.job) .wait)) := by
  have hf := filed_record s [] false (.ok (s.conn, s.job) .wait)
  exact .idle hf.isOpen hf.escaped (hf.output.trans (List.append_nil _))
    (hf.eof.trans (Bool.or_false _))
    ((hf.queued [] (Fifo.push_nil _).symm).trans (List.append_nil _)) (hf.goesOn rfl)

/-- The flag stays with a job that is over, and with one that relays. -/
theorem headersSent_over {job : CgiJob} {r : Outcome (Connection × CgiJob) CgiFate}
    (h : Over job r) : r.state.2.headersSent = job.headersSent := by
  rcases h with ⟨c, rfl⟩ | ⟨c, rfl⟩ <;> rfl

theorem headersSent_relayBody (c : Connection) (job : CgiJob) (d : Bytes) :
    (relayBody c job d).state.2.headersSent = job.headersSent := by
  unfold relayBody
  cases c.queue (chunkBlocks d) <;> rfl

theorem headersSent_catchBodyLimit (env : Env) (r : Outcome (Connection × CgiJob) CgiFate) :
    (catchBodyLimit env r).state.2.headersSent = r.state.2.headersSent := by
  cases r with
  | ok s fate => rfl
  | bodyLimit s => exact headersSent_over (over_failCgiJob env 413 s.1 s.2)

theorem headersSent_cgiEvent {env : Env} {c : Connection} {job : CgiJob} (a : ReadAnswer)
    (h : job.headersSent = true) : (cgiEvent env c job a).state.2.headersSent = true := by
  unfold cgiEvent
  split
  · exact (headersSent_over (over_failCgiJob env 502 c job)).trans h
  · split
    · exact h
    · rw [headersSent_catchBodyLimit]
      cases a with
      | data d =>
        simp only [cgiTry, cgiData, h, if_true]
        exact headersSent_relayBody c _ d
      | eof => exact (headersSent_over (over_finishCgiJob env c _)).trans h
      | again => exact h

theorem kept_record {s : CgiStream} {d : Bytes} {eof : Bool}
    {r : Outcome (Connection × CgiJob) CgiFate} (hs : s.job.headersSent = true)
    (hr : r.state.2.headersSent = true) : Kept s (s.record d eof r) where
  head := by simp [record, hs]
  bodyStart := by simp [record, hs]
  headersSent := hr

theorem kept_pump {env : Env} {a : ReadAnswer} {s : CgiStream} (h : s.job.headersSent = true) :
    Kept s (s.pump env a) :=
  kept_record h (headersSent_cgiEvent a h)

theorem kept_timeOut {env : Env} {s : CgiStream} (h : s.job.headersSent = true) :
    Kept s (s.timeOut env) :=
  kept_record h ((headersSent_over (over_failCgiJob env 504 s.conn s.job)).trans h)

/-- **What an event of the pipe does once the head is queued.** -/
theorem sentStep_pump {env : Env} {a : ReadAnswer} {s : CgiStream}
    (hsent : s.job.headersSent = true) :
    SentStep (limitInternalRecursion < s.job.parentRequest)
      (if readsPipe s.conn s.job then a.bytes else []) s (s.pump env a) := by
  by_cases hmany : limitInternalRecursion < s.job.parentRequest
  · rw [pump_many hmany]
    exact sentStep_early hsent hmany
  · have hfew := Nat.not_lt.mp hmany
    by_cases hheld : cgiStreamHwm ≤ s.conn.writeBuffer.size
    · rw [pump_held hsent hfew hheld]
      exact sentStep_wait s
    · have hreads : readsPipe s.conn s.job = true := by simp [readsPipe, hheld, hfew]
      rw [pump_reads hreads, hreads, if_pos rfl]
      cases a with
      | data d =>
        have hd : cgiTry env s.conn s.job (.data d) =
            relayBody s.conn { s.job with parentRequest := s.job.parentRequest + 1 } d := by
          simp [cgiTry, cgiData, hsent]
        rw [hd]
        apply sentStep_relayBody _ rfl (filed_record s d false _)
        exact hsent
      | eof => exact sentStep_finish hsent
      | again => exact sentStep_wait s

/-- The sweep ends a job whose head is queued. -/
theorem sentStep_timeOut {env : Env} {s : CgiStream} (hsent : s.job.headersSent = true) :
    SentStep True [] s (s.timeOut env) :=
  sentStep_early hsent trivial

/-! ### Before the head -/

/-- The response head for a header block of `n` bytes, `d` being the last piece read. -/
def headFor (s : CgiStream) (d : Bytes) (n : ℕ) : Bytes :=
  cgiResponseHead ((s.job.resultBuffer.items ++ d).take n) s.conn.request

/-- The stream when the head has been queued for the output read so far, `d` being
its last piece and `n` the place where the body begins. -/
def begin (s : CgiStream) (d : Bytes) (n : ℕ) : CgiStream :=
  { s with
    conn := s.conn.setWriteBuffer (s.conn.writeBuffer.push (s.headFor d n))
    job := { s.job with headersSent := true }
    output := (s.job.resultBuffer.items ++ d).take n
    bodyStart := some n
    head := some (s.headFor d n)
    queued := s.queued ++ s.headFor d n }

theorem writeBuffer_begin (s : CgiStream) (d : Bytes) (n : ℕ) :
    (s.begin d n).conn.writeBuffer = s.conn.writeBuffer.push (s.headFor d n) := rfl

theorem queued_begin (s : CgiStream) (d : Bytes) (n : ℕ) :
    (s.begin d n).queued = s.queued ++ s.headFor d n := rfl

/-- What an event does to a stream whose head is not queued. -/
inductive UnsentStep (s : CgiStream) (d : Bytes) (s' : CgiStream) : Prop
  /-- The header block is not complete. -/
  | more : s'.isOpen = true → s'.escaped = false → s'.conn = s.conn →
      s'.job.headersSent = false → s'.job.resultBuffer.items = s.job.resultBuffer.items ++ d →
      findHeaderEnd (s.job.resultBuffer.items ++ d) = none →
      s.job.parentRequest ≤ limitInternalRecursion →
      (d ≠ [] → s'.job.resultBuffer.size ≤ fhls) →
      s'.job.parentRequest = s.job.parentRequest + (if d = [] then 0 else 1) →
      s'.output = s.output ++ d → s'.eof = s.eof → s'.queued = s.queued → s'.head = s.head →
      s'.terminated = s.terminated → s'.bodyStart = none → UnsentStep s d s'
  /-- The job is over without a head. -/
  | failed : s'.isOpen = false ∨ s'.escaped = true → s'.job.headersSent = false →
      s'.output = s.output ++ d → s'.head = s.head →
      s'.bodyStart = findHeaderEnd (s.job.resultBuffer.items ++ d) →
      (d ≠ [] → findHeaderEnd (s.job.resultBuffer.items ++ d) = none →
        fhls < (s.job.resultBuffer.items ++ d).length) →
      UnsentStep s d s'
  /-- The head is queued, and then what was read behind the header block. -/
  | begun (n : ℕ) : s.job.parentRequest ≤ limitInternalRecursion →
      findHeaderEnd (s.job.resultBuffer.items ++ d) = some n →
      SentStep False ((s.job.resultBuffer.items ++ d).drop n) (s.begin d n) s' →
      Kept (s.begin d n) s' → UnsentStep s d s'

theorem unsentStep_over {s : CgiStream} {d : Bytes} {eof : Bool} {job : CgiJob}
    {r : Outcome (Connection × CgiJob) CgiFate} (hs : s.job.headersSent = false)
    (hjob : job.headersSent = false) (h : Over job r)
    (hlong : d ≠ [] → findHeaderEnd (s.job.resultBuffer.items ++ d) = none →
      fhls < (s.job.resultBuffer.items ++ d).length) : UnsentStep s d (s.record d eof r) := by
  rcases h with ⟨c, rfl⟩ | ⟨c, rfl⟩
  · exact .failed (Or.inl rfl) hjob rfl (by simp [record, hs, hjob]) (by simp [record, hs]) hlong
  · exact .failed (Or.inr rfl) hjob rfl (by simp [record, hs, hjob]) (by simp [record, hs]) hlong

/-- The record of a call that queued the head, seen from where the head was queued. -/
theorem filed_begin {s : CgiStream} {d : Bytes} {n : ℕ}
    {r r' : Outcome (Connection × CgiJob) CgiFate} (hout : s.output = s.job.resultBuffer.items)
    (hend : hasEnded r = hasEnded r') (hthrew : r.threw = r'.threw)
    (hwb : r.state.1.writeBuffer = r'.state.1.writeBuffer)
    (hsent : r.state.2.headersSent = r'.state.2.headersSent) :
    Filed (s.begin d n) ((s.job.resultBuffer.items ++ d).drop n) false r' (s.record d false r) where
  isOpen := by rw [← hend]; rfl
  escaped := by rw [← hthrew]; rfl
  output := by
    show s.output ++ d = (s.job.resultBuffer.items ++ d).take n ++ _
    rw [List.take_append_drop, hout]
  eof := rfl
  queued := by
    intro x hx
    rw [← hwb, writeBuffer_begin, Fifo.push_push] at hx
    rw [(filed_record s d false r).queued _ hx, queued_begin, List.append_assoc]
  goesOn := by
    intro h
    exact (filed_record s d false r).goesOn (hend.trans h)
  ends := by
    intro x hx hended hs hsuf
    rw [← hwb, writeBuffer_begin, Fifo.push_push] at hx
    exact (filed_record s d false r).ends _ hx (hend.trans hended) (hsent.trans hs)
      (hsuf.trans (List.suffix_append _ _))

/-- What was read behind the header block, with the handler of the `try` block. -/
theorem sentStep_relayLeftover {env : Env} {s : CgiStream} {d : Bytes} {c : Connection}
    {job : CgiJob} {n : ℕ} (hsent : job.headersSent = true)
    (hout : s.output = s.job.resultBuffer.items)
    (hbuf : job.resultBuffer.items = s.job.resultBuffer.items ++ d)
    (hc : c.writeBuffer = (s.begin d n).conn.writeBuffer) :
    SentStep False ((s.job.resultBuffer.items ++ d).drop n) (s.begin d n)
        (s.record d false (catchBodyLimit env (relayLeftover c job n))) ∧
      (catchBodyLimit env (relayLeftover c job n)).state.2.headersSent = true := by
  have hstep : ∀ {s'}, Filed (s.begin d n) (job.resultBuffer.items.drop n) false
      (catchBodyLimit env (relayBody c job (job.resultBuffer.items.drop n))) s' →
        SentStep False (job.resultBuffer.items.drop n) (s.begin d n) s' := fun hf =>
          sentStep_relayBody hsent hc hf
  rw [hbuf] at hstep
  unfold relayLeftover
  rw [hbuf]
  cases hbody : relayBody c job ((s.job.resultBuffer.items ++ d).drop n) with
  | bodyLimit q =>
    rw [hbody] at hstep
    have hq : q.2 = job := by
      rw [relayBody] at hbody
      split at hbody
      · injection hbody with hbody
        rw [← hbody]
      · simp at hbody
    have hfail : (failCgiJob env 413 q.1 q.2).state.2 = q.2 := by
      rcases over_failCgiJob env 413 q.1 q.2 with ⟨c', h⟩ | ⟨c', h⟩ <;> rw [h] <;> rfl
    refine ⟨hstep (filed_begin hout rfl rfl rfl rfl), ?_⟩
    show (failCgiJob env 413 q.1 q.2).state.2.headersSent = true
    rw [hfail, hq, hsent]
  | ok q fate =>
    rw [hbody] at hstep
    have hq : q.2.headersSent = job.headersSent := by
      rw [relayBody] at hbody
      split at hbody
      · simp at hbody
      · injection hbody with hbody
        rw [← hbody]
    refine ⟨hstep (filed_begin hout ?_ rfl rfl rfl), hq.trans hsent⟩
    cases fate <;> rfl

theorem kept_begin {s : CgiStream} {d : Bytes} {n : ℕ}
    {r : Outcome (Connection × CgiJob) CgiFate} (hs : s.job.headersSent = false)
    (hn : findHeaderEnd (s.job.resultBuffer.items ++ d) = some n)
    (hr : r.state.2.headersSent = true) : Kept (s.begin d n) (s.record d false r) where
  head := by simp [record, begin, headFor, hs, hr, hn]
  bodyStart := by simp [record, begin, hs, hn]
  headersSent := hr

/-- The head and what was read behind the header block. -/
theorem unsentStep_relayHead {env : Env} {s : CgiStream} {d : Bytes} {job : CgiJob} {n : ℕ}
    (hs : s.job.headersSent = false) (hmany : s.job.parentRequest ≤ limitInternalRecursion)
    (hjob : job.headersSent = false)
    (hbuf : job.resultBuffer.items = s.job.resultBuffer.items ++ d)
    (hn : findHeaderEnd (s.job.resultBuffer.items ++ d) = some n)
    (hout : s.output = s.job.resultBuffer.items) :
    UnsentStep s d (s.record d false (catchBodyLimit env (relayHead s.conn job n))) := by
  unfold relayHead
  rw [hbuf]
  rcases flushCgiHeaders_cases (s.job.resultBuffer.items ++ d) n s.conn.request
    s.conn.writeBuffer with hflush | ⟨wb, hflush⟩
  · rw [hflush]
    obtain ⟨hstep, hr⟩ := @sentStep_relayLeftover env s d
      (s.conn.setWriteBuffer (s.conn.writeBuffer.push (s.headFor d n)))
      { job with headersSent := true } n rfl hout hbuf rfl
    exact .begun n hmany hn hstep (kept_begin hs hn hr)
  · rw [hflush]
    exact unsentStep_over hs hjob (over_failCgiJob env 413 _ job) fun _ h => by simp [hn] at h

/-- The pipe had nothing. -/
theorem unsentStep_again {s : CgiStream} (hs : s.job.headersSent = false)
    (hnone : findHeaderEnd s.job.resultBuffer.items = none)
    (hmany : s.job.parentRequest ≤ limitInternalRecursion) :
    UnsentStep s [] (s.record [] false (.ok (s.conn, s.job) .wait)) := by
  have hf := filed_record s [] false (.ok (s.conn, s.job) .wait)
  have hnone' : findHeaderEnd (s.job.resultBuffer.items ++ []) = none := by
    rwa [List.append_nil]
  exact .more hf.isOpen hf.escaped rfl hs (List.append_nil _).symm hnone' hmany
    (fun h => absurd rfl h) rfl hf.output (hf.eof.trans (Bool.or_false _))
    ((hf.queued [] (Fifo.push_nil _).symm).trans (List.append_nil _))
    (by simp [record, hs]) (hf.goesOn rfl) (by simp [record, hs, hnone])

/-- A piece of the header block, or its end. -/
theorem unsentStep_data {env : Env} {s : CgiStream} {d : Bytes} (hs : s.job.headersSent = false)
    (hout : s.output = s.job.resultBuffer.items) (hbuf : s.job.resultBuffer.size ≤ fhls)
    (hmany : s.job.parentRequest ≤ limitInternalRecursion) (hd : d ≠ [])
    (hlen : d.length ≤ 60 * 1024) :
    UnsentStep s d (s.record d false (catchBodyLimit env (cgiData env s.conn s.job d))) := by
  have hsize : ¬ s.job.resultBuffer.size + d.length > limitRequestBody := by
    unfold fhls at hbuf
    unfold limitRequestBody
    omega
  have hpush : appendResult s.job.resultBuffer d = some (s.job.resultBuffer.push d) := by
    rw [appendResult, if_neg hd, if_neg hsize]
  simp only [cgiData, hs, Bool.false_eq_true, if_false, hpush]
  cases hn : findHeaderEnd (s.job.resultBuffer.push d).items with
  | none =>
    by_cases hlong : (s.job.resultBuffer.push d).size > fhls
    · simp only [hlong, if_true]
      refine unsentStep_over hs rfl (over_failCgiJob env 502 s.conn _).catchBodyLimit ?_
      exact fun _ _ => hlong
    · simp only [hlong, if_false, catchBodyLimit]
      exact .more rfl rfl rfl rfl rfl hn hmany (fun _ => Nat.not_lt.mp hlong)
        (by rw [if_neg hd]; rfl)
        rfl (Bool.or_false _) ((filed_record s d false _).queued [] (Fifo.push_nil _).symm
          |>.trans (List.append_nil _)) (by simp [record, hs])
            ((filed_record s d false _).goesOn rfl)
        (by simpa [record, hs] using hn)
  | some n => exact unsentStep_relayHead hs hmany rfl rfl hn hout

/-- **What an event of the pipe does before the head is queued.** -/
theorem unsentStep_pump {env : Env} {a : ReadAnswer} {s : CgiStream}
    (hs : s.job.headersSent = false) (hout : s.output = s.job.resultBuffer.items)
    (hnone : findHeaderEnd s.job.resultBuffer.items = none)
    (hbuf : s.job.resultBuffer.size ≤ fhls) (ha : a.WellFormed) :
    UnsentStep s (if readsPipe s.conn s.job then a.bytes else []) (s.pump env a) := by
  by_cases hmany : limitInternalRecursion < s.job.parentRequest
  · have hreads : readsPipe s.conn s.job = false := by simp [readsPipe, Nat.not_le.mpr hmany]
    rw [pump_many hmany, hreads]
    exact unsentStep_over hs hs (over_failCgiJob env 502 s.conn s.job) fun h => absurd rfl h
  · have hfew := Nat.not_lt.mp hmany
    have hreads : readsPipe s.conn s.job = true := by simp [readsPipe, hs, hfew]
    rw [pump_reads hreads, hreads, if_pos rfl]
    cases a with
    | eof =>
      exact unsentStep_over hs (by exact hs) (over_finishCgiJob env s.conn _).catchBodyLimit
        fun h => absurd rfl h
    | again => exact unsentStep_again hs hnone hfew
    | data d => exact unsentStep_data hs hout hbuf hfew ha.1 ha.2

/-! ### The stream while it lasts -/

/-- The head `h` is queued for a header block of `n` bytes, and behind it the output
after the header block, in chunks. -/
structure Relays (s : CgiStream) (h : Bytes) (n : ℕ) : Prop where
  head : s.head = some h
  bodyStart : s.bodyStart = some n
  headersSent : s.job.headersSent = true
  eof : s.eof = false
  terminated : s.terminated = false
  le : n ≤ s.output.length
  body : ∃ blocks : List Bytes, s.queued = h ++ (blocks.map encodeChunk).flatten ∧
    blocks.flatten = s.output.drop n

/-- The header block is not complete, and nothing is queued. -/
structure Waits (s : CgiStream) : Prop where
  state : s.conn.state = .cgiRunning
  head : s.head = none
  bodyStart : s.bodyStart = none
  headersSent : s.job.headersSent = false
  eof : s.eof = false
  terminated : s.terminated = false
  output : s.output = s.job.resultBuffer.items
  queued : s.queued = []
  noEnd : findHeaderEnd s.job.resultBuffer.items = none
  size : s.job.resultBuffer.size ≤ fhls

/-- A job that was just started waits. -/
theorem waits_start {c : Connection} {clientFd resultFd maxSize now : ℕ} {timeout : ℤ} :
    Waits (start c (CgiJob.new clientFd resultFd maxSize timeout now)) where
  state := rfl
  head := rfl
  bodyStart := rfl
  headersSent := rfl
  eof := rfl
  terminated := rfl
  output := rfl
  queued := rfl
  noEnd := rfl
  size := Nat.zero_le _

/-- A piece that does not complete the header block keeps the job waiting. -/
theorem Waits.more {s s' : CgiStream} {d : Bytes} (hs : Waits s) (hconn : s'.conn = s.conn)
    (hsent : s'.job.headersSent = false)
    (hbuf : s'.job.resultBuffer.items = s.job.resultBuffer.items ++ d)
    (hnone : findHeaderEnd (s.job.resultBuffer.items ++ d) = none)
    (hsize : d ≠ [] → s'.job.resultBuffer.size ≤ fhls) (hout : s'.output = s.output ++ d)
    (heof : s'.eof = s.eof) (hq : s'.queued = s.queued) (hhead : s'.head = s.head)
    (ht : s'.terminated = s.terminated) (hstart : s'.bodyStart = none) : Waits s' where
  state := hconn ▸ hs.state
  head := hhead.trans hs.head
  bodyStart := hstart
  headersSent := hsent
  eof := heof.trans hs.eof
  terminated := ht.trans hs.terminated
  output := by rw [hout, hbuf, hs.output]
  queued := hq.trans hs.queued
  noEnd := by rwa [hbuf]
  size := by
    by_cases hd : d = []
    · have hsz : s'.job.resultBuffer.size = s.job.resultBuffer.size := by
        rw [Fifo.size_eq, hbuf, hd, List.append_nil, Fifo.size_eq]
      exact hsz ▸ hs.size
    · exact hsize hd

theorem relays_begin {s : CgiStream} {d : Bytes} {n : ℕ} (hs : Waits s)
    (hle : n ≤ (s.job.resultBuffer.items ++ d).length) :
    Relays (s.begin d n) (s.headFor d n) n where
  head := rfl
  bodyStart := rfl
  headersSent := rfl
  eof := hs.eof
  terminated := hs.terminated
  le := by
    show n ≤ ((s.job.resultBuffer.items ++ d).take n).length
    rw [List.length_take, Nat.min_eq_left hle]
  body := by
    refine ⟨[], ?_, ?_⟩
    · rw [queued_begin, hs.queued, List.nil_append]
      exact (List.append_nil _).symm
    · exact (List.drop_eq_nil_of_le (List.length_take_le n _)).symm

/-- **A stream that goes on still relays.** -/
theorem Relays.step {early : Prop} {d : Bytes} {s s' : CgiStream} {h : Bytes} {n : ℕ}
    (hs : Relays s h n) (hstep : SentStep early d s s') (hkept : Kept s s')
      (hopen : s'.isOpen = true)
    (hesc : s'.escaped = false) : Relays s' h n := by
  obtain ⟨blocks, hq, hblocks⟩ := hs.body
  have frame : ∀ {out : Bytes} {more : List Bytes}, s'.output = s.output ++ out →
      s'.eof = s.eof → s'.queued = s.queued ++ (more.map encodeChunk).flatten →
        s'.terminated = s.terminated → more.flatten = out → Relays s' h n := by
    intro out more hout heof hq' ht hmore
    refine ⟨hkept.head.trans hs.head, hkept.bodyStart.trans hs.bodyStart, hkept.headersSent,
      heof.trans hs.eof, ht.trans hs.terminated, ?_, blocks ++ more, ?_, ?_⟩
    · rw [hout, List.length_append]
      exact Nat.le_trans hs.le (Nat.le_add_right _ _)
    · rw [hq', hq, List.append_assoc, List.map_append, List.flatten_append]
    · rw [hout, List.drop_append_of_le_length hs.le, List.flatten_append, hblocks, hmore]
  cases hstep with
  | idle _ _ hout heof hq' ht =>
    exact @frame [] [] (hout.trans (List.append_nil _).symm) heof
      (hq'.trans (List.append_nil _).symm) ht rfl
  | relayed _ _ hout heof hq' ht =>
    refine @frame d [d] hout heof ?_ ht ?_
    · rw [hq', List.map_cons, List.map_nil, List.flatten_cons, List.flatten_nil, List.append_nil]
    · rw [List.flatten_cons, List.flatten_nil, List.append_nil]
  | finished _ hcl => rw [hopen] at hcl; simp at hcl
  | failed _ _ hcl => rw [hopen] at hcl; simp at hcl
  | refused _ _ _ hcl => rw [hopen] at hcl; simp at hcl
  | escaped _ _ _ hx => rw [hesc] at hx; simp at hx

/-- What the chunks carry is the output behind the header block. -/
theorem Relays.chunks {s : CgiStream} {h : Bytes} {n : ℕ} (hs : Relays s h n) :
    ∃ body, s.queued = h ++ body ∧ Chunks Crlf body (s.output.drop n) := by
  obtain ⟨blocks, hq, hblocks⟩ := hs.body
  exact ⟨_, hq, hblocks ▸ chunks_encodeChunks blocks fun _ _ => rfl⟩

end CgiStream

end Webserv
