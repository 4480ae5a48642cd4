import Webserv.Cgi.HeaderSplit
import Webserv.Lib.Run

/-!
# The frame of a relayed body

What is queued behind the response head has to be whole chunks, and it may be the
zero chunk behind them, at every moment of every run of the events of a job.  It is
not so in every run: `writeChunk` appends a size line, the data and a line end one
after another, each of them may be refused, and the handler then appends the zero
chunk.  It is so in the runs in which every chunk finds room for all of it or not
even for its size line.

## Main results

* `called_step` — what an event at the pipe does to a job that waits or relays.
* `writeChunk_whole_iff` — when a chunk is queued whole or not at all.
* `wellFramed_run` — the runs that keep the body well framed.
-/

namespace Webserv

open Bytes ChunkedCoding

namespace CgiStream

/-! ### Events and the pipe -/

/-- The `read` returns at most the 60 KiB it was asked for. -/
def Event.WellFormed : Event → Prop
  | .readable _ a => a.WellFormed
  | .writable _ _ a => a.WellFormed
  | .sweep _ => True
  | .sweepClients _ _ a => a.WellFormed
  | .closed => True

/-- The stream in which an event comes to the pipe of a live job, and the answer it
gets there; the sweep over the clients is apart. -/
def atPipe (s : CgiStream) : Event → Option (CgiStream × ReadAnswer)
  | .readable _ a => if s.live then some (s, a) else none
  | .writable env takes a =>
      if s.conn.state = .writing ∧ s.live ∧
          (s.drain env takes).conn.writeBuffer.size < cgiStreamLwm then
        some (s.drain env takes, a)
      else none
  | .sweep _ => none
  | .sweepClients _ _ _ => none
  | .closed => none

/-- The call of `writeChunk` that an answer of the pipe leads to: the write buffer it
finds, and its data. -/
def chunkWrite (s : CgiStream) : ReadAnswer → Option (ByteQueue × Bytes)
  | .data d =>
      if !readsPipe s.conn s.job then none
      else if s.job.headersSent then some (s.conn.writeBuffer, d)
      else
        (findHeaderEnd (s.job.resultBuffer.items ++ d)).map fun n =>
          (s.conn.writeBuffer.push (s.headFor d n), (s.job.resultBuffer.items ++ d).drop n)
  | .eof => none
  | .again => none

/-- Another state of the client, or the end of the job, without a change of the record. -/
structure Quiet (s s' : CgiStream) : Prop where
  live : s'.live = true → s.live = true
  conn : s'.live = true → s.conn.state ≠ .writing → s'.conn = s.conn
  job : s'.job = s.job
  output : s'.output = s.output
  eof : s'.eof = s.eof
  bodyStart : s'.bodyStart = s.bodyStart
  head : s'.head = s.head
  queued : s'.queued = s.queued
  terminated : s'.terminated = s.terminated

theorem Quiet.refl (s : CgiStream) : Quiet s s :=
  ⟨id, fun _ _ => rfl, rfl, rfl, rfl, rfl, rfl, rfl, rfl⟩

theorem quiet_drain {s : CgiStream} (env : Env) (takes : List ℕ) (h : s.conn.state = .writing) :
    Quiet s (s.drain env takes) :=
  ⟨id, fun _ hne => absurd h hne, rfl, rfl, rfl, rfl, rfl, rfl, rfl⟩

/-- What is over stays so. -/
theorem quiet_over {s : CgiStream} {c : Connection} {o x : Bool} (h : (o && !x) = false) :
    Quiet s { s with conn := c, isOpen := o, escaped := x } := by
  have hover : ({ s with conn := c, isOpen := o, escaped := x } : CgiStream).live = false := h
  refine ⟨?_, ?_, rfl, rfl, rfl, rfl, rfl, rfl, rfl⟩
  · intro hl
    rw [hover] at hl
    simp at hl
  · intro hl
    rw [hover] at hl
    simp at hl

theorem setWriting_cases (s : CgiStream) : ∃ c, s.setWriting = { s with conn := c } := by
  unfold setWriting
  split
  · exact ⟨s.conn, rfl⟩
  · exact ⟨s.conn.setWriting, rfl⟩

theorem Waits.quiet {s s' : CgiStream} (h : Waits s) (hq : Quiet s s') (hl : s'.live = true) :
    Waits s' where
  state := by
    rw [hq.conn hl (by rw [h.state]; decide)]
    exact h.state
  head := hq.head.trans h.head
  bodyStart := hq.bodyStart.trans h.bodyStart
  headersSent := hq.job ▸ h.headersSent
  eof := hq.eof.trans h.eof
  terminated := hq.terminated.trans h.terminated
  output := by rw [hq.output, hq.job, h.output]
  queued := hq.queued.trans h.queued
  noEnd := hq.job ▸ h.noEnd
  size := hq.job ▸ h.size

theorem Relays.quiet {s s' : CgiStream} {h : Bytes} {n : ℕ} (hr : Relays s h n)
    (hq : Quiet s s') : Relays s' h n where
  head := hq.head.trans hr.head
  bodyStart := hq.bodyStart.trans hr.bodyStart
  headersSent := hq.job ▸ hr.headersSent
  eof := hq.eof.trans hr.eof
  terminated := hq.terminated.trans hr.terminated
  le := hq.output ▸ hr.le
  body := by
    rw [hq.queued, hq.output]
    exact hr.body

theorem Relays.of_quiet {s s' : CgiStream} {h : Bytes} {n : ℕ} (hr : Relays s' h n)
    (hq : Quiet s s') : Relays s h n where
  head := hq.head ▸ hr.head
  bodyStart := hq.bodyStart ▸ hr.bodyStart
  headersSent := hq.job ▸ hr.headersSent
  eof := hq.eof ▸ hr.eof
  terminated := hq.terminated ▸ hr.terminated
  le := hq.output ▸ hr.le
  body := by
    rw [← hq.queued, ← hq.output]
    exact hr.body

/-- A live job waits for its header block or relays. -/
def Consistent (s : CgiStream) : Prop := s.live = true → Waits s ∨ ∃ h n, Relays s h n

theorem Consistent.quiet {s s' : CgiStream} (hs : Consistent s) (hq : Quiet s s') :
    Consistent s' := by
  intro hl
  rcases hs (hq.live hl) with h | ⟨h, n, hr⟩
  · exact Or.inl (h.quiet hq hl)
  · exact Or.inr ⟨h, n, hr.quiet hq⟩

/-- An event that does not come to the pipe is quiet, but for the two sweeps. -/
theorem quiet_of_atPipe {s : CgiStream} {ev : Event} (h : s.atPipe ev = none) :
    Quiet s (s.step ev) ∨
    (∃ env, ev = .sweep env ∧ s.live = true ∧ s.job.isTimedOut env.now = true ∧
      s.step ev = s.timeOut env) ∨
    ∃ env takes a, ev = .sweepClients env takes a ∧ s.live = true ∧ s.expires env = true ∧
      s.step ev = s.expire env takes a := by
  cases ev with
  | readable env a =>
    rw [step, if_neg (by simpa [atPipe] using h)]
    exact Or.inl (Quiet.refl s)
  | writable env takes a =>
    left
    rw [step]
    split
    · next hw =>
      simp only [write]
      split
      · next hl =>
        -- it did not come to the pipe, so there is enough left to send
        have hhigh : ¬ (s.drain env takes).conn.writeBuffer.size < cgiStreamLwm := by
          intro hlow
          simp [atPipe, hw, hlow, show s.live = true from hl] at h
        rw [if_neg hhigh]
        obtain ⟨c, hc⟩ := setWriting_cases (s.drain env takes)
        rw [hc]
        exact ⟨id, fun _ hne => absurd hw hne, rfl, rfl, rfl, rfl, rfl, rfl, rfl⟩
      · exact quiet_drain env takes hw
    · exact Quiet.refl s
  | sweep env =>
    rw [step]
    split
    · next hl =>
      rw [Bool.and_eq_true] at hl
      exact Or.inr (Or.inl ⟨env, rfl, hl.1, hl.2, rfl⟩)
    · exact Or.inl (Quiet.refl s)
  | sweepClients env takes a =>
    rw [step]
    split
    · next hl =>
      rw [Bool.and_eq_true] at hl
      exact Or.inr (Or.inr ⟨env, takes, a, rfl, hl.1, hl.2, rfl⟩)
    · exact Or.inl (Quiet.refl s)
  | closed => exact Or.inl (quiet_over (Bool.false_and _))

/-- An event at the pipe is `_handleCgiEvent`, and `setWriting` behind it for a client
that was writing. -/
theorem step_of_atPipe {s t : CgiStream} {ev : Event} {a : ReadAnswer}
    (h : s.atPipe ev = some (t, a)) :
    s.live = true ∧ t.live = true ∧ Quiet s t ∧ (ev.WellFormed → a.WellFormed) ∧
      ∃ env, s.step ev = t.pump env a ∨
        (s.conn.state = .writing ∧ s.step ev = (t.pump env a).setWriting) := by
  cases ev with
  | readable env a' =>
    simp only [atPipe] at h
    split at h
    · next hl =>
      simp only [Option.some.injEq, Prod.mk.injEq] at h
      obtain ⟨rfl, rfl⟩ := h
      exact ⟨hl, hl, Quiet.refl s, id, env, Or.inl (if_pos hl)⟩
    · simp at h
  | writable env takes a' =>
    simp only [atPipe] at h
    split at h
    · next hc =>
      obtain ⟨hw, hl, hlow⟩ := hc
      simp only [Option.some.injEq, Prod.mk.injEq] at h
      obtain ⟨rfl, rfl⟩ := h
      have hl' : (s.drain env takes).live = true := hl
      refine ⟨hl, hl', quiet_drain env takes hw, id, env, Or.inr ⟨hw, ?_⟩⟩
      rw [step, if_pos hw]
      simp only [write, hl', if_true, hlow]
    · simp at h
  | sweep env => simp [atPipe] at h
  | sweepClients env takes a' => simp [atPipe] at h
  | closed => simp [atPipe] at h

/-! ### What an event at the pipe leads to -/

theorem SentStep.mono {why early : Prop} {d : Bytes} {s s' : CgiStream} (hw : why → early)
    (h : SentStep why d s s') : SentStep early d s s' := by
  cases h with
  | idle h₁ h₂ h₃ h₄ h₅ h₆ => exact .idle h₁ h₂ h₃ h₄ h₅ h₆
  | relayed h₁ h₂ h₃ h₄ h₅ h₆ => exact .relayed h₁ h₂ h₃ h₄ h₅ h₆
  | finished z h₁ h₂ h₃ h₄ h₅ h₆ => exact .finished z h₁ h₂ h₃ h₄ h₅ h₆
  | failed hwhy h₁ h₂ h₃ h₄ h₅ h₆ h₇ => exact .failed (hw hwhy) h₁ h₂ h₃ h₄ h₅ h₆ h₇
  | refused done h₁ h₂ h₃ h₄ h₅ h₆ h₇ h₈ => exact .refused done h₁ h₂ h₃ h₄ h₅ h₆ h₇ h₈
  | escaped x done h₁ h₂ h₃ h₄ h₅ => exact .escaped x done h₁ h₂ h₃ h₄ h₅

/-- The state of the client is no part of a step. -/
theorem SentStep.withConn {early : Prop} {d : Bytes} {s s' : CgiStream} (c : Connection)
    (h : SentStep early d s s') : SentStep early d s { s' with conn := c } := by
  cases h with
  | idle h₁ h₂ h₃ h₄ h₅ h₆ => exact .idle h₁ h₂ h₃ h₄ h₅ h₆
  | relayed h₁ h₂ h₃ h₄ h₅ h₆ => exact .relayed h₁ h₂ h₃ h₄ h₅ h₆
  | finished z h₁ h₂ h₃ h₄ h₅ h₆ => exact .finished z h₁ h₂ h₃ h₄ h₅ h₆
  | failed h₀ h₁ h₂ h₃ h₄ h₅ h₆ h₇ => exact .failed h₀ h₁ h₂ h₃ h₄ h₅ h₆ h₇
  | refused done h₁ h₂ h₃ h₄ h₅ h₆ h₇ h₈ => exact .refused done h₁ h₂ h₃ h₄ h₅ h₆ h₇ h₈
  | escaped x done h₁ h₂ h₃ h₄ h₅ => exact .escaped x done h₁ h₂ h₃ h₄ h₅

/-- What an event at the pipe of a live job leads to: the job waits, it is over without
a head, or a stream `m` that relays has made a step.  `m` is the stream itself, or what
it has become by queueing the head. -/
inductive Called (t : CgiStream) (a : ReadAnswer) (s' : CgiStream) : Prop
  | waits : Waits s' → Called t a s'
  | gone : s'.live = false → s'.head = none → Called t a s'
  | relayed (m : CgiStream) (h : Bytes) (n : ℕ) (d : Bytes) : Relays m h n →
      SentStep (t.job.headersSent = true ∧ limitInternalRecursion < t.job.parentRequest) d m s' →
      Kept m s' → (d ≠ [] → t.chunkWrite a = some (m.conn.writeBuffer, d)) →
      (m = t ∨ ∃ p, a = .data p ∧ readsPipe t.conn t.job = true ∧ Waits t ∧
        findHeaderEnd (t.job.resultBuffer.items ++ p) = some n ∧ m = t.begin p n) →
      Called t a s'

/-- A job that waits. -/
theorem Waits.called {env : Env} {t : CgiStream} {a : ReadAnswer} (ht : Waits t)
    (ha : a.WellFormed) : Called t a (t.pump env a) := by
  cases @unsentStep_pump env _ _ ht.headersSent ht.output ht.noEnd ht.size ha with
  | more _ _ hconn hsent hbuf hnone _ hsize _ hout heof hq hhead hterm hstart =>
    exact .waits (ht.more hconn hsent hbuf hnone hsize hout heof hq hhead hterm hstart)
  | failed hover _ _ hhead =>
    refine .gone ?_ (hhead.trans ht.head)
    rcases hover with h | h <;> simp [live, h]
  | begun n hfew hn hstep hkept =>
    have hreads : readsPipe t.conn t.job = true := by simp [readsPipe, ht.headersSent, hfew]
    rw [hreads, if_pos rfl] at hn hstep hkept
    cases a with
    | data p =>
      refine .relayed _ _ n _ (relays_begin ht (blankLineAt_of_findHeaderEnd hn).le_length)
        (hstep.mono False.elim) hkept ?_ (Or.inr ⟨p, rfl, hreads, ht, hn, rfl⟩)
      intro _
      simp only [ReadAnswer.bytes] at hn ⊢
      simp [chunkWrite, hreads, ht.headersSent, hn, writeBuffer_begin]
    | eof =>
      -- nothing new was read, so there is no header block to end
      rw [show (ReadAnswer.eof).bytes = [] from rfl, List.append_nil, ht.noEnd] at hn
      simp at hn
    | again =>
      rw [show (ReadAnswer.again).bytes = [] from rfl, List.append_nil, ht.noEnd] at hn
      simp at hn

/-- A job that relays. -/
theorem Relays.called {env : Env} {t : CgiStream} {a : ReadAnswer} {h : Bytes} {n : ℕ}
    (ht : Relays t h n) (c : Option Connection) :
    Called t a { t.pump env a with conn := c.getD (t.pump env a).conn } := by
  have hkept := @kept_pump env a t ht.headersSent
  refine .relayed t h n _ ht
    (((sentStep_pump ht.headersSent).mono fun hm => ⟨ht.headersSent, hm⟩).withConn _)
    ⟨hkept.head, hkept.bodyStart, hkept.headersSent⟩ ?_ (Or.inl rfl)
  intro hne
  cases hreads : readsPipe t.conn t.job with
  | false =>
    rw [hreads] at hne
    exact absurd rfl hne
  | true =>
    rw [hreads, if_pos rfl] at hne
    cases a with
    | data p => simp [chunkWrite, hreads, ht.headersSent, ReadAnswer.bytes]
    | eof => exact absurd rfl hne
    | again => exact absurd rfl hne

/-- **What an event at the pipe leads to.** -/
theorem called_step {s t : CgiStream} {ev : Event} {a : ReadAnswer} (hs : Consistent s)
    (hev : ev.WellFormed) (h : s.atPipe ev = some (t, a)) : Called t a (s.step ev) := by
  obtain ⟨hl, hlt, hq, hwf, env, hstep⟩ := step_of_atPipe h
  rcases hs hl with hw | ⟨hd, n, hr⟩
  · rcases hstep with hstep | ⟨hwriting, -⟩
    · rw [hstep]
      exact (hw.quiet hq hlt).called (hwf hev)
    · rw [hw.state] at hwriting
      exact absurd hwriting (by decide)
  · have ht := hr.quiet hq
    rcases hstep with hstep | ⟨-, hstep⟩
    · rw [hstep]
      exact ht.called none
    · obtain ⟨c, hc⟩ := setWriting_cases (t.pump env a)
      rw [hstep, hc]
      exact ht.called (some c)

theorem Called.consistent {t s' : CgiStream} {a : ReadAnswer} (h : Called t a s') :
    Consistent s' := by
  intro hl
  cases h with
  | waits hw => exact Or.inl hw
  | gone hover =>
    rw [hover] at hl
    simp at hl
  | relayed m hd n d hm hstep hkept =>
    have hlive := live_iff.mp hl
    exact Or.inr ⟨hd, n, hm.step hstep hkept hlive.1 hlive.2⟩

/-- The sweep over the jobs ends the job. -/
theorem live_timeOut (env : Env) (s : CgiStream) : (s.timeOut env).live = false := by
  rcases over_failCgiJob env 504 s.conn s.job with ⟨c, h⟩ | ⟨c, h⟩
  · simp [timeOut, record, live, hasEnded, h]
  · simp [timeOut, record, live, Outcome.threw, h]

/-- So does the sweep over the clients. -/
theorem live_expire (env : Env) (takes : List ℕ) (a : ReadAnswer) (s : CgiStream) :
    (s.expire env takes a).live = false := by
  unfold expire
  split
  · simp [live]
  · simp [live, close]

/-- A job that waits is over without a head. -/
theorem Waits.head_timeOut {env : Env} {s : CgiStream} (h : Waits s) :
    (s.timeOut env).head = none := by
  rcases over_failCgiJob env 504 s.conn s.job with ⟨c, hr⟩ | ⟨c, hr⟩
  · simp [timeOut, record, hr, h.headersSent, h.head]
  · simp [timeOut, record, hr, h.headersSent, h.head]

/-- **A live job waits or relays**, in every state that is reached. -/
theorem Consistent.step {s : CgiStream} {ev : Event} (hs : Consistent s) (hev : ev.WellFormed) :
    Consistent (s.step ev) := by
  cases hp : s.atPipe ev with
  | some ta => exact (called_step hs hev hp).consistent
  | none =>
    rcases quiet_of_atPipe hp with hq | ⟨env, -, -, -, hstep⟩ | ⟨env, takes, a, -, -, -, hstep⟩
    · exact hs.quiet hq
    · intro hl
      rw [hstep, live_timeOut] at hl
      simp at hl
    · intro hl
      rw [hstep, live_expire] at hl
      simp at hl

/-! ### Where a chunk stops -/

/-- The first of a chunk's blocks. -/
def sizeLine (d : Bytes) : Bytes := hexadecimal d.length ++ crlf

/-- A chunk that is refused stops in front of its size line, its data or its end. -/
theorem Refused.cases {wb : ByteQueue} {d : Bytes} {done : List Bytes} (h : Refused wb d done) :
    d ≠ [] ∧
      ((done = [] ∧ wb.limit < wb.size + (sizeLine d).length) ∨
        (done = [sizeLine d] ∧ wb.size + (sizeLine d).length ≤ wb.limit ∧
          wb.limit < wb.size + (sizeLine d).length + d.length) ∨
        (done = [sizeLine d, d] ∧ wb.size + (sizeLine d).length + d.length ≤ wb.limit ∧
          wb.limit < wb.size + (sizeLine d).length + d.length + 2)) := by
  obtain ⟨⟨xs, rest, hblocks, hnone⟩, hfits⟩ := h
  have hlimit := (Fifo.append_eq_none_iff.mp hnone).2
  rw [Fifo.limit_push, Fifo.size_push] at hlimit
  have hd : d ≠ [] := by
    rintro rfl
    simp [chunkBlocks] at hblocks
  refine ⟨hd, ?_⟩
  have hsize : sizeLine d ≠ [] := fun hnil =>
    hexadecimal_ne_nil _ (List.append_eq_nil_iff.mp hnil).1
  have hchunk : chunkBlocks d = [sizeLine d, d, crlf] := by simp [chunkBlocks, hd, sizeLine]
  rw [hchunk] at hblocks
  match done with
  | [] =>
    obtain ⟨rfl, -⟩ := List.cons.inj hblocks
    exact Or.inl ⟨rfl, hlimit⟩
  | [a] =>
    simp only [List.cons_append, List.nil_append, List.cons.injEq] at hblocks
    obtain ⟨rfl, rfl, -⟩ := hblocks
    simp only [List.flatten_cons, List.flatten_nil, List.append_nil, hsize,
      false_or] at hlimit hfits
    exact Or.inr (Or.inl ⟨rfl, hfits, hlimit⟩)
  | [a, b] =>
    simp only [List.cons_append, List.nil_append, List.cons.injEq] at hblocks
    obtain ⟨rfl, rfl, rfl, -⟩ := hblocks
    simp only [List.flatten_cons, List.flatten_nil, List.append_nil, List.append_eq_nil_iff, hsize,
      false_and, false_or, List.length_append] at hlimit hfits
    have hcrlf : crlf.length = 2 := rfl
    exact Or.inr (Or.inr ⟨rfl, by omega, by omega⟩)
  | a :: b :: c :: t => simp at hblocks

/-- A chunk of `d` fits whole, or not even its size line does. -/
def WholeOrNothing (wb : ByteQueue) (d : Bytes) : Prop :=
  wb.size + (encodeChunk d).length ≤ wb.limit ∨ wb.limit < wb.size + (sizeLine d).length

instance (wb : ByteQueue) (d : Bytes) : Decidable (WholeOrNothing wb d) :=
  inferInstanceAs (Decidable (_ ∨ _))

theorem length_encodeChunk {d : Bytes} (hd : d ≠ []) :
    (encodeChunk d).length = (sizeLine d).length + d.length + 2 := by
  rw [encodeChunk, if_neg hd, ← sizeLine, List.length_append, List.length_append]
  rfl

theorem Refused.nothing {wb : ByteQueue} {d : Bytes} {done : List Bytes} (h : Refused wb d done)
    (hw : WholeOrNothing wb d) : done = [] := by
  obtain ⟨hd, hcases⟩ := h.cases
  rw [WholeOrNothing, length_encodeChunk hd] at hw
  rcases hcases with ⟨rfl, -⟩ | ⟨-, hfit, hstop⟩ | ⟨-, hfit, hstop⟩
  · rfl
  · omega
  · omega

/-- A refused chunk is not queued whole. -/
theorem Refused.length_lt {wb : ByteQueue} {d : Bytes} {done : List Bytes}
    (h : Refused wb d done) : done.flatten.length < (encodeChunk d).length := by
  obtain ⟨hd, hcases⟩ := h.cases
  rw [length_encodeChunk hd]
  rcases hcases with ⟨rfl, -⟩ | ⟨rfl, -⟩ | ⟨rfl, -⟩
  · simp
  · simp only [List.flatten_cons, List.flatten_nil, List.append_nil]
    omega
  · simp only [List.flatten_cons, List.flatten_nil, List.append_nil, List.length_append]
    omega

/-- A chunk is queued as a whole exactly when it fits. -/
theorem appendAll_chunkBlocks_iff {wb : ByteQueue} {d : Bytes} (hd : d ≠ []) :
    (wb.appendAll (chunkBlocks d)).2 = true ↔ wb.Fits (encodeChunk d).length := by
  have hlen := length_encodeChunk hd
  rw [← flatten_chunkBlocks] at hlen ⊢
  apply Fifo.appendAll_iff_fits_of_ne_nil
  intro hnil
  rw [hnil, List.length_nil] at hlen
  omega

/-- **When `writeChunk` queues a whole chunk or nothing.** -/
theorem writeChunk_whole_iff {wb : ByteQueue} {d : Bytes} (hd : d ≠ []) :
    ((writeChunk wb d).state = wb.push (encodeChunk d) ∨ (writeChunk wb d).state = wb) ↔
      WholeOrNothing wb d := by
  have hlen := length_encodeChunk hd
  unfold writeChunk
  cases hall : (wb.appendAll (chunkBlocks d)).2 with
  | true =>
    have hfits : wb.Fits (encodeChunk d).length := (appendAll_chunkBlocks_iff hd).mp hall
    rw [appendBlocks_of_true hall, flatten_chunkBlocks]
    exact ⟨fun _ => Or.inl hfits, fun _ => Or.inl rfl⟩
  | false =>
    rw [appendBlocks_of_false hall]
    obtain ⟨done, href, hq⟩ := refused_of_false hall
    rw [Outcome.state_bodyLimit, hq]
    constructor
    · rintro (h | h)
      · have hsize := congrArg Fifo.size h
        rw [Fifo.size_push, Fifo.size_push] at hsize
        have hlt := href.length_lt
        omega
      · have hsize := congrArg Fifo.size h
        rw [Fifo.size_push] at hsize
        obtain ⟨-, ⟨-, hstop⟩ | ⟨rfl, -⟩ | ⟨rfl, -⟩⟩ := href.cases
        · exact Or.inr hstop
        · simp [sizeLine, crlf] at hsize
        · simp [sizeLine, crlf] at hsize
    · intro hw
      rw [href.nothing hw]
      exact Or.inr (Fifo.push_nil wb)

/-! ### Well-framed streams -/

/-- Whole chunks, and it may be the zero chunk behind them. -/
def Framed (body : Bytes) : Prop :=
  ∃ blocks : List Bytes, body = (blocks.map encodeChunk).flatten ∨
    body = (blocks.map encodeChunk).flatten ++ zeroChunk

/-- What is queued behind the head is well framed. -/
def WellFramed (s : CgiStream) : Prop :=
  ∀ h, s.head = some h → ∃ body, s.queued = h ++ body ∧ Framed body

/-- The event queues a 408 page for the client of a job. -/
def Interrupts (s : CgiStream) : Event → Prop
  | .sweepClients env _ _ => s.live = true ∧ s.expires env = true ∧
      s.conn.writeBuffer.append (errorResponse env 408 s.conn.config) ≠ none
  | _ => False

/-- The event queues whole chunks, if any. -/
def WritesWhole (s : CgiStream) (ev : Event) : Prop :=
  ¬ Interrupts s ev ∧ ∀ t a wb d, s.atPipe ev = some (t, a) → t.chunkWrite a = some (wb, d) →
    d ≠ [] → WholeOrNothing wb d

theorem Relays.wellFramed {s : CgiStream} {h : Bytes} {n : ℕ} (hs : Relays s h n) :
    WellFramed s := by
  intro h' hh
  obtain ⟨blocks, hq, -⟩ := hs.body
  rw [hs.head] at hh
  rw [← Option.some.inj hh]
  exact ⟨_, hq, blocks, Or.inl rfl⟩

/-- A step that relays keeps the frame when no chunk is cut. -/
theorem SentStep.wellFramed {early : Prop} {d h : Bytes} {n : ℕ} {s s' : CgiStream}
    (hstep : SentStep early d s s') (hs : Relays s h n) (hkept : Kept s s')
    (hw : d ≠ [] → WholeOrNothing s.conn.writeBuffer d) : WellFramed s' := by
  obtain ⟨blocks, hq, -⟩ := hs.body
  intro h' hh
  rw [hkept.head, hs.head] at hh
  rw [← Option.some.inj hh]
  have hdone : ∀ {done}, Refused s.conn.writeBuffer d done → done = [] := fun href =>
    href.nothing (hw href.cases.1)
  cases hstep with
  | idle _ _ _ _ hq' => exact ⟨_, hq'.trans hq, blocks, Or.inl rfl⟩
  | relayed _ _ _ _ hq' =>
    refine ⟨_, by rw [hq', hq, List.append_assoc], blocks ++ [d], Or.inl ?_⟩
    rw [List.map_append, List.flatten_append]
    simp
  | finished zero _ _ _ _ hq' =>
    cases zero with
    | true => exact ⟨_, by rw [hq', hq, List.append_assoc, if_pos rfl], blocks, Or.inr rfl⟩
    | false => exact ⟨_, by rw [hq', hq]; simp, blocks, Or.inl rfl⟩
  | failed _ _ _ _ _ _ hq' => exact ⟨_, by rw [hq', hq, List.append_assoc], blocks, Or.inr rfl⟩
  | refused done href _ _ _ _ _ hq' =>
    rw [hdone href, List.flatten_nil, List.append_nil] at hq'
    exact ⟨_, by rw [hq', hq, List.append_assoc], blocks, Or.inr rfl⟩
  | escaped x done href _ _ hq' =>
    have hnil : done = [] := href.elim id hdone
    rw [hnil, List.flatten_nil, List.append_nil] at hq'
    exact ⟨_, hq'.trans hq, blocks, Or.inl rfl⟩

theorem WellFramed.quiet {s s' : CgiStream} (hs : WellFramed s) (hq : Quiet s s') :
    WellFramed s' := by
  intro h hh
  rw [hq.queued]
  exact hs h (hq.head ▸ hh)

/-- Without room for the page the sweep over the clients queues nothing. -/
theorem quiet_expire {env : Env} {takes : List ℕ} {a : ReadAnswer} {s : CgiStream}
    (h : s.conn.writeBuffer.append (errorResponse env 408 s.conn.config) = none) :
    Quiet s (s.expire env takes a) := by
  have hall := Fifo.appendAll_singleton_of_none h
  have hsend : sendError env 408 s.conn =
    .bodyLimit (s.conn.setWriteBuffer s.conn.writeBuffer) := by
    rw [sendError, queue_refused (by rw [hall]), hall]
    rfl
  rw [expire, hsend]
  exact quiet_over (by simp)

/-- **A step that queues whole chunks keeps the stream well framed.** -/
theorem WellFramed.step {s : CgiStream} {ev : Event} (hs : Consistent s) (hf : WellFramed s)
    (hev : ev.WellFormed) (hw : WritesWhole s ev) : WellFramed (s.step ev) := by
  cases hp : s.atPipe ev with
  | some ta =>
    obtain ⟨t, a⟩ := ta
    cases called_step hs hev hp with
    | waits hwaits =>
      intro h hh
      rw [hwaits.head] at hh
      simp at hh
    | gone _ hhead =>
      intro h hh
      rw [hhead] at hh
      simp at hh
    | relayed m h n d hm hstep hkept hwrite _ =>
      exact hstep.wellFramed hm hkept fun hd => hw.2 t a _ d hp (hwrite hd) hd
  | none =>
    rcases quiet_of_atPipe hp with hq | ⟨env, -, hl, -, hstep⟩ |
      ⟨env, takes, a, rfl, hl, hexp, hstep⟩
    · exact hf.quiet hq
    · rw [hstep]
      rcases hs hl with hwaits | ⟨h, n, hr⟩
      · intro h hh
        rw [hwaits.head_timeOut] at hh
        simp at hh
      · exact (sentStep_timeOut hr.headersSent).wellFramed hr (kept_timeOut hr.headersSent)
          fun hd => absurd rfl hd
    · rw [hstep]
      apply hf.quiet
      apply quiet_expire
      by_contra hne
      exact hw.1 ⟨hl, hexp, hne⟩

end CgiStream

/-- **The stream is well framed at every moment** of a run in which every chunk is
queued whole or not at all and no 408 page is queued behind the head. -/
theorem wellFramed_run (c : Connection) (clientFd resultFd maxSize now : ℕ) (timeout : ℤ)
    {es : List CgiStream.Event} (hes : ∀ ev ∈ es, ev.WellFormed)
    (hw : Run.Meets CgiStream.step CgiStream.WritesWhole
      (CgiStream.start c (CgiJob.new clientFd resultFd maxSize timeout now)) es) :
    ((CgiStream.start c (CgiJob.new clientFd resultFd maxSize timeout now)).run es).WellFramed := by
  have hstart : CgiStream.Consistent
      (CgiStream.start c (CgiJob.new clientFd resultFd maxSize timeout now)) ∧
      CgiStream.WellFramed (CgiStream.start c
        (CgiJob.new clientFd resultFd maxSize timeout now)) := by
    refine ⟨fun _ => Or.inl CgiStream.waits_start, ?_⟩
    intro h hh
    simp [CgiStream.start] at hh
  refine (Run.Meets.invariant (P := fun s ev => CgiStream.WritesWhole s ev ∧ ev.WellFormed)
    (I := fun s => s.Consistent ∧ s.WellFramed) ?_ hstart (hw.and_of_forall hes)).2
  intro s ev hs hP
  exact ⟨hs.1.step hP.2, hs.2.step hs.1 hP.2 hP.1⟩

theorem CgiStream.writesWhole_readable {env : Env} {s : CgiStream} {a : ReadAnswer}
    (h : ∀ w ∈ s.chunkWrite a, CgiStream.WholeOrNothing w.1 w.2) :
    CgiStream.WritesWhole s (.readable env a) := by
  refine ⟨id, ?_⟩
  intro t a' wb d ht hw _
  simp only [CgiStream.atPipe] at ht
  split at ht
  · simp only [Option.some.injEq, Prod.mk.injEq] at ht
    obtain ⟨rfl, rfl⟩ := ht
    exact h (wb, d) hw
  · simp at ht

/-- A client whose server allows bodies of `limit` bytes. -/
private def clientWithRoom (limit : ℕ) : Connection :=
  Connection.new 5 { Server.empty with clientMaxBodySize := limit } 0

/-- An environment without files. -/
private def nowhere : Env := ⟨FileSystem.empty, 0, 0⟩

/-- A header line, an empty line, and a body. -/
private def greeting : Bytes := ascii "X: y\r\n\r\nhello world"

/-- With room for all of it. -/
theorem wellFramed_run_greeting :
    ((CgiStream.start (clientWithRoom 1000) (CgiJob.new 5 6 65536 30 0)).run
      [.readable nowhere (.data greeting), .readable nowhere .eof]).WellFramed := by
  refine wellFramed_run _ 5 6 65536 0 30 ?_ ⟨?_, ?_, trivial⟩
  · intro ev hev
    simp only [List.mem_cons, List.not_mem_nil, or_false] at hev
    rcases hev with rfl | rfl
    · exact ⟨by decide, by decide⟩
    · trivial
  · exact CgiStream.writesWhole_readable (by decide +kernel)
  · apply CgiStream.writesWhole_readable
    intro w hw
    simp [CgiStream.chunkWrite] at hw

/-- A framed body that is not empty begins with the zero chunk or with a chunk. -/
theorem CgiStream.Framed.first {body : Bytes} (h : CgiStream.Framed body) :
    body = [] ∨ body = zeroChunk ∨ ∃ d rest, d ≠ [] ∧ body = encodeChunk d ++ rest := by
  obtain ⟨blocks, h⟩ := h
  induction blocks with
  | nil =>
    rcases h with h | h
    · exact Or.inl h
    · exact Or.inr (Or.inl h)
  | cons d blocks ih =>
    simp only [List.map_cons, List.flatten_cons, List.append_assoc] at h
    by_cases hd : d = []
    · subst hd
      exact ih h
    · rcases h with h | h
      · exact Or.inr (Or.inr ⟨d, _, hd, h⟩)
      · exact Or.inr (Or.inr ⟨d, _, hd, h⟩)

/-- With room for the head and eight bytes, the zero chunk is queued behind the size
line of a chunk. -/
theorem not_wellFramed_greeting :
    ¬ ((CgiStream.start (clientWithRoom 126) (CgiJob.new 5 6 65536 30 0)).run
      [.readable nowhere (.data greeting)]).WellFramed := by
  intro h
  have hhead : ((CgiStream.start (clientWithRoom 126) (CgiJob.new 5 6 65536 30 0)).run
      [.readable nowhere (.data greeting)]).head =
        some (cgiResponseHead (greeting.take 8) (clientWithRoom 126).request) := by
    decide +kernel
  have hqueued : ((CgiStream.start (clientWithRoom 126) (CgiJob.new 5 6 65536 30 0)).run
      [.readable nowhere (.data greeting)]).queued =
        cgiResponseHead (greeting.take 8) (clientWithRoom 126).request ++
          ascii "b\r\n0\r\n\r\n" := by
    decide +kernel
  obtain ⟨body, hq, hbody⟩ := h _ hhead
  rw [hqueued] at hq
  have heq := List.append_cancel_left hq
  subst heq
  obtain hnil | hzero | ⟨d, rest, hd, heq⟩ := hbody.first
  · exact absurd hnil (by decide)
  · exact absurd hzero (by decide)
  · -- a chunk of eight bytes at most has a size line that begins with another digit
    have hlen := congrArg List.length heq
    rw [List.length_append, CgiStream.length_encodeChunk hd] at hlen
    have hshort : d.length < 9 := by
      have h8 : (ascii "b\r\n0\r\n\r\n").length = 8 := by decide
      omega
    have hfirst : ∀ n < 9, (hexadecimal n).head? ≠ some 98 := by decide
    apply hfirst d.length hshort
    rw [encodeChunk, if_neg hd] at heq
    have hhd := congrArg List.head? heq
    rw [List.append_assoc, List.append_assoc, List.append_assoc, List.head?_append_of_ne_nil _
      (hexadecimal_ne_nil _)] at hhd
    exact hhd.symm

end Webserv
