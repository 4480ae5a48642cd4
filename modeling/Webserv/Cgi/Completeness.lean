import Webserv.Cgi.Delivery

/-!
# Whole or visibly cut

When a reader of the chunks finds the body complete, it has the script's output
behind the header block, to its end.  A job that is ended early breaks this: behind
the head `_failCgiJob` queues the zero chunk as `_finishCgiJob` does.  It holds in
the runs in which no job is ended early with room for the zero chunk, and in which
the header block is split off where it ends.

## Main results

* `wholeOrCut_run` — the runs in which the output is relayed whole or visibly cut.
-/

namespace Webserv

open Bytes ChunkedCoding

namespace CgiStream

/-- Where a message begins the body that is queued, the output was read to its end,
and the message is the whole body and carries the output behind the header block. -/
def WholeOrCut (s : CgiStream) : Prop :=
  ∀ h body e, s.head = some h → s.queued = h ++ body → FirstBlankLine s.output e →
    ∀ w p, w <+: body → Message Crlf w p → s.eof = true ∧ w = body ∧ p = s.output.drop e

/-- A chunk of `d` is refused from its first line on, and the zero chunk fits. -/
def LosesChunk (wb : ByteQueue) (d : Bytes) : Prop :=
  wb.limit < wb.size + (sizeLine d).length ∧ ¬ NoRoomToEnd wb

instance (wb : ByteQueue) (d : Bytes) : Decidable (LosesChunk wb d) :=
  inferInstanceAs (Decidable (_ ∧ ¬ _))

/-- What a step has to meet. -/
structure KeepsWhole (s : CgiStream) (ev : Event) : Prop where
  /-- A job that has read too often finds no room for the zero chunk. -/
  many : ∀ t a, s.atPipe ev = some (t, a) → t.job.headersSent = true →
    limitInternalRecursion < t.job.parentRequest → NoRoomToEnd t.conn.writeBuffer
  /-- So does one that has timed out. -/
  timeout : ∀ env, ev = .sweep env → s.live = true → s.job.isTimedOut env.now = true →
    s.job.headersSent = true → NoRoomToEnd s.conn.writeBuffer
  /-- So does one whose chunk is refused from its first line on. -/
  chunk : ∀ t a wb d, s.atPipe ev = some (t, a) → t.chunkWrite a = some (wb, d) → d ≠ [] →
    ¬ LosesChunk wb d
  /-- The piece that completes the first blank line brings no CR LF CR LF behind it. -/
  split : ∀ t p e i, s.atPipe ev = some (t, .data p) → t.job.headersSent = false →
    FirstBlankLine (t.job.resultBuffer.items ++ p) e →
    FirstMatch.find crlfcrlf (t.job.resultBuffer.items ++ p) = some i → i < e

/-! ### Bodies that are cut -/

/-- Whole chunks with no zero chunk behind them. -/
theorem not_message_of_begins {blocks : List Bytes} {body w p : Bytes}
    (h : body <+: (blocks.map encodeChunk).flatten) (hw : w <+: body) : ¬ Message Crlf w p :=
  (chunks_encodeChunks (D := Crlf) blocks fun _ _ => rfl).not_message (hw.trans h)

/-- What a refused chunk leaves behind begins the chunk. -/
theorem Refused.begins {wb : ByteQueue} {d : Bytes} {done : List Bytes} (h : Refused wb d done) :
    done.flatten <+: encodeChunk d := by
  obtain ⟨xs, rest, hblocks, -⟩ := h.stop
  rw [← flatten_chunkBlocks, hblocks, List.flatten_append]
  exact List.prefix_append _ _

/-- A size line that announces more than the zero chunk, and then the zero chunk: the
reader takes the latter for data. -/
theorem prefix_of_cut {d : Bytes} (hd : zeroChunk.length < d.length) :
    sizeLine d ++ zeroChunk <+: encodeChunk (zeroChunk ++ d.drop zeroChunk.length) := by
  have hlen : (zeroChunk ++ d.drop zeroChunk.length).length = d.length := by
    rw [List.length_append, List.length_drop]
    omega
  have hne : zeroChunk ++ d.drop zeroChunk.length ≠ [] := by
    intro h
    rw [h] at hlen
    simp at hlen
    omega
  rw [encodeChunk, if_neg hne, hlen, sizeLine]
  exact ⟨d.drop zeroChunk.length ++ crlf, by simp only [List.append_assoc]⟩

/-- The zero chunk behind whole chunks completes them. -/
theorem message_of_chunks (blocks : List Bytes) :
    Message Crlf ((blocks.map encodeChunk).flatten ++ zeroChunk) blocks.flatten :=
  message_encode blocks (fun _ _ => rfl) rfl

/-! ### Steps -/

/-- A step that relays completes the body at the end of the output or not at all. -/
theorem SentStep.wholeOrCut {early : Prop} {d h : Bytes} {n : ℕ} {s s' : CgiStream}
    (hstep : SentStep early d s s') (hs : Relays s h n) (hfirst : FirstBlankLine s.output n)
    (hkept : Kept s s') (hearly : early → NoRoomToEnd s.conn.writeBuffer)
    (hchunk : d ≠ [] → ¬ LosesChunk s.conn.writeBuffer d) : WholeOrCut s' := by
  obtain ⟨blocks, hq, hblocks⟩ := hs.body
  intro h' body e hh hqueued hblank w p hw hm
  rw [hkept.head, hs.head, Option.some.injEq] at hh
  subst hh
  -- where the queued bytes are known, so is the body
  have hbody : ∀ {x}, s'.queued = s.queued ++ x → body = (blocks.map encodeChunk).flatten ++ x := by
    intro x hx
    rw [hqueued, hq, List.append_assoc] at hx
    exact List.append_cancel_left hx
  have hcut : ∀ {x} (more : List Bytes), s'.queued = s.queued ++ x →
      x <+: (more.map encodeChunk).flatten → False := by
    intro x more hx hpre
    apply @not_message_of_begins (blocks ++ more) body w p _ hw hm
    rw [hbody hx, List.map_append, List.flatten_append]
    exact (List.prefix_append_right_inj _).mpr hpre
  cases hstep with
  | idle _ _ _ _ hq' =>
    exact (hcut [] (hq'.trans (List.append_nil _).symm) List.nil_prefix).elim
  | relayed _ _ _ _ hq' =>
    exact (hcut [d] hq' (by simp)).elim
  | finished zero _ _ hout heof hq' =>
    -- the end of the output: with the last chunk the message is whole
    cases zero with
    | false => exact (hcut [] hq' (by simp)).elim
    | true =>
      rw [hout] at hblank ⊢
      rw [if_pos rfl] at hq'
      rw [hblank.unique hfirst, ← hblocks, hbody hq']
      rw [hbody hq'] at hw
      exact ⟨heof, hm.eq_of_begins (message_of_chunks blocks) hw⟩
  | failed hwhy hroom => exact absurd (hearly hwhy) hroom
  | refused done href hroom _ _ _ _ hq' =>
    -- the queue takes a part of the chunk's blocks: none, its size line, or all but the end
    -- an early end of the body would need room for the last chunk
    rw [List.append_assoc] at hq'
    obtain ⟨hd, ⟨rfl, hlt⟩ | ⟨rfl, hfit, hlt⟩ | ⟨rfl, hfit, hlt⟩⟩ := href.cases
    · rw [List.flatten_nil, Fifo.push_nil] at hroom
      exact absurd ⟨hlt, hroom⟩ (hchunk hd)
    · have hsize : zeroChunk.length < d.length := by
        rw [NoRoomToEnd, Fifo.limit_push, Fifo.size_push] at hroom
        simp only [List.flatten_cons, List.flatten_nil, List.append_nil] at hroom
        omega
      rw [List.flatten_cons, List.flatten_nil, List.append_nil] at hq'
      refine (hcut [zeroChunk ++ d.drop zeroChunk.length] hq' ?_).elim
      rw [List.map_cons, List.map_nil, List.flatten_cons, List.flatten_nil, List.append_nil]
      exact prefix_of_cut hsize
    · rw [NoRoomToEnd, Fifo.limit_push, Fifo.size_push] at hroom
      simp only [List.flatten_cons, List.flatten_nil, List.append_nil, List.length_append] at hroom
      have hzero : zeroChunk.length = 5 := by decide
      omega
  | escaped x done href _ _ hq' =>
    refine (hcut [d] hq' ?_).elim
    rw [List.map_cons, List.map_nil, List.flatten_cons, List.flatten_nil, List.append_nil]
    rcases href with rfl | href
    · exact List.nil_prefix
    · exact href.begins

theorem WholeOrCut.of_head {s : CgiStream} (h : s.head = none) : WholeOrCut s := by
  intro h' body e hh
  rw [h] at hh
  simp at hh

theorem WholeOrCut.quiet {s s' : CgiStream} (hs : WholeOrCut s) (hq : Quiet s s') :
    WholeOrCut s' := by
  intro h body e hh hqueued hblank
  rw [hq.head] at hh
  rw [hq.queued] at hqueued
  rw [hq.output] at hblank ⊢
  rw [hq.eof]
  exact hs h body e hh hqueued hblank

/-- What an event at the pipe queues is queued behind what is there. -/
theorem SentStep.queued {early : Prop} {d : Bytes} {s s' : CgiStream} (h : SentStep early d s s') :
    ∃ x, s'.queued = s.queued ++ x := by
  cases h with
  | idle _ _ _ _ hq => exact ⟨[], by rw [hq, List.append_nil]⟩
  | relayed _ _ _ _ hq => exact ⟨_, hq⟩
  | finished _ _ _ _ _ hq => exact ⟨_, hq⟩
  | failed _ _ _ _ _ _ hq => exact ⟨_, hq⟩
  | refused done _ _ _ _ _ _ hq => exact ⟨_, by rw [hq, List.append_assoc]⟩
  | escaped _ _ _ _ _ hq => exact ⟨_, hq⟩

/-- `_handleWrite` keeps the head and queues behind what is there. -/
theorem write_sent {env : Env} {takes : List ℕ} {a : ReadAnswer} {s : CgiStream}
    (hsent : s.job.headersSent = true) :
    (s.write env takes a).head = s.head ∧ ∃ x, (s.write env takes a).queued = s.queued ++ x := by
  have hsame : ∃ x, s.queued = s.queued ++ x := ⟨[], (List.append_nil _).symm⟩
  unfold write
  dsimp only
  split
  · obtain ⟨c, hc⟩ := setWriting_cases
      (if (s.drain env takes).conn.writeBuffer.size < cgiStreamLwm then
        (s.drain env takes).pump env a else s.drain env takes)
    rw [hc]
    dsimp only
    split
    · exact ⟨(@kept_pump env a (s.drain env takes) hsent).head,
        (@sentStep_pump env a (s.drain env takes) hsent).queued⟩
    · exact ⟨rfl, hsame⟩
  · exact ⟨rfl, hsame⟩

/-- A 408 page behind whole chunks begins no size line. -/
theorem wholeOrCut_expire {env : Env} {takes : List ℕ} {a : ReadAnswer} {s : CgiStream} {h : Bytes}
    {n : ℕ} (hs : Relays s h n) (hw : WholeOrCut s) : WholeOrCut (s.expire env takes a) := by
  obtain ⟨blocks, hq, -⟩ := hs.body
  unfold expire
  split
  · exact hw.quiet (quiet_over (by simp))
  · next c _ _ =>
    obtain ⟨hhead, x, hx⟩ := @write_sent env takes a
      { s with conn := c, queued := s.queued ++ errorResponse env 408 s.conn.config } hs.headersSent
    intro h' body e hh hqueued _ w p hwp hm
    rw [close] at hh hqueued
    dsimp only at hh hqueued
    rw [hhead, hs.head, Option.some.injEq] at hh
    subst hh
    rw [hx, hq, List.append_assoc, List.append_assoc] at hqueued
    rw [← List.append_cancel_left hqueued] at hwp
    refine absurd hm (Chunks.not_message_append
      (chunks_encodeChunks (D := Crlf) blocks fun _ _ => rfl) ?_ hwp)
    exact noSizeLine_cons (b := 72) (by decide)

/-- A live job that relays has split off the header block where it ends. -/
def WellSplit (s : CgiStream) : Prop :=
  s.live = true → ∀ h n, Relays s h n → FirstBlankLine s.output n

theorem WellSplit.of_not_live {s : CgiStream} (h : s.live = false) : WellSplit s := by
  intro hl
  rw [h] at hl
  simp at hl

/-- The place where a stream that has begun to relay has split the output. -/
theorem firstBlankLine_begin {t : CgiStream} {p : Bytes} {n : ℕ}
    (hn : findHeaderEnd (t.job.resultBuffer.items ++ p) = some n)
    (hsplit : ∀ e i, FirstBlankLine (t.job.resultBuffer.items ++ p) e →
      FirstMatch.find crlfcrlf (t.job.resultBuffer.items ++ p) = some i → i < e) :
    FirstBlankLine (t.begin p n).output n := by
  obtain ⟨e, he⟩ := (blankLineAt_of_findHeaderEnd hn).exists_first
  have hne := (findHeaderEnd_eq_iff he).mpr fun i hi => hsplit e i he hi
  rw [hn, Option.some.injEq] at hne
  subst hne
  exact he.take

theorem SentStep.output {early : Prop} {d : Bytes} {s s' : CgiStream} (h : SentStep early d s s') :
    ∃ x, s'.output = s.output ++ x := by
  cases h with
  | idle _ _ hout => exact ⟨[], by rw [hout, List.append_nil]⟩
  | relayed _ _ hout => exact ⟨_, hout⟩
  | finished _ _ _ hout => exact ⟨[], by rw [hout, List.append_nil]⟩
  | failed _ _ _ _ hout => exact ⟨[], by rw [hout, List.append_nil]⟩
  | refused _ _ _ _ _ hout => exact ⟨_, hout⟩
  | escaped _ _ _ _ hout => exact ⟨_, hout⟩

/-- **A step that meets the conditions** keeps the split and the body. -/
theorem WholeOrCut.step {s : CgiStream} {ev : Event} (hs : Consistent s) (hsplit : WellSplit s)
    (hw : WholeOrCut s) (hev : ev.WellFormed) (hP : KeepsWhole s ev) :
    WellSplit (s.step ev) ∧ WholeOrCut (s.step ev) := by
  cases hp : s.atPipe ev with
  | some ta =>
    obtain ⟨t, a⟩ := ta
    obtain ⟨hl, hlt, hq, -⟩ := step_of_atPipe hp
    cases called_step hs hev hp with
    | waits hwaits =>
      refine ⟨?_, .of_head hwaits.head⟩
      intro _ h n hr
      have hhead := hr.head
      rw [hwaits.head] at hhead
      simp at hhead
    | gone hover hhead => exact ⟨.of_not_live hover, .of_head hhead⟩
    | relayed m h n d hm hstep hkept hwrite hwhere =>
      -- the split is the one of the head, or is made at this call
      have hfirst : FirstBlankLine m.output n := by
        rcases hwhere with rfl | ⟨p, rfl, -, hwaits, hn, rfl⟩
        · rw [hq.output]
          exact hsplit hl h n (hm.of_quiet hq)
        · exact firstBlankLine_begin hn fun e i => hP.split t p e i hp hwaits.headersSent
      have hearly : t.job.headersSent = true ∧ limitInternalRecursion < t.job.parentRequest →
          NoRoomToEnd m.conn.writeBuffer := by
        rintro ⟨hsent, hmany⟩
        rcases hwhere with rfl | ⟨p, -, -, hwaits, -⟩
        · exact hP.many m a hp hsent hmany
        · rw [hwaits.headersSent] at hsent
          simp at hsent
      refine ⟨?_, hstep.wholeOrCut hm hfirst hkept hearly fun hd =>
        hP.chunk t a _ d hp (hwrite hd) hd⟩
      intro _ h' n' hr
      obtain ⟨x, hx⟩ := hstep.output
      have hn := hkept.bodyStart.symm.trans hr.bodyStart
      rw [hm.bodyStart, Option.some.injEq] at hn
      rw [hx, ← hn]
      exact hfirst.append x
  | none =>
    rcases quiet_of_atPipe hp with hq | ⟨env, rfl, hl, hold, hstep⟩ |
      ⟨env, takes, a, rfl, hl, hexp, hstep⟩
    · refine ⟨?_, hw.quiet hq⟩
      intro hl h n hr
      rw [hq.output]
      exact hsplit (hq.live hl) h n (hr.of_quiet hq)
    · rw [hstep]
      refine ⟨.of_not_live (live_timeOut env s), ?_⟩
      rcases hs hl with hwaits | ⟨h, n, hr⟩
      · exact .of_head hwaits.head_timeOut
      · exact (sentStep_timeOut hr.headersSent).wholeOrCut hr (hsplit hl h n hr)
          (kept_timeOut hr.headersSent) (fun _ => hP.timeout env rfl hl hold hr.headersSent)
          fun hd => absurd rfl hd
    · rw [hstep]
      refine ⟨.of_not_live (live_expire env takes a s), ?_⟩
      rcases hs hl with hwaits | ⟨h, n, hr⟩
      · -- a client that waits for its script is never too old
        rw [expires, hwaits.state] at hexp
        simp at hexp
      · exact wholeOrCut_expire hr hw

end CgiStream

/-- **The output is relayed whole or visibly cut** in a run whose steps meet the
conditions. -/
theorem wholeOrCut_run (c : Connection) (clientFd resultFd maxSize now : ℕ) (timeout : ℤ)
    {es : List CgiStream.Event} (hes : ∀ ev ∈ es, ev.WellFormed)
    (hw : Run.Meets CgiStream.step CgiStream.KeepsWhole
      (CgiStream.start c (CgiJob.new clientFd resultFd maxSize timeout now)) es) :
    ((CgiStream.start c (CgiJob.new clientFd resultFd maxSize timeout now)).run es).WholeOrCut := by
  let s := CgiStream.start c (CgiJob.new clientFd resultFd maxSize timeout now)
  have hwaits : CgiStream.Waits s := CgiStream.waits_start
  have hsplit : CgiStream.WellSplit s := by
    intro _ h n hr
    have hhead := hr.head
    rw [hwaits.head] at hhead
    simp at hhead
  refine (Run.Meets.invariant (P := fun s ev => CgiStream.KeepsWhole s ev ∧ ev.WellFormed)
    (I := fun s => s.Consistent ∧ s.WellSplit ∧ s.WholeOrCut) ?_
    ⟨fun _ => Or.inl hwaits, hsplit, .of_head hwaits.head⟩ (hw.and_of_forall hes)).2.2
  intro s ev hs hP
  exact ⟨hs.1.step hP.2, CgiStream.WholeOrCut.step hs.1 hs.2.1 hs.2.2 hP.2 hP.1⟩

theorem CgiStream.keepsWhole_readable {env : Env} {s : CgiStream} {a : ReadAnswer}
    (hmany : s.job.parentRequest ≤ limitInternalRecursion)
    (hchunk : ∀ w ∈ s.chunkWrite a, ¬ CgiStream.LosesChunk w.1 w.2)
    (hsplit : ∀ p e i, a = .data p → s.job.headersSent = false →
      FirstBlankLine (s.job.resultBuffer.items ++ p) e →
      FirstMatch.find crlfcrlf (s.job.resultBuffer.items ++ p) = some i → i < e) :
    CgiStream.KeepsWhole s (.readable env a) := by
  have hpipe : ∀ {t a'}, s.atPipe (.readable env a) = some (t, a') → t = s ∧ a' = a := by
    intro t a' h
    simp only [CgiStream.atPipe] at h
    split at h
    · simp only [Option.some.injEq, Prod.mk.injEq] at h
      exact ⟨h.1.symm, h.2.symm⟩
    · simp at h
  refine ⟨?_, ?_, ?_, ?_⟩
  · intro t a' h _ hgt
    obtain ⟨rfl, -⟩ := hpipe h
    omega
  · intro env' h
    simp at h
  · intro t a' wb d h hw _
    obtain ⟨rfl, rfl⟩ := hpipe h
    exact hchunk (wb, d) hw
  · intro t p e i h
    obtain ⟨rfl, hp⟩ := hpipe h
    exact hsplit p e i hp.symm

/-- A client whose buffers take 1000 bytes. -/
private def patientClient : Connection :=
  Connection.new 5 { Server.empty with clientMaxBodySize := 1000 } 0

/-- An environment without files, at a moment. -/
private def noFiles (now : ℕ) : Env := ⟨FileSystem.empty, now, 0⟩

/-- A header line, an empty line, and a short body. -/
private def shortOutput : Bytes := ascii "A: b\r\n\r\nhello"

private theorem firstBlankLine_shortOutput : FirstBlankLine shortOutput 8 := by
  refine ⟨Or.inl ⟨4, rfl, by decide⟩, ?_⟩
  intro e' he' h
  have hcut : BlankLineAt (shortOutput.take 7) e' :=
    (blankLineAt_append (r := shortOutput.drop 7)
      (by rw [show (shortOutput.take 7).length = 7 from rfl]; omega)).mp
      (by rwa [List.take_append_drop])
  exact findHeaderEnd_ne_none hcut (by decide)

/-- Read to its end, the output is relayed whole. -/
theorem wholeOrCut_run_eof :
    ((CgiStream.start patientClient (CgiJob.new 5 6 65536 30 0)).run
      [.readable (noFiles 0) (.data shortOutput), .readable (noFiles 31) .eof]).WholeOrCut := by
  refine wholeOrCut_run _ 5 6 65536 0 30 ?_ ⟨?_, ?_, trivial⟩
  · intro ev hev
    simp only [List.mem_cons, List.not_mem_nil, or_false] at hev
    rcases hev with rfl | rfl
    · exact ⟨by decide, by decide⟩
    · trivial
  · apply CgiStream.keepsWhole_readable (by decide) (by decide +kernel)
    intro p e i hp _ he hi
    injection hp with hp
    subst hp
    have h8 : e = 8 := he.unique firstBlankLine_shortOutput
    have h4 : FirstMatch.find crlfcrlf shortOutput = some 4 := by decide
    have hi' : some 4 = some i := h4.symm.trans hi
    rw [Option.some.injEq] at hi'
    omega
  · apply CgiStream.keepsWhole_readable (by decide +kernel)
    · intro w hw
      simp [CgiStream.chunkWrite] at hw
    · intro p e i hp
      simp at hp

/-- Ended by the sweep, the job has queued what a reader takes for a whole body. -/
theorem not_wholeOrCut_timeOut :
    ¬ ((CgiStream.start patientClient (CgiJob.new 5 6 65536 30 0)).run
      [.readable (noFiles 0) (.data shortOutput), .sweep (noFiles 31)]).WholeOrCut := by
  intro h
  generalize hs : (CgiStream.start patientClient (CgiJob.new 5 6 65536 30 0)).run
    [.readable (noFiles 0) (.data shortOutput), .sweep (noFiles 31)] = s at h
  have hhead : s.head = some (cgiResponseHead (shortOutput.take 8) patientClient.request) := by
    rw [← hs]
    decide +kernel
  have hqueued : s.queued = cgiResponseHead (shortOutput.take 8) patientClient.request ++
      (([ascii "hello"].map encodeChunk).flatten ++ zeroChunk) := by
    rw [← hs]
    decide +kernel
  have houtput : s.output = shortOutput := by
    rw [← hs]
    decide +kernel
  have heof : s.eof = false := by
    rw [← hs]
    decide +kernel
  have hfirst : FirstBlankLine s.output 8 := by
    rw [houtput]
    exact firstBlankLine_shortOutput
  have hread := (h _ _ 8 hhead hqueued hfirst _ _ List.prefix_rfl
    (CgiStream.message_of_chunks [ascii "hello"])).1
  rw [heof] at hread
  simp at hread

end Webserv
