import Webserv.Cgi.Delivery
import Webserv.EventLoop.Steps

/-!
# Back pressure

A script's output is relayed while the client's write buffer is below a high water mark, one read
at a time.  What the buffer holds stays below that mark, and one chunk above it.

## Main results

* `length_encodeChunk_le` — what one read adds to the buffer.
* `within_cgiEvent` — what one event of the pipe leaves in it.
* `size_run_le` — **the bound, in any order of events.**
-/

namespace Webserv

open Bytes ChunkedCoding

/-! ### One chunk -/

/-- A number below `16 ^ k` has at most `k` digits. -/
theorem length_hexadecimal_le {n k : ℕ} (hk : 0 < k) (h : n < 16 ^ k) :
    (hexadecimal n).length ≤ k := by
  unfold hexadecimal numeral
  split
  · exact hk
  · rw [List.length_map, List.length_reverse]
    exact (Nat.digits_length_le_iff (by decide) n).mpr h

/-- **What one read adds**: the data, a size line of at most six bytes, and a line end. -/
theorem length_encodeChunk_le {d : Bytes} (h : d.length ≤ 61440) :
    (encodeChunk d).length ≤ 61440 + 8 := by
  by_cases hd : d = []
  · subst hd
    exact Nat.zero_le _
  · have hdigits := length_hexadecimal_le (n := d.length) (k := 4) (by decide) (by omega)
    rw [CgiStream.length_encodeChunk hd, CgiStream.sizeLine, List.length_append]
    have hcrlf : crlf.length = 2 := rfl
    omega

namespace CgiStream

/-! ### One event -/

/-- The write buffer holds at most `n` bytes, or five more when the job has ended. -/
structure Within (n : ℕ) (r : Outcome (Connection × CgiJob) CgiFate) : Prop where
  ended : r.state.1.writeBuffer.size ≤ n + 5
  goesOn : hasEnded r = false → r.threw = false → r.state.1.writeBuffer.size ≤ n

theorem within_failCgiJob {env : Env} {code n : ℕ} {c : Connection} {job : CgiJob}
    (hsent : job.headersSent = true) (h : c.writeBuffer.size ≤ n) :
    Within n (failCgiJob env code c job) := by
  rcases @failCgiJob_sent env code c _ hsent with
    ⟨-, c', hr, hc'⟩ | ⟨-, hr⟩
  · rw [hr]
    refine ⟨?_, fun hend => by cases hend⟩
    change c'.writeBuffer.size ≤ n + 5
    rw [hc', Fifo.size_push]
    exact Nat.add_le_add_right h 5
  · rw [hr]
    exact ⟨Nat.le_add_right_of_le h, fun _ _ => h⟩

theorem within_relayBody {env : Env} {n : ℕ} {c : Connection} {job : CgiJob} {d : Bytes}
    (hsent : job.headersSent = true) (h : c.writeBuffer.size + (encodeChunk d).length ≤ n) :
    Within n (catchBodyLimit env (relayBody c job d)) := by
  cases hall : (c.writeBuffer.appendAll (chunkBlocks d)).2 with
  | true =>
    rw [relayBody, queue_ok hall, flatten_chunkBlocks]
    have hsize : (c.setWriteBuffer (c.writeBuffer.push (encodeChunk d))).setWriting.writeBuffer.size
        ≤ n := by
      change (c.writeBuffer.push (encodeChunk d)).size ≤ n
      rwa [Fifo.size_push]
    exact ⟨Nat.le_add_right_of_le hsize, fun _ _ => hsize⟩
  | false =>
    -- some blocks of the chunk may be queued in front of the zero chunk
    rw [relayBody, queue_refused hall]
    obtain ⟨done, href, hq⟩ := refused_of_false hall
    change Within n (failCgiJob env 413 (c.setWriteBuffer _) job)
    refine within_failCgiJob hsent ?_
    change (c.writeBuffer.appendAll (chunkBlocks d)).1.size ≤ n
    have hlt := href.length_lt
    rw [hq, Fifo.size_push]
    omega

theorem within_finishCgiJob {env : Env} {n : ℕ} {c : Connection} {job : CgiJob}
    (hsent : job.headersSent = true) (h : c.writeBuffer.size ≤ n) :
    Within n (catchBodyLimit env (finishCgiJob env c job)) := by
  rw [finishCgiJob, if_pos hsent]
  generalize hblock : (if c.request.method = ascii "HEAD" then [] else [zeroChunk]) = blocks
  have hlength : blocks.flatten.length ≤ 5 := by
    rw [← hblock]
    split <;> decide
  cases hall : (c.writeBuffer.appendAll blocks).2 with
  | true =>
    rw [queue_ok hall]
    refine ⟨?_, fun hend => by cases hend⟩
    change (c.writeBuffer.push blocks.flatten).size ≤ n + 5
    rw [Fifo.size_push]
    exact Nat.add_le_add h hlength
  | false =>
    rw [queue_refused hall]
    change Within n (failCgiJob env 413 (c.setWriteBuffer _) job)
    refine within_failCgiJob hsent ?_
    change (c.writeBuffer.appendAll blocks).1.size ≤ n
    have hsame : (c.writeBuffer.appendAll blocks).1 = c.writeBuffer := by
      rw [← hblock] at hall ⊢
      split at hall
      · cases hall
      · next hget =>
        rw [if_neg hget]
        cases hzero : c.writeBuffer.append zeroChunk with
        | none => rw [Fifo.appendAll_singleton_of_none hzero]
        | some q =>
          rw [Fifo.appendAll, hzero] at hall
          cases hall
    rw [hsame]
    exact h

/-- What the buffer may hold above what it held when the head had been queued. -/
def streamBound (start : ℕ) : ℕ := max start (cgiStreamHwm + 61440 + 8)

/-- **What one event of the pipe leaves in the buffer**: nothing is read above the mark. -/
theorem within_cgiEvent (env : Env) {start : ℕ} {c : Connection} {job : CgiJob} {a : ReadAnswer}
    (hsent : job.headersSent = true) (ha : a.WellFormed)
    (h : c.writeBuffer.size ≤ streamBound start) :
    Within (streamBound start) (cgiEvent env c job a) := by
  unfold cgiEvent
  split
  · exact within_failCgiJob hsent h
  · split
    · exact ⟨Nat.le_add_right_of_le h, fun _ _ => h⟩
    · next hmark =>
      have hlow : c.writeBuffer.size < cgiStreamHwm := by
        simpa [hsent] using hmark
      cases a with
      | data d =>
        simp only [cgiTry, cgiData, hsent, if_true]
        refine within_relayBody rfl ?_
        have hchunk := length_encodeChunk_le ha.2
        have hbound : cgiStreamHwm + 61440 + 8 ≤ streamBound start := Nat.le_max_right _ _
        omega
      | eof => exact within_finishCgiJob hsent h
      | again => exact ⟨Nat.le_add_right_of_le h, fun _ _ => h⟩

/-! ### Runs -/

/-- The stream after the head: what its client's buffer holds. -/
structure Pressed (n : ℕ) (s : CgiStream) : Prop where
  sent : s.job.headersSent = true
  goesOn : s.live = true → s.conn.writeBuffer.size ≤ n
  size : s.conn.writeBuffer.size ≤ n + 5

/-- No sweep ends the job or its client in the event. -/
def Undisturbed (s : CgiStream) : Event → Prop
  | .sweep env => ¬ (s.live = true ∧ s.job.isTimedOut env.now = true)
  | .sweepClients env _ _ => ¬ (s.live = true ∧ s.expires env = true)
  | _ => True

theorem Pressed.pump {env : Env} {start : ℕ} {s : CgiStream} {a : ReadAnswer}
    (h : Pressed (streamBound start) s) (hlive : s.live = true) (ha : a.WellFormed) :
    Pressed (streamBound start) (s.pump env a) := by
  have hwithin := within_cgiEvent env h.sent ha (h.goesOn hlive)
  refine ⟨headersSent_cgiEvent a h.sent, fun hopen => ?_, hwithin.ended⟩
  have hgoes : (!hasEnded (cgiEvent env s.conn s.job a) &&
      !(cgiEvent env s.conn s.job a).threw) = true := hopen
  simp only [Bool.and_eq_true, Bool.not_eq_true'] at hgoes
  exact hwithin.goesOn hgoes.1 hgoes.2

theorem Pressed.drain {n : ℕ} {s : CgiStream} (h : Pressed n s) (env : Env) (takes : List ℕ) :
    Pressed n (s.drain env takes) := by
  obtain ⟨t, ht⟩ := EventLoop.sendLoop_eq env.now takes s.conn
  have hsize : (s.drain env takes).conn.writeBuffer.size ≤ s.conn.writeBuffer.size := by
    rw [CgiStream.drain, ht]
    change (s.conn.writeBuffer.consume takes.sum).size ≤ _
    rw [Fifo.size_consume]
    exact Nat.sub_le _ _
  exact ⟨h.sent, fun hlive => hsize.trans (h.goesOn hlive), hsize.trans h.size⟩

theorem Pressed.setWriting {n : ℕ} {s : CgiStream} (h : Pressed n s) : Pressed n s.setWriting := by
  unfold CgiStream.setWriting
  split
  · exact h
  · exact ⟨h.sent, h.goesOn, h.size⟩

/-- **An event keeps the bound.** -/
theorem Pressed.step {start : ℕ} {s : CgiStream} {ev : Event} (h : Pressed (streamBound start) s)
    (hev : ev.WellFormed) (hquiet : Undisturbed s ev) :
    Pressed (streamBound start) (s.step ev) := by
  cases ev with
  | readable env a =>
    simp only [CgiStream.step]
    split
    · next hlive => exact h.pump hlive hev
    · exact h
  | writable env takes a =>
    simp only [CgiStream.step]
    split
    · have hdrained := h.drain env takes
      simp only [write]
      split
      · next hlive =>
        refine Pressed.setWriting ?_
        split
        · exact hdrained.pump hlive hev
        · exact hdrained
      · exact hdrained
    · exact h
  | sweep env =>
    simp only [CgiStream.step]
    rw [if_neg (by simpa [Undisturbed] using hquiet)]
    exact h
  | sweepClients env takes a =>
    simp only [CgiStream.step]
    rw [if_neg (by simpa [Undisturbed] using hquiet)]
    exact h
  | closed => exact ⟨h.sent, fun hlive => by simp [live, CgiStream.step, close] at hlive, h.size⟩

/-- **The bound, in any order of events**: from a moment when the head has been queued on, and to
the end of the job. -/
theorem size_run_le {s : CgiStream} (hsent : s.job.headersSent = true) {es : List Event}
    (hes : ∀ ev ∈ es, ev.WellFormed) (hquiet : Run.Meets step Undisturbed s es) :
    (s.run es).conn.writeBuffer.size ≤
      max s.conn.writeBuffer.size (cgiStreamHwm + 61440 + 8) + 5 := by
  have hstart : Pressed (streamBound s.conn.writeBuffer.size) s :=
    ⟨hsent, fun _ => Nat.le_max_left _ _, Nat.le_add_right_of_le (Nat.le_max_left _ _)⟩
  exact (Run.Meets.invariant (P := fun s ev => Undisturbed s ev ∧ ev.WellFormed)
    (fun _ _ h hP => h.step hP.2 hP.1) hstart (hquiet.and_of_forall hes)).size

/-- An environment in which nothing is read from disk. -/
private def quietRoom : Env := ⟨FileSystem.empty, 0, 0⟩

/-- A stream whose head and first chunk are queued. -/
private def greeted : CgiStream :=
  (start (Connection.new 5 { Server.empty with clientMaxBodySize := 1000 } 0)
    (CgiJob.new 5 9 1000 10 0)).run [.readable quietRoom (.data (ascii "X: y\r\n\r\nhello"))]

theorem size_run_le_greeted :
    (greeted.run [.readable quietRoom (.data (ascii "world")), .writable quietRoom [3, 4] .again,
      .readable quietRoom .eof]).conn.writeBuffer.size ≤
        max greeted.conn.writeBuffer.size (cgiStreamHwm + 61440 + 8) + 5 := by
  refine size_run_le (by decide +kernel) ?_ ⟨trivial, trivial, trivial, trivial⟩
  intro ev hev
  simp only [List.mem_cons, List.not_mem_nil, or_false] at hev
  rcases hev with rfl | rfl | rfl
  · exact ⟨by decide, by decide⟩
  · trivial
  · trivial

end CgiStream

end Webserv
