import Webserv.HttpParser.Segmentation
import Webserv.HttpParser.Selection

/-!
# Bytes behind a request

When the last bytes of a request come with more bytes behind them, every stage of the parser
decides what it decides without them: a request that is complete stays complete, and stays the
request it is.

## Main results

* `parseChunked_push` — bytes behind a body in chunks.
* `feed_deliver_of_complete` — **bytes behind a complete request are not read.**
-/

namespace Webserv

open Bytes

/-- The connection with another content of its read buffer. -/
def Connection.setReadBuffer (c : Connection) (rb : ByteQueue) : Connection :=
  { c with readBuffer := rb }

@[simp] theorem request_setReadBuffer (c : Connection) (rb : ByteQueue) :
    (c.setReadBuffer rb).request = c.request := rfl

@[simp] theorem config_setReadBuffer (c : Connection) (rb : ByteQueue) :
    (c.setReadBuffer rb).config = c.config := rfl

/-! ### Bodies -/

/-- What is taken into the body is not behind it. -/
theorem takeBody_push {buf : ByteQueue} {req : HttpRequest} {n : ℕ} (b : Bytes)
    (hn : n ≤ buf.size) :
    takeBody (buf.push b) req n = (takeBody buf req n).mapState fun s => (s.1.push b, s.2) := by
  unfold takeBody
  rw [Fifo.items_push, List.take_append_of_le_length hn]
  cases req.body.append (buf.items.take n) with
  | none => rfl
  | some body => simp only [Fifo.consume_push buf b hn, Outcome.mapState]

/-- What has been taken into the body. -/
theorem eq_of_takeBody_ok {buf : ByteQueue} {req : HttpRequest} {n : ℕ}
    {s : ByteQueue × HttpRequest} {u : Unit} (h : takeBody buf req n = .ok s u) :
    ∃ body, s = (buf.consume n, { req with body := body, written := req.written + n }) := by
  unfold takeBody at h
  split at h
  · cases h
  · cases h
    exact ⟨_, rfl⟩

/-- A body of known length. -/
theorem parseBody_push {buf : ByteQueue} {req : HttpRequest} {s : ByteQueue × HttpRequest}
    (b : Bytes) (hbody : req.parseState = .body) (h : parseBody buf req = .ok s ())
    (hcomplete : s.2.parseState = .complete) :
    ∃ rb, parseBody (buf.push b) req = .ok (rb, s.2) () := by
  have hsize := buf.size_push b
  unfold parseBody at h ⊢
  dsimp only at h ⊢
  split_ifs at h with hempty hnone hlarge hlarge
  · cases h
    exact absurd (hbody.symm.trans hcomplete) (by decide)
  · cases h
    exact absurd hcomplete (by simp [HttpRequest.fail])
  · obtain ⟨body, rfl⟩ := eq_of_takeBody_ok h
    exact absurd (hbody.symm.trans hcomplete) (by decide)
  · cases h
    exact absurd hcomplete (by simp [HttpRequest.fail])
  · cases ht : takeBody buf req (min (req.contentLength - req.written) buf.size) with
    | bodyLimit t =>
      rw [ht] at h
      cases h
    | ok t u =>
      obtain ⟨body, ht'⟩ := eq_of_takeBody_ok ht
      rw [ht, Outcome.andThen_ok] at h
      cases h
      -- the body is complete, so all that it needs was there
      have hend : t.2.written = t.2.contentLength := by
        by_contra hmore
        rw [endOfBody, if_neg hmore, ht'] at hcomplete
        exact absurd (hbody.symm.trans hcomplete) (by decide)
      have hneeded : req.contentLength - req.written ≤ buf.size := by
        rw [ht'] at hend
        dsimp only at hend
        omega
      rw [Nat.min_eq_left hneeded] at ht hlarge
      rw [if_neg (by omega), if_neg hnone, Nat.min_eq_left (by omega), if_neg hlarge,
        takeBody_push b hneeded, ht]
      refine ⟨(t.1.push b).clear, ?_⟩
      simp only [Outcome.mapState, Outcome.andThen_ok, endOfBody, if_pos hend]

/-- The stage that takes data, with more bytes behind the readable ones: the same, but for a chunk
of which not all was there, and the stage behind that one waits. -/
theorem chunkRound_data_push {buf : ByteQueue} {req : HttpRequest} {s' : ByteQueue × HttpRequest}
    (b : Bytes) (htrailing : ¬ req.chunkTrailing = true) (hdue : req.chunkSize ≠ 0)
    (h : chunkRound (buf, req) = .inl s') :
    chunkRound (buf.push b, req) = .inl (s'.1.push b, s'.2) ∨
      s'.1.size = 0 ∧ s'.2.chunkTrailing = false ∧ s'.2.chunkSize ≠ 0 := by
  have hpush := buf.size_push b
  unfold chunkRound at h ⊢
  dsimp only at h ⊢
  rw [if_neg htrailing, if_neg hdue] at h ⊢
  split_ifs at h with hempty hlarge
  rw [if_neg (by omega)]
  rcases Nat.lt_or_ge buf.size req.chunkSize with hcut | hwhole
  · -- everything there was is taken, and the rest of the chunk is due
    rw [Nat.min_eq_right (Nat.le_of_lt hcut)] at h
    right
    cases ht : takeBody buf req buf.size with
    | bodyLimit t =>
      rw [ht] at h
      cases h
    | ok t u =>
      obtain ⟨body, rfl⟩ := eq_of_takeBody_ok ht
      rw [ht] at h
      dsimp only at h
      rw [if_neg (by omega)] at h
      cases h
      refine ⟨?_, by simpa using htrailing, Nat.sub_ne_zero_of_lt hcut⟩
      rw [Fifo.size_consume, Nat.sub_self]
  · -- the chunk is there as a whole, and the bytes behind it are not touched
    rw [Nat.min_eq_left hwhole] at h hlarge
    rw [Nat.min_eq_left (by omega), if_neg hlarge, takeBody_push b hwhole]
    left
    cases ht : takeBody buf req req.chunkSize with
    | bodyLimit t =>
      rw [ht] at h
      cases h
    | ok t u =>
      rw [ht] at h
      rw [Outcome.mapState_ok]
      dsimp only at h ⊢
      split at h
      · next hend =>
        cases h
        rw [if_pos hend]
      · next hend =>
        cases h
        rw [if_neg hend]

/-- What one stage of the loop over the chunks does with more bytes behind the readable ones. -/
theorem chunkRound_push {s s' : ByteQueue × HttpRequest} (b : Bytes)
    (h : chunkRound s = .inl s') :
    chunkRound (s.1.push b, s.2) = .inl (s'.1.push b, s'.2) ∨
      s'.1.size = 0 ∧ s'.2.chunkTrailing = false ∧ s'.2.chunkSize ≠ 0 := by
  obtain ⟨buf, req⟩ := s
  have hpush := buf.size_push b
  by_cases htrailing : req.chunkTrailing = true
  · left
    unfold chunkRound at h ⊢
    dsimp only at h ⊢
    rw [if_pos htrailing] at h ⊢
    split_ifs at h with hshort hdone
    cases h
    rw [if_neg (by omega), if_neg hdone, Fifo.consume_push buf b (by omega)]
  · by_cases hzero : req.chunkSize = 0
    · left
      unfold chunkRound at h ⊢
      dsimp only at h ⊢
      rw [if_neg htrailing, if_pos hzero] at h ⊢
      cases hf : findCrlf buf.items with
      | none =>
        rw [hf] at h
        cases h
      | some pos =>
        have hlen : pos + 2 ≤ buf.size := FirstMatch.length_le_of_find hf
        have hf' : findCrlf (buf.items ++ b) = some pos := FirstMatch.find_append_of_some hf
        rw [hf] at h
        rw [Fifo.items_push, hf']
        dsimp only at h ⊢
        rw [List.take_append_of_le_length (by rw [← Fifo.size_eq]; omega),
          Fifo.consume_push buf b hlen]
        split at h
        · cases h
        · cases h
          rfl
        · cases h
          rfl
    · exact chunkRound_data_push b htrailing hzero h

/-- The last stage of a body in chunks. -/
theorem chunkRound_push_of_complete {s t : ByteQueue × HttpRequest} (b : Bytes)
    (hbody : s.2.parseState = .body) (h : chunkRound s = .inr (.ok t ()))
    (hcomplete : t.2.parseState = .complete) :
    chunkRound (s.1.push b, s.2) = .inr (.ok (t.1.push b, t.2) ()) := by
  obtain ⟨buf, req⟩ := s
  have hpush := buf.size_push b
  -- a round that completes the body neither waits nor fails
  have hstill : ∀ {buf' : ByteQueue}, t ≠ (buf', req) := by
    rintro buf' rfl
    exact absurd (hbody.symm.trans hcomplete) (by decide)
  have hfailed : ∀ {buf' : ByteQueue} {code : ℕ}, t ≠ (buf', req.fail code) := by
    rintro buf' code rfl
    exact absurd hcomplete (by simp [HttpRequest.fail])
  unfold chunkRound at h ⊢
  dsimp only at h ⊢
  by_cases htrailing : req.chunkTrailing = true
  · rw [if_pos htrailing] at h ⊢
    split_ifs at h with hshort hdone
    · cases h
      exact absurd rfl hstill
    · cases h
      rw [if_neg (by omega), if_pos hdone, Fifo.consume_push buf b (by omega)]
  · rw [if_neg htrailing] at h
    by_cases hzero : req.chunkSize = 0
    · rw [if_pos hzero] at h
      split at h
      · cases h
        exact absurd rfl hstill
      · split at h
        · cases h
          exact absurd rfl hfailed
        · cases h
        · cases h
    · rw [if_neg hzero] at h
      split_ifs at h
      · cases h
        exact absurd rfl hstill
      · cases h
        exact absurd rfl hfailed
      · split at h
        · cases h
        · split at h <;> cases h

/-- **Bytes behind a body in chunks are not read.** -/
theorem parseChunked_push (b : Bytes) (buf : ByteQueue) (req : HttpRequest) :
    req.parseState = .body → ∀ s, parseChunked buf req = .ok s () →
      s.2.parseState = .complete → ∃ rb, parseChunked (buf.push b) req = .ok (rb, s.2) () := by
  unfold parseChunked
  refine WhileLoop.loop_induction chunkRound_decreasing
    (P := fun r o => r.2.parseState = .body → ∀ s, o = .ok s () → s.2.parseState = .complete →
      ∃ rb, WhileLoop.loop (fun s => s.1.size) chunkRound (fun s => .ok s ()) (r.1.push b, r.2) =
        .ok (rb, s.2) ()) ?leave ?round (buf, req)
  case leave =>
    rintro r o hr hbody s rfl hcomplete
    exact ⟨_, WhileLoop.loop_inr (chunkRound_push_of_complete b hbody hr hcomplete)⟩
  case round =>
    intro r r' hr ih hbody s hs hcomplete
    have hbody' : r'.2.parseState = .body := by
      have hkept := keepsHeaders_chunkRound r
      rw [hr] at hkept
      exact hkept.2.trans hbody
    rcases chunkRound_push b hr with hsame | ⟨hempty, hflag, hdue⟩
    · rw [WhileLoop.loop_inl chunkRound_decreasing hsame]
      exact ih hbody' s hs hcomplete
    · -- behind a chunk that was cut the loop waits, and the body is not complete
      have hwait : chunkRound r' = .inr (.ok r' ()) := by
        unfold chunkRound
        dsimp only
        rw [if_neg (by simp [hflag]), if_neg hdue, if_pos hempty]
      rw [WhileLoop.loop_inr hwait] at hs
      cases hs
      exact absurd (hbody'.symm.trans hcomplete) (by decide)

/-! ### Feeding -/

/-- The stage that reads the body of a request. -/
theorem feedBody_deliver_of_complete {c c' : Connection} (b : Bytes)
    (h : feedBody c = .ok c' ()) (hcomplete : c'.request.parseState = .complete) :
    ∃ rb, feedBody (c.deliver b) = .ok (c'.setReadBuffer rb) () := by
  unfold feedBody at h ⊢
  rw [request_deliver, readBuffer_deliver]
  by_cases hbody : c.request.parseState = .body
  · rw [if_pos hbody] at h ⊢
    have hread : ∀ s, (if c.request.chunked then parseChunked else parseBody) c.readBuffer
        c.request = .ok s () → s.2.parseState = .complete →
        ∃ rb, (if c.request.chunked then parseChunked else parseBody) (c.readBuffer.push b)
          c.request = .ok (rb, s.2) () := by
      intro s
      split
      · exact parseChunked_push b _ _ hbody s
      · exact parseBody_push b hbody
    dsimp only at h ⊢
    cases hs : (if c.request.chunked then parseChunked else parseBody) c.readBuffer c.request with
    | bodyLimit s =>
      rw [hs] at h
      cases h
    | ok s _ =>
      rw [hs] at h
      cases h
      obtain ⟨rb, hrb⟩ := hread s hs hcomplete
      rw [hrb]
      exact ⟨rb, rfl⟩
  · rw [if_neg hbody] at h ⊢
    cases h
    exact ⟨_, rfl⟩

/-- **Bytes behind a complete request are not read.** -/
theorem feed_deliver_of_complete {stat : StatAnswer} {c c' : Connection} (b : Bytes)
    (h : feed stat c = .ok c' ()) (hcomplete : c'.request.parseState = .complete) :
    ∃ rb, feed stat (c.deliver b) = .ok (c'.setReadBuffer rb) () := by
  unfold feed at h ⊢
  rw [request_deliver]
  split at h
  · next hterminal =>
    cases h
    rw [if_pos hterminal]
    exact ⟨_, rfl⟩
  · next hterminal =>
    rw [if_neg hterminal]
    have hlimit := parseState_applyLocationBodyLimit (headerStage (requestLineStage stat c))
    -- a stage that waits has left the request where it was
    have hpast : ∀ s : ParseState, s ≠ .complete → s ≠ .body →
        (headerStage (requestLineStage stat c)).request.parseState ≠ s := by
      intro s hs hs' hstate
      rw [hstate] at hlimit
      rw [feedBody_of_ne (by rw [hlimit]; exact hs')] at h
      cases h
      exact hs (hlimit.symm.trans hcomplete)
    have hheaders := hpast .headers (by decide) (by decide)
    have hline : (requestLineStage stat c).request.parseState ≠ .requestLine := by
      intro hstate
      have hsame : headerStage (requestLineStage stat c) = requestLineStage stat c :=
        headerStage_of_ne (by rw [hstate]; decide)
      have hwaits := hpast .requestLine (by decide) (by decide)
      rw [hsame] at hwaits
      exact hwaits hstate
    rw [requestLineStage_deliver b hline, headerStage_deliver b hheaders,
      applyLocationBodyLimit_deliver]
    exact feedBody_deliver_of_complete b h hcomplete

end Webserv
