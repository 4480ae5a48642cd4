import Webserv.Cgi.Output
import Webserv.HttpParser.ChunkedGrammar

/-!
# The decoder undoes the encoder

The chunks `writeChunk` queues, with the zero chunk behind them, are a message of
the coding (`writeStream_ok`), so the request decoder reads back the blocks from
any cut of them.
-/

namespace Webserv

open Bytes ChunkedCoding

/-- `writeChunk` for each block in order, then the zero chunk. -/
def writeStream (wb : ByteQueue) : List Bytes → Outcome ByteQueue Unit
  | [] => appendBlocks wb [zeroChunk]
  | b :: blocks => (writeChunk wb b).andThen fun wb _ => writeStream wb blocks

/-- What the calls queue together. -/
theorem writeStream_ok : ∀ (blocks : List Bytes) {wb wb' : ByteQueue} {u : Unit},
    writeStream wb blocks = .ok wb' u →
      wb' = wb.push ((blocks.map encodeChunk).flatten ++ lastChunk) := by
  intro blocks
  induction blocks with
  | nil =>
    intro wb wb' u h
    rw [writeStream] at h
    rw [appendBlocks_ok h]
    simp [zeroChunk, lastChunk]
  | cons b blocks ih =>
    intro wb wb' u h
    rw [writeStream] at h
    cases hb : writeChunk wb b with
    | bodyLimit q => rw [hb] at h; simp at h
    | ok q v =>
      rw [hb, Outcome.andThen_ok] at h
      rw [ih h, writeChunk_ok hb, Fifo.push_push]
      simp

/-- An error of the decoder stays. -/
theorem error_feedChunked {s : Decoder} (h : s.2.parseState = .error) :
    ∀ (pieces : List Bytes), (pieces.foldl chunkFeed s).2.parseState = .error := by
  intro pieces
  induction pieces generalizing s with
  | nil => exact h
  | cons p pieces ih =>
    rw [List.foldl_cons, chunkFeed_of_ne (by rw [h]; decide)]
    exact ih (by exact h)

/-- **The decoder undoes the encoder, at every cut of what was written.** -/
theorem feedChunked_writeStream {wb wb' : ByteQueue} {blocks pieces : List Bytes} {w : Bytes}
    {u : Unit} {req : HttpRequest} (limit : ℕ)
    (hwrite : writeStream wb blocks = .ok wb' u) (hw : wb'.items = wb.items ++ w)
    (hsize : ∀ b ∈ blocks, b.length ≤ 2 ^ 30) (htotal : blocks.flatten.length ≤ req.maxBodySize)
    (hreq : FreshChunked req) (hp : ∀ p ∈ pieces, p ≠ []) (hcut : pieces.flatten = w) :
    (feedChunked req limit pieces).2.parseState = .complete ∧
      (feedChunked req limit pieces).2.body.items = blocks.flatten ∧
      (feedChunked req limit pieces).2.written = blocks.flatten.length ∧
      (∀ k, (feedChunked req limit (pieces.take k)).2.parseState ≠ .error) ∧
      (feedChunked req limit pieces).1.items = [] := by
  have hmsg : Message (AnyTwoUpTo maxAllowedChunk) w blocks.flatten := by
    rw [writeStream_ok blocks hwrite, Fifo.items_push, List.append_cancel_left_eq] at hw
    rw [← hw]
    exact message_encode blocks (fun b hb => ⟨rfl, hsize b hb⟩) ⟨rfl, Nat.zero_le _⟩
  have hdec := @decode_message ⟨pieces.flatten, limit⟩ req w _ [] hreq.atLine hmsg
    (by rw [hreq.written]; omega) (by rw [List.append_nil]; exact hcut)
  have hagree := feedChunked_agree hreq limit hp
  rw [hdec] at hagree
  have hcomplete : (feedChunked req limit pieces).2.parseState = .complete := by
    rcases hagree with heq | ⟨-, hv⟩
    · rw [heq]
    · exact hv.parseState
  rcases hagree with heq | ⟨he, -⟩
  · refine ⟨hcomplete, ?_, ?_, ?_, ?_⟩
    · rw [heq]
      show (req.body.push blocks.flatten).items = blocks.flatten
      rw [Fifo.items_push, hreq.body, List.nil_append]
    · rw [heq]
      show req.written + blocks.flatten.length = blocks.flatten.length
      rw [hreq.written, Nat.zero_add]
    · -- a piece that failed would have made the whole fail
      intro k he
      have hlast := error_feedChunked he (pieces.drop k)
      rw [feedChunked, ← List.foldl_append, List.take_append_drop] at hlast
      rw [feedChunked, hlast] at hcomplete
      simp at hcomplete
    · rw [heq, Fifo.items_consume, hcut, List.drop_length]
  · rw [hcomplete] at he
    simp at he

/-- Two blocks, one of which looks like framing, and an empty one between them. -/
private def twoBlocks : Bytes := ascii "5\r\n0\r\n\r\n\r\n2\r\nab\r\n0\r\n\r\n"

theorem feedChunked_writeStream_twoBlocks :
    let pieces := [twoBlocks.take 4, twoBlocks.drop 4]
    (feedChunked (newChunked 7) 64 pieces).2.parseState = .complete ∧
      (feedChunked (newChunked 7) 64 pieces).2.body.items = ascii "0\r\n\r\nab" ∧
      (feedChunked (newChunked 7) 64 pieces).2.written = 7 ∧
      (∀ k, (feedChunked (newChunked 7) 64 (pieces.take k)).2.parseState ≠ .error) ∧
      (feedChunked (newChunked 7) 64 pieces).1.items = [] :=
  @feedChunked_writeStream (Fifo.new 64) ((Fifo.new 64).push twoBlocks)
    [ascii "0\r\n\r\n", [], ascii "ab"] _ twoBlocks () (newChunked 7) 64 rfl rfl
    (by decide) (by decide) (freshChunked_newChunked 7) (by decide) (by decide)

end Webserv
