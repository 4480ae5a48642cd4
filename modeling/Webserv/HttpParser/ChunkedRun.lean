import Webserv.HttpParser.Body
import Webserv.Lib.Segmented

/-!
# The chunked decoder, stage by stage

`ChunkStep` lists what one stage of `_parseChunked` can do; `chunkRound_iff` says
that it does exactly that.  From it: the loop ends (`chunkRound_decreasing`), it
never throws, and more input behind the readable bytes does not change what has
been decided (`parseChunked_push`), which makes the decoder segmentation free.
-/

namespace Webserv

open Bytes

/-- The decoder's state: the read buffer and the request. -/
abbrev Decoder := ByteQueue × HttpRequest

/-- The body holds what was counted, and its limit does not come before the
request's. -/
structure BodyWf (req : HttpRequest) : Prop where
  size_eq : req.body.size = req.written
  limit_le : req.maxBodySize ≤ req.body.limit

/-- The request with `data` appended to its body. -/
def HttpRequest.grow (req : HttpRequest) (data : Bytes) : HttpRequest :=
  { req with body := req.body.push data, written := req.written + data.length }

/-- The request with the decoder's variables set. -/
def HttpRequest.setChunk (req : HttpRequest) (size : ℕ) (trailing done : Bool) : HttpRequest :=
  { req with chunkSize := size, chunkTrailing := trailing, chunkDone := done }

section setChunk

variable (req : HttpRequest) (n : ℕ) (t d : Bool)

@[simp] theorem chunkSize_setChunk : (req.setChunk n t d).chunkSize = n := rfl
@[simp] theorem chunkTrailing_setChunk : (req.setChunk n t d).chunkTrailing = t := rfl
@[simp] theorem chunkDone_setChunk : (req.setChunk n t d).chunkDone = d := rfl
@[simp] theorem written_setChunk : (req.setChunk n t d).written = req.written := rfl
@[simp] theorem body_setChunk : (req.setChunk n t d).body = req.body := rfl
@[simp] theorem maxBodySize_setChunk : (req.setChunk n t d).maxBodySize = req.maxBodySize := rfl
@[simp] theorem parseState_setChunk : (req.setChunk n t d).parseState = req.parseState := rfl
@[simp] theorem written_grow (a : Bytes) : (req.grow a).written = req.written + a.length := rfl
@[simp] theorem body_grow (a : Bytes) : (req.grow a).body = req.body.push a := rfl
@[simp] theorem maxBodySize_grow (a : Bytes) : (req.grow a).maxBodySize = req.maxBodySize := rfl
@[simp] theorem chunked_grow (a : Bytes) : (req.grow a).chunked = req.chunked := rfl
@[simp] theorem contentLength_grow (a : Bytes) : (req.grow a).contentLength = req.contentLength :=
  rfl
@[simp] theorem parseState_grow (a : Bytes) : (req.grow a).parseState = req.parseState := rfl

theorem grow_setChunk (a : Bytes) : (req.setChunk n t d).grow a = (req.grow a).setChunk n t d := rfl

theorem setChunk_setChunk (m : ℕ) (u e : Bool) :
    (req.setChunk n t d).setChunk m u e = req.setChunk m u e := rfl

end setChunk

theorem BodyWf.setChunk {req : HttpRequest} (h : BodyWf req) (n : ℕ) (t d : Bool) :
    BodyWf (req.setChunk n t d) := ⟨h.size_eq, h.limit_le⟩

theorem BodyWf.grow {req : HttpRequest} (h : BodyWf req) (data : Bytes) :
    BodyWf (req.grow data) where
  size_eq := by
    show (req.body.items ++ data).length = req.written + data.length
    rw [List.length_append, ← h.size_eq, Fifo.size_eq]
  limit_le := h.limit_le

@[simp] theorem grow_nil (req : HttpRequest) : req.grow [] = req := by
  simp [HttpRequest.grow]

theorem grow_grow (req : HttpRequest) (a b : Bytes) : (req.grow a).grow b = req.grow (a ++ b) := by
  simp [HttpRequest.grow, Fifo.push_push, Nat.add_assoc]

/-- Within the request's limit the body buffer takes the bytes. -/
theorem takeBody_eq {buf : ByteQueue} {req : HttpRequest} {n : ℕ} (hwf : BodyWf req)
    (hn : n ≤ buf.size) (hle : req.written + n ≤ req.maxBodySize) :
    takeBody buf req n = .ok (buf.consume n, req.grow (buf.items.take n)) () := by
  have hlen := buf.length_take hn
  have happ : req.body.append (buf.items.take n) = some (req.body.push (buf.items.take n)) := by
    have hsize := hwf.size_eq
    have hlim := hwf.limit_le
    exact Fifo.append_eq_some_iff.mpr ⟨Or.inr (by omega), rfl⟩
  rw [takeBody, happ]
  simp only [HttpRequest.grow, hlen]

/-! ### The stages -/

/-- Nothing can be decided before more input arrives. -/
def Stuck (buf : ByteQueue) (req : HttpRequest) : Prop :=
  if req.chunkTrailing then buf.size < 2
  else if req.chunkSize = 0 then findCrlf buf.items = none
  else buf.size = 0

/-- What one stage does. -/
inductive ChunkStep (buf : ByteQueue) (req : HttpRequest) :
    Decoder ⊕ Outcome Decoder Unit → Prop
  | wait : Stuck buf req → ChunkStep buf req (.inr (.ok (buf, req) ()))
  | complete : req.chunkTrailing = true → 2 ≤ buf.size → req.chunkDone = true →
      ChunkStep buf req (.inr (.ok (buf.consume 2,
        { req with chunkTrailing := false, parseState := .complete }) ()))
  | afterData : req.chunkTrailing = true → 2 ≤ buf.size → req.chunkDone = false →
      ChunkStep buf req (.inl (buf.consume 2, req.setChunk 0 false req.chunkDone))
  | badLine {pos code : ℕ} : req.chunkTrailing = false → req.chunkSize = 0 →
      findCrlf buf.items = some pos → parseChunkSize (buf.items.take pos) = .error code →
      ChunkStep buf req (.inr (.ok (buf.consume (pos + 2), req.fail code) ()))
  | lastLine {pos : ℕ} : req.chunkTrailing = false → req.chunkSize = 0 →
      findCrlf buf.items = some pos → parseChunkSize (buf.items.take pos) = .ok 0 →
      ChunkStep buf req (.inl (buf.consume (pos + 2), req.setChunk req.chunkSize true true))
  | sizeLine {pos n : ℕ} : req.chunkTrailing = false → req.chunkSize = 0 →
      findCrlf buf.items = some pos → parseChunkSize (buf.items.take pos) = .ok n → n ≠ 0 →
      ChunkStep buf req (.inl (buf.consume (pos + 2),
        req.setChunk n req.chunkTrailing req.chunkDone))
  | tooLarge : req.chunkTrailing = false → req.chunkSize ≠ 0 → buf.size ≠ 0 →
      req.maxBodySize < req.written + min req.chunkSize buf.size →
      ChunkStep buf req (.inr (.ok (buf, req.fail 413) ()))
  | takeAll : req.chunkTrailing = false → req.chunkSize ≠ 0 → req.chunkSize ≤ buf.size →
      req.written + req.chunkSize ≤ req.maxBodySize →
      ChunkStep buf req (.inl (buf.consume req.chunkSize,
        (req.grow (buf.items.take req.chunkSize)).setChunk 0 true false))
  | takeSome : req.chunkTrailing = false → buf.size ≠ 0 → buf.size < req.chunkSize →
      req.written + buf.size ≤ req.maxBodySize →
      ChunkStep buf req (.inl (buf.consume buf.size,
        (req.grow buf.items).setChunk (req.chunkSize - buf.size) false req.chunkDone))

theorem chunkStep_chunkRound {buf : ByteQueue} {req : HttpRequest} (hwf : BodyWf req) :
    ChunkStep buf req (chunkRound (buf, req)) := by
  unfold chunkRound
  simp only
  split
  · -- behind the data of a chunk: CR LF is awaited
    next ht =>
    split
    · next hlt => exact .wait (by rw [Stuck, if_pos ht]; exact hlt)
    · next hle =>
      split
      · next hd => exact .complete ht (by omega) hd
      · next hd => exact .afterData ht (by omega) (by simpa using hd)
  · next ht =>
    have ht' : req.chunkTrailing = false := by simpa using ht
    split
    · -- in front of a chunk: a size line is awaited
      next hs =>
      split
      · next hf => exact .wait (by rw [Stuck, if_neg ht, if_pos hs]; exact hf)
      · next pos hf =>
        split
        · next code hp => exact .badLine ht' hs hf hp
        · next hp => exact .lastLine ht' hs hf hp
        · next n hn hp => exact .sizeLine ht' hs hf hp hn
    · -- in the data of a chunk
      next hs =>
      split
      · next h0 => exact .wait (by rw [Stuck, if_neg ht, if_neg hs]; exact h0)
      · next h0 =>
        split
        · next hgt => exact .tooLarge ht' hs h0 (by omega)
        · next hle =>
          rw [takeBody_eq hwf (Nat.min_le_right _ _) (by omega)]
          simp only
          rcases Nat.lt_or_ge buf.size req.chunkSize with hlt | hge
          · have hmin : min req.chunkSize buf.size = buf.size := by omega
            have htake : buf.items.take buf.size = buf.items := by
              rw [Fifo.size_eq, List.take_length]
            rw [hmin] at hle ⊢
            rw [if_neg (show ¬ (req.grow _).chunkSize - buf.size = 0 by
              show ¬ req.chunkSize - buf.size = 0; omega), htake]
            have := ChunkStep.takeSome ht' h0 hlt (by omega)
            simpa [HttpRequest.grow, HttpRequest.setChunk, ht'] using this
          · have hmin : min req.chunkSize buf.size = req.chunkSize := by omega
            rw [hmin] at hle ⊢
            rw [if_pos (show (req.grow _).chunkSize - req.chunkSize = 0 by
              show req.chunkSize - req.chunkSize = 0; omega)]
            have := ChunkStep.takeAll ht' hs hge (by omega)
            simpa [HttpRequest.grow, HttpRequest.setChunk] using this

theorem chunkRound_eq {buf : ByteQueue} {req : HttpRequest} (hwf : BodyWf req)
    {r : Decoder ⊕ Outcome Decoder Unit} (h : ChunkStep buf req r) :
    chunkRound (buf, req) = r := by
  cases h with
  | wait hstuck =>
    unfold Stuck at hstuck
    unfold chunkRound
    split_ifs at hstuck with ht hs
    · simp [ht, hstuck]
    · simp [ht, hs, hstuck]
    · simp [ht, hs, hstuck]
  | complete ht hsize hd => simp [chunkRound, ht, hd, show ¬ buf.size < 2 by omega]
  | afterData ht hsize hd =>
    simp [chunkRound, ht, hd, HttpRequest.setChunk, show ¬ buf.size < 2 by omega]
  | badLine ht hs hf hp => simp [chunkRound, ht, hs, hf, hp]
  | lastLine ht hs hf hp =>
    simp only [chunkRound, ht, hs, hf, hp, Bool.false_eq_true, if_false, if_true,
      HttpRequest.setChunk]
  | sizeLine ht hs hf hp hn =>
    simp only [chunkRound, ht, hs, hf, hp, Bool.false_eq_true, if_false, if_true]
    simp [HttpRequest.setChunk]
  | tooLarge ht hs h0 hgt => simp [chunkRound, ht, hs, h0, hgt]
  | takeAll ht hs hge hle =>
    have h0 : buf.size ≠ 0 := by omega
    have hmin : min req.chunkSize buf.size = req.chunkSize := by omega
    simp only [chunkRound, ht, hs, h0, hmin, Bool.false_eq_true, if_false,
      show ¬ req.written + req.chunkSize > req.maxBodySize by omega,
      takeBody_eq hwf hge hle]
    simp [HttpRequest.grow, HttpRequest.setChunk]
  | takeSome ht h0 hlt hle =>
    have hs : req.chunkSize ≠ 0 := by omega
    have hmin : min req.chunkSize buf.size = buf.size := by omega
    have htake : buf.items.take buf.size = buf.items := by
      rw [Fifo.size_eq, List.take_length]
    simp only [chunkRound, ht, hs, h0, hmin, Bool.false_eq_true, if_false,
      show ¬ req.written + buf.size > req.maxBodySize by omega,
      takeBody_eq hwf (Nat.le_refl _) hle, htake]
    simp [HttpRequest.grow, HttpRequest.setChunk, ht, show ¬ req.chunkSize - buf.size = 0 by omega]

/-- The stages are exactly what `ChunkStep` lists. -/
theorem chunkRound_iff {buf : ByteQueue} {req : HttpRequest} (hwf : BodyWf req)
    {r : Decoder ⊕ Outcome Decoder Unit} : chunkRound (buf, req) = r ↔ ChunkStep buf req r :=
  ⟨fun h => h ▸ chunkStep_chunkRound hwf, chunkRound_eq hwf⟩

/-- A stage after which the loop goes on has consumed something. -/
theorem chunkRound_decreasing : WhileLoop.Decreasing (fun s : Decoder => s.1.size) chunkRound := by
  rintro ⟨buf, req⟩ ⟨buf', req'⟩ h
  have hconsume : ∀ n, 0 < n → n ≤ buf.size → (buf.consume n).size < buf.size := by
    intro n hn hle
    rw [Fifo.size_eq] at hle
    simp only [Fifo.size_eq, Fifo.items_consume, List.length_drop]
    omega
  show buf'.size < buf.size
  unfold chunkRound at h
  simp only at h
  -- what stands behind the data, a size line, or data is taken off the buffer
  split_ifs at h with ht hlt hd hs h0 hgt
  · simp only [Sum.inl.injEq, Prod.mk.injEq] at h
    rw [← h.1]
    exact hconsume 2 (by omega) (by omega)
  · cases hf : findCrlf buf.items with
    | none => rw [hf] at h; simp at h
    | some pos =>
      have hlen := FirstMatch.length_le_of_find hf
      have hlt : (buf.consume (pos + 2)).size < buf.size := hconsume _ (by omega) hlen
      rw [hf] at h
      simp only at h
      split at h
      · simp at h
      · simp only [Sum.inl.injEq, Prod.mk.injEq] at h
        rw [← h.1]; exact hlt
      · simp only [Sum.inl.injEq, Prod.mk.injEq] at h
        rw [← h.1]; exact hlt
  · unfold takeBody at h
    cases hb : req.body.append (buf.items.take (min req.chunkSize buf.size)) with
    | none => rw [hb] at h; simp at h
    | some body =>
      rw [hb] at h
      simp only at h
      have hlt : (buf.consume (min req.chunkSize buf.size)).size < buf.size :=
        hconsume _ (by omega) (Nat.min_le_right _ _)
      split_ifs at h with hz
      · simp only [Sum.inl.injEq, Prod.mk.injEq] at h
        rw [← h.1]; exact hlt
      · simp only [Sum.inl.injEq, Prod.mk.injEq] at h
        rw [← h.1]; exact hlt

/-! ### The loop -/

/-- The loop goes on after a stage that does. -/
theorem parseChunked_inl {buf buf' : ByteQueue} {req req' : HttpRequest} (hwf : BodyWf req)
    (h : ChunkStep buf req (.inl (buf', req'))) :
    parseChunked buf req = parseChunked buf' req' :=
  WhileLoop.loop_inl chunkRound_decreasing (chunkRound_eq hwf h)

theorem parseChunked_inr {buf : ByteQueue} {req : HttpRequest} {r : Outcome Decoder Unit}
    (hwf : BodyWf req) (h : ChunkStep buf req (.inr r)) : parseChunked buf req = r :=
  WhileLoop.loop_inr (chunkRound_eq hwf h)

/-- Every stage keeps the body well formed. -/
theorem ChunkStep.bodyWf {buf buf' : ByteQueue} {req req' : HttpRequest}
    (h : ChunkStep buf req (.inl (buf', req'))) (hwf : BodyWf req) : BodyWf req' := by
  cases h with
  | afterData => exact hwf.setChunk _ _ _
  | lastLine => exact hwf.setChunk _ _ _
  | sizeLine => exact hwf.setChunk _ _ _
  | takeAll => exact (hwf.grow _).setChunk _ _ _
  | takeSome => exact (hwf.grow _).setChunk _ _ _

/-- **Induction along the stages of the decoder**, for relations between the state
a stage starts in and the outcome of the loop. -/
theorem parseChunked_induction {P : ByteQueue → HttpRequest → Outcome Decoder Unit → Prop}
    (leave : ∀ buf req r, BodyWf req → ChunkStep buf req (.inr r) → P buf req r)
    (round : ∀ buf req buf' req', BodyWf req → ChunkStep buf req (.inl (buf', req')) →
      P buf' req' (parseChunked buf' req') → P buf req (parseChunked buf' req')) :
    ∀ buf req, BodyWf req → P buf req (parseChunked buf req) := by
  intro buf req hwf
  refine WhileLoop.loop_induction (P := fun s r => BodyWf s.2 → P s.1 s.2 r)
    chunkRound_decreasing ?leave ?round (buf, req) hwf
  case leave =>
    intro s r hr hwf
    exact leave s.1 s.2 r hwf ((chunkRound_iff hwf).mp hr)
  case round =>
    intro s s' hs ih hwf
    have hstep := (chunkRound_iff hwf).mp hs
    exact round s.1 s.2 s'.1 s'.2 hwf hstep (ih (hstep.bodyWf hwf))

/-! ### More input behind the readable bytes -/

/-- Two requests of which the rest of the server sees the same: all but the body
and the decoder's own variables. -/
structure SameVerdict (r r' : HttpRequest) : Prop where
  parseState : r.parseState = r'.parseState
  errorCode : r.errorCode = r'.errorCode
  method : r.method = r'.method
  path : r.path = r'.path
  queryString : r.queryString = r'.queryString
  version : r.version = r'.version
  headers : r.headers = r'.headers
  contentLength : r.contentLength = r'.contentLength
  chunked : r.chunked = r'.chunked

theorem SameVerdict.refl (r : HttpRequest) : SameVerdict r r :=
  ⟨rfl, rfl, rfl, rfl, rfl, rfl, rfl, rfl, rfl⟩

theorem SameVerdict.symm {r r' : HttpRequest} (h : SameVerdict r r') : SameVerdict r' r :=
  ⟨h.1.symm, h.2.symm, h.3.symm, h.4.symm, h.5.symm, h.6.symm, h.7.symm, h.8.symm, h.9.symm⟩

theorem SameVerdict.trans {r r' r'' : HttpRequest} (h : SameVerdict r r')
    (h' : SameVerdict r' r'') : SameVerdict r r'' :=
  ⟨h.1.trans h'.1, h.2.trans h'.2, h.3.trans h'.3, h.4.trans h'.4, h.5.trans h'.5, h.6.trans h'.6,
    h.7.trans h'.7, h.8.trans h'.8, h.9.trans h'.9⟩

/-- Decoders that agree: equal, or both stopped by the same error. -/
def Decoder.Agree (s t : Decoder) : Prop :=
  s = t ∨ (s.2.parseState = .error ∧ SameVerdict s.2 t.2)

theorem Decoder.Agree.refl (s : Decoder) : s.Agree s := Or.inl rfl

theorem Decoder.Agree.trans {s t u : Decoder} (h : s.Agree t) (h' : t.Agree u) : s.Agree u := by
  rcases h with rfl | ⟨he, hv⟩
  · exact h'
  · rcases h' with rfl | ⟨-, hv'⟩
    · exact Or.inr ⟨he, hv⟩
    · exact Or.inr ⟨he, hv.trans hv'⟩

theorem Decoder.Agree.symm {s t : Decoder} (h : s.Agree t) : t.Agree s := by
  rcases h with rfl | ⟨he, hv⟩
  · exact Or.inl rfl
  · exact Or.inr ⟨hv.parseState ▸ he, hv.symm⟩

/-- The state the decoder leaves behind. -/
def decode (buf : ByteQueue) (req : HttpRequest) : Decoder := (parseChunked buf req).state

theorem decode_inl {buf buf' : ByteQueue} {req req' : HttpRequest} (hwf : BodyWf req)
    (h : ChunkStep buf req (.inl (buf', req'))) : decode buf req = decode buf' req' := by
  rw [decode, parseChunked_inl hwf h, decode]

theorem decode_inr {buf buf' : ByteQueue} {req req' : HttpRequest} (hwf : BodyWf req)
    (h : ChunkStep buf req (.inr (.ok (buf', req') ()))) : decode buf req = (buf', req') := by
  rw [decode, parseChunked_inr hwf h, Outcome.state_ok]

/-- A chunk whose data arrives in two pieces is taken as if it came in one. -/
theorem decode_data_push {buf : ByteQueue} {req : HttpRequest} {b : Bytes} (hwf : BodyWf req)
    (ht : req.chunkTrailing = false) (hlt : buf.size < req.chunkSize) (hb : b ≠ []) :
    (decode (buf.push b) req).Agree (decode ((buf.consume buf.size).push b)
      ((req.grow buf.items).setChunk (req.chunkSize - buf.size) false req.chunkDone)) := by
  have hb0 : 0 < b.length := List.length_pos_iff.mpr hb
  have hwf' := (hwf.grow buf.items).setChunk (req.chunkSize - buf.size) false req.chunkDone
  have hitems : ((buf.consume buf.size).push b).items = b := by
    rw [Fifo.items_push, Fifo.items_consume, Fifo.size_eq, List.drop_length, List.nil_append]
  have hsz := buf.size_push b
  have hsz' : ((buf.consume buf.size).push b).size = b.length := by rw [Fifo.size_eq, hitems]
  have hlen : buf.items.length = buf.size := rfl
  by_cases hlim : req.maxBodySize < req.written + min req.chunkSize (buf.size + b.length)
  · -- both run into the limit
    have h₁ := @ChunkStep.tooLarge (buf.push b) req ht (by omega) (by omega)
      (by omega)
    have h₂ := @ChunkStep.tooLarge ((buf.consume buf.size).push b)
      ((req.grow buf.items).setChunk (req.chunkSize - buf.size) false req.chunkDone)
      rfl (by rw [chunkSize_setChunk]; omega) (by omega)
      (by simp only [maxBodySize_setChunk, written_setChunk, chunkSize_setChunk, written_grow,
            maxBodySize_grow]; omega)
    rw [decode_inr hwf h₁, decode_inr hwf' h₂]
    exact Or.inr ⟨rfl, ⟨rfl, rfl, rfl, rfl, rfl, rfl, rfl, rfl, rfl⟩⟩
  · left
    -- the second piece has all the data that is missing, or only some of it
    rcases Nat.lt_or_ge (buf.size + b.length) req.chunkSize with hmore | hall
    · have h₁ := @ChunkStep.takeSome (buf.push b) req ht (by omega) (by omega)
        (by omega)
      have h₂ := @ChunkStep.takeSome ((buf.consume buf.size).push b)
        ((req.grow buf.items).setChunk (req.chunkSize - buf.size) false req.chunkDone)
        rfl (by omega) (by rw [chunkSize_setChunk]; omega)
        (by simp only [maxBodySize_setChunk, written_setChunk, written_grow, maxBodySize_grow]
            omega)
      rw [decode_inl hwf h₁, decode_inl hwf' h₂]
      have hbuf : (buf.push b).consume (buf.push b).size =
          ((buf.consume buf.size).push b).consume ((buf.consume buf.size).push b).size := by
        ext1
        · rw [Fifo.items_consume, Fifo.items_consume, Fifo.size_eq, Fifo.size_eq,
            List.drop_length, List.drop_length]
        · rfl
      rw [hbuf, hitems, hsz, hsz', Fifo.items_push, grow_setChunk, grow_grow, setChunk_setChunk,
        chunkSize_setChunk, chunkDone_setChunk, Nat.sub_sub]
    · have h₁ := @ChunkStep.takeAll (buf.push b) req ht (by omega) (by omega)
        (by omega)
      have h₂ := @ChunkStep.takeAll ((buf.consume buf.size).push b)
        ((req.grow buf.items).setChunk (req.chunkSize - buf.size) false req.chunkDone)
        rfl (by rw [chunkSize_setChunk]; omega) (by rw [chunkSize_setChunk]; omega)
        (by simp only [maxBodySize_setChunk, written_setChunk, chunkSize_setChunk, written_grow,
              maxBodySize_grow]
            omega)
      rw [decode_inl hwf h₁, decode_inl hwf' h₂]
      have htake : (buf.push b).items.take req.chunkSize =
          buf.items ++ b.take (req.chunkSize - buf.size) := by
        rw [Fifo.items_push, List.take_append, List.take_of_length_le (by omega), hlen]
      have hbuf : (buf.push b).consume req.chunkSize =
          ((buf.consume buf.size).push b).consume (req.chunkSize - buf.size) := by
        ext1
        · rw [Fifo.items_consume, Fifo.items_consume, hitems, Fifo.items_push,
            List.drop_append, List.drop_eq_nil_of_le (by omega), List.nil_append, hlen]
        · rfl
      rw [hbuf, htake, chunkSize_setChunk, hitems, grow_setChunk, grow_grow, setChunk_setChunk]

/-- Where the decoder is after some input, and what more input makes of it:
stuck, it goes on from there; at the end of the message, the rest is left alone;
after an error, the error stays. -/
inductive Decoded (buf : ByteQueue) (req : HttpRequest) (b : Bytes) (s : Decoder) : Prop
  | waiting : s.2.parseState = .body → Stuck s.1 s.2 →
      (decode (buf.push b) req).Agree (decode (s.1.push b) s.2) → Decoded buf req b s
  | complete : s.2.parseState = .complete → decode (buf.push b) req = (s.1.push b, s.2) →
      Decoded buf req b s
  | error : s.2.parseState = .error → SameVerdict s.2 (decode (buf.push b) req).2 →
      Decoded buf req b s

/-- The decoder goes on from `buf', req'` with the bytes behind as it would have
from `buf, req`. -/
theorem Decoded.of_inl {buf buf' : ByteQueue} {req req' : HttpRequest} {b : Bytes} {s : Decoder}
    (h : decode (buf.push b) req = decode (buf'.push b) req') (hd : Decoded buf' req' b s) :
    Decoded buf req b s := by
  cases hd with
  | waiting hp hs ha => exact .waiting hp hs (h ▸ ha)
  | complete hp he => exact .complete hp (h ▸ he)
  | error hp hv => exact .error hp (h ▸ hv)

/-- **What has been decoded stays decoded when more input arrives.** -/
theorem decoded_push {buf : ByteQueue} {req : HttpRequest} {b : Bytes} (hb : b ≠ [])
    (hwf : BodyWf req) (hbody : req.parseState = .body) :
    (parseChunked buf req).threw = false ∧ BodyWf (decode buf req).2 ∧
      Decoded buf req b (decode buf req) := by
  -- a line that is complete is the same with more input behind it
  have htake : ∀ {buf : ByteQueue} {pos : ℕ}, findCrlf buf.items = some pos →
      (buf.push b).items.take pos = buf.items.take pos := by
    intro buf pos hf
    have hlen := FirstMatch.length_le_of_find hf
    rw [Fifo.items_push, List.take_append_of_le_length (by omega)]
  have hfind : ∀ {buf : ByteQueue} {pos : ℕ}, findCrlf buf.items = some pos →
      findCrlf (buf.push b).items = some pos := FirstMatch.find_append_of_some
  have hcons : ∀ {buf : ByteQueue} {pos : ℕ}, findCrlf buf.items = some pos →
      (buf.push b).consume (pos + 2) = (buf.consume (pos + 2)).push b := by
    intro buf pos hf
    exact Fifo.consume_push buf b (FirstMatch.length_le_of_find hf)
  refine parseChunked_induction
    (P := fun buf req r => req.parseState = .body → r.threw = false ∧ BodyWf r.state.2 ∧
      Decoded buf req b r.state) ?leave ?round buf req hwf hbody
  case leave =>
    intro buf req r hwf h hbody
    cases h with
    | wait hstuck => exact ⟨rfl, hwf, .waiting hbody hstuck (Decoder.Agree.refl _)⟩
    | complete ht hsize hd =>
      refine ⟨rfl, ⟨hwf.size_eq, hwf.limit_le⟩, .complete rfl ?_⟩
      rw [decode_inr hwf (.complete ht (by rw [Fifo.size_push]; omega) hd),
        Fifo.consume_push buf b hsize]
      rfl
    | badLine ht hs hf hp =>
      refine ⟨rfl, ⟨hwf.size_eq, hwf.limit_le⟩, .error rfl ?_⟩
      rw [decode_inr hwf (.badLine ht hs (hfind hf) (by rw [htake hf]; exact hp))]
      exact SameVerdict.refl _
    | tooLarge ht hs h0 hgt =>
      refine ⟨rfl, ⟨hwf.size_eq, hwf.limit_le⟩, .error rfl ?_⟩
      have hsz := buf.size_push b
      rw [decode_inr hwf (.tooLarge ht hs (by omega) (by omega))]
      exact SameVerdict.refl _
  case round =>
    intro buf req buf' req' hwf h ih hbody
    have hwf' := h.bodyWf hwf
    cases h with
    | afterData ht hsize hd =>
      obtain ⟨hok, hw, hdec⟩ := ih hbody
      refine ⟨hok, hw, hdec.of_inl ?_⟩
      rw [decode_inl hwf (.afterData ht (by rw [Fifo.size_push]; omega) hd),
        Fifo.consume_push buf b hsize]
    | lastLine ht hs hf hp =>
      obtain ⟨hok, hw, hdec⟩ := ih hbody
      refine ⟨hok, hw, hdec.of_inl ?_⟩
      rw [decode_inl hwf (.lastLine ht hs (hfind hf) (by rw [htake hf]; exact hp)), hcons hf]
    | sizeLine ht hs hf hp hn =>
      obtain ⟨hok, hw, hdec⟩ := ih hbody
      refine ⟨hok, hw, hdec.of_inl ?_⟩
      rw [decode_inl hwf (.sizeLine ht hs (hfind hf) (by rw [htake hf]; exact hp) hn), hcons hf]
    | takeAll ht hs hge hle =>
      obtain ⟨hok, hw, hdec⟩ := ih hbody
      refine ⟨hok, hw, hdec.of_inl ?_⟩
      have hsz := buf.size_push b
      rw [decode_inl hwf (.takeAll ht hs (by omega) hle), Fifo.consume_push buf b hge,
        Fifo.items_push, List.take_append_of_le_length hge]
    | takeSome ht h0 hlt hle =>
      -- the data seen so far is in the body; the buffer is empty and the loop waits
      have hempty : (buf.consume buf.size).size = 0 := by
        rw [Fifo.size_eq, Fifo.items_consume, Fifo.size_eq, List.drop_length, List.length_nil]
      have hstuck : Stuck (buf.consume buf.size)
          ((req.grow buf.items).setChunk (req.chunkSize - buf.size) false req.chunkDone) := by
        rw [Stuck, chunkTrailing_setChunk, chunkSize_setChunk]
        simp [show ¬ req.chunkSize - buf.size = 0 by omega, hempty]
      rw [parseChunked_inr hwf' (.wait hstuck)]
      exact ⟨rfl, hwf', .waiting hbody hstuck (decode_data_push hwf ht hlt hb)⟩

/-! ### Pieces -/

/-- One piece of input: appended to the read buffer, and decoded unless the decoder
has come to an end. -/
def chunkFeed (s : Decoder) (piece : Bytes) : Decoder :=
  if s.2.parseState = .body then decode (s.1.push piece) s.2 else (s.1.push piece, s.2)

theorem chunkFeed_of_body {s : Decoder} (h : s.2.parseState = .body) (piece : Bytes) :
    chunkFeed s piece = decode (s.1.push piece) s.2 := if_pos h

theorem chunkFeed_of_ne {s : Decoder} (h : s.2.parseState ≠ .body) (piece : Bytes) :
    chunkFeed s piece = (s.1.push piece, s.2) := if_neg h

/-- **The decoder does not see how its input is cut.** -/
theorem chunkFeed_law :
    Segmented.Law chunkFeed (fun s => BodyWf s.2) Decoder.Agree where
  refl := Decoder.Agree.refl
  trans := Decoder.Agree.trans
  keeps := by
    intro s a hwf
    by_cases hbody : s.2.parseState = .body
    · rw [chunkFeed_of_body hbody]
      exact (decoded_push (b := [0]) (by simp) hwf hbody).2.1
    · rw [chunkFeed_of_ne hbody]
      exact hwf
  congr := by
    rintro s t a - - (rfl | ⟨he, hv⟩)
    · exact Decoder.Agree.refl _
    · have he' : t.2.parseState = .error := hv.parseState ▸ he
      rw [chunkFeed_of_ne (by rw [he]; decide), chunkFeed_of_ne (by rw [he']; decide)]
      exact Or.inr ⟨he, hv⟩
  append := by
    intro s a b hwf _ hb
    by_cases hbody : s.2.parseState = .body
    · obtain ⟨-, -, hdec⟩ := @decoded_push (s.1.push a) s.2 b hb hwf hbody
      rw [chunkFeed_of_body hbody a, chunkFeed_of_body hbody (a ++ b), ← Fifo.push_push]
      cases hdec with
      | waiting hp hs ha => rw [chunkFeed_of_body hp]; exact ha.symm
      | complete hp he => rw [chunkFeed_of_ne (by rw [hp]; decide), he]; exact Decoder.Agree.refl _
      | error hp hv => rw [chunkFeed_of_ne (by rw [hp]; decide)]; exact Or.inr ⟨hp, hv⟩
    · rw [chunkFeed_of_ne hbody a, chunkFeed_of_ne hbody (a ++ b), chunkFeed_of_ne (by exact hbody),
        Fifo.push_push]
      exact Decoder.Agree.refl _

end Webserv
