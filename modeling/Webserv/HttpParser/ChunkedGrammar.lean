import Webserv.HttpParser.ChunkedRun

/-!
# The chunked decoder and the grammar

What the decoder accepts is a message of the chunked coding but for one thing: it
counts the two bytes behind the data of a chunk, and behind the last size line,
without looking at them.  `decode_message` and `message_of_decode` say that it
accepts exactly these messages, with chunks up to `maxAllowedChunk`.
-/

namespace Webserv

open Bytes ChunkedCoding

/-! ### Size lines -/

theorem chunkSizeLoop_ok : ∀ (line : Bytes) {acc n : ℕ} {valid v : Bool} {ext : Bytes},
    acc ≤ maxAllowedChunk → chunkSizeLoop acc valid line = .ok (n, v, ext) →
      n ≤ maxAllowedChunk ∧ (ext = [] ∨ ∃ e, ext = SEMICOLON :: e) ∧
      ∃ digits, line = digits ++ ext ∧ hexValueFrom acc digits = some n ∧
        v = (valid || !digits.isEmpty) := by
  intro line
  induction line with
  | nil =>
    intro acc n valid v ext hacc h
    simp only [chunkSizeLoop, Except.ok.injEq, Prod.mk.injEq] at h
    obtain ⟨rfl, rfl, rfl⟩ := h
    exact ⟨hacc, Or.inl rfl, [], rfl, rfl, by simp⟩
  | cons c rest ih =>
    intro acc n valid v ext hacc h
    rw [chunkSizeLoop] at h
    split at h
    · next hc =>
      simp only [Except.ok.injEq, Prod.mk.injEq] at h
      obtain ⟨rfl, rfl, rfl⟩ := h
      exact ⟨hacc, Or.inr ⟨rest, by rw [beq_iff_eq.mp hc]⟩, [], rfl, rfl, by simp⟩
    · cases hd : hexDigit? c with
      | none => rw [hd] at h; simp at h
      | some d =>
        rw [hd] at h
        simp only at h
        split_ifs at h with h1 h2
        obtain ⟨hn, hext, digits, rfl, hval, hv⟩ := ih (by omega) h
        refine ⟨hn, hext, c :: digits, rfl, ?_, by rw [hv]; simp⟩
        rw [hexValueFrom, hd]
        exact hval

theorem chunkSizeLoop_of_digits {ext : Bytes} (hext : ext = [] ∨ ∃ e, ext = SEMICOLON :: e) :
    ∀ (digits : Bytes) {acc n : ℕ} {valid : Bool}, hexValueFrom acc digits = some n →
      n ≤ maxAllowedChunk →
      chunkSizeLoop acc valid (digits ++ ext) = .ok (n, valid || !digits.isEmpty, ext) := by
  intro digits
  induction digits with
  | nil =>
    intro acc n valid h _
    rw [hexValueFrom, Option.some.injEq] at h
    subst h
    rcases hext with rfl | ⟨e, rfl⟩
    · simp [chunkSizeLoop]
    · simp [chunkSizeLoop]
  | cons c digits ih =>
    intro acc n valid h hn
    rw [hexValueFrom] at h
    cases hd : hexDigit? c with
    | none => rw [hd] at h; simp at h
    | some d =>
      rw [hd] at h
      simp only at h
      have hge := le_of_hexValueFrom digits h
      have hc : ¬ (c == SEMICOLON) = true := by
        intro hc
        rw [beq_iff_eq.mp hc, hexDigit?_SEMICOLON] at hd
        simp at hd
      have hmax : maxAllowedChunk = 1073741824 := rfl
      rw [List.cons_append, chunkSizeLoop, if_neg hc, hd]
      simp only
      rw [if_neg (by omega), if_neg (by omega), ih h hn]
      simp

theorem isExtChar_iff (b : UInt8) : isExtChar b = true ↔ ExtByte b := by
  unfold isExtChar ExtByte
  simp only [Bool.and_eq_true, Bool.not_eq_true', Bool.and_eq_false_iff, decide_eq_false_iff_not,
    UInt8.not_lt, bne_eq_false_iff_eq, bne_iff_ne, ne_eq]

/-- **A size line is accepted exactly when it is one, for a size within the bound.** -/
theorem parseChunkSize_eq_ok_iff {line : Bytes} {n : ℕ} :
    parseChunkSize line = .ok n ↔ SizeLine n line ∧ n ≤ maxAllowedChunk := by
  constructor
  · intro h
    unfold parseChunkSize at h
    split at h
    · simp at h
    · cases hl : chunkSizeLoop 0 false line with
      | error code => rw [hl] at h; simp at h
      | ok r =>
        obtain ⟨m, v, ext⟩ := r
        rw [hl] at h
        simp only at h
        split_ifs at h with hv hall
        rw [Except.ok.injEq] at h
        subst h
        -- the loop has stopped at the end, or at a semicolon
        obtain ⟨hn, hext, digits, rfl, hval, hvalid⟩ := chunkSizeLoop_ok line (Nat.zero_le _) hl
        refine ⟨⟨digits, ext, rfl, ?_, ?_⟩, hn⟩
        · rw [hexValue, if_neg]
          · exact hval
          · intro hnil
            rw [hvalid, hnil] at hv
            simp at hv
        · rcases hext with rfl | ⟨e, rfl⟩
          · exact Or.inl rfl
          · refine Or.inr ⟨e, rfl, ?_⟩
            intro b hb
            exact (isExtChar_iff b).mp (List.all_eq_true.mp hall b (List.mem_cons_of_mem _ hb))
  · rintro ⟨⟨digits, ext, rfl, hval, hext⟩, hn⟩
    unfold hexValue at hval
    split at hval
    · simp at hval
    · next hne =>
      have hstart : ext = [] ∨ ∃ e, ext = SEMICOLON :: e := by
        rcases hext with rfl | ⟨e, rfl, -⟩
        · exact Or.inl rfl
        · exact Or.inr ⟨e, rfl⟩
      -- no digit makes the number too large, since the whole is not
      have hloop := @chunkSizeLoop_of_digits ext hstart digits 0 n false hval hn
      have hall : ext.all isExtChar = true := by
        rcases hext with rfl | ⟨e, rfl, he⟩
        · rfl
        · rw [List.all_cons, Bool.and_eq_true, List.all_eq_true]
          exact ⟨by decide, fun b hb => (isExtChar_iff b).mpr (he b hb)⟩
      rw [parseChunkSize, if_neg (by simp [hne]), hloop]
      simp [hne, hall]

/-! ### Every message is accepted -/

/-- The decoder waits for a size line. -/
def AtLine (req : HttpRequest) : Prop :=
  req.chunkTrailing = false ∧ req.chunkSize = 0 ∧ BodyWf req

theorem AtLine.next {req : HttpRequest} (h : AtLine req) (data : Bytes) (d : Bool) :
    AtLine ((req.grow data).setChunk 0 false d) :=
  ⟨rfl, rfl, (h.2.2.grow data).setChunk _ _ _⟩

/-- The size line in front of the readable bytes is found. -/
theorem findCrlf_line {n : ℕ} {line rest : Bytes} (h : SizeLine n line) :
    findCrlf (line ++ crlf ++ rest) = some line.length :=
  FirstMatch.find_append_cons h.CR_notMem

/-- The size line of a chunk. -/
theorem decode_sizeLine {buf : ByteQueue} {req : HttpRequest} {line data delim rest : Bytes}
    (hreq : AtLine req) (hline : SizeLine data.length line) (hdata : data ≠ [])
    (hdelim : AnyTwoUpTo maxAllowedChunk data delim)
    (hbuf : buf.items = line ++ crlf ++ data ++ delim ++ rest) :
    decode buf req = decode (buf.consume (line.length + 2))
        (req.setChunk data.length req.chunkTrailing req.chunkDone) ∧
      (buf.consume (line.length + 2)).items = data ++ delim ++ rest := by
  obtain ⟨ht, hs, hwf⟩ := hreq
  have hne : data.length ≠ 0 := by simpa using hdata
  have hfind : findCrlf buf.items = some line.length := by
    rw [hbuf]
    simpa only [List.append_assoc] using @findCrlf_line _ _ (data ++ delim ++ rest) hline
  have hparse : parseChunkSize (buf.items.take line.length) = .ok data.length := by
    rw [hbuf, parseChunkSize_eq_ok_iff]
    refine ⟨?_, hdelim.2⟩
    simpa only [List.append_assoc, List.take_left] using hline
  refine ⟨decode_inl hwf (.sizeLine ht hs hfind hparse hne), ?_⟩
  rw [Fifo.items_consume, hbuf, show line.length + 2 = (line ++ crlf).length by simp [crlf]]
  simp only [List.append_assoc]
  rw [← List.append_assoc line, List.drop_left]

/-- One chunk: its size line, its data, and two more bytes. -/
theorem decode_chunk {buf : ByteQueue} {req : HttpRequest} {line data delim rest : Bytes}
    (hreq : AtLine req) (hline : SizeLine data.length line) (hdata : data ≠ [])
    (hdelim : AnyTwoUpTo maxAllowedChunk data delim)
    (hlim : req.written + data.length ≤ req.maxBodySize)
    (hbuf : buf.items = line ++ crlf ++ data ++ delim ++ rest) :
    decode buf req = decode (buf.consume (line ++ crlf ++ data ++ delim).length)
      ((req.grow data).setChunk 0 false false) := by
  obtain ⟨hsize, hitems₁⟩ := decode_sizeLine hreq hline hdata hdelim hbuf
  obtain ⟨ht, hs, hwf⟩ := hreq
  have hne : data.length ≠ 0 := by simpa using hdata
  have hcr : crlf.length = 2 := rfl
  rw [hsize]
  have hsz₁ : data.length + 2 ≤ (buf.consume (line.length + 2)).size := by
    rw [Fifo.size_eq, hitems₁]
    simp only [List.length_append, hdelim.1]
    omega
  have hwf₁ : BodyWf (req.setChunk data.length req.chunkTrailing req.chunkDone) :=
    hwf.setChunk _ _ _
  rw [decode_inl hwf₁ (.takeAll ht (by rw [chunkSize_setChunk]; exact hne)
    (by rw [chunkSize_setChunk]; omega)
    (by rw [written_setChunk, chunkSize_setChunk, maxBodySize_setChunk]; exact hlim))]
  rw [chunkSize_setChunk, hitems₁, List.append_assoc data, List.take_left, grow_setChunk,
    setChunk_setChunk]
  -- the two bytes behind it
  rw [decode_inl ((hwf.grow data).setChunk _ _ _) (.afterData rfl
    (by rw [Fifo.size_consume]; omega) rfl)]
  rw [setChunk_setChunk, chunkDone_setChunk]
  congr 1
  ext1
  · simp only [Fifo.items_consume, List.drop_drop, List.length_append, hcr, hdelim.1,
      Nat.add_assoc]
  · rfl

/-- The last size line and the two bytes behind it end the message. -/
theorem decode_last {buf : ByteQueue} {req : HttpRequest} {line delim rest : Bytes}
    (hreq : AtLine req) (hline : SizeLine 0 line) (hdelim : delim.length = 2)
    (hbuf : buf.items = line ++ crlf ++ delim ++ rest) :
    decode buf req = (buf.consume (line ++ crlf ++ delim).length,
      { req.setChunk 0 false true with parseState := .complete }) := by
  obtain ⟨ht, hs, hwf⟩ := hreq
  have hcr : crlf.length = 2 := rfl
  have hfind : findCrlf buf.items = some line.length := by
    rw [hbuf]
    simpa only [List.append_assoc] using @findCrlf_line _ _ (delim ++ rest) hline
  have hparse : parseChunkSize (buf.items.take line.length) = .ok 0 := by
    rw [hbuf, parseChunkSize_eq_ok_iff]
    refine ⟨?_, Nat.zero_le _⟩
    simpa only [List.append_assoc, List.take_left] using hline
  have hsz : line.length + 2 + 2 ≤ buf.size := by
    rw [Fifo.size_eq, hbuf]
    simp only [List.length_append, hcr, hdelim]
    omega
  rw [decode_inl hwf (.lastLine ht hs hfind hparse),
    decode_inr (hwf.setChunk _ _ _) (.complete rfl (by rw [Fifo.size_consume]; omega) rfl)]
  refine Prod.ext ?_ ?_
  · ext1
    · simp only [Fifo.items_consume, List.drop_drop, List.length_append, hcr, hdelim]
    · rfl
  · simp only [HttpRequest.setChunk, hs]

/-- A run of chunks. -/
theorem decode_chunks {wire payload : Bytes}
    (h : Chunks (AnyTwoUpTo maxAllowedChunk) wire payload) :
    ∀ {buf : ByteQueue} {req : HttpRequest} {rest : Bytes}, AtLine req →
      req.written + payload.length ≤ req.maxBodySize → buf.items = wire ++ rest →
      ∃ d, decode buf req =
        decode (buf.consume wire.length) ((req.grow payload).setChunk 0 false d) := by
  induction h with
  | nil =>
    intro buf req rest hreq _ _
    refine ⟨req.chunkDone, ?_⟩
    have hsame : (req.grow []).setChunk 0 false req.chunkDone = req := by
      rw [grow_nil, HttpRequest.setChunk, ← hreq.1, ← hreq.2.1]
    rw [hsame, List.length_nil]
    rfl
  | @cons line data delim wire payload hline hdata hdelim _ ih =>
    intro buf req rest hreq hlim hbuf
    rw [List.length_append] at hlim
    have hfirst := decode_chunk hreq hline hdata hdelim (by omega)
      (by rw [hbuf, List.append_assoc])
    have hitems : (buf.consume (line ++ crlf ++ data ++ delim).length).items = wire ++ rest := by
      rw [Fifo.items_consume, hbuf, List.append_assoc _ wire, List.drop_left]
    obtain ⟨d, hrest⟩ := ih (hreq.next data false)
      (by rw [written_setChunk, written_grow, maxBodySize_setChunk, maxBodySize_grow]; omega) hitems
    refine ⟨d, ?_⟩
    rw [hfirst, hrest, grow_setChunk, grow_grow, setChunk_setChunk]
    congr 1
    ext1
    · simp only [Fifo.items_consume, List.drop_drop, List.length_append]
    · rfl

/-- **A run of chunks that is too long is refused**, at the chunk that goes over the limit. -/
theorem decode_chunks_tooLarge {wire payload : Bytes}
    (h : Chunks (AnyTwoUpTo maxAllowedChunk) wire payload) :
    ∀ {buf : ByteQueue} {req : HttpRequest} {rest : Bytes}, AtLine req →
      req.written ≤ req.maxBodySize → req.maxBodySize < req.written + payload.length →
      buf.items = wire ++ rest →
      (decode buf req).2.parseState = .error ∧ (decode buf req).2.errorCode = 413 := by
  induction h with
  | nil =>
    intro buf req rest _ hle hlt _
    rw [List.length_nil] at hlt
    omega
  | @cons line data delim wire payload hline hdata hdelim _ ih =>
    intro buf req rest hreq hle hlt hbuf
    rw [List.append_assoc] at hbuf
    rw [List.length_append] at hlt
    -- the chunk that goes over the limit is the first for which there is no room
    by_cases hfits : req.written + data.length ≤ req.maxBodySize
    · have hitems : (buf.consume (line ++ crlf ++ data ++ delim).length).items = wire ++ rest := by
        rw [Fifo.items_consume, hbuf, List.drop_left]
      rw [decode_chunk hreq hline hdata hdelim hfits hbuf]
      refine ih (hreq.next data false) ?_ ?_ hitems
      · rw [written_setChunk, written_grow, maxBodySize_setChunk, maxBodySize_grow]
        exact hfits
      · rw [written_setChunk, written_grow, maxBodySize_setChunk, maxBodySize_grow]
        omega
    · obtain ⟨hsize, hitems⟩ := decode_sizeLine hreq hline hdata hdelim hbuf
      obtain ⟨ht, -, hwf⟩ := hreq
      have hne : data.length ≠ 0 := by simpa using hdata
      have hsz : data.length ≤ (buf.consume (line.length + 2)).size := by
        rw [Fifo.size_eq, hitems]
        simp only [List.length_append]
        omega
      have hover : req.maxBodySize <
          req.written + min data.length (buf.consume (line.length + 2)).size := by
        rw [Nat.min_eq_left hsz]
        omega
      have hstep := @ChunkStep.tooLarge (buf.consume (line.length + 2))
        (req.setChunk data.length req.chunkTrailing req.chunkDone) ht hne (by omega) hover
      rw [hsize, decode_inr (hwf.setChunk _ _ _) hstep]
      exact ⟨rfl, rfl⟩

/-- **Every message is accepted**, whatever the two bytes behind its chunks are, if
its chunks and its payload keep within the limits. -/
theorem decode_message {buf : ByteQueue} {req : HttpRequest} {wire payload rest : Bytes}
    (hreq : AtLine req) (h : Message (AnyTwoUpTo maxAllowedChunk) wire payload)
    (hlim : req.written + payload.length ≤ req.maxBodySize) (hbuf : buf.items = wire ++ rest) :
    decode buf req = (buf.consume wire.length,
      { (req.grow payload).setChunk 0 false true with parseState := .complete }) := by
  obtain ⟨body, line, delim, rfl, hbody, hline, hdelim⟩ := h
  obtain ⟨d, hchunks⟩ := decode_chunks hbody hreq hlim (by rw [hbuf, List.append_assoc])
  have hitems : (buf.consume body.length).items = line ++ crlf ++ delim ++ rest := by
    rw [Fifo.items_consume, hbuf, List.append_assoc body, List.drop_left]
  rw [hchunks, decode_last (hreq.next payload d) hline hdelim.1 hitems, setChunk_setChunk]
  refine Prod.ext ?_ rfl
  ext1
  · simp only [Fifo.items_consume, List.drop_drop, List.length_append]
  · rfl

/-! ### Only messages are accepted -/

/-- What is still to come of a message, by the decoder's flags: `wire` on the wire,
`payload` for the body. -/
def Rest (req : HttpRequest) (wire payload : Bytes) : Prop :=
  if req.chunkTrailing then
    if req.chunkDone then wire.length = 2 ∧ payload = []
    else ∃ delim w, delim.length = 2 ∧ wire = delim ++ w ∧
      Message (AnyTwoUpTo maxAllowedChunk) w payload
  else if req.chunkSize = 0 then Message (AnyTwoUpTo maxAllowedChunk) wire payload
  else ∃ data delim w p, data.length = req.chunkSize ∧ delim.length = 2 ∧
    wire = data ++ delim ++ w ∧ payload = data ++ p ∧
    Message (AnyTwoUpTo maxAllowedChunk) w p

theorem AtLine.rest_iff {req : HttpRequest} (h : AtLine req) {wire payload : Bytes} :
    Rest req wire payload ↔ Message (AnyTwoUpTo maxAllowedChunk) wire payload := by
  rw [Rest, h.1, h.2.1]
  simp

/-- The rest of a message was in the buffer, and its payload went into the body. -/
def Accepted (buf : ByteQueue) (req : HttpRequest) (s : Decoder) : Prop :=
  ∃ wire payload, Rest req wire payload ∧ buf.items = wire ++ s.1.items ∧
    s.2.body.items = req.body.items ++ payload ∧ s.2.written = req.written + payload.length ∧
    req.written + payload.length ≤ req.maxBodySize

section Rounds

variable {buf : ByteQueue} {req : HttpRequest} {s : Decoder}

/-- Two bytes end a chunk, whatever they are: the rest is a message. -/
theorem Accepted.afterData (h : Accepted (buf.consume 2) (req.setChunk 0 false req.chunkDone) s)
    (ht : req.chunkTrailing = true) (hsize : 2 ≤ buf.size) (hd : req.chunkDone = false) :
    Accepted buf req s := by
  obtain ⟨wire, payload, hrest, hitems, hb, hw, hle⟩ := h
  refine ⟨buf.items.take 2 ++ wire, payload, ?_, ?_, hb, hw, hle⟩
  · rw [Rest] at hrest
    simp only [chunkTrailing_setChunk, chunkSize_setChunk, Bool.false_eq_true, if_false,
      if_true] at hrest
    rw [Rest, if_pos ht, if_neg (by simp [hd])]
    exact ⟨_, wire, buf.length_take hsize, rfl, hrest⟩
  · rw [List.append_assoc, ← hitems, Fifo.items_consume, List.take_append_drop]

/-- The last size line: what is left are the two closing bytes. -/
theorem Accepted.lastLine {pos : ℕ}
    (h : Accepted (buf.consume (pos + 2)) (req.setChunk req.chunkSize true true) s)
    (ht : req.chunkTrailing = false) (hs : req.chunkSize = 0) (hf : findCrlf buf.items = some pos)
    (hp : parseChunkSize (buf.items.take pos) = .ok 0) : Accepted buf req s := by
  obtain ⟨wire, payload, hrest, hitems, hb, hw, hle⟩ := h
  rw [Rest, if_pos (by rfl), if_pos (by rfl)] at hrest
  obtain ⟨hlen, rfl⟩ := hrest
  obtain ⟨hline, -⟩ := parseChunkSize_eq_ok_iff.mp hp
  refine ⟨buf.items.take pos ++ crlf ++ wire, [], ?_, ?_, hb, hw, hle⟩
  · rw [Rest, if_neg (by simp [ht]), if_pos hs]
    exact ⟨[], _, wire, by simp, .nil, hline, hlen, Nat.zero_le _⟩
  · rw [List.append_assoc, ← hitems]
    exact FirstMatch.eq_append_of_find hf

/-- A size line starts a chunk, whose data the rest begins with. -/
theorem Accepted.sizeLine {pos n : ℕ}
    (h : Accepted (buf.consume (pos + 2)) (req.setChunk n req.chunkTrailing req.chunkDone) s)
    (ht : req.chunkTrailing = false) (hs : req.chunkSize = 0) (hf : findCrlf buf.items = some pos)
    (hp : parseChunkSize (buf.items.take pos) = .ok n) (hn : n ≠ 0) : Accepted buf req s := by
  obtain ⟨wire, payload, hrest, hitems, hb, hw, hle⟩ := h
  rw [Rest, if_neg (by simp [ht]), if_neg (by rw [chunkSize_setChunk]; exact hn),
    chunkSize_setChunk] at hrest
  obtain ⟨data, delim, w, p, hlen, hdelim, rfl, rfl, hmsg⟩ := hrest
  obtain ⟨hline, hbound⟩ := parseChunkSize_eq_ok_iff.mp hp
  rw [← hlen] at hline hbound
  have hdata : data ≠ [] := by
    intro hnil
    rw [hnil] at hlen
    exact hn hlen.symm
  refine ⟨buf.items.take pos ++ crlf ++ data ++ delim ++ w, data ++ p, ?_, ?_, hb, hw, hle⟩
  · rw [Rest, if_neg (by simp [ht]), if_pos hs]
    exact Message.cons hline hdata ⟨hdelim, hbound⟩ hmsg
  · have hcut := FirstMatch.eq_append_of_find hf
    rw [show buf.items.drop (pos + crlf.length) = (buf.consume (pos + 2)).items from rfl,
      hitems] at hcut
    simpa only [List.append_assoc] using hcut

/-- The data has come: it goes in front of the payload of the rest. -/
theorem Accepted.takeAll (h : Accepted (buf.consume req.chunkSize)
      ((req.grow (buf.items.take req.chunkSize)).setChunk 0 true false) s)
    (ht : req.chunkTrailing = false) (hs : req.chunkSize ≠ 0) (hge : req.chunkSize ≤ buf.size) :
    Accepted buf req s := by
  have hlen := buf.length_take hge
  obtain ⟨wire, payload, hrest, hitems, hb, hw, hle⟩ := h
  rw [Rest, if_pos (by rfl), if_neg (by simp)] at hrest
  obtain ⟨delim, w, hdelim, rfl, hmsg⟩ := hrest
  refine ⟨buf.items.take req.chunkSize ++ delim ++ w, buf.items.take req.chunkSize ++ payload,
    ?_, ?_, ?_, ?_, ?_⟩
  · rw [Rest, if_neg (by simp [ht]), if_neg hs]
    exact ⟨_, delim, w, payload, hlen, hdelim, rfl, rfl, hmsg⟩
  · rw [List.append_assoc, List.append_assoc, ← List.append_assoc delim, ← hitems,
      Fifo.items_consume, List.take_append_drop]
  · rw [hb, body_setChunk, body_grow, Fifo.items_push, List.append_assoc]
  · rw [hw, written_setChunk, written_grow, List.length_append, Nat.add_assoc]
  · rw [written_setChunk, written_grow, maxBodySize_setChunk, maxBodySize_grow] at hle
    rwa [List.length_append, ← Nat.add_assoc]

/-- The data has come in part: the rest begins with what is missing. -/
theorem Accepted.takeSome (h : Accepted (buf.consume buf.size)
      ((req.grow buf.items).setChunk (req.chunkSize - buf.size) false req.chunkDone) s)
    (ht : req.chunkTrailing = false) (hlt : buf.size < req.chunkSize) : Accepted buf req s := by
  have hlen : buf.items.length = buf.size := rfl
  obtain ⟨wire, payload, hrest, hitems, hb, hw, hle⟩ := h
  rw [Rest, if_neg (by simp), if_neg (by rw [chunkSize_setChunk]; omega),
    chunkSize_setChunk] at hrest
  obtain ⟨data, delim, w, p, hdlen, hdelim, rfl, rfl, hmsg⟩ := hrest
  have happ : (buf.items ++ (data ++ p)).length = buf.items.length + (data ++ p).length :=
    List.length_append
  have hempty : (buf.consume buf.size).items = [] := by
    rw [Fifo.items_consume, Fifo.size_eq, List.drop_length]
  refine ⟨buf.items ++ (data ++ delim ++ w), buf.items ++ (data ++ p), ?_, ?_, ?_, ?_, ?_⟩
  · rw [Rest, if_neg (by simp [ht]), if_neg (by omega)]
    refine ⟨buf.items ++ data, delim, w, p, ?_, hdelim, ?_, ?_, hmsg⟩
    · rw [List.length_append, hlen, hdlen]; omega
    · simp only [List.append_assoc]
    · simp only [List.append_assoc]
  · rw [List.append_assoc, ← hitems, hempty, List.append_nil]
  · rw [hb, body_setChunk, body_grow, Fifo.items_push, List.append_assoc]
  · rw [hw, written_setChunk, written_grow, happ, Nat.add_assoc]
  · rw [written_setChunk, written_grow, maxBodySize_setChunk, maxBodySize_grow] at hle
    rwa [happ, ← Nat.add_assoc]

end Rounds

/-- **Only messages are accepted.** -/
theorem message_of_decode {buf : ByteQueue} {req : HttpRequest} (hwf : BodyWf req)
    (hbody : req.parseState = .body) (hmax : req.written ≤ req.maxBodySize)
    (hc : (decode buf req).2.parseState = .complete) : Accepted buf req (decode buf req) := by
  refine parseChunked_induction
    (P := fun buf req r => req.parseState = .body → req.written ≤ req.maxBodySize →
      r.state.2.parseState = .complete → Accepted buf req r.state)
    ?leave ?round buf req hwf hbody hmax hc
  case leave =>
    intro buf req r hwf h hbody hmax hc
    cases h with
    | wait => rw [Outcome.state_ok, hbody] at hc; simp at hc
    | badLine => simp at hc
    | tooLarge => simp at hc
    | complete ht hsize hd =>
      -- two bytes close the message, whatever they are
      refine ⟨buf.items.take 2, [], ?_, ?_, by simp, by simp, hmax⟩
      · rw [Rest, if_pos ht, if_pos hd]
        exact ⟨buf.length_take hsize, rfl⟩
      · exact (List.take_append_drop 2 buf.items).symm
  case round =>
    -- what a round takes off the buffer goes in front of the message that the rest is
    intro buf req buf' req' hwf h ih hbody hmax hc
    cases h with
    | afterData ht hsize hd => exact (ih hbody hmax hc).afterData ht hsize hd
    | lastLine ht hs hf hp => exact (ih hbody hmax hc).lastLine ht hs hf hp
    | sizeLine ht hs hf hp hn => exact (ih hbody hmax hc).sizeLine ht hs hf hp hn
    | takeAll ht hs hge hlim =>
      have hgrown : req.written + (buf.items.take req.chunkSize).length ≤ req.maxBodySize := by
        rw [buf.length_take hge]
        exact hlim
      exact (ih hbody hgrown hc).takeAll ht hs hge
    | takeSome ht h0 hlt hlim => exact (ih hbody hlim hc).takeSome ht hlt

/-! ### Pieces -/

/-- A chunked request of which nothing has been decoded. -/
structure FreshChunked (req : HttpRequest) : Prop where
  parseState : req.parseState = .body
  chunked : req.chunked = true
  chunkSize : req.chunkSize = 0
  chunkTrailing : req.chunkTrailing = false
  chunkDone : req.chunkDone = false
  written : req.written = 0
  body : req.body.items = []
  limit : req.maxBodySize ≤ req.body.limit

theorem FreshChunked.atLine {req : HttpRequest} (h : FreshChunked req) : AtLine req :=
  ⟨h.chunkTrailing, h.chunkSize, by rw [h.written, Fifo.size_eq, h.body]; rfl, h.limit⟩

/-- The decoder fed piece by piece, from a fresh request and an empty read buffer. -/
def feedChunked (req : HttpRequest) (limit : ℕ) (pieces : List Bytes) : Decoder :=
  pieces.foldl chunkFeed (Fifo.new limit, req)

/-- Pieces do what the whole input does. -/
theorem feedChunked_agree {req : HttpRequest} (h : FreshChunked req) (limit : ℕ)
    {pieces : List Bytes} (hp : ∀ p ∈ pieces, p ≠ []) :
    (feedChunked req limit pieces).Agree (decode ⟨pieces.flatten, limit⟩ req) := by
  have hwf := h.atLine.2.2
  by_cases hnil : pieces = []
  · subst hnil
    have hstuck : Stuck (Fifo.new limit) req := by
      rw [Stuck, h.chunkTrailing, h.chunkSize]
      simp [findCrlf, FirstMatch.find, crlf]
    rw [show (⟨[].flatten, limit⟩ : ByteQueue) = Fifo.new limit from rfl,
      decode_inr hwf (.wait hstuck)]
    exact Decoder.Agree.refl _
  · have hlaw := chunkFeed_law.foldl_flatten pieces (Fifo.new limit, req) hwf hnil hp
    rw [chunkFeed_of_body h.parseState] at hlaw
    exact hlaw

/-- The decoder only ever ends with `COMPLETE`, `ERROR` or still in the body. -/
theorem decode_parseState {buf : ByteQueue} {req : HttpRequest} (hwf : BodyWf req)
    (hbody : req.parseState = .body) :
    (decode buf req).2.parseState = .complete ∨ (decode buf req).2.parseState = .error ∨
      (decode buf req).2.parseState = .body := by
  cases (@decoded_push buf req [0] (by simp) hwf hbody).2.2 with
  | waiting hp => exact Or.inr (Or.inr hp)
  | complete hp => exact Or.inl hp
  | error hp => exact Or.inr (Or.inl hp)

/-- Wherever the input begins with a message in which the two bytes behind each
chunk's data and behind the last size line are let through unseen, those bytes are
CR LF. -/
def CrlfDelimited (maxBody : ℕ) (input : Bytes) : Prop :=
  ∀ wire rest payload, input = wire ++ rest →
    Message (AnyTwoUpTo maxAllowedChunk) wire payload → payload.length ≤ maxBody →
    Message Crlf wire payload

/-- What the grammar asks of the decoder's end on an input: with `COMPLETE`, the
bytes consumed are a message of the coding and the body is its payload; otherwise
the end is `ERROR`, or the body is still being read. -/
def GrammarKept (input : Bytes) (s : Decoder) : Prop :=
  (s.2.parseState = .complete ∧
    ∃ wire, input = wire ++ s.1.items ∧ Message Crlf wire s.2.body.items) ∨
  s.2.parseState = .error ∨ s.2.parseState = .body

/-- **What the decoder accepts** is a message of the coding exactly on the inputs
whose delimiters are CR LF. -/
theorem feedChunked_grammar_iff {req : HttpRequest} (h : FreshChunked req) (limit : ℕ)
    {pieces : List Bytes} (hp : ∀ p ∈ pieces, p ≠ []) :
    GrammarKept pieces.flatten (feedChunked req limit pieces) ↔
    CrlfDelimited req.maxBodySize pieces.flatten := by
  have hline := h.atLine
  have hagree := feedChunked_agree h limit hp
  constructor
  · intro hend wire rest payload hinput hmsg hle
    -- the decoder accepts this message, and messages are unique
    have hdec := @decode_message ⟨pieces.flatten, limit⟩ req _ _ _ hline hmsg
      (by rw [h.written]; omega) hinput
    rw [hdec] at hagree
    rcases hagree with heq | ⟨he, hv⟩
    · rw [heq] at hend
      rcases hend with ⟨-, w, hw, hstrict⟩ | he | hb
      · have hpay : (req.body.push payload).items = payload := by
          rw [Fifo.items_push, h.body, List.nil_append]
        have hstrict' : Message Crlf w payload := by rw [← hpay]; exact hstrict
        obtain ⟨rfl, -⟩ := Message.unique
          (hstrict'.mono fun _ _ => AnyTwo.of_crlf) (hmsg.mono fun _ _ => AnyTwoUpTo.anyTwo)
          (hw.symm.trans hinput)
        exact hstrict'
      · simp at he
      · simp at hb
    · exact absurd (he.symm.trans hv.parseState) (by simp)
  · intro hcond
    rcases @decode_parseState ⟨pieces.flatten, limit⟩ req hline.2.2 h.parseState with
      hc | he | hb
    · obtain ⟨wire, payload, hrest, hitems, hbody, -, hmax⟩ := message_of_decode hline.2.2
        h.parseState (by rw [h.written]; exact Nat.zero_le _) hc
      rw [h.body, List.nil_append] at hbody
      rw [h.written, Nat.zero_add] at hmax
      rcases hagree with heq | ⟨he, hv⟩
      · rw [heq]
        refine Or.inl ⟨hc, wire, hitems, ?_⟩
        rw [hbody]
        exact hcond wire _ payload hitems (hline.rest_iff.mp hrest) hmax
      · exact Or.inr (Or.inl he)
    · rcases hagree with heq | ⟨he', -⟩
      · rw [heq]; exact Or.inr (Or.inl he)
      · exact Or.inr (Or.inl he')
    · rcases hagree with heq | ⟨he', -⟩
      · rw [heq]; exact Or.inr (Or.inr hb)
      · exact Or.inr (Or.inl he')

/-- A chunked request as the header stage leaves it, with a limit on its body. -/
def newChunked (maxBodySize : ℕ) : HttpRequest :=
  { HttpRequest.new maxBodySize with
    parseState := .body
    chunked := true
    maxBodySize := maxBodySize }

theorem freshChunked_newChunked (n : ℕ) : FreshChunked (newChunked n) :=
  ⟨rfl, rfl, rfl, rfl, rfl, rfl, rfl, Nat.le_refl _⟩

theorem feedChunked_grammar_iff_hello :
    GrammarKept (ascii "5\r\nhello\r\n0\r\n\r\n")
        (feedChunked (newChunked 100) 100 [ascii "5\r\nhel", ascii "lo\r\n0\r\n\r\n"]) ↔
      CrlfDelimited 100 (ascii "5\r\nhello\r\n0\r\n\r\n") :=
  @feedChunked_grammar_iff _ (freshChunked_newChunked 100) 100
    [ascii "5\r\nhel", ascii "lo\r\n0\r\n\r\n"] (by decide)

/-- The two bytes behind the last size line may be anything. -/
theorem not_grammarKept_XX :
    ¬ GrammarKept (ascii "1\r\na\r\n0\r\nXX")
      (feedChunked (newChunked 100) 100 [ascii "1\r\na\r\n0\r\nXX"]) := by
  have hstate : (feedChunked (newChunked 100) 100
      [ascii "1\r\na\r\n0\r\nXX"]).2.parseState = .complete := by decide
  have hleft : (feedChunked (newChunked 100) 100
      [ascii "1\r\na\r\n0\r\nXX"]).1.items = [] := by decide
  rintro (⟨-, wire, hwire, hmsg⟩ | he | hb)
  · rw [hleft, List.append_nil] at hwire
    subst hwire
    exact absurd hmsg.crlf_suffix (by decide)
  · rw [hstate] at he; simp at he
  · rw [hstate] at hb; simp at hb

end Webserv
