import Webserv.HttpParser.WholeRequest

/-!
# A request that is underway

Before a request of the grammar has come as a whole, the parser waits: no request is the beginning
of another one, and what has come so far is no error.  Where it waits, the limit of the read
buffer is one of three, and a request that has come to its body is on the server that it is for.

## Main results

* `RequestParts.Accepted.prefix_free` — **no request is the beginning of another one.**
* `request_unique` — a stream begins with one request at most.
* `Underway` — what is known while a request comes in.
* `RequestParts.Accepted.underway` — **every proper beginning of a request is waited behind.**
-/

namespace Webserv

open Bytes ChunkedCoding

/-! ### No request is the beginning of another -/

/-- How much of the read buffer the body of the request takes. -/
def bodyWire (c : Connection) : Bytes :=
  if c.request.parseState = .complete then []
  else if c.request.chunked then
    c.readBuffer.items.take (c.readBuffer.size - (decode c.readBuffer c.request).1.size)
  else c.readBuffer.items.take c.request.contentLength

/-- **The bytes of a body** are told by the head and the bytes behind it. -/
theorem BodyText.wire_eq {c : Connection} {limit maxBody : ℕ} {method uri wire body rest : Bytes}
    {headers : Std.TreeMap Bytes Bytes} (hmax : maxBody ≤ 2147483647)
    (hbuf : c.readBuffer.items = wire ++ rest)
    (hreq : c.request = framing maxBody (headRequest limit method uri headers))
    (h : BodyText maxBody limit method headers[ascii "content-length"]?
      headers[ascii "transfer-encoding"]? wire body) : wire = bodyWire c := by
  unfold bodyWire
  cases h with
  | none h =>
    rw [NothingAnnounced.framing_eq hmax rfl rfl h] at hreq
    rw [if_pos (by rw [hreq])]
  | length h hlimit =>
    rw [LengthAnnounced.framing_eq hmax rfl h] at hreq
    have hstate : c.request.parseState = .body := by rw [hreq]
    have hlength : c.request.contentLength = wire.length := by rw [hreq]
    rw [if_neg (by rw [hstate]; decide), if_neg (by rw [hreq]; exact Bool.false_ne_true), hlength,
      hbuf, List.take_left]
  | chunked h hwire hlimit =>
    rw [ChunksAnnounced.framing_eq maxBody h] at hreq
    have hline : AtLine c.request := by
      rw [hreq]
      exact ⟨rfl, rfl, rfl, Nat.le_refl _⟩
    have hlim : c.request.written + body.length ≤ c.request.maxBodySize := by
      rw [hreq]
      exact (Nat.zero_add body.length).symm ▸ hlimit
    have hsize : c.readBuffer.size = wire.length + rest.length := by
      rw [Fifo.size_eq, hbuf, List.length_append]
    have hstate : c.request.parseState = .body := by rw [hreq]
    rw [if_neg (by rw [hstate]; decide), if_pos (by rw [hreq]),
      decode_message hline hwire hlim hbuf, Fifo.size_consume, hsize, hbuf,
      List.take_left' (by omega)]

section

variable {stat : StatAnswer} {c : Connection} {p p' : RequestParts} {s : Bytes}

/-- **No request is the beginning of another one.** -/
theorem RequestParts.Accepted.prefix_free (hc : c.Fresh)
    (hlimits : ∀ s ∈ c.config :: c.configuration, s.getMaxBody ≤ 2147483647)
    (h : p.Accepted stat c) (h' : p'.Accepted stat c) {rest : Bytes}
    (htext : p.text = p'.text ++ rest) : rest = [] := by
  obtain ⟨hbuf, hreq⟩ := h.behindHead hc []
  obtain ⟨hbuf', hreq'⟩ := h'.behindHead hc rest
  rw [← htext] at hbuf' hreq'
  rw [List.append_nil] at hbuf hreq
  -- both bodies are told by the same connection
  have hwire := h.bodyText.wire_eq (maxBody_server hlimits) hbuf hreq
  have hwire' := h'.bodyText.wire_eq (maxBody_server hlimits) hbuf' hreq'
  rw [hbuf, List.append_nil, hwire.trans hwire'.symm] at hbuf'
  exact List.append_right_eq_self.mp hbuf'.symm

/-- **A stream begins with one request at most**: two requests at the front of it are the same
bytes, leave the same bytes, and are read in the same way. -/
theorem request_unique (hc : c.Fresh)
    (hlimits : ∀ s ∈ c.config :: c.configuration, s.getMaxBody ≤ 2147483647)
    (h : p.Accepted stat c) (h' : p'.Accepted stat c) {x y : Bytes}
    (htext : p.text ++ x = p'.text ++ y) :
    p.text = p'.text ∧ x = y ∧ p.received = p'.received := by
  have hsame : p.text = p'.text := by
    rcases List.append_eq_append_iff.mp htext with ⟨rest, hlong, -⟩ | ⟨rest, hlong, -⟩
    · rw [h'.prefix_free hc hlimits h hlong, List.append_nil] at hlong
      exact hlong.symm
    · rw [h.prefix_free hc hlimits h' hlong, List.append_nil] at hlong
      exact hlong
  refine ⟨hsame, ?_, ?_⟩
  · rw [hsame] at htext
    exact List.append_cancel_left htext
  · obtain ⟨-, hreceived⟩ := h.feed hc hlimits []
    obtain ⟨-, hreceived'⟩ := h'.feed hc hlimits []
    rw [← hreceived, hsame, hreceived']

end

/-- A request without a body. -/
private def plainRequest : RequestParts where
  line := ascii "GET /a HTTP/1.1\r\n"
  method := ascii "GET"
  uri := ascii "/a"
  lines := [ascii "Host: x"]
  host := ascii "x"
  wire := []
  body := []

private theorem accepted_plainRequest :
    plainRequest.Accepted (fun _ => none) (Connection.new 5 plainServer 0) where
  requestLine := ⟨by decide, by decide +kernel, by decide, by decide +kernel, [], [CR], [],
    0, 0, 0, by decide +kernel, by decide, by decide, by decide⟩
  line := ⟨by decide, by decide, by decide +kernel⟩
  unbroken := by decide +kernel
  lines := acceptedLines_cons_iff.mpr ⟨by decide, ascii "host", by decide, by decide, by simp,
    by simp, acceptedLines_nil _⟩
  host := ⟨ascii "x", 0, by decide +kernel, by decide +kernel⟩
  body := .none ⟨by decide, Or.inl ⟨by decide +kernel, by decide +kernel⟩⟩

theorem request_unique_pipelined :
    plainRequest.text = plainRequest.text ∧ ascii "GET" = ascii "GET" ∧
      plainRequest.received = plainRequest.received :=
  request_unique (Connection.fresh_new 5 plainServer 0) (by decide) accepted_plainRequest
    accepted_plainRequest rfl

/-! ### What the parser does with the buffers -/

/-- The read buffer does not grow, and the write buffer keeps to the limit of the server. -/
structure Connection.Consumes (c c' : Connection) : Prop where
  size_le : c'.readBuffer.size ≤ c.readBuffer.size
  limit : c.writeBuffer.limit = c.config.getMaxBody →
    c'.writeBuffer.limit = c'.config.getMaxBody

namespace Connection.Consumes

theorem refl (c : Connection) : c.Consumes c := ⟨Nat.le_refl _, id⟩

theorem trans {c₁ c₂ c₃ : Connection} (h : c₁.Consumes c₂) (h' : c₂.Consumes c₃) :
    c₁.Consumes c₃ := ⟨h'.size_le.trans h.size_le, h'.limit ∘ h.limit⟩

/-- Only the input and the request are other ones. -/
theorem input (c : Connection) (req : HttpRequest) {rb : ByteQueue}
    (h : rb.size ≤ c.readBuffer.size) : c.Consumes { c with readBuffer := rb, request := req } :=
  ⟨h, id⟩

theorem request (c : Connection) (req : HttpRequest) : c.Consumes { c with request := req } :=
  input c req (Nat.le_refl _)

end Connection.Consumes

open Connection.Consumes (input request)

theorem size_consume_le (buf : ByteQueue) (n : ℕ) : (buf.consume n).size ≤ buf.size := by
  rw [Fifo.size_consume]
  exact Nat.sub_le _ _

theorem consumes_parseRequestLine (stat : StatAnswer) (c : Connection) :
    c.Consumes (parseRequestLine stat c) := by
  unfold parseRequestLine
  dsimp only
  split
  · exact .refl c
  · split
    · exact .refl c
    · exact request c _
    · unfold finishRequestLine
      dsimp only
      split
      · split_ifs
        all_goals first | exact request c _ | exact input c _ (size_consume_le _ _)
      · exact request c _

theorem consumes_applyLocationBodyLimit (c : Connection) :
    c.Consumes (applyLocationBodyLimit c) := by
  unfold applyLocationBodyLimit
  split
  · exact .refl c
  · exact input c _ (Nat.le_refl _)

theorem consumes_requestLineStage (stat : StatAnswer) (c : Connection) :
    c.Consumes (requestLineStage stat c) := by
  unfold requestLineStage
  extract_lets _ c₁
  have hstart : c.Consumes c₁ := by
    dsimp only [c₁]
    split
    · exact request c _
    · exact .refl c
  clear_value c₁
  split
  · have hline := hstart.trans (consumes_parseRequestLine stat c₁)
    split
    · exact hline
    · exact hline.trans (consumes_applyLocationBodyLimit _)
  · exact hstart

theorem consumes_hostChecks (c : Connection) : c.Consumes (hostChecks c) := by
  have hover : ∀ name, c.Consumes (overrideHost c name) := by
    intro name
    unfold overrideHost
    split
    · exact ⟨Nat.le_refl _, fun _ => rfl⟩
    · exact .refl c
  unfold hostChecks
  dsimp only
  split
  · split
    · exact request c _
    · exact .refl c
  · split
    · exact request c _
    · exact (hover _).trans (request _ _)

theorem consumes_finishHeaders (c : Connection) : c.Consumes (finishHeaders c) := by
  unfold finishHeaders
  dsimp only
  split
  · exact consumes_hostChecks c
  · exact (consumes_hostChecks c).trans (request _ _)

theorem size_headerLoop_le (s : ByteQueue × HttpRequest) :
    (headerLoop s).1.1.size ≤ s.1.size := by
  refine WhileLoop.loop_induction headerRound_decreasing
    (P := fun s r => r.1.1.size ≤ s.1.size) ?leave ?round s
  case leave =>
    rintro ⟨buf, req⟩ r hr
    have hstep := headerStep_headerRound buf req
    rw [hr] at hstep
    cases hstep with
    | wait => exact Nat.le_refl _
    | tooLong => exact Nat.le_refl _
    | blank => exact size_consume_le buf _
    | bad => exact size_consume_le buf _
  case round =>
    intro s s' hs ih
    exact ih.trans (Nat.le_of_lt (headerRound_decreasing s s' hs))

theorem consumes_headerStage (c : Connection) : c.Consumes (headerStage c) := by
  have hloop := size_headerLoop_le (c.readBuffer, c.request)
  unfold headerStage parseHeaders afterHeaderLoop
  dsimp only
  split
  · split
    · exact (input c _ hloop).trans (consumes_finishHeaders _)
    · exact input c _ hloop
  · exact .refl c

/-- Reading a body takes bytes off the buffer, and does not touch the path. -/
structure TakesBody (s t : ByteQueue × HttpRequest) : Prop where
  size_le : t.1.size ≤ s.1.size
  path : t.2.path = s.2.path

theorem TakesBody.refl (s : ByteQueue × HttpRequest) : TakesBody s s := ⟨Nat.le_refl _, rfl⟩

theorem TakesBody.trans {s t u : ByteQueue × HttpRequest} (h : TakesBody s t)
    (h' : TakesBody t u) : TakesBody s u := ⟨h'.size_le.trans h.size_le, h'.path.trans h.path⟩

theorem takesBody_takeBody (buf : ByteQueue) (req : HttpRequest) (n : ℕ) :
    TakesBody (buf, req) (takeBody buf req n).state := by
  unfold takeBody
  split
  · exact .refl _
  · exact ⟨size_consume_le buf n, rfl⟩

theorem takesBody_parseBody (buf : ByteQueue) (req : HttpRequest) :
    TakesBody (buf, req) (parseBody buf req).state := by
  unfold parseBody
  dsimp only
  split_ifs
  · exact .refl _
  · exact ⟨Nat.le_refl _, rfl⟩
  · exact takesBody_takeBody buf req _
  · exact ⟨Nat.le_refl _, rfl⟩
  · have htake := takesBody_takeBody buf req (min (req.contentLength - req.written) buf.size)
    cases ht : takeBody buf req (min (req.contentLength - req.written) buf.size) with
    | bodyLimit t =>
      rw [ht] at htake
      exact htake
    | ok t u =>
      rw [ht] at htake
      rw [Outcome.andThen_ok, Outcome.state_ok, endOfBody]
      split
      · exact ⟨Nat.zero_le _, htake.path⟩
      · exact htake

/-- One stage of the loop over the chunks. -/
theorem takesBody_chunkRound (s : ByteQueue × HttpRequest) :
    match chunkRound s with
    | .inl t => TakesBody s t
    | .inr o => TakesBody s o.state := by
  obtain ⟨buf, req⟩ := s
  unfold chunkRound
  dsimp only
  by_cases htrailing : req.chunkTrailing = true
  · rw [if_pos htrailing]
    split_ifs
    · exact .refl _
    · exact ⟨size_consume_le buf 2, rfl⟩
    · exact ⟨size_consume_le buf 2, rfl⟩
  · rw [if_neg htrailing]
    by_cases hsize : req.chunkSize = 0
    · rw [if_pos hsize]
      cases findCrlf buf.items with
      | none => exact .refl _
      | some pos =>
        dsimp only
        split
        · next ho => split at ho <;> cases ho <;> exact ⟨size_consume_le buf _, rfl⟩
        · next ho => split at ho <;> cases ho; exact ⟨size_consume_le buf _, rfl⟩
    · rw [if_neg hsize]
      split_ifs
      · exact .refl _
      · exact ⟨Nat.le_refl _, rfl⟩
      · have htake := takesBody_takeBody buf req (min req.chunkSize buf.size)
        cases ht : takeBody buf req (min req.chunkSize buf.size) with
        | bodyLimit t =>
          rw [ht] at htake
          exact htake
        | ok t u =>
          rw [ht] at htake
          dsimp only
          split_ifs
          · exact ⟨htake.size_le, htake.path⟩
          · exact ⟨htake.size_le, htake.path⟩

theorem takesBody_parseChunked (buf : ByteQueue) (req : HttpRequest) :
    TakesBody (buf, req) (parseChunked buf req).state := by
  refine WhileLoop.loop_induction chunkRound_decreasing
    (P := fun s o => TakesBody s o.state) ?leave ?round (buf, req)
  case leave =>
    intro s o ho
    have hround := takesBody_chunkRound s
    rwa [ho] at hround
  case round =>
    intro s t hs ih
    have hround := takesBody_chunkRound s
    rw [hs] at hround
    exact hround.trans ih

/-- The body stage, as far as buffers and path go. -/
theorem feedBody_takes (c : Connection) : ∃ s : ByteQueue × HttpRequest,
    (feedBody c).state = { c with readBuffer := s.1, request := s.2 } ∧
      TakesBody (c.readBuffer, c.request) s := by
  unfold feedBody
  split
  · dsimp only
    have htakes : TakesBody (c.readBuffer, c.request)
        ((if c.request.chunked then parseChunked else parseBody) c.readBuffer
          c.request).state := by
      split
      · exact takesBody_parseChunked _ _
      · exact takesBody_parseBody _ _
    refine ⟨_, ?_, htakes⟩
    cases (if c.request.chunked then parseChunked else parseBody) c.readBuffer c.request with
    | ok s u => rfl
    | bodyLimit s => rfl
  · exact ⟨(c.readBuffer, c.request), rfl, .refl _⟩

theorem consumes_feedBody (c : Connection) : c.Consumes (feedBody c).state := by
  obtain ⟨s, heq, htakes⟩ := feedBody_takes c
  rw [heq]
  exact input c _ htakes.size_le

theorem path_feedBody (c : Connection) : (feedBody c).state.request.path = c.request.path := by
  obtain ⟨s, heq, htakes⟩ := feedBody_takes c
  rw [heq]
  exact htakes.path

theorem path_headerStage (c : Connection) : (headerStage c).request.path = c.request.path := by
  obtain ⟨-, headers, state, code, hreq, -⟩ := headerLoop_frame (c.readBuffer, c.request)
  have hpath : (headerLoop (c.readBuffer, c.request)).1.2.path = c.request.path := by rw [hreq]
  unfold headerStage parseHeaders afterHeaderLoop
  dsimp only
  split
  · split
    · exact (finishHeaders_cases _).1.trans hpath
    · exact hpath
  · rfl

/-- **The parser takes bytes off the read buffer.** -/
theorem consumes_feed (stat : StatAnswer) (c : Connection) : c.Consumes (feed stat c).state := by
  unfold feed
  split
  · exact .refl c
  · exact (((consumes_requestLineStage stat c).trans (consumes_headerStage _)).trans
      (consumes_applyLocationBodyLimit _)).trans (consumes_feedBody _)

/-- Behind the request line the parser does not touch the path. -/
theorem path_feed (stat : StatAnswer) {c : Connection} (hidle : c.request.parseState ≠ .idle)
    (hline : c.request.parseState ≠ .requestLine) :
    (feed stat c).state.request.path = c.request.path := by
  unfold feed
  split
  · rfl
  · rw [path_feedBody, (applyLocationBodyLimit_frame _).1.path, path_headerStage,
      requestLineStage_of_ne hidle hline]

/-- Behind the header section it does not touch the server. -/
theorem config_feed (stat : StatAnswer) {c : Connection} (h : c.request.parseState = .body) :
    (feed stat c).state.config = c.config := by
  have hsame : headerStage (requestLineStage stat c) = c := by
    rw [requestLineStage_of_ne (by rw [h]; decide) (by rw [h]; decide),
      headerStage_of_ne (by rw [h]; decide)]
  unfold feed
  split
  · rfl
  · obtain ⟨s, heq, -⟩ := feedBody_takes (applyLocationBodyLimit (headerStage
      (requestLineStage stat c)))
    rw [heq]
    exact (applyLocationBodyLimit_server _).2.1.trans (congrArg Connection.config hsame)

/-! ### Proper beginnings -/

/-- What is known of `c'`, which has come from `c` behind a proper beginning `s` of a request. -/
structure Underway (c : Connection) (p : RequestParts) (s : Bytes) (c' : Connection) : Prop where
  waits : c'.request.parseState.terminal = false
  size_le : c'.readBuffer.size ≤ s.length
  limit : c'.readBuffer.limit = c.readBuffer.limit ∨
    c'.readBuffer.limit = effectiveLimit c.config (requestPath p.uri) ∨
    c'.readBuffer.limit = p.limit c
  atBody : c'.request.parseState = .body →
    c'.config = p.server c ∧ c'.request.path = requestPath p.uri

section

variable {stat : StatAnswer} {c : Connection} {p : RequestParts} {s more : Bytes}

theorem Connection.Fresh.idle (hc : c.Fresh) : c.request.parseState = .idle := by
  obtain ⟨⟨limit, hnew⟩, -⟩ := hc
  rw [hnew]
  rfl

theorem feedPiece_fresh (hc : c.Fresh) (s : Bytes) :
    feedPiece stat c s = (feed stat (c.deliver s)).state := by
  rw [feedPiece, if_neg (by rw [hc.idle]; decide)]

theorem onServer_fresh (hc : c.Fresh) (s : Bytes) :
    OnServer c.config c.configuration (c.deliver s) := by
  unfold OnServer
  rw [request_deliver, hc.idle]
  exact ⟨rfl, rfl⟩

/-- **A request that has come, in whatever pieces, is read.** -/
theorem RequestParts.Accepted.foldl_complete (hc : c.Fresh)
    (hlimits : ∀ s ∈ c.config :: c.configuration, s.getMaxBody ≤ 2147483647)
    (h : p.Accepted stat c) {pieces : List Bytes} (hne : pieces ≠ []) (hp : ∀ q ∈ pieces, q ≠ [])
    (htext : pieces.flatten = p.text) :
    (pieces.foldl (feedPiece stat) c).request.parseState = .complete ∧
      (pieces.foldl (feedPiece stat) c).request.received = p.received := by
  have hsame := ((feedPiece_law stat).foldl_flatten pieces c hc.resumable hne hp).sameParse
  obtain ⟨hend, hreceived⟩ := h.feed hc hlimits []
  rw [List.append_nil, ← htext, ← feedPiece_fresh hc] at hend hreceived
  have hcomplete := hsame.verdict.parseState.trans hend
  exact ⟨hcomplete, (hsame.received (by simp [hcomplete])).trans hreceived⟩

/-- The rest of the request completes it. -/
theorem RequestParts.Accepted.completes (hc : c.Fresh)
    (hlimits : ∀ s ∈ c.config :: c.configuration, s.getMaxBody ≤ 2147483647)
    (h : p.Accepted stat c) (hs : s ≠ []) (hmore : more ≠ []) (htext : p.text = s ++ more) :
    (feedPiece stat (feedPiece stat c s) more).request.parseState = .complete ∧
      (feedPiece stat (feedPiece stat c s) more).request.received = p.received :=
  @foldl_complete stat c p hc hlimits h [s, more] (by simp) (by simp [hs, hmore])
    (by simp [htext])

/-- **What has come of a request is neither a request nor an error.** -/
theorem RequestParts.Accepted.waits (hc : c.Fresh)
    (hlimits : ∀ s ∈ c.config :: c.configuration, s.getMaxBody ≤ 2147483647)
    (h : p.Accepted stat c) (hs : s ≠ []) (hmore : more ≠ []) (htext : p.text = s ++ more) :
    (feedPiece stat c s).request.parseState.terminal = false := by
  by_contra hterminal
  rw [Bool.not_eq_false] at hterminal
  -- at its end the parser takes no more
  obtain ⟨hend, -⟩ := h.completes hc hlimits hs hmore htext
  rw [feedPiece, if_pos hterminal, feedPiece_fresh hc] at hend
  obtain ⟨p', rest, hs', h'⟩ := exists_parts hc hlimits hend
  have hrest : rest ++ more = [] := by
    apply h.prefix_free hc hlimits h'
    rw [htext, hs', List.append_assoc]
  exact hmore (List.append_eq_nil_iff.mp hrest).2

/-- Up to the end of the request line the read buffer has the limit it had. -/
theorem limit_feed_of_path (hc : c.Fresh)
    (hpath : (feed stat (c.deliver s)).state.request.path = [])
    (hgood : (feed stat (c.deliver s)).state.request.parseState ≠ .error) :
    (feed stat (c.deliver s)).state.readBuffer.limit = c.readBuffer.limit := by
  have hkept : (feed stat (c.deliver s)).state.request.path =
      (requestLineStage stat (c.deliver s)).request.path := by
    rw [feed_deliver hc, path_feedBody, Connection.behindHead,
      (applyLocationBodyLimit_frame _).1.path, path_headerStage]
  rw [hkept] at hpath
  rcases @requestLineStage_resume stat (c.deliver s) [] (hc.resumable.deliver s) with
    ⟨hstate, heq, -⟩ | ⟨-, ⟨-, hidle, -⟩ | ⟨-, -, herror | ⟨-, hlimit⟩⟩⟩
  · -- the line has not come to its end
    have hnone : (requestLineStage stat (c.deliver s)).request.path.isEmpty = true := by
      rw [hpath]
      rfl
    rw [feed_deliver hc, Connection.behindHead, headerStage_of_ne (by rw [hstate]; decide),
      applyLocationBodyLimit, if_pos hnone, feedBody_of_ne (by rw [hstate]; decide),
      Outcome.state_ok, heq]
    rfl
  · exact absurd hc.idle hidle
  · rw [feed_deliver hc, Connection.behindHead, headerStage_of_ne (by rw [herror]; decide)] at hgood
    have hstate : (applyLocationBodyLimit
        (requestLineStage stat (c.deliver s))).request.parseState = .error :=
      (applyLocationBodyLimit_frame _).1.parseState.trans herror
    rw [feedBody_of_ne (by rw [hstate]; decide)] at hgood
    exact absurd hstate hgood
  · exact absurd hpath hlimit.path_ne

/-- **Every proper beginning of a request is waited behind.** -/
theorem RequestParts.Accepted.underway (hc : c.Fresh)
    (hlimits : ∀ s ∈ c.config :: c.configuration, s.getMaxBody ≤ 2147483647)
    (h : p.Accepted stat c) (hs : s ≠ []) (hmore : more ≠ []) (htext : p.text = s ++ more) :
    Underway c p s (feedPiece stat c s) := by
  have hwaits := h.waits hc hlimits hs hmore htext
  obtain ⟨hend, hreceived⟩ := h.completes hc hlimits hs hmore htext
  have hresumable := (feedPiece_law stat).keeps c s hc.resumable
  rw [feedPiece, if_neg (by rw [hwaits]; exact Bool.false_ne_true)] at hend hreceived
  rw [feedPiece_fresh hc] at hwaits hend hreceived hresumable ⊢
  have hserver := (onServer_fresh hc s).feed stat
  have hsize := (consumes_feed stat (c.deliver s)).size_le
  have hlen : (c.deliver s).readBuffer.size = s.length := by
    obtain ⟨-, hitems⟩ := hc
    show (c.readBuffer.push s).size = _
    rw [Fifo.size_push, Fifo.size_eq, hitems, List.length_nil, Nat.zero_add]
  have hline := @limit_feed_of_path stat c s hc
  generalize (Webserv.feed stat (c.deliver s)).state = c₁ at *
  -- what the rest of the request leaves alone is what it is at the end
  have hpath : c₁.request.parseState ≠ .idle → c₁.request.parseState ≠ .requestLine →
      c₁.request.path = requestPath p.uri := by
    intro hidle hnot
    have hkept : (Webserv.feed stat (c₁.deliver more)).state.request.path = c₁.request.path :=
      path_feed stat hidle hnot
    rw [← hkept]
    exact congrArg Received.path hreceived
  have hhere : c₁.request.parseState = .body → c₁.config = p.server c := by
    intro hbody
    have hdelivered : OnServer c.config c.configuration (c₁.deliver more) :=
      hserver.congr rfl rfl rfl rfl
    have hchosen := hdelivered.feed stat
    have hkept : (Webserv.feed stat (c₁.deliver more)).state.config = c₁.config :=
      config_feed stat hbody
    have hhost : (Webserv.feed stat (c₁.deliver more)).state.request.headers[ascii "host"]? =
        some p.host := by
      rw [show (Webserv.feed stat (c₁.deliver more)).state.request.headers =
        p.headers.insert (ascii "host") p.host from congrArg Received.headers hreceived,
        Std.TreeMap.getElem?_insert_self]
    unfold OnServer at hchosen
    rw [hend] at hchosen
    rw [← hkept]
    exact hchosen.2.trans (by rw [hhost]; rfl)
  refine ⟨hwaits, hlen ▸ hsize, ?_, fun hbody => ⟨hhere hbody, hpath ?_ ?_⟩⟩
  · unfold OnServer at hserver
    cases hstate : c₁.request.parseState with
    | idle => exact Or.inl (hline (hresumable.path_eq (Or.inl hstate)) (by simp [hstate]))
    | requestLine => exact Or.inl (hline (hresumable.path_eq (Or.inr hstate)) (by simp [hstate]))
    | headers =>
      rw [hstate] at hserver
      rw [(hresumable.limit (Or.inl hstate)).readBuffer,
        hpath (by simp [hstate]) (by simp [hstate]), hserver.2]
      exact Or.inr (Or.inl rfl)
    | body =>
      rw [(hresumable.limit (Or.inr hstate)).readBuffer,
        hpath (by simp [hstate]) (by simp [hstate]), hhere hstate]
      exact Or.inr (Or.inr rfl)
    | complete =>
      rw [hstate] at hwaits
      cases hwaits
    | error =>
      rw [hstate] at hwaits
      cases hwaits
  · rw [hbody]
    decide
  · rw [hbody]
    decide

/-- Pieces that leave the parser waiting do what their concatenation does. -/
theorem foldl_feedPiece_eq (hc : c.Fresh) {pieces : List Bytes} (hne : pieces ≠ [])
    (hp : ∀ q ∈ pieces, q ≠ [])
    (hwaits : (feedPiece stat c pieces.flatten).request.parseState.terminal = false) :
    pieces.foldl (feedPiece stat) c = feedPiece stat c pieces.flatten := by
  rcases (feedPiece_law stat).foldl_flatten pieces c hc.resumable hne hp with heq | ⟨hend, hsame⟩
  · exact heq
  · rw [hsame.verdict.parseState, hwaits] at hend
    cases hend

/-- **While a request comes in, in whatever pieces, it is underway.** -/
theorem RequestParts.Accepted.underway_pieces (hc : c.Fresh)
    (hlimits : ∀ s ∈ c.config :: c.configuration, s.getMaxBody ≤ 2147483647)
    (h : p.Accepted stat c) {pieces : List Bytes} (hp : ∀ q ∈ pieces, q ≠ []) (hmore : more ≠ [])
    (htext : p.text = pieces.flatten ++ more) :
    Underway c p pieces.flatten (pieces.foldl (feedPiece stat) c) := by
  by_cases hnil : pieces = []
  · subst hnil
    refine ⟨?_, ?_, Or.inl rfl, fun hbody => ?_⟩
    · rw [List.foldl_nil, hc.idle]
      rfl
    · rw [List.foldl_nil, Fifo.size_eq, hc.2]
      exact Nat.le_refl _
    · rw [List.foldl_nil, hc.idle] at hbody
      cases hbody
  · have hs : pieces.flatten ≠ [] := by
      obtain ⟨q, rest, rfl⟩ := List.exists_cons_of_ne_nil hnil
      have hq := hp q List.mem_cons_self
      simp [hq]
    have hunderway := h.underway hc hlimits hs hmore htext
    rw [foldl_feedPiece_eq hc hnil hp hunderway.waits]
    exact hunderway

end

end Webserv
