import Webserv.HttpParser.Feed
import Webserv.HttpParser.ChunkedRun

/-!
# Resuming the stages of the parser

Each stage of `feed`, run on the readable bytes and then on the same bytes with more
behind them.  A stage that has come to a decision makes the same one; a stage that
waits leaves a state from which it goes on as if it had seen everything at once.
The bytes behind are delivered with `deliver`, and every lemma here moves `deliver`
through one stage.
-/

namespace Webserv

open Bytes

/-- More bytes behind the readable ones, whatever the limit of the read buffer.  It says what the
parser does with bytes that have come; whether they come is for `Connection::recv` to say, which
throws where they do not fit. -/
def Connection.deliver (c : Connection) (bytes : Bytes) : Connection :=
  { c with readBuffer := c.readBuffer.push bytes }

@[simp] theorem request_deliver (c : Connection) (b : Bytes) : (c.deliver b).request = c.request :=
  rfl

@[simp] theorem config_deliver (c : Connection) (b : Bytes) : (c.deliver b).config = c.config := rfl

@[simp] theorem readBuffer_deliver (c : Connection) (b : Bytes) :
    (c.deliver b).readBuffer = c.readBuffer.push b := rfl

theorem deliver_deliver (c : Connection) (a b : Bytes) :
    (c.deliver a).deliver b = c.deliver (a ++ b) := by
  simp [Connection.deliver, Fifo.push_push]

/-! ### The request line -/

/-- The marks of the scan that end a slice stand before `p`. -/
def RLScan.Before (sc : RLScan) (p : ℕ) : Prop :=
  (∀ e ∈ sc.methodEnd, e ≤ p) ∧ ∀ e ∈ sc.uriEnd, e ≤ p

theorem RLScan.Before.mono {sc : RLScan} {p q : ℕ} (h : sc.Before p) (hpq : p ≤ q) :
    sc.Before q :=
  ⟨fun e he => (h.1 e he).trans hpq, fun e he => (h.2 e he).trans hpq⟩

/-- One character only ever marks its own place. -/
theorem rlStep_before {sc : RLScan} {p : ℕ} {ch : UInt8} (h : sc.Before p) :
    (∀ sc', rlStep sc p ch = .goOn sc' → sc'.Before p) ∧
      ∀ sc', rlStep sc p ch = .done sc' → sc'.Before p := by
  obtain ⟨hm, hu⟩ := h
  constructor
  · intro sc' hs
    unfold rlStep rlExpect at hs
    split at hs
    all_goals
      split_ifs at hs <;> simp only [RLNext.goOn.injEq] at hs <;> subst hs <;>
        first
          | exact ⟨hm, hu⟩
          | exact ⟨by simp, hu⟩
          | exact ⟨hm, by simp⟩
  · intro sc' hs
    unfold rlStep rlExpect at hs
    split at hs
    all_goals
      split_ifs at hs <;> simp only [RLNext.done.injEq] at hs <;> subst hs <;>
        exact ⟨hm, hu⟩

/-- A complete line stays as it is when more follows it, and ends inside the bytes. -/
theorem rlScan_append {b : Bytes} : ∀ (bs : Bytes) {sc : RLScan} {p : ℕ}, sc.Before p →
    (rlScan sc p bs ≠ .more → rlScan sc p (bs ++ b) = rlScan sc p bs) ∧
      ∀ sc' q, rlScan sc p bs = .line sc' q → q ≤ p + bs.length ∧ sc'.Before q := by
  intro bs
  induction bs with
  | nil =>
    intro sc p _
    exact ⟨fun h => absurd rfl h, fun sc' q h => by simp [rlScan] at h⟩
  | cons ch rest ih =>
    intro sc p hsc
    obtain ⟨hgo, hdone⟩ := @rlStep_before sc p ch hsc
    rw [List.cons_append, rlScan, rlScan]
    cases hs : rlStep sc p ch with
    | goOn sc' =>
      obtain ⟨happ, hline⟩ := ih ((hgo sc' hs).mono (Nat.le_succ p))
      refine ⟨happ, ?_⟩
      intro sc'' q h
      obtain ⟨hq, hb⟩ := hline sc'' q h
      exact ⟨by rw [List.length_cons]; omega, hb⟩
    | done sc' =>
      refine ⟨fun _ => rfl, ?_⟩
      intro sc'' q h
      simp only [RLEnd.line.injEq] at h
      obtain ⟨rfl, rfl⟩ := h
      exact ⟨by rw [List.length_cons]; omega, (hdone sc' hs).mono (Nat.le_succ p)⟩
    | error code => exact ⟨fun _ => rfl, fun sc'' q h => by simp at h⟩

theorem slice_append {bs b : Bytes} {s e : ℕ} (he : e ≤ bs.length) :
    slice (bs ++ b) s e = slice bs s e := by
  unfold slice
  rcases Nat.le_total s e with hse | hes
  · rw [List.drop_append_of_le_length (by omega), List.take_append_of_le_length]
    rw [List.length_drop]
    omega
  · simp [Nat.sub_eq_zero_of_le hes]

theorem acceptRequestLine_deliver {stat : StatAnswer} {c : Connection} {p : ℕ} (b : Bytes)
    (hp : p ≤ c.readBuffer.size) (req : HttpRequest) (rawUri : Bytes) (major minor : ℤ) :
    acceptRequestLine stat (c.deliver b) req rawUri major minor p =
      (acceptRequestLine stat c req rawUri major minor p).deliver b := by
  simp only [acceptRequestLine, Connection.deliver, Fifo.consume_push c.readBuffer b hp]
  rfl

/-- The complete line is read the same way with more bytes behind it. -/
theorem finishRequestLine_deliver {stat : StatAnswer} {c : Connection} {sc : RLScan} {p : ℕ}
    (b : Bytes) (hp : p ≤ c.readBuffer.size) (hsc : sc.Before p) :
    finishRequestLine stat (c.readBuffer.items ++ b) sc p (c.deliver b) =
      (finishRequestLine stat c.readBuffer.items sc p c).deliver b := by
  have hlen : p ≤ c.readBuffer.items.length := hp
  unfold finishRequestLine
  split
  · next ms me us hms hme hus =>
    have hme' : me ≤ c.readBuffer.items.length := (hsc.1 me hme).trans hlen
    have hue' : sc.uriEnd.getD p ≤ c.readBuffer.items.length := by
      cases hu : sc.uriEnd with
      | none => exact hlen
      | some e => exact (hsc.2 e hu).trans hlen
    simp only [request_deliver, slice_append hme', slice_append hue',
      acceptRequestLine_deliver _ hp]
    split_ifs <;> rfl
  · rfl

theorem cleanPath_ne_nil {path : Bytes} (h : path ≠ []) : cleanPath path ≠ [] := by
  have hsq : squeezeSlashes false path ≠ [] := by
    cases path with
    | nil => exact absurd rfl h
    | cons a rest => simp only [squeezeSlashes]; split <;> simp
  unfold cleanPath dropTrailingSlash
  split
  · next hlen =>
    rw [Bool.and_eq_true, decide_eq_true_eq] at hlen
    intro hnil
    have := congrArg List.length hnil
    rw [List.length_dropLast, List.length_nil] at this
    omega
  · exact hsq

theorem requestPath_ne_nil (rawUri : Bytes) : requestPath rawUri ≠ [] := by
  unfold requestPath
  apply cleanPath_ne_nil
  split
  · simp
  · next h => simpa [List.isEmpty_iff] using h

/-- A complete request line ends in an error or at the headers, with a path. -/
theorem finishRequestLine_cases (stat : StatAnswer) (bs : Bytes) (sc : RLScan) (p : ℕ)
    (c : Connection) :
    (finishRequestLine stat bs sc p c).request.written = c.request.written ∧
      (finishRequestLine stat bs sc p c).request.body = c.request.body ∧
      (finishRequestLine stat bs sc p c).request.maxBodySize = c.request.maxBodySize ∧
      ((finishRequestLine stat bs sc p c).request.parseState = .error ∨
        ((finishRequestLine stat bs sc p c).request.parseState = .headers ∧
          (finishRequestLine stat bs sc p c).request.path ≠ [])) := by
  simp only [finishRequestLine]
  split
  · split_ifs
    all_goals try exact ⟨rfl, rfl, rfl, Or.inl rfl⟩
    simp only [acceptRequestLine]
    split
    · exact ⟨rfl, rfl, rfl, Or.inl rfl⟩
    · exact ⟨rfl, rfl, rfl, Or.inl rfl⟩
    · exact ⟨rfl, rfl, rfl, Or.inr ⟨rfl, requestPath_ne_nil _⟩⟩
  · exact ⟨rfl, rfl, rfl, Or.inl rfl⟩

/-- A request line that is decided is decided the same way with more behind it. -/
theorem parseRequestLine_deliver {stat : StatAnswer} {c : Connection} (b : Bytes)
    (h : rlScan RLScan.init 0 c.readBuffer.items ≠ .more) :
    parseRequestLine stat (c.deliver b) = (parseRequestLine stat c).deliver b := by
  have hinit : RLScan.init.Before 0 := ⟨by simp [RLScan.init], by simp [RLScan.init]⟩
  obtain ⟨happ, hline⟩ := rlScan_append (b := b) c.readBuffer.items hinit
  have hne : c.readBuffer.items ≠ [] := by
    intro hnil
    rw [hnil] at h
    exact h rfl
  unfold parseRequestLine
  simp only [readBuffer_deliver, Fifo.items_push, List.isEmpty_iff, List.append_eq_nil_iff, hne,
    false_and, if_false, happ h]
  cases hs : rlScan RLScan.init 0 c.readBuffer.items with
  | more => exact absurd hs h
  | error code => rfl
  | line sc p =>
    obtain ⟨hp, hsc⟩ := hline sc p hs
    exact finishRequestLine_deliver b (by rw [Fifo.size_eq]; omega) hsc

/-- A request line that is not decided yet leaves everything as it was. -/
theorem parseRequestLine_more {stat : StatAnswer} {c : Connection}
    (h : rlScan RLScan.init 0 c.readBuffer.items = .more) : parseRequestLine stat c = c := by
  simp only [parseRequestLine, h, ite_self]

/-! ### The header lines -/

/-- What one round of the header loop does. -/
inductive HeaderStep (buf : ByteQueue) (req : HttpRequest) :
    ByteQueue × HttpRequest ⊕ (ByteQueue × HttpRequest) × Bool → Prop
  | wait : findCrlf buf.items = none → HeaderStep buf req (.inr ((buf, req), false))
  | tooLong {pos : ℕ} : findCrlf buf.items = some pos → 8192 < pos →
      HeaderStep buf req (.inr ((buf, req.fail 431), false))
  | blank {pos : ℕ} : findCrlf buf.items = some pos → pos = 0 →
      HeaderStep buf req (.inr ((buf.consume 2, req), true))
  | bad {pos : ℕ} : findCrlf buf.items = some pos → ¬ 8192 < pos → pos ≠ 0 →
      (headerLine req (buf.items.take pos)).parseState = .error →
      HeaderStep buf req
        (.inr ((buf.consume (pos + 2), headerLine req (buf.items.take pos)), false))
  | line {pos : ℕ} : findCrlf buf.items = some pos → ¬ 8192 < pos → pos ≠ 0 →
      (headerLine req (buf.items.take pos)).parseState ≠ .error →
      HeaderStep buf req (.inl (buf.consume (pos + 2), headerLine req (buf.items.take pos)))

theorem headerStep_headerRound (buf : ByteQueue) (req : HttpRequest) :
    HeaderStep buf req (headerRound (buf, req)) := by
  unfold headerRound
  simp only
  split
  · next hf => exact .wait hf
  · next pos hf =>
    split_ifs with h1 h2 h3
    · exact .tooLong hf h1
    · exact .blank hf h2
    · exact .bad hf h1 h2 h3
    · exact .line hf h1 h2 h3

theorem headerRound_eq {buf : ByteQueue} {req : HttpRequest}
    {r : ByteQueue × HttpRequest ⊕ (ByteQueue × HttpRequest) × Bool} (h : HeaderStep buf req r) :
    headerRound (buf, req) = r := by
  cases h with
  | wait hf => simp [headerRound, hf]
  | tooLong hf h1 => simp [headerRound, hf, h1]
  | blank hf h2 => simp [headerRound, hf, h2]
  | bad hf h1 h2 h3 => simp [headerRound, hf, h1, h2, h3]
  | line hf h1 h2 h3 => simp [headerRound, hf, h1, h2, h3]

/-- A line is taken off the buffer whole. -/
theorem headerRound_decreasing :
    WhileLoop.Decreasing (fun s : ByteQueue × HttpRequest => s.1.size) headerRound := by
  rintro ⟨buf, req⟩ ⟨buf', req'⟩ h
  have hstep := headerStep_headerRound buf req
  rw [h] at hstep
  cases hstep with
  | @line pos hf h1 h2 h3 =>
    have hlen := FirstMatch.length_le_of_find hf
    simp only [crlf, List.length_cons, List.length_nil] at hlen
    simp only [Fifo.size_eq, Fifo.items_consume, List.length_drop]
    omega

/-- What a header line leaves alone: everything but the headers, unless it is
refused. -/
theorem headerLine_frame (req : HttpRequest) (line : Bytes) :
    ∃ headers state code, headerLine req line =
        { req with headers := headers, parseState := state, errorCode := code } ∧
      (state = .error ∨ state = req.parseState) := by
  simp only [headerLine, HttpRequest.fail]
  repeat' split
  all_goals first
    | exact ⟨_, _, _, rfl, Or.inl rfl⟩
    | exact ⟨_, _, _, rfl, Or.inr rfl⟩

/-- What the header loop leaves alone. -/
theorem headerLoop_frame : ∀ (s : ByteQueue × HttpRequest),
    (headerLoop s).1.1.limit = s.1.limit ∧ ∃ headers state code, (headerLoop s).1.2 =
        { s.2 with headers := headers, parseState := state, errorCode := code } ∧
      (state = .error ∨ state = s.2.parseState) := by
  refine WhileLoop.loop_induction headerRound_decreasing
    (P := fun s r => r.1.1.limit = s.1.limit ∧ ∃ headers state code, r.1.2 =
        { s.2 with headers := headers, parseState := state, errorCode := code } ∧
      (state = .error ∨ state = s.2.parseState)) ?leave ?round
  case leave =>
    rintro ⟨buf, req⟩ r hr
    have hstep := headerStep_headerRound buf req
    rw [hr] at hstep
    cases hstep with
    | wait => exact ⟨rfl, _, _, _, rfl, Or.inr rfl⟩
    | tooLong => exact ⟨rfl, _, _, _, rfl, Or.inl rfl⟩
    | blank => exact ⟨rfl, _, _, _, rfl, Or.inr rfl⟩
    | bad => exact ⟨rfl, headerLine_frame _ _⟩
  case round =>
    rintro ⟨buf, req⟩ s' hs ⟨hlim, headers, state, code, heq, hst⟩
    have hstep := headerStep_headerRound buf req
    rw [hs] at hstep
    cases hstep with
    | @line pos hf h1 h2 h3 =>
      obtain ⟨h', st', c', hl, hst'⟩ := headerLine_frame req (buf.items.take pos)
      refine ⟨hlim, headers, state, code, ?_, ?_⟩
      · rw [heq, hl]
      · rcases hst with rfl | rfl
        · exact Or.inl rfl
        · rw [hl]; exact hst'

/-- What the header loop leaves of the request, and what more bytes behind make of
it: a decision stands, a loop that waits goes on from where it is. -/
inductive HeadersRead (buf : ByteQueue) (req : HttpRequest) (b : Bytes) :
    (ByteQueue × HttpRequest) × Bool → Prop
  | waiting {buf' : ByteQueue} {req' : HttpRequest} : req'.parseState ≠ .error →
      headerLoop (buf.push b, req) = headerLoop (buf'.push b, req') →
      HeadersRead buf req b ((buf', req'), false)
  | decided {buf' : ByteQueue} {req' : HttpRequest} {blank : Bool} :
      (blank = true ∨ req'.parseState = .error) →
      headerLoop (buf.push b, req) = ((buf'.push b, req'), blank) →
      HeadersRead buf req b ((buf', req'), blank)

theorem HeadersRead.of_inl {buf buf' : ByteQueue} {req req' : HttpRequest} {b : Bytes}
    {r : (ByteQueue × HttpRequest) × Bool} (hd : HeadersRead buf' req' b r)
    (h : headerLoop (buf.push b, req) = headerLoop (buf'.push b, req')) :
    HeadersRead buf req b r := by
  cases hd with
  | waiting hp he => exact .waiting hp (h.trans he)
  | decided hp he => exact .decided hp (h.trans he)

theorem headersRead (b : Bytes) : ∀ (s : ByteQueue × HttpRequest), s.2.parseState ≠ .error →
    HeadersRead s.1 s.2 b (headerLoop s) := by
  -- a line that is complete is the same with more input behind it
  have hcons : ∀ {buf : ByteQueue} {pos : ℕ}, findCrlf buf.items = some pos →
      (buf.push b).items.take pos = buf.items.take pos ∧
        (buf.push b).consume (pos + 2) = (buf.consume (pos + 2)).push b ∧
        findCrlf (buf.push b).items = some pos := by
    intro buf pos hf
    have hlen := FirstMatch.length_le_of_find hf
    refine ⟨?_, Fifo.consume_push buf b hlen, FirstMatch.find_append_of_some hf⟩
    rw [Fifo.items_push, List.take_append_of_le_length (by omega)]
  have hinr : ∀ {buf : ByteQueue} {req : HttpRequest} {r}, HeaderStep buf req (.inr r) →
      headerLoop (buf, req) = r := fun h => WhileLoop.loop_inr (headerRound_eq h)
  have hinl : ∀ {buf buf' : ByteQueue} {req req' : HttpRequest},
      HeaderStep buf req (.inl (buf', req')) →
      headerLoop (buf, req) = headerLoop (buf', req') :=
    fun h => WhileLoop.loop_inl headerRound_decreasing (headerRound_eq h)
  refine WhileLoop.loop_induction headerRound_decreasing
    (P := fun s r => s.2.parseState ≠ .error → HeadersRead s.1 s.2 b r) ?leave ?round
  case leave =>
    rintro ⟨buf, req⟩ r hr hne
    have hstep := headerStep_headerRound buf req
    rw [hr] at hstep
    cases hstep with
    | wait hf => exact .waiting hne rfl
    | tooLong hf h1 =>
      exact .decided (Or.inr rfl) (hinr (.tooLong (hcons hf).2.2 h1))
    | blank hf h2 =>
      subst h2
      obtain ⟨-, hdrop, hf'⟩ := hcons hf
      refine .decided (Or.inl rfl) ?_
      rw [← show (buf.push b).consume 2 = (buf.consume 2).push b from hdrop]
      exact hinr (.blank hf' rfl)
    | bad hf h1 h2 h3 =>
      obtain ⟨htake, hdrop, hf'⟩ := hcons hf
      refine .decided (Or.inr h3) ?_
      rw [← hdrop, ← htake]
      exact hinr (.bad hf' h1 h2 (by rw [htake]; exact h3))
  case round =>
    rintro ⟨buf, req⟩ s' hs ih hne
    have hstep := headerStep_headerRound buf req
    rw [hs] at hstep
    cases hstep with
    | @line pos hf h1 h2 h3 =>
      obtain ⟨htake, hdrop, hf'⟩ := hcons hf
      have hloop : headerLoop (buf.push b, req) = headerLoop ((buf.consume (pos + 2)).push b,
          headerLine req (buf.items.take pos)) := by
        rw [← hdrop, ← htake]
        exact hinl (.line hf' h1 h2 (by rw [htake]; exact h3))
      exact (ih h3).of_inl hloop

/-! ### Behind the blank line -/

theorem overrideHost_deliver (c : Connection) (host b : Bytes) :
    overrideHost (c.deliver b) host = (overrideHost c host).deliver b := by
  unfold overrideHost
  rw [show (c.deliver b).configuration = c.configuration from rfl]
  split <;> rfl

theorem hostChecks_deliver (c : Connection) (b : Bytes) :
    hostChecks (c.deliver b) = (hostChecks c).deliver b := by
  cases hh : c.request.headers[ascii "host"]? with
  | none =>
    by_cases hver : c.request.version = ascii "HTTP/1.1"
    · simp only [hostChecks, request_deliver, hh, hver, if_true]; rfl
    · simp only [hostChecks, request_deliver, hh, hver, if_false]
  | some hostVal =>
    cases hv : validateHost hostVal with
    | none => simp only [hostChecks, request_deliver, hh, hv]; rfl
    | some r => simp only [hostChecks, request_deliver, hh, hv, overrideHost_deliver]; rfl

theorem finishHeaders_deliver (c : Connection) (b : Bytes) :
    finishHeaders (c.deliver b) = (finishHeaders c).deliver b := by
  by_cases he : (hostChecks c).request.parseState = .error
  · simp only [finishHeaders, hostChecks_deliver, request_deliver, he, if_true]
  · simp only [finishHeaders, hostChecks_deliver, request_deliver, he, if_false]; rfl

/-- What the checks on Host leave alone. -/
theorem hostChecks_frame (c : Connection) :
    (hostChecks c).request.path = c.request.path ∧
      (hostChecks c).request.written = c.request.written ∧
      (hostChecks c).request.body.items = c.request.body.items ∧
      ((hostChecks c).request.parseState = .error ∨
        (hostChecks c).request.parseState = c.request.parseState) := by
  have hover : ∀ host, (overrideHost c host).request.path = c.request.path ∧
      (overrideHost c host).request.written = c.request.written ∧
      (overrideHost c host).request.body.items = c.request.body.items ∧
      (overrideHost c host).request.parseState = c.request.parseState := by
    intro host
    unfold overrideHost
    split
    · exact ⟨rfl, rfl, rfl, rfl⟩
    · exact ⟨rfl, rfl, rfl, rfl⟩
  simp only [hostChecks]
  split
  · split
    · exact ⟨rfl, rfl, rfl, Or.inl rfl⟩
    · exact ⟨rfl, rfl, rfl, Or.inr rfl⟩
  · split
    · exact ⟨rfl, rfl, rfl, Or.inl rfl⟩
    · obtain ⟨hp, hw, hb, hs⟩ := hover _
      exact ⟨hp, hw, hb, Or.inr hs⟩

/-- The framing decides: an error, a request without a body, or a body whose end
is known. -/
theorem framing_cases (maxBody : ℕ) (req : HttpRequest) :
    (framing maxBody req).path = req.path ∧ (framing maxBody req).written = req.written ∧
      (framing maxBody req).body = req.body ∧
      ((framing maxBody req).parseState = .error ∨
        ((framing maxBody req).parseState = .complete ∧
          (framing maxBody req).contentLength = 0 ∧ (framing maxBody req).method ≠ ascii "POST") ∨
        ((framing maxBody req).parseState = .body ∧
          ((framing maxBody req).chunked = false → (framing maxBody req).contentLength ≠ 0))) := by
  simp only [framing]
  split
  · exact ⟨rfl, rfl, rfl, Or.inl rfl⟩
  · split
    · exact ⟨rfl, rfl, rfl, Or.inl rfl⟩
    · split_ifs with h1 h2 h3 h4 h5
      · exact ⟨rfl, rfl, rfl, Or.inl rfl⟩
      · exact ⟨rfl, rfl, rfl, Or.inr (Or.inl ⟨rfl, rfl, h3⟩)⟩
      · exact ⟨rfl, rfl, rfl, Or.inr (Or.inr ⟨rfl, by simp⟩)⟩
      · exact ⟨rfl, rfl, rfl, Or.inl rfl⟩
      · exact ⟨rfl, rfl, rfl, Or.inr (Or.inl ⟨rfl, by simp_all, h5⟩)⟩
      · exact ⟨rfl, rfl, rfl, Or.inr (Or.inr ⟨rfl, by
          intro hc
          simpa [show req.chunked = false from hc] using h4⟩)⟩

/-- How the part behind the blank line ends. -/
theorem finishHeaders_cases (c : Connection) :
    (finishHeaders c).request.path = c.request.path ∧
      (finishHeaders c).request.written = c.request.written ∧
      (finishHeaders c).request.body.items = c.request.body.items ∧
      ((finishHeaders c).request.parseState = .error ∨
        ((finishHeaders c).request.parseState = .complete ∧
          (finishHeaders c).request.contentLength = 0 ∧
          (finishHeaders c).request.method ≠ ascii "POST") ∨
        ((finishHeaders c).request.parseState = .body ∧
          ((finishHeaders c).request.chunked = false →
            (finishHeaders c).request.contentLength ≠ 0))) := by
  obtain ⟨hp, hw, hb, -⟩ := hostChecks_frame c
  simp only [finishHeaders]
  split
  · next he => exact ⟨hp, hw, hb, Or.inl he⟩
  · obtain ⟨hp', hw', hb', hst⟩ :=
      framing_cases (hostChecks c).config.getMaxBody (hostChecks c).request
    exact ⟨hp'.trans hp, hw'.trans hw, by rw [← hb]; exact congrArg Fifo.items hb', hst⟩

/-! ### The body limit -/

theorem applyLocationBodyLimit_deliver (c : Connection) (b : Bytes) :
    applyLocationBodyLimit (c.deliver b) = (applyLocationBodyLimit c).deliver b := by
  unfold applyLocationBodyLimit
  rw [request_deliver]
  split_ifs <;> rfl

/-- The limits that `_applyLocationBodyLimit` sets are in force. -/
structure LimitApplied (c : Connection) : Prop where
  path_ne : c.request.path ≠ []
  maxBodySize : c.request.maxBodySize = effectiveLimit c.config c.request.path
  body : c.request.body.limit = effectiveLimit c.config c.request.path
  readBuffer : c.readBuffer.limit = effectiveLimit c.config c.request.path

theorem limitApplied (c : Connection) (h : c.request.path ≠ []) :
    LimitApplied (applyLocationBodyLimit c) := by
  unfold applyLocationBodyLimit
  rw [if_neg (by simpa using h)]
  exact ⟨h, rfl, rfl, rfl⟩

/-- Setting them once more changes nothing. -/
theorem LimitApplied.apply_eq {c : Connection} (h : LimitApplied c) :
    applyLocationBodyLimit c = c := by
  unfold applyLocationBodyLimit
  rw [if_neg (by simpa using h.path_ne)]
  have hb : c.request.body.setLimit (effectiveLimit c.config c.request.path) = c.request.body :=
    Fifo.ext rfl h.body.symm
  have hr : c.readBuffer.setLimit (effectiveLimit c.config c.request.path) = c.readBuffer :=
    Fifo.ext rfl h.readBuffer.symm
  simp only [hb, hr]
  rw [← h.maxBodySize]

/-- What `_applyLocationBodyLimit` leaves alone. -/
theorem applyLocationBodyLimit_frame (c : Connection) :
    SameVerdict (applyLocationBodyLimit c).request c.request ∧
      (applyLocationBodyLimit c).request.written = c.request.written ∧
      (applyLocationBodyLimit c).request.body.items = c.request.body.items := by
  unfold applyLocationBodyLimit
  split
  · exact ⟨SameVerdict.refl _, rfl, rfl⟩
  · exact ⟨⟨rfl, rfl, rfl, rfl, rfl, rfl, rfl, rfl, rfl⟩, rfl, rfl⟩

/-! ### The stages before the body -/

/-- The limit of the location does not touch the verdict. -/
theorem parseState_applyLocationBodyLimit (c : Connection) :
    (applyLocationBodyLimit c).request.parseState = c.request.parseState :=
  (applyLocationBodyLimit_frame c).1.parseState

section

variable {stat : StatAnswer} {c : Connection}

/-- The parser is at the request line. -/
def AtRequestLine (c : Connection) : Prop :=
  c.request.parseState = .idle ∨ c.request.parseState = .requestLine

/-- The connection once the parser has been fed. -/
def intoRequestLine (c : Connection) : Connection :=
  { c with request := { c.request with parseState := .requestLine } }

theorem requestLineStage_eq (h : AtRequestLine c) :
    requestLineStage stat c =
      if (parseRequestLine stat (intoRequestLine c)).request.parseState = .requestLine then
        parseRequestLine stat (intoRequestLine c)
      else applyLocationBodyLimit (parseRequestLine stat (intoRequestLine c)) := by
  rcases h with h | h
  · simp only [requestLineStage, h, if_true]
    rfl
  · have hsame : intoRequestLine c = c := by
      unfold intoRequestLine
      rw [← h]
    rw [hsame]
    simp only [requestLineStage, h, reduceCtorEq, if_false, if_true]

/-- Behind its first line a request is none of the business of the first stage. -/
theorem requestLineStage_of_ne (hidle : c.request.parseState ≠ .idle)
    (hline : c.request.parseState ≠ .requestLine) : requestLineStage stat c = c := by
  simp only [requestLineStage, hidle, hline, if_false]

theorem headerStage_of_ne (h : c.request.parseState ≠ .headers) : headerStage c = c :=
  if_neg h

/-- A line that is not complete. -/
theorem requestLineStage_more (hs : AtRequestLine c)
    (hmore : rlScan RLScan.init 0 c.readBuffer.items = .more) :
    requestLineStage stat c = intoRequestLine c := by
  rw [requestLineStage_eq hs, parseRequestLine_more (by exact hmore)]
  exact if_pos rfl

/-- How a complete line ends. -/
theorem parseRequestLine_cases (h : rlScan RLScan.init 0 c.readBuffer.items ≠ .more) :
    (parseRequestLine stat c).request.written = c.request.written ∧
      (parseRequestLine stat c).request.body = c.request.body ∧
      (parseRequestLine stat c).request.maxBodySize = c.request.maxBodySize ∧
      ((parseRequestLine stat c).request.parseState = .error ∨
        ((parseRequestLine stat c).request.parseState = .headers ∧
          (parseRequestLine stat c).request.path ≠ [])) := by
  have hne : c.readBuffer.items.isEmpty = false := by
    cases hitems : c.readBuffer.items with
    | nil =>
      rw [hitems] at h
      exact absurd rfl h
    | cons => rfl
  unfold parseRequestLine
  dsimp only
  rw [if_neg (by simp [hne])]
  cases hscan : rlScan RLScan.init 0 c.readBuffer.items with
  | more => exact absurd hscan h
  | error code => exact ⟨rfl, rfl, rfl, Or.inl rfl⟩
  | line sc p => exact finishRequestLine_cases stat _ sc p c

/-- A complete line. -/
theorem requestLineStage_decided (hs : AtRequestLine c)
    (h : rlScan RLScan.init 0 c.readBuffer.items ≠ .more) :
    requestLineStage stat c =
      applyLocationBodyLimit (parseRequestLine stat (intoRequestLine c)) := by
  rw [requestLineStage_eq hs]
  apply if_neg
  rcases (@parseRequestLine_cases stat (intoRequestLine c) h).2.2.2 with hstate | ⟨hstate, -⟩
  · rw [hstate]
    decide
  · rw [hstate]
    decide

/-- The stage with more bytes behind the line. -/
theorem requestLineStage_deliver (b : Bytes)
    (h : (requestLineStage stat c).request.parseState ≠ .requestLine) :
    requestLineStage stat (c.deliver b) = (requestLineStage stat c).deliver b := by
  by_cases hs : AtRequestLine c
  · have hmore : rlScan RLScan.init 0 c.readBuffer.items ≠ .more := by
      intro hmore
      rw [requestLineStage_more hs hmore] at h
      exact h rfl
    have hpush : parseRequestLine stat (intoRequestLine (c.deliver b)) =
        (parseRequestLine stat (intoRequestLine c)).deliver b :=
      @parseRequestLine_deliver stat (intoRequestLine c) b hmore
    have hend : (parseRequestLine stat (intoRequestLine c)).request.parseState ≠ .requestLine := by
      rw [requestLineStage_decided hs hmore, parseState_applyLocationBodyLimit] at h
      exact h
    rw [requestLineStage_eq (by exact hs), hpush, request_deliver, if_neg hend,
      applyLocationBodyLimit_deliver, requestLineStage_decided hs hmore]
  · obtain ⟨hidle, hline⟩ := not_or.mp hs
    have hsame : ∀ b, requestLineStage stat (c.deliver b) = c.deliver b :=
      fun b => requestLineStage_of_ne hidle hline
    rw [hsame, requestLineStage_of_ne hidle hline]

/-- The headers with more bytes behind them. -/
theorem headerStage_deliver (b : Bytes)
    (h : (headerStage c).request.parseState ≠ .headers) :
    headerStage (c.deliver b) = (headerStage c).deliver b := by
  unfold headerStage at h ⊢
  rw [request_deliver]
  by_cases hstate : c.request.parseState = .headers
  · rw [if_pos hstate] at h
    rw [if_pos hstate, if_pos hstate]
    have hread := headersRead b (c.readBuffer, c.request) (by rw [hstate]; decide)
    obtain ⟨-, headers, state, code, hreq, hend⟩ := headerLoop_frame (c.readBuffer, c.request)
    unfold parseHeaders at h ⊢
    rw [readBuffer_deliver, request_deliver]
    generalize headerLoop (c.readBuffer, c.request) = r at h hread hreq
    cases hread with
    | @waiting buf req hgood hpush =>
      -- the loop waits in the state of the headers
      have hsame : req.parseState = .headers := by
        dsimp only at hreq
        rw [hreq] at hgood ⊢
        rcases hend with hfailed | hkept
        · exact absurd hfailed hgood
        · exact hkept.trans hstate
      exact absurd hsame h
    | @decided buf req blank hend' hpush =>
      rw [hpush]
      cases blank with
      | true => exact finishHeaders_deliver { c with readBuffer := buf, request := req } b
      | false => rfl
  · rw [if_neg hstate, if_neg hstate]

end

/-! ### The body -/

/-- The reader of the body, whichever the framing chose. -/
def readBody (buf : ByteQueue) (req : HttpRequest) : Decoder :=
  (if req.chunked then parseChunked buf req else parseBody buf req).state

/-- A body that can be read: what is there was counted, and its end is known and still to
come. -/
structure ReadWf (req : HttpRequest) : Prop where
  wf : BodyWf req
  fixed : req.chunked = false → req.written < req.contentLength

theorem ReadWf.contentLength_ne {req : HttpRequest} (h : ReadWf req) (hc : req.chunked = false) :
    req.contentLength ≠ 0 := Nat.ne_zero_of_lt (h.fixed hc)

/-- What reading the body leaves alone. -/
structure SameFrame (s t : Decoder) : Prop where
  limit : s.1.limit = t.1.limit
  path : s.2.path = t.2.path
  chunked : s.2.chunked = t.2.chunked
  contentLength : s.2.contentLength = t.2.contentLength
  maxBodySize : s.2.maxBodySize = t.2.maxBodySize
  bodyLimit : s.2.body.limit = t.2.body.limit

theorem SameFrame.trans {s t u : Decoder} (h : SameFrame s t) (h' : SameFrame t u) :
    SameFrame s u :=
  ⟨h.1.trans h'.1, h.2.trans h'.2, h.3.trans h'.3, h.4.trans h'.4, h.5.trans h'.5, h.6.trans h'.6⟩

/-- Where reading the body is after some input, and what more input makes of it. -/
inductive BodyRead (buf : ByteQueue) (req : HttpRequest) (b : Bytes) (s : Decoder) : Prop
  | waiting : s.2.parseState = .body → ReadWf s.2 →
      (readBody (s.1.push b) s.2).Agree (readBody (buf.push b) req) → BodyRead buf req b s
  | complete : s.2.parseState = .complete → (readBody (buf.push b) req).2 = s.2 →
      BodyRead buf req b s
  | error : s.2.parseState = .error → SameVerdict s.2 (readBody (buf.push b) req).2 →
      BodyRead buf req b s

theorem decode_frame {buf : ByteQueue} {req : HttpRequest} (hwf : BodyWf req) :
    SameFrame (decode buf req) (buf, req) := by
  refine parseChunked_induction (P := fun buf req r => SameFrame r.state (buf, req))
    ?leave ?round buf req hwf
  case leave =>
    intro buf req r _ h
    cases h <;> exact ⟨rfl, rfl, rfl, rfl, rfl, rfl⟩
  case round =>
    intro buf req buf' req' _ h ih
    refine ih.trans ?_
    cases h <;> exact ⟨rfl, rfl, rfl, rfl, rfl, rfl⟩

/-- A chunked body. -/
theorem bodyRead_chunked {buf : ByteQueue} {req : HttpRequest} {b : Bytes} (hb : b ≠ [])
    (hwf : ReadWf req) (hbody : req.parseState = .body) (hc : req.chunked = true) :
    BodyRead buf req b (readBody buf req) ∧ SameFrame (readBody buf req) (buf, req) := by
  have hread : ∀ buf, readBody buf req = decode buf req := by
    intro buf
    rw [readBody, if_pos hc, decode]
  have hframe : SameFrame (decode buf req) (buf, req) := decode_frame hwf.wf
  obtain ⟨-, hwf', hdec⟩ := @decoded_push buf req b hb hwf.wf hbody
  rw [hread buf]
  refine ⟨?_, hframe⟩
  have hc' : (decode buf req).2.chunked = true := hframe.chunked.trans hc
  cases hdec with
  | waiting hp _ ha =>
    refine .waiting hp ⟨hwf', by rw [hc']; simp⟩ ?_
    rw [hread, readBody, if_pos hc']
    exact ha.symm
  | complete hp he => exact .complete hp (by rw [hread, he])
  | error hp hv => exact .error hp (by rw [hread]; exact hv)

/-- What `_parseBody` does with a body of known length. -/
inductive FixedStep (buf : ByteQueue) (req : HttpRequest) : Decoder → Prop
  | wait : buf.size = 0 → FixedStep buf req (buf, req)
  | tooLarge : buf.size ≠ 0 →
      req.maxBodySize < req.written + min (req.contentLength - req.written) buf.size →
      FixedStep buf req (buf, req.fail 413)
  | complete : buf.size ≠ 0 → req.contentLength - req.written ≤ buf.size →
      req.written + (req.contentLength - req.written) ≤ req.maxBodySize →
      FixedStep buf req (buf.clear,
        { req.grow (buf.items.take (req.contentLength - req.written)) with
          parseState := .complete })
  | more : buf.size ≠ 0 → buf.size < req.contentLength - req.written →
      req.written + buf.size ≤ req.maxBodySize →
      FixedStep buf req (buf.clear, req.grow buf.items)

theorem fixedStep_iff {buf : ByteQueue} {req : HttpRequest} (hwf : BodyWf req)
    (h0 : req.contentLength ≠ 0) (hle : req.written ≤ req.contentLength) {s : Decoder} :
    (parseBody buf req).state = s ↔ FixedStep buf req s := by
  have hconsume : buf.consume buf.size = buf.clear :=
    Fifo.ext (by rw [Fifo.items_consume, Fifo.size_eq, List.drop_length]; rfl) rfl
  have heq : ∀ {s}, FixedStep buf req s → (parseBody buf req).state = s := by
    intro s h
    cases h with
    | wait hs => simp [parseBody, hs]
    | tooLarge hs hgt => simp [parseBody, hs, h0, hgt]
    | complete hs hge hlim =>
      simp only [parseBody, hs, h0, false_and, if_false, Nat.min_eq_left hge,
        show ¬ req.written + (req.contentLength - req.written) > req.maxBodySize by omega,
        takeBody_eq hwf hge hlim, Outcome.andThen_ok, Outcome.state_ok, endOfBody]
      rw [if_pos (by rw [written_grow, contentLength_grow, buf.length_take hge]; omega)]
      rfl
    | more hs hlt hlim =>
      have htake : buf.items.take buf.size = buf.items := by rw [Fifo.size_eq, List.take_length]
      simp only [parseBody, hs, h0, false_and, if_false, Nat.min_eq_right (Nat.le_of_lt hlt),
        show ¬ req.written + buf.size > req.maxBodySize by omega,
        takeBody_eq hwf (Nat.le_refl _) hlim, Outcome.andThen_ok, Outcome.state_ok, htake,
        hconsume, endOfBody]
      rw [if_neg (by rw [written_grow, contentLength_grow, ← Fifo.size_eq]; omega)]
  have hone : ∃ s, FixedStep buf req s := by
    by_cases hs : buf.size = 0
    · exact ⟨_, .wait hs⟩
    by_cases hgt : req.maxBodySize < req.written + min (req.contentLength - req.written) buf.size
    · exact ⟨_, .tooLarge hs hgt⟩
    rcases Nat.lt_or_ge buf.size (req.contentLength - req.written) with hlt | hge
    · exact ⟨_, .more hs hlt (by omega)⟩
    · exact ⟨_, .complete hs hge (by omega)⟩
  constructor
  · rintro rfl
    obtain ⟨s, hs⟩ := hone
    rw [heq hs]
    exact hs
  · exact heq

/-- A body of known length. -/
theorem bodyRead_fixed {buf : ByteQueue} {req : HttpRequest} {b : Bytes} (hb : b ≠ [])
    (hwf : ReadWf req) (hbody : req.parseState = .body) (hc : req.chunked = false) :
    BodyRead buf req b (readBody buf req) ∧ SameFrame (readBody buf req) (buf, req) := by
  have h0 := hwf.contentLength_ne hc
  have hle := Nat.le_of_lt (hwf.fixed hc)
  have hb0 : 0 < b.length := List.length_pos_iff.mpr hb
  have hsz := buf.size_push b
  have hread : ∀ {buf : ByteQueue} {s : Decoder}, FixedStep buf req s → readBody buf req = s := by
    intro buf s hs
    rw [readBody, if_neg (by simp [hc])]
    exact (fixedStep_iff hwf.wf h0 hle).mpr hs
  have hstep : FixedStep buf req (readBody buf req) := by
    rw [readBody, if_neg (by simp [hc])]
    exact (fixedStep_iff hwf.wf h0 hle).mp rfl
  generalize hs : readBody buf req = s at hstep
  cases hstep with
  | wait hsize => exact ⟨.waiting hbody hwf (Decoder.Agree.refl _), ⟨rfl, rfl, rfl, rfl, rfl, rfl⟩⟩
  | tooLarge hsize hgt =>
    refine ⟨.error rfl ?_, ⟨rfl, rfl, rfl, rfl, rfl, rfl⟩⟩
    rw [hread (.tooLarge (by omega) (by omega))]
    exact SameVerdict.refl _
  | complete hsize hge hlim =>
    refine ⟨.complete rfl ?_, ⟨rfl, rfl, rfl, rfl, rfl, rfl⟩⟩
    rw [hread (.complete (by omega) (by omega) hlim), Fifo.items_push,
      List.take_append_of_le_length hge]
  | more hsize hlt hlim =>
    have hlen : buf.items.length = buf.size := rfl
    have hpush : (buf.clear.push b).size = b.length := by simp [Fifo.size_eq]
    have hwf' : ReadWf (req.grow buf.items) :=
      ⟨hwf.wf.grow _, fun _ => by rw [written_grow, contentLength_grow]; omega⟩
    have hread' : ∀ {buf' : ByteQueue} {s : Decoder}, FixedStep buf' (req.grow buf.items) s →
        readBody buf' (req.grow buf.items) = s := by
      intro buf' s hs
      rw [readBody, if_neg (by rw [chunked_grow, hc]; simp)]
      exact (fixedStep_iff hwf'.wf (hwf'.contentLength_ne hc)
        (Nat.le_of_lt (hwf'.fixed hc))).mpr hs
    have hneed : (req.grow buf.items).contentLength - (req.grow buf.items).written =
        req.contentLength - req.written - buf.size := by
      rw [written_grow, contentLength_grow]
      omega
    refine ⟨.waiting hbody hwf' ?_, ⟨rfl, rfl, rfl, rfl, rfl, rfl⟩⟩
    show (readBody (buf.clear.push b) (req.grow buf.items)).Agree (readBody (buf.push b) req)
    -- the limit is met with both pieces or with the second, which comes to the same
    by_cases hgt : req.maxBodySize <
        req.written + min (req.contentLength - req.written) (buf.size + b.length)
    · have h₁ := @FixedStep.tooLarge (buf.push b) req (by omega) (by omega)
      have h₂ := @FixedStep.tooLarge (buf.clear.push b) (req.grow buf.items)
        (by omega) (by rw [hneed, hpush, written_grow, maxBodySize_grow]; omega)
      rw [hread h₁, hread' h₂]
      exact Or.inr ⟨rfl, ⟨rfl, rfl, rfl, rfl, rfl, rfl, rfl, rfl, rfl⟩⟩
    · left
      have hclear : (buf.push b).clear = (buf.clear.push b).clear := rfl
      have hitems : (buf.clear.push b).items = b := List.nil_append b
      -- the second piece completes the body, or it does not
      rcases Nat.lt_or_ge (buf.size + b.length) (req.contentLength - req.written) with hlt' | hge'
      · have h₁ := @FixedStep.more (buf.push b) req (by omega) (by omega) (by omega)
        have h₂ := @FixedStep.more (buf.clear.push b) (req.grow buf.items)
          (by omega) (by rw [hneed, hpush]; omega)
          (by rw [hpush, written_grow, maxBodySize_grow]; omega)
        rw [hread h₁, hread' h₂, grow_grow, hclear, hitems, Fifo.items_push]
      · have h₁ := @FixedStep.complete (buf.push b) req (by omega) (by omega)
          (by omega)
        have h₂ := @FixedStep.complete (buf.clear.push b) (req.grow buf.items)
          (by omega) (by rw [hneed, hpush]; omega)
          (by rw [hneed, written_grow, maxBodySize_grow]; omega)
        have htake : (buf.push b).items.take (req.contentLength - req.written) =
            buf.items ++ b.take (req.contentLength - req.written - buf.size) := by
          rw [Fifo.items_push, List.take_append, List.take_of_length_le (by omega), hlen]
        rw [hread h₁, hread' h₂, hneed, grow_grow, htake, hclear, hitems]

/-- **Reading a body does not depend on how it arrives.** -/
theorem bodyRead {buf : ByteQueue} {req : HttpRequest} {b : Bytes} (hb : b ≠ [])
    (hwf : ReadWf req) (hbody : req.parseState = .body) :
    BodyRead buf req b (readBody buf req) ∧ SameFrame (readBody buf req) (buf, req) := by
  cases hc : req.chunked with
  | true => exact bodyRead_chunked hb hwf hbody hc
  | false => exact bodyRead_fixed hb hwf hbody hc

/-- The reader never runs into the limit of the body buffer. -/
theorem readBody_threw {buf : ByteQueue} {req : HttpRequest} (hwf : ReadWf req)
    (hbody : req.parseState = .body) :
    (if req.chunked then parseChunked buf req else parseBody buf req).threw = false := by
  cases hc : req.chunked with
  | true =>
    rw [if_pos rfl]
    exact (decoded_push (b := [0]) (by simp) hwf.wf hbody).1
  | false =>
    have h0 := hwf.contentLength_ne hc
    simp only [Bool.false_eq_true, if_false, parseBody, h0, false_and]
    split_ifs with hs hgt
    · rfl
    · rfl
    · rw [takeBody_eq hwf.wf (Nat.min_le_right _ _) (by omega)]
      rfl

end Webserv
