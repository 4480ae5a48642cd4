import Webserv.HttpParser.Labels
import Webserv.HttpParser.Segmentation

/-!
# The parser on a body whose front is gone

The event loop takes bytes out of the body buffer while the parser goes on filling it.  The
parser counts them in `written` and never looks at them again: it does the same whether the
front of the body is in front of the buffer's bytes or not, as long as the buffer has room for
both.

## Main results

* `feed_prepend` — the parser on the body with its front.
* `counted_feed` — what it counts is what it has put into the body.
-/

namespace Webserv

open Bytes

/-- The request with more bytes in front of its body. -/
def HttpRequest.prepend (req : HttpRequest) (front : Bytes) : HttpRequest :=
  { req with body := { req.body with items := front ++ req.body.items } }

/-- A connection whose request has bytes in front of its body. -/
def Connection.prepend (c : Connection) (front : Bytes) : Connection :=
  { c with request := c.request.prepend front }

section

variable (req : HttpRequest) (c : Connection) (front : Bytes)

@[simp] theorem items_prepend : (req.prepend front).body.items = front ++ req.body.items := rfl
@[simp] theorem size_prepend : (req.prepend front).body.size = front.length + req.body.size :=
  List.length_append
@[simp] theorem request_prepend : (c.prepend front).request = c.request.prepend front := rfl
@[simp] theorem readBuffer_prepend : (c.prepend front).readBuffer = c.readBuffer := rfl
@[simp] theorem req_prepend_nil : req.prepend [] = req := rfl
@[simp] theorem prepend_nil : c.prepend [] = c := rfl

end

/-- The buffer has room for the front of the body and all that may still be read. -/
structure HasFront (front : Bytes) (req : HttpRequest) : Prop where
  size_le : front.length + req.body.size ≤ req.written
  limit_le : req.maxBodySize ≤ req.body.limit

theorem HasFront.setChunk {front : Bytes} {req : HttpRequest} (h : HasFront front req) (n : ℕ)
    (t d : Bool) : HasFront front (req.setChunk n t d) := ⟨h.size_le, h.limit_le⟩

theorem HasFront.grow {front : Bytes} {req : HttpRequest} (h : HasFront front req) (data : Bytes) :
    HasFront front (req.grow data) where
  size_le := by
    have hle := h.size_le
    rw [body_grow, written_grow, Fifo.size_push]
    omega
  limit_le := h.limit_le

/-! ### The body -/

/-- Within the limit both buffers take the bytes. -/
theorem takeBody_of_front {front : Bytes} {req : HttpRequest} {n : ℕ} (buf : ByteQueue)
    (h : HasFront front req) (hn : n ≤ buf.size) (hle : req.written + n ≤ req.maxBodySize) :
    takeBody buf req n = .ok (buf.consume n, req.grow (buf.items.take n)) () ∧
      takeBody buf (req.prepend front) n =
        .ok (buf.consume n, (req.grow (buf.items.take n)).prepend front) () := by
  have hlen := buf.length_take hn
  have hsize := h.size_le
  have hlimit := h.limit_le
  have happ : req.body.append (buf.items.take n) = some (req.body.push (buf.items.take n)) :=
    Fifo.append_eq_some_iff.mpr ⟨Or.inr (by omega), rfl⟩
  have happ' : (req.prepend front).body.append (buf.items.take n) =
      some ((req.prepend front).body.push (buf.items.take n)) :=
    Fifo.append_eq_some_iff.mpr
      ⟨Or.inr (by rw [size_prepend, show (req.prepend front).body.limit = req.body.limit from rfl]
                  omega), rfl⟩
  have hpush : (req.prepend front).body.push (buf.items.take n) =
      ((req.grow (buf.items.take n)).prepend front).body :=
    Fifo.ext (List.append_assoc _ _ _) rfl
  constructor
  · rw [takeBody, happ]
    simp only [HttpRequest.grow, hlen]
  · rw [takeBody, happ', hpush]
    simp only [HttpRequest.grow, HttpRequest.prepend, hlen]

theorem parseBody_prepend {front : Bytes} {buf : ByteQueue} {req : HttpRequest}
    (h : HasFront front req) : parseBody buf (req.prepend front) =
      (parseBody buf req).mapState fun s => (s.1, s.2.prepend front) := by
  have hwritten : (req.prepend front).written = req.written := rfl
  have hlength : (req.prepend front).contentLength = req.contentLength := rfl
  have hchunked : (req.prepend front).chunked = req.chunked := rfl
  have hmax : (req.prepend front).maxBodySize = req.maxBodySize := rfl
  unfold parseBody
  dsimp only
  rw [hwritten, hlength, hchunked, hmax]
  split
  · rfl
  · split
    · split
      · rfl
      · next hroom =>
        obtain ⟨htake, htake'⟩ := takeBody_of_front buf h le_rfl (Nat.not_lt.mp hroom)
        rw [htake, htake']
        rfl
    · split
      · rfl
      · next hroom =>
        obtain ⟨htake, htake'⟩ := takeBody_of_front buf h (Nat.min_le_right _ _)
          (Nat.not_lt.mp hroom)
        rw [htake, htake']
        generalize req.grow (buf.items.take _) = req'
        have hend : ∀ buf', endOfBody buf' (req'.prepend front) =
            ((endOfBody buf' req').1, (endOfBody buf' req').2.prepend front) := by
          intro buf'
          have hwritten : (req'.prepend front).written = req'.written := rfl
          have hlength : (req'.prepend front).contentLength = req'.contentLength := rfl
          unfold endOfBody
          rw [hwritten, hlength]
          split <;> rfl
        exact congrArg (fun s => Outcome.ok s ()) (hend _)

/-- One stage of the loop over the chunks. -/
theorem chunkRound_prepend {front : Bytes} (s : Decoder) (h : HasFront front s.2) :
    chunkRound (s.1, s.2.prepend front) =
      (chunkRound s).map (fun s => (s.1, s.2.prepend front))
        (fun o => o.mapState fun s => (s.1, s.2.prepend front)) := by
  obtain ⟨buf, req⟩ := s
  have hwritten : (req.prepend front).written = req.written := rfl
  have hmax : (req.prepend front).maxBodySize = req.maxBodySize := rfl
  have htrailing : (req.prepend front).chunkTrailing = req.chunkTrailing := rfl
  have hdone : (req.prepend front).chunkDone = req.chunkDone := rfl
  have hsize : (req.prepend front).chunkSize = req.chunkSize := rfl
  unfold chunkRound
  dsimp only
  rw [hwritten, hmax, htrailing, hdone, hsize]
  split
  · split_ifs <;> rfl
  · split
    · split
      · rfl
      · split <;> rfl
    · split
      · rfl
      · split
        · rfl
        · next hroom =>
          obtain ⟨htake, htake'⟩ := takeBody_of_front buf h (Nat.min_le_right _ _)
            (Nat.not_lt.mp hroom)
          rw [htake, htake']
          dsimp only
          generalize req.grow (buf.items.take _) = req'
          have hleft : (req'.prepend front).chunkSize = req'.chunkSize := rfl
          rw [hleft]
          split <;> rfl

/-- No stage loses what the body has in front. -/
theorem HasFront.chunkRound {front : Bytes} {s s' : Decoder} (h : HasFront front s.2)
    (hs : chunkRound s = .inl s') : HasFront front s'.2 := by
  obtain ⟨buf, req⟩ := s
  unfold Webserv.chunkRound at hs
  dsimp only at hs
  split at hs
  · split at hs
    · cases hs
    · split at hs
      · cases hs
      · cases hs
        exact ⟨h.size_le, h.limit_le⟩
  · split at hs
    · split at hs
      · cases hs
      · split at hs
        · cases hs
        · cases hs
          exact ⟨h.size_le, h.limit_le⟩
        · cases hs
          exact ⟨h.size_le, h.limit_le⟩
    · split at hs
      · cases hs
      · split at hs
        · cases hs
        · next hroom =>
          obtain ⟨htake, -⟩ := takeBody_of_front buf h (Nat.min_le_right _ _)
            (Nat.not_lt.mp hroom)
          rw [htake] at hs
          dsimp only at hs
          have hgrown := h.grow (buf.items.take (min req.chunkSize buf.size))
          split at hs
          · cases hs
            exact ⟨hgrown.size_le, hgrown.limit_le⟩
          · cases hs
            exact ⟨hgrown.size_le, hgrown.limit_le⟩

theorem parseChunked_prepend {front : Bytes} {buf : ByteQueue} {req : HttpRequest}
    (h : HasFront front req) : parseChunked buf (req.prepend front) =
      (parseChunked buf req).mapState fun s => (s.1, s.2.prepend front) := by
  let f := fun s : Decoder => (s.1, s.2.prepend front)
  let out := fun s : Decoder => (Outcome.ok s () : Outcome _ Unit)
  exact @WhileLoop.loop_map_of _ _ (fun s => s.1.size) Webserv.chunkRound out _ _
    (fun s => s.1.size) Webserv.chunkRound out (fun s => HasFront front s.2)
    (fun _ _ h hs => h.chunkRound hs) f (fun o => o.mapState f) (fun _ => rfl)
    (fun s h => chunkRound_prepend s h) (fun _ => rfl) (buf, req) h

theorem feedBody_prepend {front : Bytes} {c : Connection} (h : HasFront front c.request) :
    feedBody (c.prepend front) = (feedBody c).mapState (·.prepend front) := by
  have hread : (if c.request.chunked then parseChunked else parseBody) c.readBuffer
      (c.request.prepend front) =
        ((if c.request.chunked then parseChunked else parseBody) c.readBuffer c.request).mapState
          fun s => (s.1, s.2.prepend front) := by
    split
    · exact parseChunked_prepend h
    · exact parseBody_prepend h
  have hmap : ∀ o : Outcome Decoder Unit,
      (o.mapState fun s => (s.1, s.2.prepend front)).mapState
          (fun s => { c.prepend front with readBuffer := s.1, request := s.2 }) =
        (o.mapState fun s => { c with readBuffer := s.1, request := s.2 }).mapState
          (·.prepend front) := by
    intro o
    cases o <;> rfl
  have hstate : (c.prepend front).request.parseState = c.request.parseState := rfl
  unfold feedBody
  rw [hstate]
  split
  · exact (congrArg (fun o => o.mapState fun s : Decoder =>
      { c.prepend front with readBuffer := s.1, request := s.2 }) hread).trans (hmap _)
  · rfl

/-- **The parser does not look at the front of a body.** -/
theorem feed_prepend (stat : StatAnswer) {front : Bytes} {c : Connection}
    (hbody : c.request.parseState = .body) (hlimit : LimitApplied c)
    (hsize : front.length + c.request.body.size ≤ c.request.written) :
    feed stat (c.prepend front) = (feed stat c).mapState (·.prepend front) := by
  have hfront : HasFront front c.request :=
    ⟨hsize, by rw [hlimit.maxBodySize, hlimit.body]⟩
  have hlimit' : LimitApplied (c.prepend front) :=
    ⟨hlimit.path_ne, hlimit.maxBodySize, hlimit.body, hlimit.readBuffer⟩
  -- in a body the earlier stages have nothing to do
  have hstages : ∀ c : Connection, c.request.parseState = .body → LimitApplied c →
      feed stat c = feedBody c := by
    intro c hbody hlimit
    have hline : requestLineStage stat c = c :=
      requestLineStage_of_ne (by rw [hbody]; nofun) (by rw [hbody]; nofun)
    have hhead : headerStage c = c := if_neg (by rw [hbody]; nofun)
    rw [feed_of_not_terminal (by rw [hbody]; rfl), hline, hhead, hlimit.apply_eq]
  rw [hstages _ hbody hlimit, hstages (c.prepend front) hbody hlimit', feedBody_prepend hfront]

/-! ### What is counted -/

/-- The framing of a request: none before the headers are complete, and afterwards either a
length or chunks. -/
structure OneFraming (req : HttpRequest) : Prop where
  unframed : req.parseState = .idle ∨ req.parseState = .requestLine ∨ req.parseState = .headers →
    req.chunked = false
  coded : req.chunked = true → req.contentLength = 0

theorem OneFraming.of_plain {req : HttpRequest} (h : req.chunked = false) : OneFraming req :=
  ⟨fun _ => h, fun hcoded => absurd (h.symm.trans hcoded) nofun⟩

theorem OneFraming.of_framed {req : HttpRequest}
    (hstate : req.parseState = .body ∨ req.parseState = .complete ∨ req.parseState = .error)
    (h : req.chunked = true → req.contentLength = 0) : OneFraming req where
  unframed := by
    rintro (hp | hp | hp) <;> rw [hp] at hstate <;> rcases hstate with h | h | h <;> cases h
  coded := h

/-- What was put into the body was counted and is within the limit, and a complete body of known
length has that length, which is not zero for a POST. -/
structure Counted (req : HttpRequest) : Prop extends OneFraming req where
  size_eq : req.body.size = req.written
  written_le : req.written ≤ req.maxBodySize
  ended : req.parseState = .complete → req.chunked = false →
    req.contentLength = req.written ∧ (req.contentLength = 0 → req.method ≠ ascii "POST")

/-- A request of whose body nothing was read. -/
theorem Counted.of_unwritten {req : HttpRequest} (h : OneFraming req)
    (hbody : req.body.items = []) (hwritten : req.written = 0)
    (hend : req.parseState = .complete → req.contentLength = 0 ∧ req.method ≠ ascii "POST") :
    Counted req where
  toOneFraming := h
  size_eq := by rw [Fifo.size_eq, hbody, hwritten]; rfl
  written_le := by rw [hwritten]; exact Nat.zero_le _
  ended := fun h _ => ⟨(hend h).1.trans hwritten.symm, fun _ => (hend h).2⟩

theorem Connection.Fresh.counted {c : Connection} (h : c.Fresh) : Counted c.request := by
  obtain ⟨⟨limit, hreq⟩, -⟩ := h
  rw [hreq]
  exact .of_unwritten (.of_plain rfl) rfl rfl nofun

theorem BodyWf.items_eq_nil {req : HttpRequest} (h : BodyWf req) (hwritten : req.written = 0) :
    req.body.items = [] := List.eq_nil_of_length_eq_zero (h.size_eq.trans hwritten)

/-- The request line does not frame the request. -/
theorem chunked_requestLineStage (stat : StatAnswer) (c : Connection) :
    (requestLineStage stat c).request.chunked = c.request.chunked := by
  have hfinish : ∀ (bs : Bytes) (sc : RLScan) (p : ℕ) (c : Connection),
      (finishRequestLine stat bs sc p c).request.chunked = c.request.chunked := by
    intro bs sc p c
    unfold finishRequestLine acceptRequestLine
    dsimp only
    split
    · split_ifs
      · rfl
      · rfl
      · rfl
      · rfl
      · rfl
      · split <;> rfl
    · rfl
  have hline : ∀ c : Connection,
      (parseRequestLine stat c).request.chunked = c.request.chunked := by
    intro c
    unfold parseRequestLine
    dsimp only
    split
    · rfl
    · split
      · rfl
      · rfl
      · exact hfinish _ _ _ c
  unfold requestLineStage
  extract_lets _ c₁
  have hstart : c₁.request.chunked = c.request.chunked := by
    dsimp only [c₁]
    split <;> rfl
  clear_value c₁
  split
  · split
    · exact (hline c₁).trans hstart
    · exact ((applyLocationBodyLimit_frame _).1.chunked.trans (hline c₁)).trans hstart
  · exact hstart

/-- The headers frame it once. -/
theorem oneFraming_headerStage {c : Connection} (h : c.request.chunked = false) :
    OneFraming (headerStage c).request := by
  have hframing : ∀ (maxBody : ℕ) (req : HttpRequest), req.chunked = false →
      OneFraming (framing maxBody req) := by
    intro maxBody req hreq
    unfold framing
    dsimp only
    split
    · exact .of_plain hreq
    · split
      · exact .of_plain hreq
      · split_ifs
        · exact .of_framed (Or.inr (Or.inr rfl)) fun _ => rfl
        · exact .of_framed (Or.inr (Or.inl rfl)) fun _ => rfl
        · exact .of_framed (Or.inl rfl) fun _ => rfl
        · exact .of_plain hreq
        · exact .of_plain hreq
        · exact .of_plain hreq
  -- the checks on Host do not frame anything
  have hchecks : ∀ c : Connection, (hostChecks c).request.chunked = c.request.chunked := by
    intro c
    have hover : ∀ host, (overrideHost c host).request.chunked = c.request.chunked := by
      intro host
      unfold overrideHost
      split <;> rfl
    unfold hostChecks
    dsimp only
    split
    · split <;> rfl
    · split
      · rfl
      · exact hover _
  unfold headerStage parseHeaders
  split
  · obtain ⟨-, headers, state, code, hreq, -⟩ := headerLoop_frame (c.readBuffer, c.request)
    generalize headerLoop (c.readBuffer, c.request) = r at hreq
    have hplain : r.1.2.chunked = false := by
      rw [hreq]
      exact h
    unfold afterHeaderLoop
    dsimp only
    split
    · have hplain' := (hchecks { c with readBuffer := r.1.1, request := r.1.2 }).trans hplain
      unfold finishHeaders
      dsimp only
      split
      · exact .of_plain hplain'
      · exact hframing _ _ hplain'
    · exact .of_plain hplain
  · exact .of_plain h

theorem OneFraming.congr {req req' : HttpRequest} (h : OneFraming req)
    (hsame : SameVerdict req' req) : OneFraming req' where
  unframed := by
    rw [hsame.parseState, hsame.chunked]
    exact h.unframed
  coded := by
    rw [hsame.chunked, hsame.contentLength]
    exact h.coded

/-- The decoder counts, stage by stage. -/
theorem counted_decode {req : HttpRequest} (buf : ByteQueue) (hwf : BodyWf req)
    (hle : req.written ≤ req.maxBodySize) :
    (decode buf req).2.body.size = (decode buf req).2.written ∧
      (decode buf req).2.written ≤ (decode buf req).2.maxBodySize := by
  refine parseChunked_induction (P := fun _ req r => req.written ≤ req.maxBodySize →
    r.state.2.body.size = r.state.2.written ∧ r.state.2.written ≤ r.state.2.maxBodySize)
    ?leave ?round buf req hwf hle
  case leave =>
    intro buf req r hwf h hle
    cases h <;> exact ⟨hwf.size_eq, hle⟩
  case round =>
    intro buf req buf' req' hwf h ih hle
    apply ih
    cases h with
    | afterData => exact hle
    | lastLine => exact hle
    | sizeLine => exact hle
    | takeAll _ _ hge hroom =>
      rw [written_setChunk, written_grow, buf.length_take hge]
      exact hroom
    | takeSome _ _ _ hroom => exact hroom

theorem counted_readBody {buf : ByteQueue} {req : HttpRequest} (hread : ReadWf req)
    (hbody : req.parseState = .body) (hle : req.written ≤ req.maxBodySize)
    (hcoded : req.chunked = true → req.contentLength = 0) : Counted (readBody buf req).2 := by
  obtain ⟨hend, hframe⟩ := @bodyRead buf req [0] (by simp) hread hbody
  have hframed : OneFraming (readBody buf req).2 := by
    refine .of_framed ?_ (by rw [hframe.chunked, hframe.contentLength]; exact hcoded)
    cases hend with
    | waiting hp _ _ => exact Or.inl hp
    | complete hp _ => exact Or.inr (Or.inl hp)
    | error hp _ => exact Or.inr (Or.inr hp)
  cases hc : req.chunked with
  | true =>
    have hdecode : readBody buf req = decode buf req := by
      rw [readBody, if_pos hc, decode]
    obtain ⟨hsize, hmax⟩ := counted_decode buf hread.wf hle
    rw [← hdecode] at hsize hmax
    refine ⟨hframed, hsize, hmax, fun _ hplain => ?_⟩
    rw [hframe.chunked, hc] at hplain
    cases hplain
  | false =>
    have h0 := hread.contentLength_ne hc
    have hwritten := hread.fixed hc
    have hstep : FixedStep buf req (readBody buf req) := by
      rw [readBody, if_neg (by simp [hc])]
      exact (fixedStep_iff hread.wf h0 (Nat.le_of_lt hwritten)).mp rfl
    generalize readBody buf req = s at hstep hframed
    cases hstep with
    | wait _ =>
      exact ⟨hframed, hread.wf.size_eq, hle, fun h => absurd (hbody.symm.trans h) (by decide)⟩
    | tooLarge _ _ => exact ⟨hframed, hread.wf.size_eq, hle, by simp⟩
    | complete _ hge hroom =>
      have hgrown := hread.wf.grow (buf.items.take (req.contentLength - req.written))
      have hlen := buf.length_take hge
      refine ⟨hframed, hgrown.size_eq, ?_, fun _ _ => ⟨?_, fun hzero => absurd hzero h0⟩⟩
      · show req.written + _ ≤ req.maxBodySize
        omega
      · show req.contentLength = req.written + _
        omega
    | more _ _ hroom =>
      exact ⟨hframed, (hread.wf.grow _).size_eq, hroom,
        fun h => absurd (hbody.symm.trans h) (by decide)⟩

theorem counted_feedBody {c : Connection} (h : Counted c.request)
    (hread : c.request.parseState = .body → ReadWf c.request) :
    Counted (feedBody c).state.request := by
  by_cases hbody : c.request.parseState = .body
  · rw [state_feedBody hbody]
    exact counted_readBody (hread hbody) hbody h.written_le h.coded
  · rw [feedBody_of_ne hbody]
    exact h

/-- The header lines and what follows them. -/
theorem counted_headerStage {c : Connection} (hs : c.request.parseState = .headers)
    (hw : c.request.written = 0) (hwf : BodyWf c.request) (hl : LimitApplied c)
    (hplain : c.request.chunked = false) :
    Counted (feedBody (applyLocationBodyLimit (headerStage c))).state.request := by
  have hframed := oneFraming_headerStage hplain
  rcases headerStage_resume [] hs hw hwf hl with
    ⟨hs', hw', hwf', hl', -⟩ | ⟨-, hpath, hw', hbody, hend⟩
  · rw [hl'.apply_eq, feedBody_of_ne (by rw [hs']; decide)]
    exact .of_unwritten hframed (hwf'.items_eq_nil hw') hw' fun h =>
      absurd (hs'.symm.trans h) (by decide)
  · have hlimit := limitApplied _ hpath
    obtain ⟨hverd, hw₂, hb₂⟩ := applyLocationBodyLimit_frame (headerStage c)
    have hempty := hb₂.trans hbody
    have hzero := hw₂.trans hw'
    apply counted_feedBody
    · refine .of_unwritten (hframed.congr hverd) hempty hzero fun h => ?_
      rw [hverd.parseState] at h
      rw [hverd.contentLength, hverd.method]
      rcases hend with hend | ⟨-, hlength⟩ | ⟨hend, -⟩
      · exact absurd (hend.symm.trans h) (by decide)
      · exact hlength
      · exact absurd (hend.symm.trans h) (by decide)
    · intro h
      rw [hverd.parseState] at h
      rcases hend with hend | ⟨hend, -⟩ | ⟨-, hlength⟩
      · exact absurd (hend.symm.trans h) (by decide)
      · exact absurd (hend.symm.trans h) (by decide)
      · refine ⟨⟨by rw [Fifo.size_eq, hempty, hzero]; rfl, ?_⟩, fun hplain => ?_⟩
        · rw [hlimit.maxBodySize, hlimit.body]
        · rw [hverd.contentLength, hzero]
          exact Nat.pos_of_ne_zero (hlength (hverd.chunked ▸ hplain))

/-- **The parser counts what it puts into the body, and stays within the limit.** -/
theorem counted_feed (stat : StatAnswer) {c : Connection} (hc : Resumable c)
    (h : Counted c.request) : Counted (feed stat c).state.request := by
  by_cases hterm : c.request.parseState.terminal = true
  · rw [feed, if_pos hterm]
    exact h
  rw [Bool.not_eq_true] at hterm
  rw [feed_of_not_terminal hterm]
  -- a request line that has just been read stands in front of the framing
  have hplain : (requestLineStage stat c).request.parseState = .requestLine ∨
      (requestLineStage stat c).request.parseState = .headers ∨
      (requestLineStage stat c).request.parseState = .error →
      (requestLineStage stat c).request.chunked = false := by
    intro hs
    rw [chunked_requestLineStage]
    by_cases hearly : c.request.parseState = .idle ∨ c.request.parseState = .requestLine
    · exact h.unframed (hearly.imp_right Or.inl)
    · rw [not_or] at hearly
      rw [requestLineStage_of_ne hearly.1 hearly.2] at hs
      rcases hs with hs | hs | hs
      · exact absurd hs hearly.2
      · exact h.unframed (Or.inr (Or.inr hs))
      · rw [hs] at hterm
        cases hterm
  rcases @requestLineStage_resume stat c [] hc with
    ⟨hs, heq, hpath, hw, -⟩ | ⟨-, ⟨hsame, hni, hnr⟩ | ⟨hwf, hw, he | ⟨hs, hl⟩⟩⟩
  · -- the request line is not complete
    have hunframed := hplain (Or.inl hs)
    rw [headerStage_of_ne (by rw [hs]; decide), applyLocationBodyLimit,
      if_pos (by rw [heq]; simp [hpath]), feedBody_of_ne (by rw [hs]; decide), Outcome.state_ok]
    rw [heq] at hunframed ⊢
    exact .of_unwritten (.of_plain hunframed) ((hc.wf hterm).items_eq_nil hw) hw (by simp)
  · rw [hsame]
    cases hp : c.request.parseState with
    | idle => exact absurd hp hni
    | requestLine => exact absurd hp hnr
    | complete => rw [hp] at hterm; cases hterm
    | error => rw [hp] at hterm; cases hterm
    | headers =>
      exact counted_headerStage hp (hc.written_eq (Or.inr (Or.inr hp))) (hc.wf hterm)
        (hc.limit (Or.inl hp)) (h.unframed (Or.inr (Or.inr hp)))
    | body =>
      rw [headerStage_of_ne (by rw [hp]; decide), (hc.limit (Or.inr hp)).apply_eq]
      exact counted_feedBody h hc.read
  · -- the request line was refused
    rw [headerStage_of_ne (by rw [he]; decide)]
    obtain ⟨hverd, hw₂, hb₂⟩ := applyLocationBodyLimit_frame (requestLineStage stat c)
    have herror := hverd.parseState.trans he
    have hframed := (OneFraming.of_plain (hplain (Or.inr (Or.inr he)))).congr hverd
    apply counted_feedBody
    · exact .of_unwritten hframed (hb₂.trans (hwf.items_eq_nil hw)) (hw₂.trans hw) fun h =>
        absurd (herror.symm.trans h) (by decide)
    · exact fun h => absurd (herror.symm.trans h) (by decide)
  · exact counted_headerStage hs hw hwf hl (hplain (Or.inr (Or.inl hs)))

end Webserv
