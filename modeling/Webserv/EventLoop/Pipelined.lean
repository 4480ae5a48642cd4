import Webserv.HttpParser.Newlines
import Webserv.HttpParser.Prefixes
import Webserv.EventLoop.Answered
import Webserv.EventLoop.KeepAlive

/-!
# Two requests in one stream

The last piece of a request may go on with the first bytes of the next one.  They stay behind in
the read buffer, which nothing looks at from the dispatch of the request to the end of its
response, and which `setReading` empties then.  The newlines that may stand in front of a request
are the only bytes that it can do without.

## Main definitions

* `Arrival` — how a request comes in, up to its last piece.
* `EndAlike` — two readings have ended in the same way.
* `KeepsNext` — the bytes behind the last piece count for the next request.

## Main results

* `Arrival.Completes.first` — **a request is answered as it is without the bytes behind it.**
* `keepsNext_iff` — when nothing of the next request is lost.
-/

namespace Webserv

open Bytes

/-! ### A request that is there as a whole -/

section

variable {env : Env} {a : SpoolAnswers} {c : Connection} (rb : ByteQueue)

theorem queue_setReadBuffer (blocks : List Bytes) :
    (c.setReadBuffer rb).queue blocks =
      (c.queue blocks).mapState (·.setReadBuffer rb) := by
  have hbuffer : (c.setReadBuffer rb).writeBuffer = c.writeBuffer := rfl
  unfold Connection.queue
  rw [hbuffer]
  cases appendBlocks c.writeBuffer blocks <;> rfl

theorem answer_setReadBuffer (o : Outcome Connection Unit) :
    answer (o.mapState (·.setReadBuffer rb)) = (answer o).mapState (·.setReadBuffer rb) := by
  cases o <;> rfl

theorem sendError_setReadBuffer (code : ℕ) :
    sendError env code (c.setReadBuffer rb) =
      (sendError env code c).mapState (·.setReadBuffer rb) := by
  have hconfig : (c.setReadBuffer rb).config = c.config := rfl
  unfold sendError
  rw [hconfig, queue_setReadBuffer]
  cases c.queue [errorResponse env code c.config] <;> rfl

theorem respond_setReadBuffer :
    respond env (c.setReadBuffer rb) = (respond env c).mapState (·.setReadBuffer rb) := by
  unfold respond
  dsimp only
  rw [← answer_setReadBuffer, ← queue_setReadBuffer]
  rfl

/-- The dispatch does not look at the read buffer. -/
theorem tryDispatchComplete_setReadBuffer :
    tryDispatchComplete env a (c.setReadBuffer rb) =
      (tryDispatchComplete env a c).mapState (·.setReadBuffer rb) := by
  unfold tryDispatchComplete
  have hspooled : isBodyFullySpooled (c.setReadBuffer rb) = isBodyFullySpooled c := rfl
  have hrequest : (c.setReadBuffer rb).request = c.request := rfl
  rw [hspooled, hrequest]
  split
  · rfl
  · extract_lets c₁ c₂ c₁' c₂'
    have hsame : c₂ = c₂'.setReadBuffer rb := by
      dsimp only [c₂, c₂']
      rw [apply_ite (Connection.setReadBuffer · rb)]
      rfl
    clear_value c₂ c₂'
    rw [hsame]
    have hrequest' : (c₂'.setReadBuffer rb).request = c₂'.request := rfl
    have hconfig' : (c₂'.setReadBuffer rb).config = c₂'.config := rfl
    rw [hrequest', hconfig']
    cases resolveCgiRequest c₂'.request c₂'.config with
    | none => exact respond_setReadBuffer rb
    | some info =>
      dsimp only
      split
      · rw [sendError_setReadBuffer, answer_setReadBuffer]
      · rfl

/-- Nor does the spooling of the body. -/
theorem flushRequestBodyToTmpFile_setReadBuffer :
    flushRequestBodyToTmpFile env a (c.setReadBuffer rb) =
      (flushRequestBodyToTmpFile env a c).setReadBuffer rb := by
  have hrequest : (c.setReadBuffer rb).request = c.request := rfl
  have hnum : (c.setReadBuffer rb).connNum = c.connNum := rfl
  unfold flushRequestBodyToTmpFile
  rw [hrequest, hnum]
  dsimp only
  split
  · rfl
  · split
    · rfl
    · cases (if (openSpoolFile env a c.connNum c.request).openedFile < 0 then none
        else spoolWrites 0 a.writes (openSpoolFile env a c.connNum c.request).body.size) <;> rfl

/-- A request that is complete is spooled the same with more bytes behind it. -/
theorem pieceSpooled_setReadBuffer (hcomplete : c.request.parseState = .complete) :
    pieceSpooled env a (c.setReadBuffer rb) = (pieceSpooled env a c).setReadBuffer rb := by
  have hpast : ∀ c₀ : Connection, c₀.request.parseState ≠ .body →
      maybeCompletePostWithoutLength c₀ = c₀ := by
    intro c₀ hstate
    unfold maybeCompletePostWithoutLength
    exact if_neg fun h => hstate h.1
  have hspool : ∀ c₀ : Connection, c₀.request.parseState = .complete →
      pieceSpooled env a c₀ = if pathRequiresCgiBodySpool c₀.request c₀.config then
        flushRequestBodyToTmpFile env a c₀ else c₀ := by
    intro c₀ hcomplete
    have hstate := (flushRequestBodyToTmpFile_server env a c₀).2.2.2
    rw [hcomplete] at hstate
    unfold pieceSpooled Spool.fed
    dsimp only
    split
    · next h =>
      rw [if_pos h.2]
      apply hpast
      rcases hstate with hstate | hstate
      · exact fun hbody => absurd (hstate.symm.trans hbody) (by decide)
      · exact fun hbody => absurd (hstate.symm.trans hbody) (by decide)
    · next h =>
      rw [if_neg fun hscript => h ⟨Or.inr hcomplete, hscript⟩]
      exact hpast _ (by rw [hcomplete]; decide)
  have hrequest : (c.setReadBuffer rb).request = c.request := rfl
  have hconfig : (c.setReadBuffer rb).config = c.config := rfl
  rw [hspool c hcomplete, hspool (c.setReadBuffer rb) hcomplete,
    flushRequestBodyToTmpFile_setReadBuffer, hrequest, hconfig]
  split <;> rfl

/-- Nor does the handler of the exception. -/
theorem catchRead_setReadBuffer (o : Outcome Connection ReadFate) :
    catchRead env (o.mapState (·.setReadBuffer rb)) =
      (catchRead env o).mapState (·.setReadBuffer rb) := by
  cases o with
  | ok c fate => rfl
  | bodyLimit c =>
    unfold catchRead
    dsimp only [Outcome.mapState_bodyLimit]
    rw [← answer_setReadBuffer, ← sendError_setReadBuffer]
    rfl

end

/-! ### The last piece of a request -/

/-- How a request comes in: the readable events before the last one, and of the last one the
pieces before the last piece of the request, that piece, and what the kernel answers when it is
spooled. -/
structure Arrival where
  before : List (Env × List RecvAnswer)
  env : Env
  pieces : List RecvAnswer
  last : Bytes
  spool : SpoolAnswers

/-- The events, if the last piece goes on with `x`, and `behind` is there to be received behind
it. -/
def Arrival.events (r : Arrival) (x : Bytes) (behind : List RecvAnswer) :
    List (Env × List RecvAnswer) :=
  r.before ++ [(r.env, r.pieces ++ .data (r.last ++ x) r.spool :: behind)]

/-- The request is complete with its last piece, and dispatched; `s` is the connection when that
piece comes. -/
structure Arrival.Completes (r : Arrival) (c s : Connection) : Prop where
  before : ∃ c₀, readRequest c r.before = .ok c₀ .nothing ∧ ComesTo r.env s [] c₀ r.pieces
  incomplete : s.request.parseState ≠ .complete
  held : s.request.erased = false
  last : ∃ s₁ s₂, s.recv r.last r.env.now = .ok s₁ () ∧
    feed r.env.fs.statAnswer s₁ = .ok s₂ () ∧ s₂.request.parseState = .complete ∧
      Dispatchable (pieceSpooled r.env r.spool s₂)

/-- Events that end without a fate. -/
theorem readRequest_append : ∀ (events later : List (Env × List RecvAnswer)) {c c' : Connection},
    readRequest c events = .ok c' .nothing →
      readRequest c (events ++ later) = readRequest c' later := by
  intro events later
  induction events with
  | nil =>
    rintro c c' ⟨⟩
    rfl
  | cons e events ih =>
    intro c c' h
    rw [List.cons_append]
    rw [readRequest] at h ⊢
    cases hread : catchRead e.1 (readLoop e.1 c e.2) with
    | bodyLimit c₁ =>
      rw [hread] at h
      cases h
    | ok c₁ fate =>
      rw [hread] at h
      cases fate with
      | nothing => exact ih h
      | close => cases h
      | answered => cases h
      | script info => cases h
      | stuck => cases h

theorem readRequest_singleton (env : Env) (c : Connection) (answers : List RecvAnswer) :
    readRequest c [(env, answers)] = catchRead env (readLoop env c answers) := by
  rw [readRequest]
  cases catchRead env (readLoop env c answers) with
  | bodyLimit c₁ => rfl
  | ok c₁ fate => cases fate <;> rfl

/-- The rounds of the loop do not look ahead. -/
theorem ComesTo.append {env : Env} {s c : Connection} {answers : List RecvAnswer}
    (rest : List RecvAnswer) (h : ComesTo env s [] c answers) :
    ComesTo env s rest c (answers ++ rest) := by
  induction h with
  | here => exact .here
  | piece hheld hrecv hfeed hgood hd _ ih => exact .piece hheld hrecv hfeed hgood hd ih

theorem ComesTo.readLoop_eq {env : Env} {s c : Connection} {answers rest : List RecvAnswer}
    (h : ComesTo env s rest c answers) : readLoop env c answers = readLoop env s rest := by
  induction h with
  | here => rfl
  | piece hheld hrecv hfeed hgood hd _ ih =>
    rw [readLoop_data hheld hrecv hfeed, if_neg hgood, if_neg hd]
    exact ih

section

variable {r : Arrival} {c s : Connection} {x : Bytes}

/-- What has come before the last piece. -/
theorem Arrival.Completes.readRequest_eq (h : r.Completes c s) (x : Bytes)
    (behind : List RecvAnswer) : readRequest c (r.events x behind) =
      catchRead r.env (readLoop r.env s (.data (r.last ++ x) r.spool :: behind)) := by
  obtain ⟨c₀, hread, hcomes⟩ := h.before
  rw [Arrival.events, readRequest_append _ _ hread, readRequest_singleton,
    (hcomes.append _).readLoop_eq]

/-- **A request is answered as it is without the bytes behind it.** -/
theorem Arrival.Completes.first (h : r.Completes c s)
    (hroom : s.readBuffer.size + (r.last ++ x).length ≤ s.readBuffer.limit)
    (behind : List RecvAnswer) : ∃ rb, readRequest c (r.events x behind) =
      (readRequest c (r.events [] [])).mapState (·.setReadBuffer rb) := by
  obtain ⟨s₁, s₂, hrecv, hfeed, hcomplete, hd⟩ := h.last
  obtain ⟨rb, hbehind⟩ := feed_deliver_of_complete x hfeed hcomplete
  have hs₁ : s₁ = { s with readBuffer := s.readBuffer.push r.last, lastActive := r.env.now } := by
    unfold Connection.recv at hrecv
    split at hrecv
    · cases hrecv
    · next happend =>
      cases hrecv
      rw [(Fifo.append_eq_some_iff.mp happend).2]
  have hrecv' : s.recv (r.last ++ x) r.env.now = .ok (s₁.deliver x) () := by
    unfold Connection.recv
    rw [Fifo.append_eq_some_iff.mpr ⟨Or.inr hroom, rfl⟩, hs₁, ← Fifo.push_push]
    rfl
  have hresume : ∀ c : Connection, c.request = s.request → resumeBodyIfNeeded c = c := by
    intro c hrequest
    unfold resumeBodyIfNeeded
    dsimp only
    rw [hrequest]
    exact if_pos h.incomplete
  have hsame₁ : resumeBodyIfNeeded s₁ = s₁ := hresume _ (by rw [hs₁])
  have hsame₂ : resumeBodyIfNeeded (s₁.deliver x) = s₁.deliver x := hresume _ (by rw [hs₁]; rfl)
  have hgood : s₂.request.parseState ≠ .error := by
    rw [hcomplete]
    decide
  -- the last piece alone, and with what has come behind it
  have halone : readLoop r.env s [.data (r.last ++ []) r.spool] =
      tryDispatchComplete r.env r.spool (pieceSpooled r.env r.spool s₂) := by
    rw [List.append_nil, readLoop_data h.held hrecv (by rw [hsame₁]; exact hfeed), if_neg hgood,
      if_pos hd]
  have htogether : readLoop r.env s (.data (r.last ++ x) r.spool :: behind) =
      (tryDispatchComplete r.env r.spool (pieceSpooled r.env r.spool s₂)).mapState
        (·.setReadBuffer rb) := by
    have hspooled := @pieceSpooled_setReadBuffer r.env r.spool s₂ rb hcomplete
    have hd' : Dispatchable ((pieceSpooled r.env r.spool s₂).setReadBuffer rb) := hd
    rw [readLoop_data h.held hrecv' (by rw [hsame₂]; exact hbehind), request_setReadBuffer,
      if_neg hgood, hspooled, if_pos hd', tryDispatchComplete_setReadBuffer]
  refine ⟨rb, ?_⟩
  rw [h.readRequest_eq, h.readRequest_eq, htogether, halone, catchRead_setReadBuffer]

end

/-! ### How readings end -/

/-- Two readings have ended in the same way: both wait for more, or both clients are closed, or
they have the same fate, for the same request and with the same bytes to be sent.  What is left in
the read buffer is not compared. -/
inductive EndAlike : Outcome Connection ReadFate → Outcome Connection ReadFate → Prop
  | waiting (c c' : Connection) : EndAlike (.ok c .nothing) (.ok c' .nothing)
  | closed (c c' : Connection) : EndAlike (.ok c .close) (.ok c' .close)
  | ended {c c' : Connection} (fate : ReadFate) (rb : ByteQueue) :
      (c.setReadBuffer rb).Alike c' → EndAlike (.ok c fate) (.ok c' fate)
  | threw {c c' : Connection} (rb : ByteQueue) :
      (c.setReadBuffer rb).Alike c' → EndAlike (.bodyLimit c) (.bodyLimit c')

theorem Connection.Alike.refl (c : Connection) : c.Alike c := ⟨c, rfl⟩

theorem Connection.Alike.trans {c c' c'' : Connection} (h : c.Alike c') (h' : c'.Alike c'') :
    c.Alike c'' := by
  obtain ⟨k, rfl⟩ := h
  obtain ⟨k', rfl⟩ := h'
  exact ⟨k', rfl⟩

namespace EndAlike

variable {o o' o'' : Outcome Connection ReadFate}

theorem refl (o : Outcome Connection ReadFate) : EndAlike o o := by
  cases o with
  | ok c fate => exact .ended fate c.readBuffer (.refl c)
  | bodyLimit c => exact .threw c.readBuffer (.refl c)

theorem trans_rel (h : EndAlike o o') (h' : o'.Rel Connection.Alike o'') : EndAlike o o'' := by
  cases h with
  | waiting c c' => cases h' with | ok _ h' => exact .waiting _ _
  | closed c c' => cases h' with | ok _ h' => exact .closed _ _
  | ended fate rb h => cases h' with | ok _ h' => exact .ended fate rb (h.trans h')
  | threw rb h => cases h' with | bodyLimit h' => exact .threw rb (h.trans h')

/-- Only the read buffers differ. -/
theorem setReadBuffer (o : Outcome Connection ReadFate) (rb : ByteQueue) :
    EndAlike (o.mapState (·.setReadBuffer rb)) o := by
  cases o with
  | ok c fate => exact .ended fate c.readBuffer (.refl c)
  | bodyLimit c => exact .threw c.readBuffer (.refl c)

/-- What waits is like what waits. -/
theorem eq_of_nothing {c : Connection} (h : EndAlike o (.ok c .nothing)) :
    ∃ c', o = .ok c' .nothing := by
  cases h with
  | waiting c _ => exact ⟨c, rfl⟩
  | ended _ _ _ => exact ⟨_, rfl⟩

theorem ne_nothing {c : Connection} (h : EndAlike (.ok c .nothing) o) :
    ∃ c', o = .ok c' .nothing := by
  cases h with
  | waiting _ c => exact ⟨c, rfl⟩
  | ended _ _ _ => exact ⟨_, rfl⟩

end EndAlike

/-! ### Newlines in front of the next request -/

/-- Every piece that is received at the events finds room in the read buffer. -/
def RoomForAll (c : Connection) : List (Env × List RecvAnswer) → Prop
  | [] => True
  | (env, answers) :: events =>
      (∀ s d a rest, ComesTo env s (.data d a :: rest) c answers → ¬ PieceRefused env d a s) ∧
        ∀ c', readLoop env c answers = .ok c' .nothing → RoomForAll c' events

/-- Before its request line is complete, `c` has the newlines `x` in front of what is received,
and `c'` does without them. -/
structure Newlines (x : Bytes) (c c' : Connection) : Prop where
  line : AtRequestLine c
  line' : AtRequestLine c'
  path : c.request.path = []
  body : c.request.body.items = []
  contentLength : c.request.contentLength = 0
  same : intoRequestLine c' = (intoRequestLine c).setReadBuffer c'.readBuffer
  items : c.readBuffer.items = x ++ c'.readBuffer.items
  limit : c.readBuffer.limit = c'.readBuffer.limit

namespace Newlines

variable {env : Env} {x : Bytes} {c c' : Connection}

theorem request_eq (h : Newlines x c c') :
    c'.request = { c.request with parseState := c'.request.parseState } := by
  have hsame := congrArg Connection.request h.same
  have hback : c'.request = { (intoRequestLine c').request with
      parseState := c'.request.parseState } := rfl
  rw [hback, hsame]
  rfl

theorem inHead (h : Newlines x c c') : InHead c :=
  ⟨h.line.elim Or.inl (Or.inr ∘ Or.inl), h.body, h.contentLength⟩

theorem inHead' (h : Newlines x c c') : InHead c' := by
  refine ⟨h.line'.elim Or.inl (Or.inr ∘ Or.inl), ?_, ?_⟩
  · rw [h.request_eq]
    exact h.body
  · rw [h.request_eq]
    exact h.contentLength

/-- A piece is received by both. -/
theorem recv (h : Newlines x c c') {d : Bytes}
    (hfits : d = [] ∨ c.readBuffer.size + d.length ≤ c.readBuffer.limit) (now : ℕ) :
    ∃ c₁ c₁', c.recv d now = .ok c₁ () ∧ c'.recv d now = .ok c₁' () ∧ Newlines x c₁ c₁' := by
  have hfits' : d = [] ∨ c'.readBuffer.size + d.length ≤ c'.readBuffer.limit := by
    refine hfits.imp_right fun hroom => ?_
    have hitems := congrArg List.length h.items
    rw [List.length_append] at hitems
    have hlimit := h.limit
    rw [Fifo.size_eq] at hroom ⊢
    omega
  have hpush : (c.readBuffer.push d).items = x ++ (c'.readBuffer.push d).items := by
    rw [Fifo.items_push, Fifo.items_push, h.items, List.append_assoc]
  refine ⟨{ c with readBuffer := c.readBuffer.push d, lastActive := now },
    { c' with readBuffer := c'.readBuffer.push d, lastActive := now }, ?_, ?_, ?_⟩
  · unfold Connection.recv
    rw [Fifo.append_eq_some_iff.mpr ⟨hfits, rfl⟩]
  · unfold Connection.recv
    rw [Fifo.append_eq_some_iff.mpr ⟨hfits', rfl⟩]
  · refine ⟨h.line, h.line', h.path, h.body, h.contentLength, ?_, hpush, h.limit⟩
    have hsame := congrArg (fun c₀ : Connection =>
      ({ c₀ with readBuffer := c'.readBuffer.push d, lastActive := now } : Connection)) h.same
    exact hsame

/-- The parser waits for the rest of both lines, or both are refused, or what it has come to is
the same. -/
theorem feed (hx : ∀ b ∈ x, IsNewline b) (h : Newlines x c c') (stat : StatAnswer) :
    (∃ c₁ c₁', Webserv.feed stat c = .ok c₁ () ∧ Webserv.feed stat c' = .ok c₁' () ∧
        Newlines x c₁ c₁') ∨
      (∃ c₁ rb, Webserv.feed stat c = .ok (c₁.setReadBuffer rb) () ∧
        Webserv.feed stat c' = .ok c₁ () ∧ c₁.request.parseState = .error) ∨
      Webserv.feed stat c = Webserv.feed stat c' := by
  have hinto : ∀ c₀ : Connection, AtRequestLine c₀ →
      Webserv.feed stat c₀ = Webserv.feed stat (intoRequestLine c₀) := by
    intro c₀ h₀
    have hlive : ¬ c₀.request.parseState.terminal = true := by
      rcases h₀ with h₀ | h₀ <;> simp [h₀, ParseState.terminal]
    rw [Webserv.feed, Webserv.feed, if_neg hlive, if_neg (by simp [intoRequestLine,
      ParseState.terminal]), requestLineStage_eq h₀, requestLineStage_eq (Or.inr rfl)]
    rfl
  have hfeed := @feed_newlines stat (intoRequestLine c) c'.readBuffer x hx (Or.inr rfl) h.path
    h.items h.limit
  rw [← h.same, ← hinto c h.line, ← hinto c' h.line'] at hfeed
  rcases hfeed with ⟨hfed, hfed'⟩ | hfed | hfed
  · refine Or.inl ⟨_, _, hfed, hfed', Or.inr rfl, Or.inr rfl, h.path, h.body, h.contentLength, ?_,
      h.items, h.limit⟩
    exact h.same
  · exact Or.inr (Or.inl hfed)
  · exact Or.inr (Or.inr hfed)

end Newlines

/-- What one reading has come to, with newlines in front and without. -/
inductive ReadNewlines (x : Bytes) :
    Outcome Connection ReadFate → Outcome Connection ReadFate → Prop
  | waiting {c c' : Connection} : Newlines x c c' →
      ReadNewlines x (.ok c .nothing) (.ok c' .nothing)
  | closed (c c' : Connection) : ReadNewlines x (.ok c .close) (.ok c' .close)
  | refused (o : Outcome Connection Unit) (rb : ByteQueue) :
      ReadNewlines x ((answer o).mapState (·.setReadBuffer rb)) (answer o)
  | same (o : Outcome Connection ReadFate) : ReadNewlines x o o

section

variable {env : Env} {x : Bytes}

/-- A piece that is not refused by a buffer that is there. -/
theorem fits_of_not_refused {c : Connection} {d : Bytes} {a : SpoolAnswers}
    (hheld : c.request.erased = false) (h : ¬ PieceRefused env d a c) :
    d = [] ∨ c.readBuffer.size + d.length ≤ c.readBuffer.limit := by
  rw [pieceRefused_of_held hheld] at h
  cases happend : c.readBuffer.append d with
  | none =>
    refine absurd ?_ h
    unfold Connection.recv
    rw [happend]
    rfl
  | some rb => exact (Fifo.append_eq_some_iff.mp happend).1

/-- **One reading with newlines in front of the request.** -/
theorem readLoop_newlines (hx : ∀ b ∈ x, IsNewline b) :
    ∀ (answers : List RecvAnswer) (c c' : Connection), Newlines x c c' →
      (∀ s d a rest, ComesTo env s (.data d a :: rest) c answers → ¬ PieceRefused env d a s) →
      ReadNewlines x (readLoop env c answers) (readLoop env c' answers) := by
  intro answers
  induction answers with
  | nil =>
    intro c c' h _
    rw [readLoop, readLoop, h.inHead.readAgain, h.inHead'.readAgain]
    exact .waiting h
  | cons r answers ih =>
    intro c c' h hroom
    cases r with
    | eof a =>
      rw [readLoop, readLoop, h.inHead.readEof, h.inHead'.readEof]
      exact .closed c c'
    | again a =>
      rw [readLoop, readLoop, h.inHead.readAgain, h.inHead'.readAgain]
      exact .waiting h
    | data d a =>
      have hfits := fits_of_not_refused h.inHead.held (hroom c d a answers .here)
      obtain ⟨c₁, c₁', hrecv, hrecv', h₁⟩ := h.recv hfits env.now
      have hresume := h₁.inHead.resume
      have hresume' := h₁.inHead'.resume
      rcases h₁.feed hx env.fs.statAnswer with ⟨c₂, c₂', hfeed, hfeed', h₂⟩ |
        ⟨c₂, rb, hfeed, hfeed', herror⟩ | hsame
      · -- still at the request line: the next round
        have hspooled : ∀ c₀ : Connection, InHead c₀ → pieceSpooled env a c₀ = c₀ := by
          intro c₀ h₀
          unfold pieceSpooled Spool.fed
          dsimp only
          rw [if_neg fun hstate => hstate.1.elim h₀.ne.2.1 h₀.ne.2.2]
          exact h₀.maybeComplete
        rw [← hresume] at hfeed
        rw [← hresume'] at hfeed'
        rw [readLoop_data h.inHead.held hrecv hfeed, readLoop_data h.inHead'.held hrecv' hfeed',
          if_neg h₂.inHead.ne.1, if_neg h₂.inHead'.ne.1, hspooled c₂ h₂.inHead,
          hspooled c₂' h₂.inHead', if_neg h₂.inHead.not_dispatchable,
          if_neg h₂.inHead'.not_dispatchable]
        apply ih c₂ c₂' h₂
        intro s d' a' rest hcomes
        refine hroom s d' a' rest (.piece h.inHead.held hrecv hfeed h₂.inHead.ne.1 ?_ ?_)
        · rw [hspooled c₂ h₂.inHead]
          exact h₂.inHead.not_dispatchable
        · rwa [hspooled c₂ h₂.inHead]
      · -- both are refused
        rw [← hresume] at hfeed
        rw [← hresume'] at hfeed'
        rw [readLoop_data h.inHead.held hrecv hfeed, readLoop_data h.inHead'.held hrecv' hfeed',
          request_setReadBuffer, if_pos herror, if_pos herror, sendError_setReadBuffer,
          answer_setReadBuffer]
        exact .refused _ rb
      · rw [readLoop_held h.inHead.held, readLoop_held h.inHead'.held, hrecv, hrecv',
          Outcome.andThen_ok, Outcome.andThen_ok, hresume, hresume', hsame]
        exact .same _

/-- **The newlines in front of a request count for nothing**, if they find room with it. -/
theorem readRequest_newlines (hx : ∀ b ∈ x, IsNewline b) :
    ∀ (events : List (Env × List RecvAnswer)) (c c' : Connection), Newlines x c c' →
      RoomForAll c events → EndAlike (readRequest c events) (readRequest c' events) := by
  intro events
  induction events with
  | nil => exact fun c c' _ _ => .waiting c c'
  | cons e events ih =>
    obtain ⟨env, answers⟩ := e
    intro c c' h hroom
    have hread := readLoop_newlines hx answers c c' h hroom.1
    have hlater := hroom.2
    rw [readRequest, readRequest]
    generalize readLoop env c answers = o at hread hlater
    generalize readLoop env c' answers = o' at hread
    cases hread with
    | @waiting c₁ c₁' h₁ => exact ih c₁ c₁' h₁ (hlater c₁ rfl)
    | closed c₁ c₁' => exact .closed c₁ c₁'
    | same => exact .refl _
    | refused o rb =>
      rw [catchRead_setReadBuffer]
      cases hcatch : catchRead env (answer o) with
      | bodyLimit c₁ => exact .setReadBuffer (.bodyLimit c₁) rb
      | ok c₁ fate =>
        have hfate : fate ≠ .nothing := by
          rintro rfl
          cases o with
          | ok c₂ u => cases hcatch
          | bodyLimit c₂ => exact absurd hcatch answer_ne_nothing
        cases fate with
        | nothing => exact absurd rfl hfate
        | close => exact .setReadBuffer (.ok c₁ .close) rb
        | answered => exact .setReadBuffer (.ok c₁ .answered) rb
        | script info => exact .setReadBuffer (.ok c₁ (.script info)) rb
        | stuck => exact .setReadBuffer (.ok c₁ .stuck) rb

end

/-! ### Requests that have got past their first line -/

/-- The request line has been accepted. -/
structure PastLine (c : Connection) : Prop where
  not_idle : c.request.parseState ≠ .idle
  not_line : c.request.parseState ≠ .requestLine
  path : c.request.path ≠ []

theorem pastLine_headerStage {c : Connection} (h : PastLine c) :
    (headerStage c).request.parseState ≠ .idle ∧
      (headerStage c).request.parseState ≠ .requestLine := by
  unfold headerStage
  split
  · next hheaders =>
    obtain ⟨-, headers, state, code, hreq, hend⟩ := headerLoop_frame (c.readBuffer, c.request)
    unfold parseHeaders afterHeaderLoop
    dsimp only
    split
    · rcases (finishHeaders_cases { c with
          readBuffer := (headerLoop (c.readBuffer, c.request)).1.1
          request := (headerLoop (c.readBuffer, c.request)).1.2 }).2.2.2 with
        hstate | ⟨hstate, -⟩ | ⟨hstate, -⟩ <;> rw [hstate] <;> decide
    · dsimp only at hend ⊢
      rw [hreq]
      rcases hend with rfl | rfl
      · exact ⟨nofun, nofun⟩
      · exact ⟨h.not_idle, h.not_line⟩
  · exact ⟨h.not_idle, h.not_line⟩

theorem pastLine_feedBody {c : Connection} (h : PastLine c) : PastLine (feedBody c).state := by
  have hkept : (feedBody c).state.request.parseState = c.request.parseState ∨
      (feedBody c).state.request.parseState = .complete ∨
        (feedBody c).state.request.parseState = .error := by
    unfold feedBody
    split
    · have hread : KeepsHeaders c.request ((if c.request.chunked then parseChunked else parseBody)
          c.readBuffer c.request).state.2 := by
        split
        · exact keepsHeaders_parseChunked _ _
        · exact keepsHeaders_parseBody _ _
      dsimp only
      cases ho : (if c.request.chunked then parseChunked else parseBody) c.readBuffer
        c.request <;> rw [ho] at hread <;> exact hread.state
    · exact Or.inl rfl
  refine ⟨?_, ?_, by rw [path_feedBody]; exact h.path⟩
  · rcases hkept with hstate | hstate | hstate
    · exact hstate ▸ h.not_idle
    · simp [hstate]
    · simp [hstate]
  · rcases hkept with hstate | hstate | hstate
    · exact hstate ▸ h.not_line
    · simp [hstate]
    · simp [hstate]

/-- The stages behind the request line. -/
theorem pastLine_stages {c : Connection} (h : PastLine c) :
    PastLine (feedBody (applyLocationBodyLimit (headerStage c))).state := by
  obtain ⟨hidle, hline⟩ := pastLine_headerStage h
  have hframe := (applyLocationBodyLimit_frame (headerStage c)).1
  refine pastLine_feedBody ⟨?_, ?_, ?_⟩
  · rwa [hframe.parseState]
  · rwa [hframe.parseState]
  · rw [hframe.path, path_headerStage]
    exact h.path

/-- Spooling does not touch the path. -/
theorem path_flushRequestBodyToTmpFile (env : Env) (a : SpoolAnswers) (c : Connection) :
    (flushRequestBodyToTmpFile env a c).request.path = c.request.path := by
  have hopen : (openSpoolFile env a c.connNum c.request).path = c.request.path := by
    unfold openSpoolFile
    split
    · rfl
    · cases a.openFd <;> rfl
  unfold flushRequestBodyToTmpFile
  dsimp only
  split
  · rfl
  · split
    · rfl
    · split
      · exact hopen
      · exact hopen

theorem pastLine_flush (env : Env) (a : SpoolAnswers) {c : Connection} (h : PastLine c) :
    PastLine (flushRequestBodyToTmpFile env a c) := by
  have hstate := (flushRequestBodyToTmpFile_server env a c).2.2.2
  refine ⟨?_, ?_, by rw [path_flushRequestBodyToTmpFile]; exact h.path⟩
  · rcases hstate with hstate | hstate
    · simp [hstate]
    · exact hstate ▸ h.not_idle
  · rcases hstate with hstate | hstate
    · simp [hstate]
    · exact hstate ▸ h.not_line

theorem keptByReading_pastLine : KeptByReading PastLine where
  recv c d now h := by
    have hreq := request_recv c d now
    exact ⟨hreq ▸ h.not_idle, hreq ▸ h.not_line, hreq ▸ h.path⟩
  resume c h := by
    unfold resumeBodyIfNeeded
    dsimp only
    split_ifs
    · exact h
    · exact ⟨nofun, nofun, h.path⟩
    · exact ⟨nofun, nofun, h.path⟩
    · exact h
  feed stat c h := by
    unfold feed
    split
    · exact h
    · rw [requestLineStage_of_ne h.not_idle h.not_line]
      exact pastLine_stages h
  complete c h := by
    unfold maybeCompletePostWithoutLength
    dsimp only
    split
    · exact ⟨nofun, nofun, h.path⟩
    · exact h
  flush env a c h := pastLine_flush env a h
  endOfFile env a c _ h := ⟨nofun, nofun, (pastLine_flush env a h).path⟩

/-- The request has been refused before its first line was accepted. -/
def RefusedAtLine (req : HttpRequest) : Prop := req.parseState = .error ∧ req.path = []

/-- A request that is dispatched has not been refused there. -/
theorem not_refusedAtLine_dispatch (env : Env) (a : SpoolAnswers) {c : Connection}
    (h : PastLine c) (hd : Dispatchable c) :
    ¬ RefusedAtLine (tryDispatchComplete env a c).state.request := by
  cases hcgi : pathRequiresCgiBodySpool c.request c.config with
  | false =>
    -- the handler leaves the verdict of the parser
    obtain ⟨c₁, hreply, -, -, hreq⟩ := @tryDispatchComplete_file env a c hd hcgi
    obtain ⟨path, hpath⟩ := request_handle env (cleanupBodyTmpFile c.request) c.config
    have hqueue : (answer (c₁.queue (replyTo env c).blocks)).state.request = c₁.request := by
      rw [← request_queue c₁ (replyTo env c).blocks]
      cases c₁.queue (replyTo env c).blocks <;> rfl
    rw [hreply, hqueue, hreq, replyTo, hpath]
    rintro ⟨hstate, -⟩
    exact absurd (hd.1.symm.trans hstate) (by decide)
  | true =>
    -- the path is that of the request line
    have hpath : (spooled a c).request.path = c.request.path := by
      rw [spooled, if_pos hcgi]
      exact path_finalizeBodyTmpFile a c.request
    rw [tryDispatchComplete_eq env a hd]
    rcases deed_script env a hcgi with ⟨hdeed, -⟩ | ⟨⟨info, hdeed⟩, -⟩
    · rw [hdeed, Deed.perform, request_answer_sendError]
      exact fun hrefused => h.path (hpath.symm.trans hrefused.2)
    · rw [hdeed]
      exact fun hrefused => h.path (hpath.symm.trans hrefused.2)

/-- Nor has one that is read on behind its first line. -/
theorem EndsWith.not_refusedAtLine {env : Env} {o : Outcome Connection ReadFate}
    (h : EndsWith env PastLine o) : ¬ RefusedAtLine o.state.request := by
  cases h with
  | nothing c hc ho | close c hc ho | stuck c hc ho | threw c hc ho =>
    rw [ho]
    exact fun hrefused => hc.path hrefused.2
  | parseError c hc _ ho =>
    rw [ho, request_answer_sendError]
    exact fun hrefused => hc.path hrefused.2
  | dispatched a c hc hd ho =>
    rw [ho]
    exact not_refusedAtLine_dispatch env a hc hd

theorem refusedAtLine_catchRead (env : Env) (o : Outcome Connection ReadFate) :
    RefusedAtLine (catchRead env o).state.request ↔ RefusedAtLine o.state.request := by
  cases o with
  | ok c fate => exact Iff.rfl
  | bodyLimit c =>
    unfold catchRead
    dsimp only
    rw [request_answer_sendError]
    rfl

/-- What a reading without a fate leaves. -/
theorem EndsWith.of_nothing {env : Env} {Q : Connection → Prop} {o : Outcome Connection ReadFate}
    {c : Connection} (h : EndsWith env Q o) (ho : o = .ok c .nothing) : Q c := by
  subst ho
  cases h with
  | nothing c₁ hc hsame =>
    cases hsame
    exact hc
  | close c₁ _ hsame => cases hsame
  | stuck c₁ _ hsame => cases hsame
  | threw c₁ _ hsame => cases hsame
  | parseError c₁ _ _ hsame => exact absurd hsame.symm answer_ne_nothing
  | dispatched a c₁ _ hd hsame => exact absurd hsame.symm (tryDispatchComplete_ne_nothing hd)

theorem catchRead_eq_nothing {env : Env} {o : Outcome Connection ReadFate} {c : Connection}
    (h : catchRead env o = .ok c .nothing) : o = .ok c .nothing := by
  cases o with
  | ok c₁ fate => exact h
  | bodyLimit c₁ => exact absurd h answer_ne_nothing

/-- What is queued is queued with a fate, by the handler too. -/
theorem catchRead_answer (env : Env) (o : Outcome Connection Unit) :
    (∃ c, catchRead env (answer o) = .ok c .answered) ∨
      ∃ c, catchRead env (answer o) = .bodyLimit c := by
  have hanswer : ∀ o : Outcome Connection Unit,
      (∃ c, answer o = .ok c .answered) ∨ ∃ c, answer o = .bodyLimit c := by
    intro o
    cases o with
    | ok c u => exact Or.inl ⟨_, rfl⟩
    | bodyLimit c => exact Or.inr ⟨_, rfl⟩
  rcases hanswer o with ⟨c, hc⟩ | ⟨c, hc⟩
  · exact Or.inl ⟨c, by rw [hc]; rfl⟩
  · rw [hc]
    exact hanswer _

theorem catchRead_answer_ne_nothing {env : Env} {o : Outcome Connection Unit} {c : Connection} :
    catchRead env (answer o) ≠ .ok c .nothing :=
  fun h => answer_ne_nothing (catchRead_eq_nothing h)

/-- Readings that have been answered alike have been refused alike. -/
theorem EndAlike.refusedAtLine {env : Env} {o : Outcome Connection ReadFate}
    {o' : Outcome Connection Unit} (h : EndAlike o (catchRead env (answer o')))
    (hrefused : RefusedAtLine (catchRead env (answer o')).state.request) :
    RefusedAtLine o.state.request := by
  rcases catchRead_answer env o' with ⟨c, hc⟩ | ⟨c, hc⟩
  · rw [hc] at h hrefused
    cases h with
    | ended _ rb h =>
      obtain ⟨k, rfl⟩ := h
      exact hrefused
  · rw [hc] at h hrefused
    cases h with
    | threw rb h =>
      obtain ⟨k, rfl⟩ := h
      exact hrefused

/-! ### A piece at the request line -/

/-- The request line is being read, and nothing else has been read. -/
structure OnLine (c : Connection) : Prop extends InHead c where
  line : AtRequestLine c
  path : c.request.path = []

section

variable {env : Env} {a : SpoolAnswers} {c : Connection} {d : Bytes}

/-- The connection when it has received one more piece of its request line. -/
def Connection.moreLine (c : Connection) (d : Bytes) (now : ℕ) : Connection :=
  intoRequestLine { c with readBuffer := c.readBuffer.push d, lastActive := now }

theorem OnLine.moreLine (h : OnLine c) (d : Bytes) (now : ℕ) : OnLine (c.moreLine d now) :=
  ⟨⟨Or.inr (Or.inl rfl), h.body, h.contentLength⟩, Or.inr rfl, h.path⟩

/-- A piece finds room behind what has come of the line. -/
theorem OnLine.recv_eq (h : d = [] ∨ c.readBuffer.size + d.length ≤ c.readBuffer.limit) (now : ℕ) :
    c.recv d now =
      .ok { c with readBuffer := c.readBuffer.push d, lastActive := now } () := by
  unfold Connection.recv
  rw [Fifo.append_eq_some_iff.mpr ⟨h, rfl⟩]

/-- The line is not complete. -/
theorem OnLine.readLoop_more (h : OnLine c)
    (hfits : d = [] ∨ c.readBuffer.size + d.length ≤ c.readBuffer.limit)
    (hscan : rlScan RLScan.init 0 (c.readBuffer.items ++ d) = .more) (rest : List RecvAnswer) :
    readLoop env c (.data d a :: rest) = readLoop env (c.moreLine d env.now) rest := by
  have h₁ : InHead { c with readBuffer := c.readBuffer.push d, lastActive := env.now } :=
    ⟨h.parseState, h.body, h.contentLength⟩
  have hfeed := @feed_requestLine_more env.fs.statAnswer
    { c with readBuffer := c.readBuffer.push d, lastActive := env.now } h.line h.path hscan
  rw [readLoop_held h.held, OnLine.recv_eq hfits, Outcome.andThen_ok, h₁.resume, hfeed,
    Outcome.andThen_ok]
  exact congrArg (fun o : Outcome Connection ReadFate => o.andThen _)
    (h.moreLine d env.now).readFed

/-- The line is refused. -/
theorem OnLine.readLoop_error {code : ℕ} (h : OnLine c)
    (hfits : d = [] ∨ c.readBuffer.size + d.length ≤ c.readBuffer.limit)
    (hscan : rlScan RLScan.init 0 (c.readBuffer.items ++ d) = .error code)
    (rest : List RecvAnswer) : ∃ c₂, readLoop env c (.data d a :: rest) =
      answer (sendError env code c₂) ∧ RefusedAtLine c₂.request := by
  set c₁ : Connection := { c with readBuffer := c.readBuffer.push d, lastActive := env.now }
  have h₁ : InHead c₁ := ⟨h.parseState, h.body, h.contentLength⟩
  have hfeed : feed env.fs.statAnswer (resumeBodyIfNeeded c₁) =
      .ok { c₁ with request := c₁.request.fail code } () := by
    rw [h₁.resume]
    exact feed_requestLine_error h.line h.path hscan
  refine ⟨{ c₁ with request := c₁.request.fail code }, ?_, rfl, h.path⟩
  rw [readLoop_data h.held (OnLine.recv_eq hfits env.now) hfeed]
  exact if_pos rfl

/-- The line is complete: what is read on behind it is past it. -/
theorem OnLine.readLoop_line {sc : RLScan} {p : ℕ} {rest : List RecvAnswer} {m : Connection}
    (h : OnLine c) (hfits : d = [] ∨ c.readBuffer.size + d.length ≤ c.readBuffer.limit)
    (hscan : rlScan RLScan.init 0 (c.readBuffer.items ++ d) = .line sc p)
    (hread : readLoop env c (.data d a :: rest) = .ok m .nothing) : PastLine m := by
  set c₁ : Connection := { c with readBuffer := c.readBuffer.push d, lastActive := env.now }
  have h₁ : InHead c₁ := ⟨h.parseState, h.body, h.contentLength⟩
  have hfeed := @feed_requestLine env.fs.statAnswer c₁ sc p h.line hscan
  rw [readLoop_held h.held, OnLine.recv_eq hfits, Outcome.andThen_ok, h₁.resume] at hread
  set c₂ := applyLocationBodyLimit (finishRequestLine env.fs.statAnswer c₁.readBuffer.items sc p
    (intoRequestLine c₁))
  have hframe := (applyLocationBodyLimit_frame (finishRequestLine env.fs.statAnswer
    c₁.readBuffer.items sc p (intoRequestLine c₁))).1
  rcases (finishRequestLine_cases env.fs.statAnswer c₁.readBuffer.items sc p
    (intoRequestLine c₁)).2.2.2 with herror | ⟨hheaders, hpath⟩
  · -- a line that is refused is answered
    have hstate : c₂.request.parseState = .error := hframe.parseState.trans herror
    have hend : (applyLocationBodyLimit c₂).request.parseState = .error :=
      (applyLocationBodyLimit_frame c₂).1.parseState.trans hstate
    rw [hfeed, feedBody_of_error hstate, Outcome.andThen_ok, readFed, if_pos hend] at hread
    cases ho : sendError env (applyLocationBodyLimit c₂).request.errorCode
        (applyLocationBodyLimit c₂) <;> rw [ho] at hread <;> cases hread
  · have hpast : PastLine c₂ := by
      refine ⟨?_, ?_, ?_⟩
      · rw [hframe.parseState, hheaders]
        decide
      · rw [hframe.parseState, hheaders]
        decide
      · rwa [hframe.path]
    have hstages := pastLine_stages hpast
    rw [← hfeed] at hstages
    cases hf : feed env.fs.statAnswer c₁ with
    | bodyLimit c₃ =>
      rw [hf] at hread
      cases hread
    | ok c₃ u =>
      rw [hf, Outcome.andThen_ok] at hread
      rw [hf] at hstages
      have hfed := @endsWith_readFed env PastLine c₃ keptByReading_pastLine a hstages
      cases ho : readFed env a c₃ with
      | bodyLimit c₄ =>
        rw [ho] at hread
        cases hread
      | ok c₄ fate =>
        rw [ho, Outcome.andThen_ok] at hread
        rw [ho] at hfed
        cases fate with
        | nothing =>
          have hc₄ := hfed.of_nothing rfl
          exact (endsWith_readLoop keptByReading_pastLine rest c₄ hc₄).of_nothing hread
        | close => cases hread
        | answered => cases hread
        | script info => cases hread
        | stuck => cases hread

end

/-! ### The next request -/

/-- The events with these bytes in front, as a piece of their own. -/
def inFront (x : Bytes) (a : SpoolAnswers) :
    List (Env × List RecvAnswer) → List (Env × List RecvAnswer)
  | [] => []
  | e :: later => if x = [] then e :: later else (e.1, .data x a :: e.2) :: later

/-- `n` is the connection when the response to a request that came in like this has been written:
it waits for the next one. -/
def WaitsAfter (c : Connection) (events : List (Env × List RecvAnswer)) (n : Connection) : Prop :=
  ∃ c₁ fate c₂ now, readRequest c events = .ok c₁ fate ∧ c₁.Serves c₂ ∧ n = c₂.setReading now

/-- With the last piece of a request come the first bytes `x` of the next one, and none is lost:
the request is answered as it is alone, and whatever comes behind, within the limit of the read
buffer, is read and answered as it is behind `x`, when `x` comes only when the response has been
written. -/
structure KeepsNext (c : Connection) (r : Arrival) (x : Bytes) : Prop where
  first : ∀ behind, ∃ rb, readRequest c (r.events x behind) =
    (readRequest c (r.events [] [])).mapState (·.setReadBuffer rb)
  second : ∀ behind n n', WaitsAfter c (r.events [] []) n → WaitsAfter c (r.events x behind) n' →
    ∀ a later, RoomForAll n (inFront x a later) →
      EndAlike (readRequest n (inFront x a later)) (readRequest n' later)

/-- The bytes are within the limit of the read buffer, as the beginning of a request: they find
room, and a byte behind them does as long as the request is not there as a whole. -/
structure BeginsWithin (env : Env) (n : Connection) (x : Bytes) : Prop where
  fits : x.length ≤ n.readBuffer.limit
  goesOn : ∀ m, readLoop env n [.data x .none] = .ok m .nothing →
    m.readBuffer.size < m.readBuffer.limit

theorem onLine_setReading (c : Connection) (now : ℕ) : OnLine (c.setReading now) :=
  ⟨⟨Or.inl rfl, rfl, rfl⟩, Or.inl rfl, rfl⟩

/-- A connection that waits goes on waiting if nothing comes. -/
theorem readRequest_setReading (env : Env) (c : Connection) (now : ℕ) :
    readRequest (c.setReading now) [(env, [])] = .ok (c.setReading now) .nothing := by
  rw [readRequest_singleton, readLoop, (onLine_setReading c now).readAgain]
  rfl

section

variable {env : Env} {x : Bytes} {c : Connection} {now : ℕ}

/-- **Newlines in front of the next request may be lost.** -/
theorem endAlike_inFront (hx : ∀ b ∈ x, IsNewline b) (a : SpoolAnswers)
    (later : List (Env × List RecvAnswer))
    (hroom : RoomForAll (c.setReading now) (inFront x a later)) :
    EndAlike (readRequest (c.setReading now) (inFront x a later))
      (readRequest (c.setReading now) later) := by
  cases later with
  | nil => exact .refl _
  | cons e later =>
    obtain ⟨env, answers⟩ := e
    by_cases hnil : x = []
    · rw [inFront, if_pos hnil]
      exact .refl _
    rw [inFront, if_neg hnil] at hroom ⊢
    have hline := onLine_setReading c now
    have hfits := fits_of_not_refused hline.held (hroom.1 _ x a answers .here)
    have hscan : rlScan RLScan.init 0 ((c.setReading now).readBuffer.items ++ x) = .more := by
      have hsame := rlScan_newlines hx []
      rw [List.append_nil] at hsame
      exact hsame
    set m := (c.setReading now).moreLine x env.now
    have hloop : ∀ rest, readLoop env (c.setReading now) (.data x a :: rest) =
        readLoop env m rest := hline.readLoop_more hfits hscan
    have hm : OnLine m := hline.moreLine x env.now
    -- the newlines are what `m` has in front of the connection that waits
    have hnewlines : Newlines x m { c.setReading now with lastActive := env.now } :=
      ⟨hm.line, hline.line, hm.path, hm.body, hm.contentLength, rfl,
        (List.append_nil x).symm, rfl⟩
    have hcomes : ∀ s rest, ComesTo env s rest m answers →
        ComesTo env s rest (c.setReading now) (.data x a :: answers) := by
      intro s rest h
      have h₁ : InHead { c.setReading now with
          readBuffer := (c.setReading now).readBuffer.push x, lastActive := env.now } :=
        ⟨hline.parseState, hline.body, hline.contentLength⟩
      have hfeed := @feed_requestLine_more env.fs.statAnswer { c.setReading now with
        readBuffer := (c.setReading now).readBuffer.push x, lastActive := env.now }
        hline.line hline.path hscan
      rw [← h₁.resume] at hfeed
      have hspooled : pieceSpooled env a m = m := by
        unfold pieceSpooled Spool.fed
        dsimp only
        rw [if_neg fun hstate => hstate.1.elim hm.ne.2.1 hm.ne.2.2]
        exact hm.maybeComplete
      refine .piece hline.held (OnLine.recv_eq hfits env.now) hfeed hm.ne.1 ?_ ?_
      · exact hspooled.symm ▸ hm.not_dispatchable
      · exact hspooled.symm ▸ h
    have hroom' : RoomForAll m ((env, answers) :: later) := by
      refine ⟨fun s d a' rest h => hroom.1 s d a' rest (hcomes s _ h), fun c' hread => ?_⟩
      exact hroom.2 c' ((hloop answers).trans hread)
    have hread : readRequest (c.setReading now) ((env, .data x a :: answers) :: later) =
        readRequest m ((env, answers) :: later) := by
      rw [readRequest, readRequest, hloop]
    rw [hread]
    refine (readRequest_newlines hx _ _ _ hnewlines hroom').trans_rel ?_
    exact Connection.Alike.readRequest _ ⟨c.setReading now, rfl⟩

/-- There is room for one more byte in a buffer that is not full. -/
theorem not_refused_of_room {m : Connection} {b : UInt8}
    (h : m.readBuffer.size < m.readBuffer.limit) : ¬ PieceRefused env [b] .none m := by
  cases herased : m.request.erased with
  | true =>
    have hone : sizeT (([b] : Bytes).length - (SpoolAnswers.none.head : ℕ)) = 1 := rfl
    rw [pieceRefused_of_erased herased, hone]
    omega
  | false =>
    have hfits : m.readBuffer.size + [b].length ≤ m.readBuffer.limit := h
    rw [pieceRefused_of_held herased, OnLine.recv_eq (Or.inr hfits)]
    exact Bool.false_ne_true

/-- A single piece, and a single byte at the next event, find room. -/
theorem roomForAll_byte {n : Connection} {b : UInt8} (hn : OnLine n)
    (hempty : n.readBuffer.size = 0) (h : BeginsWithin env n x) :
    RoomForAll n [(env, [.data x .none]), (env, [.data [b] .none])] := by
  have hlast : ∀ {c s : Connection} {d d' : Bytes} {a : SpoolAnswers} {rest : List RecvAnswer},
      ComesTo env s (.data d a :: rest) c [.data d' .none] → s = c ∧ d = d' ∧ a = .none := by
    intro c s d d' a rest hcomes
    cases hcomes with
    | here => exact ⟨rfl, rfl, rfl⟩
    | piece _ _ _ _ _ hcomes => cases hcomes
  refine ⟨?_, fun m hread => ⟨?_, fun _ _ => trivial⟩⟩
  · intro s d a rest hcomes
    obtain ⟨rfl, rfl, rfl⟩ := hlast hcomes
    have hfits : s.readBuffer.size + d.length ≤ s.readBuffer.limit := by
      rw [hempty, Nat.zero_add]
      exact h.fits
    rw [pieceRefused_of_held hn.held, OnLine.recv_eq (Or.inr hfits)]
    exact Bool.false_ne_true
  · intro s d a rest hcomes
    obtain ⟨rfl, rfl, rfl⟩ := hlast hcomes
    exact not_refused_of_room (h.goesOn s hread)

/-- If what comes behind is read alike, the connection waits when `x` has come, and one more byte,
at the next event, is read alike. -/
theorem exists_probe (h : BeginsWithin env (c.setReading now) x) (hnil : x ≠ [])
    (hsame : ∀ later, RoomForAll (c.setReading now) (inFront x .none later) →
      EndAlike (readRequest (c.setReading now) (inFront x .none later))
        (readRequest (c.setReading now) later)) :
    ∃ m, readLoop env (c.setReading now) [.data x .none] = .ok m .nothing ∧
      ∀ b, EndAlike (catchRead env (readLoop env m [.data [b] .none]))
        (catchRead env (readLoop env (c.setReading now) [.data [b] .none])) := by
  set n := c.setReading now
  have hn : OnLine n := onLine_setReading c now
  have hempty : n.readBuffer.size = 0 := rfl
  have hwaits : readRequest n [(env, [])] = .ok n .nothing := readRequest_setReading env c now
  -- nothing is to be done with the connection when `x` has come
  obtain ⟨m, hm⟩ : ∃ m, readLoop env n [.data x .none] = .ok m .nothing := by
    have hroom := (roomForAll_byte (b := 0) hn hempty h).1
    have halike := hsame [(env, [])] (by
      rw [inFront, if_neg hnil]
      exact ⟨hroom, fun _ _ => trivial⟩)
    rw [inFront, if_neg hnil, hwaits, readRequest_singleton] at halike
    obtain ⟨m, hm⟩ := halike.eq_of_nothing
    exact ⟨m, catchRead_eq_nothing hm⟩
  refine ⟨m, hm, fun b => ?_⟩
  have halike := hsame [(env, []), (env, [.data [b] .none])] (by
    rw [inFront, if_neg hnil]
    exact roomForAll_byte hn hempty h)
  have hx : readRequest n [(env, [.data x .none]), (env, [.data [b] .none])] =
      readRequest m [(env, [.data [b] .none])] := by
    have hfirst : readRequest n [(env, [.data x .none])] = .ok m .nothing := by
      rw [readRequest_singleton, hm]
      rfl
    exact readRequest_append [(env, [.data x .none])] [(env, [.data [b] .none])] hfirst
  have hwithout : readRequest n [(env, []), (env, [.data [b] .none])] =
      readRequest n [(env, [.data [b] .none])] :=
    readRequest_append [(env, [])] [(env, [.data [b] .none])] hwaits
  rw [inFront, if_neg hnil, hx, hwithout, readRequest_singleton, readRequest_singleton] at halike
  exact halike

/-- A space in front of a request is refused, which no request is whose line is complete. -/
theorem not_endAlike_pastLine {n m : Connection} (hn : OnLine n)
    (hroom : n.readBuffer.size + 1 ≤ n.readBuffer.limit) (hempty : n.readBuffer.items = [])
    (hpast : PastLine m) :
    ¬ EndAlike (catchRead env (readLoop env m [.data [SP] .none]))
      (catchRead env (readLoop env n [.data [SP] .none])) := by
  intro halike
  obtain ⟨c₂, hspace, hrefused⟩ :=
    @OnLine.readLoop_error env .none n [SP] 400 hn (Or.inr hroom) (by rw [hempty]; rfl) []
  have hend := (@endsWith_readLoop env _ keptByReading_pastLine [.data [SP] .none] m
    hpast).not_refusedAtLine
  rw [← refusedAtLine_catchRead env] at hend
  have hrefused' : RefusedAtLine (catchRead env (readLoop env n
      [.data [SP] .none])).state.request := by
    rw [refusedAtLine_catchRead, hspace, request_answer_sendError]
    exact hrefused
  rw [hspace] at halike hrefused'
  exact hend (halike.refusedAtLine hrefused')

/-- A line that has begun goes on with a space, or is refused with a carriage return; a line that
has not does the opposite. -/
theorem not_endAlike_begun {n m : Connection} (hn : OnLine n)
    (hroom : n.readBuffer.size + 1 ≤ n.readBuffer.limit) (hempty : n.readBuffer.items = [])
    (hm : OnLine m) (hroom' : m.readBuffer.size + 1 ≤ m.readBuffer.limit)
    (hbegun : ∃ b ∈ m.readBuffer.items, ¬ IsNewline b)
    (hscan : rlScan RLScan.init 0 m.readBuffer.items = .more) :
    ∃ b, ¬ EndAlike (catchRead env (readLoop env m [.data [b] .none]))
      (catchRead env (readLoop env n [.data [b] .none])) := by
  obtain ⟨sc, hstate, hrest⟩ := rlScan_begun hbegun hscan
  rcases rlStep_begun hstate m.readBuffer.items.length with ⟨sc', hgoOn⟩ | ⟨code, hcode⟩
  · refine ⟨SP, fun halike => ?_⟩
    have hscan' : rlScan RLScan.init 0 (m.readBuffer.items ++ [SP]) = .more := by
      rw [hrest, rlScan_goOn _ hgoOn]
      rfl
    obtain ⟨c₂, hspace, -⟩ :=
      @OnLine.readLoop_error env .none n [SP] 400 hn (Or.inr hroom) (by rw [hempty]; rfl) []
    rw [hm.readLoop_more (d := [SP]) (Or.inr hroom') hscan' [], readLoop,
      (hm.moreLine [SP] env.now).readAgain, hspace] at halike
    obtain ⟨c', hc'⟩ := halike.ne_nothing
    exact catchRead_answer_ne_nothing hc'
  · refine ⟨CR, fun halike => ?_⟩
    have hscan' : rlScan RLScan.init 0 (m.readBuffer.items ++ [CR]) = .error code := by
      rw [hrest, rlScan, hcode]
    obtain ⟨c₃, herror, -⟩ :=
      @OnLine.readLoop_error env .none m [CR] code hm (Or.inr hroom') hscan' []
    rw [herror, hn.readLoop_more (d := [CR]) (Or.inr hroom) (by rw [hempty]; rfl) [], readLoop,
      (hn.moreLine [CR] env.now).readAgain] at halike
    obtain ⟨c', hc'⟩ := halike.eq_of_nothing
    exact catchRead_answer_ne_nothing hc'

/-- **Any other byte that is lost changes how what comes behind is read.** -/
theorem isNewline_of_endAlike (h : BeginsWithin env (c.setReading now) x)
    (hsame : ∀ later, RoomForAll (c.setReading now) (inFront x .none later) →
      EndAlike (readRequest (c.setReading now) (inFront x .none later))
        (readRequest (c.setReading now) later)) : ∀ b ∈ x, IsNewline b := by
  by_contra hbegun
  push Not at hbegun
  have hnil : x ≠ [] := by
    rintro rfl
    obtain ⟨b, hb, -⟩ := hbegun
    cases hb
  obtain ⟨m, hm, hprobe⟩ := exists_probe h hnil hsame
  set n := c.setReading now
  have hn : OnLine n := onLine_setReading c now
  have hfits : x = [] ∨ n.readBuffer.size + x.length ≤ n.readBuffer.limit :=
    Or.inr ((Nat.zero_add _).symm ▸ h.fits)
  have hroom : n.readBuffer.size + 1 ≤ n.readBuffer.limit :=
    (Nat.zero_add _).symm ▸ (List.length_pos_of_ne_nil hnil).trans_le h.fits
  cases hscan : rlScan RLScan.init 0 x with
  | error code =>
    obtain ⟨c₃, herror, -⟩ := @OnLine.readLoop_error env .none n x code hn hfits hscan []
    rw [herror] at hm
    exact answer_ne_nothing hm
  | line sc p =>
    -- the first line is complete
    exact not_endAlike_pastLine hn hroom rfl (hn.readLoop_line hfits hscan hm) (hprobe SP)
  | more =>
    -- the first line has begun
    have hsame' : m = n.moreLine x env.now := by
      rw [hn.readLoop_more hfits hscan [], readLoop, (hn.moreLine x env.now).readAgain] at hm
      cases hm
      rfl
    have hitems : m.readBuffer.items = x := by
      rw [hsame']
      rfl
    obtain ⟨b, hb⟩ := @not_endAlike_begun env n m hn hroom rfl
      (hsame' ▸ hn.moreLine x env.now) (h.goesOn m hm) (hitems.symm ▸ hbegun)
      (hitems.symm ▸ hscan)
    exact hb (hprobe b)

end

section

variable {r : Arrival} {c s c₁ : Connection} {fate : ReadFate} {x : Bytes}

/-- **When nothing of the next request is lost.** -/
theorem keepsNext_iff (h : r.Completes c s) (hread : readRequest c (r.events [] []) = .ok c₁ fate)
    (hroom : s.readBuffer.size + (r.last ++ x).length ≤ s.readBuffer.limit)
    (hbegins : BeginsWithin r.env (c₁.setReading 0) x) :
    KeepsNext c r x ↔ ∀ b ∈ x, IsNewline b := by
  have hfirst := h.first hroom
  constructor
  · intro hkeeps
    apply isNewline_of_endAlike hbegins
    intro later
    obtain ⟨rb, htogether⟩ := hfirst []
    rw [hread] at htogether
    exact hkeeps.second [] _ _ ⟨c₁, fate, c₁, 0, hread, .refl c₁, rfl⟩
      ⟨_, fate, _, 0, htogether, .refl _, rfl⟩ .none later
  · intro hx
    refine ⟨hfirst, ?_⟩
    rintro behind _ _ ⟨c₂, fate₂, c₃, now, hc₂, hserves, rfl⟩
      ⟨c₂', fate₂', c₃', now', hc₂', hserves', rfl⟩ a later hlater
    obtain ⟨rb, htogether⟩ := hfirst behind
    rw [hc₂, hc₂'] at htogether
    cases htogether
    refine (endAlike_inFront hx a later hlater).trans_rel ?_
    apply Connection.Alike.readRequest
    have hconfig : c₃'.config = c₃.config := hserves'.config.trans hserves.config.symm
    have hservers : c₃'.configuration = c₃.configuration :=
      hserves'.servers.trans hserves.servers.symm
    obtain ⟨k, hk⟩ := alike_setReading c₃ 0 0 0 now
    obtain ⟨k', hk'⟩ := alike_setReading c₃' 0 0 0 now'
    rw [hconfig, hservers] at hk'
    rw [hk, hk']
    exact ⟨k', rfl⟩

end

/-! ### Two requests in one piece -/

/-- A server with one page. -/
private def pageServer : Server :=
  { Server.empty with
    host := ascii "127.0.0.1"
    port := 80
    serverName := ascii "a"
    clientMaxBodySize := 5000 }

/-- A client of that server. -/
private def pageClient : Connection := accepted pageServer [pageServer] 5 0 0

/-- A request for the page. -/
private def getPage : Bytes := ascii "GET / HTTP/1.1\r\nHost: a\r\n\r\n"

/-- The request comes in one piece. -/
private def pageArrival : Arrival := ⟨[], ⟨oneFile, 0, 0⟩, [], getPage, .none⟩

/-- With this request comes an empty line, which may stand in front of the next one. -/
theorem keepsNext_emptyLine : KeepsNext pageClient pageArrival crlf := by
  have hcomplete : (pageClient.recv getPage 0).returns (fun s₁ _ =>
      (feed oneFile.statAnswer s₁).returns fun s₂ _ =>
        decide (s₂.request.parseState = .complete ∧
          (pieceSpooled pageArrival.env .none s₂).request.parseState = .complete ∧
          isBodyFullySpooled (pieceSpooled pageArrival.env .none s₂) = true)) = true := by
    decide +kernel
  have hanswered : answeredWith (fun c => decide (2 < c.config.getMaxBody))
      (readRequest pageClient (pageArrival.events [] [])) = true := by decide +kernel
  obtain ⟨c₁, hread, hlimit⟩ := exists_of_answeredWith hanswered
  obtain ⟨s₁, _, hrecv, hfed⟩ := Outcome.exists_of_returns hcomplete
  obtain ⟨s₂, _, hfeed, hdone⟩ := Outcome.exists_of_returns hfed
  obtain ⟨hstate, hd⟩ := of_decide_eq_true hdone
  have harrival : pageArrival.Completes pageClient pageClient :=
    ⟨⟨pageClient, rfl, .here⟩, by decide, rfl, s₁, s₂, hrecv, hfeed, hstate, hd⟩
  have hfits : 2 < (c₁.setReading 0).readBuffer.limit := of_decide_eq_true hlimit
  have hbegins : BeginsWithin pageArrival.env (c₁.setReading 0) crlf := by
    refine ⟨hfits.le, fun m hm => ?_⟩
    have hline := onLine_setReading c₁ 0
    have hroom : (c₁.setReading 0).readBuffer.size + crlf.length ≤
        (c₁.setReading 0).readBuffer.limit := hfits.le
    rw [hline.readLoop_more (Or.inr hroom) rfl [], readLoop,
      (hline.moreLine crlf pageArrival.env.now).readAgain] at hm
    cases hm
    exact hfits
  exact (keepsNext_iff harrival hread (by decide +kernel) hbegins).mpr (by decide +kernel)

/-- **Two requests in one piece**: the first is answered and the connection kept alive, and the
second is gone. -/
theorem not_keepsNext : (∃ c₁, readRequest pageClient (pageArrival.events getPage []) =
    .ok c₁ .answered ∧ c₁.request.keepAlive = true) ∧
      ¬ KeepsNext pageClient pageArrival getPage := by
  have htogether : answeredWith (fun c => c.request.keepAlive)
      (readRequest pageClient (pageArrival.events getPage [])) = true := by decide +kernel
  have halone : answeredWith (fun c₁ => decide (getPage.length ≤ c₁.config.getMaxBody) &&
      answeredWith (fun _ => true)
        (readRequest (c₁.setReading 0) [(pageArrival.env, [.data getPage .none])]))
        (readRequest pageClient (pageArrival.events [] [])) = true := by decide +kernel
  obtain ⟨c₁', hc₁', halive⟩ := exists_of_answeredWith htogether
  refine ⟨⟨c₁', hc₁', halive⟩, fun hkeeps => ?_⟩
  obtain ⟨c₁, hc₁, hboth⟩ := exists_of_answeredWith halone
  rw [Bool.and_eq_true] at hboth
  obtain ⟨hlimit, hsecond⟩ := hboth
  obtain ⟨c₂, hread, -⟩ := exists_of_answeredWith hsecond
  have hfront : inFront getPage .none [(pageArrival.env, [])] =
      [(pageArrival.env, [.data getPage .none])] := by
    unfold inFront
    exact if_neg (by decide)
  have hroom : RoomForAll (c₁.setReading 0) [(pageArrival.env, [.data getPage .none])] := by
    refine ⟨?_, fun _ _ => trivial⟩
    intro s d a rest hcomes
    cases hcomes with
    | here =>
      have hfits : (c₁.setReading 0).readBuffer.size + getPage.length ≤
          (c₁.setReading 0).readBuffer.limit := of_decide_eq_true hlimit
      rw [pieceRefused_of_held (onLine_setReading c₁ 0).held, OnLine.recv_eq (Or.inr hfits)]
      exact Bool.false_ne_true
    | piece _ _ _ _ _ hcomes => cases hcomes
  have hsame := hkeeps.second [] _ _ ⟨c₁, .answered, c₁, 0, hc₁, .refl c₁, rfl⟩
    ⟨c₁', .answered, c₁', 0, hc₁', .refl c₁', rfl⟩ .none [(pageArrival.env, [])]
    (hfront.symm ▸ hroom)
  rw [readRequest_setReading, hfront, hread] at hsame
  cases hsame

end Webserv
