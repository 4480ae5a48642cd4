import Webserv.HttpParser.Resume

/-!
# The parser does not see how its input is cut

`feedPiece` delivers one piece to the read buffer and calls `feed`, until the
parser has come to an end.  `Resumable` is what every state in between satisfies;
`feed_resume` says that going on from such a state with more bytes is the same as
having had them all at once, and `feed_segmentation` that any cut of the input
leads to the same parse.
-/

namespace Webserv

open Bytes

/-- One piece of input for the parser.  The limit of the read buffer is left out: a piece that
`Connection::recv` would refuse is fed as well. -/
def feedPiece (stat : StatAnswer) (c : Connection) (piece : Bytes) : Connection :=
  if c.request.parseState.terminal then c else (feed stat (c.deliver piece)).state

/-- The same parse: the same verdict, and the same body unless the verdict is an
error. -/
structure SameParse (c c' : Connection) : Prop where
  verdict : SameVerdict c.request c'.request
  body : c.request.parseState ≠ .error → c.request.body.items = c'.request.body.items ∧
    c.request.written = c'.request.written

theorem SameParse.refl (c : Connection) : SameParse c c := ⟨SameVerdict.refl _, fun _ => ⟨rfl, rfl⟩⟩

theorem SameParse.trans {c c' c'' : Connection} (h : SameParse c c') (h' : SameParse c' c'') :
    SameParse c c'' where
  verdict := h.verdict.trans h'.verdict
  body := by
    intro hne
    obtain ⟨hb, hw⟩ := h.body hne
    obtain ⟨hb', hw'⟩ := h'.body (h.verdict.parseState ▸ hne)
    exact ⟨hb.trans hb', hw.trans hw'⟩

/-- Connections that agree: equal, or both at the end of the same parse. -/
def Connection.Agree (c c' : Connection) : Prop :=
  c = c' ∨ (c.request.parseState.terminal = true ∧ SameParse c c')

theorem Connection.Agree.sameParse {c c' : Connection} (h : c.Agree c') : SameParse c c' := by
  rcases h with rfl | ⟨-, h⟩
  · exact SameParse.refl c
  · exact h

/-- What holds between two pieces of a request. -/
structure Resumable (c : Connection) : Prop where
  wf : c.request.parseState.terminal = false → BodyWf c.request
  path_eq : c.request.parseState = .idle ∨ c.request.parseState = .requestLine →
    c.request.path = []
  written_eq : c.request.parseState = .idle ∨ c.request.parseState = .requestLine ∨
    c.request.parseState = .headers → c.request.written = 0
  limit : c.request.parseState = .headers ∨ c.request.parseState = .body → LimitApplied c
  read : c.request.parseState = .body → ReadWf c.request

theorem Connection.Fresh.resumable {c : Connection} (h : c.Fresh) : Resumable c := by
  obtain ⟨⟨limit, hreq⟩, -⟩ := h
  refine ⟨?_, ?_, ?_, ?_, ?_⟩
  · rw [hreq]; intro _; exact ⟨rfl, Nat.zero_le _⟩
  · rw [hreq]; intro _; rfl
  · rw [hreq]; intro _; rfl
  · rw [hreq]; simp [HttpRequest.new]
  · rw [hreq]; simp [HttpRequest.new]

theorem LimitApplied.deliver {c : Connection} (h : LimitApplied c) (b : Bytes) :
    LimitApplied (c.deliver b) := ⟨h.path_ne, h.maxBodySize, h.body, h.readBuffer⟩

theorem Resumable.deliver {c : Connection} (h : Resumable c) (b : Bytes) :
    Resumable (c.deliver b) :=
  ⟨h.wf, h.path_eq, h.written_eq, fun hs => (h.limit hs).deliver b, h.read⟩

/-- While a request is read, the storage of the read buffer has not been given away. -/
theorem Resumable.held {c : Connection} (h : Resumable c)
    (hopen : c.request.parseState.terminal = false) : c.request.erased = false := by
  by_contra herased
  rw [Bool.not_eq_false, HttpRequest.erased, Bool.and_eq_true, Bool.and_eq_true, decide_eq_true_eq,
    Bool.not_eq_true', decide_eq_true_eq] at herased
  obtain ⟨⟨hpos, hplain⟩, hend⟩ := herased
  cases hstate : c.request.parseState with
  | body => exact absurd ((h.read hstate).fixed hplain) (by omega)
  | idle => exact absurd (h.written_eq (by simp [hstate])) (by omega)
  | requestLine => exact absurd (h.written_eq (by simp [hstate])) (by omega)
  | headers => exact absurd (h.written_eq (by simp [hstate])) (by omega)
  | complete => simp [hstate, ParseState.terminal] at hopen
  | error => simp [hstate, ParseState.terminal] at hopen

/-- At its end a parse is resumable for what little that says. -/
theorem Resumable.of_terminal {c : Connection} (h : c.request.parseState.terminal = true) :
    Resumable c := by
  refine ⟨?_, ?_, ?_, ?_, ?_⟩ <;>
  · intro hs
    cases hp : c.request.parseState <;> simp_all [ParseState.terminal]

/-! ### The stages -/

/-- The request line, between `c` and what the stage makes of it. -/
theorem requestLineStage_resume {stat : StatAnswer} {c : Connection} (b : Bytes)
    (hc : Resumable c) :
    ((requestLineStage stat c).request.parseState = .requestLine ∧
      requestLineStage stat c = { c with request :=
        { c.request with parseState := .requestLine } } ∧
      c.request.path = [] ∧ c.request.written = 0 ∧
      requestLineStage stat ((requestLineStage stat c).deliver b) =
        requestLineStage stat (c.deliver b)) ∨
    (requestLineStage stat (c.deliver b) = (requestLineStage stat c).deliver b ∧
      (requestLineStage stat c = c ∧ c.request.parseState ≠ .idle ∧
          c.request.parseState ≠ .requestLine ∨
        BodyWf (requestLineStage stat c).request ∧
          (requestLineStage stat c).request.written = 0 ∧
          ((requestLineStage stat c).request.parseState = .error ∨
            (requestLineStage stat c).request.parseState = .headers ∧
            LimitApplied (requestLineStage stat c)))) := by
  by_cases hs : AtRequestLine c
  · have hpath := hc.path_eq hs
    have hwritten : c.request.written = 0 := by
      apply hc.written_eq
      rcases hs with hidle | hline
      · exact Or.inl hidle
      · exact Or.inr (Or.inl hline)
    by_cases hmore : rlScan RLScan.init 0 c.readBuffer.items = .more
    · -- the line is read again from its start when more has come
      have hagain : requestLineStage stat ((intoRequestLine c).deliver b) =
          requestLineStage stat (c.deliver b) := by
        rw [@requestLineStage_eq stat ((intoRequestLine c).deliver b) (Or.inr rfl),
          @requestLineStage_eq stat (c.deliver b) hs]
        rfl
      left
      rw [requestLineStage_more hs hmore]
      exact ⟨rfl, rfl, hpath, hwritten, hagain⟩
    · right
      have hwf := hc.wf (by rcases hs with h | h <;> rw [h] <;> rfl)
      have hline := @requestLineStage_decided stat c hs hmore
      obtain ⟨hw, hb, hm, hend⟩ := @parseRequestLine_cases stat (intoRequestLine c) hmore
      generalize parseRequestLine stat (intoRequestLine c) = c₁ at hline hw hb hm hend
      obtain ⟨hverd, hw', hb'⟩ := applyLocationBodyLimit_frame c₁
      have hpast : (requestLineStage stat c).request.parseState ≠ .requestLine := by
        rw [hline, hverd.parseState]
        rcases hend with h | ⟨h, -⟩ <;> rw [h] <;> decide
      refine ⟨requestLineStage_deliver b hpast, Or.inr ?_⟩
      rw [hline]
      refine ⟨⟨?_, ?_⟩, hw'.trans (hw.trans hwritten), ?_⟩
      · rw [Fifo.size_eq, hb', hb, hw', hw]
        exact hwf.size_eq
      · by_cases hnil : c₁.request.path = []
        · have hsame : applyLocationBodyLimit c₁ = c₁ := if_pos (by simp [hnil])
          rw [hsame, hm, hb]
          exact hwf.limit_le
        · have hl := limitApplied c₁ hnil
          rw [hl.maxBodySize, hl.body]
      · rcases hend with h | ⟨h, hp⟩
        · exact Or.inl (hverd.parseState.trans h)
        · exact Or.inr ⟨hverd.parseState.trans h, limitApplied c₁ hp⟩
  · right
    obtain ⟨hidle, hline⟩ := not_or.mp hs
    have hsame := @requestLineStage_of_ne stat c hidle hline
    have hsame' := @requestLineStage_of_ne stat (c.deliver b) hidle hline
    rw [hsame, hsame']
    exact ⟨rfl, Or.inl ⟨rfl, hidle, hline⟩⟩

/-- The header lines, between `c` and what the stage makes of it. -/
theorem headerStage_resume {c : Connection} (b : Bytes) (hs : c.request.parseState = .headers)
    (hw : c.request.written = 0) (hwf : BodyWf c.request) (hl : LimitApplied c) :
    ((headerStage c).request.parseState = .headers ∧ (headerStage c).request.written = 0 ∧
      BodyWf (headerStage c).request ∧ LimitApplied (headerStage c) ∧
      headerStage ((headerStage c).deliver b) = headerStage (c.deliver b)) ∨
    (headerStage (c.deliver b) = (headerStage c).deliver b ∧
      (headerStage c).request.path ≠ [] ∧ (headerStage c).request.written = 0 ∧
      (headerStage c).request.body.items = [] ∧
      ((headerStage c).request.parseState = .error ∨
        ((headerStage c).request.parseState = .complete ∧
          (headerStage c).request.contentLength = 0 ∧
          (headerStage c).request.method ≠ ascii "POST") ∨
        ((headerStage c).request.parseState = .body ∧
          ((headerStage c).request.chunked = false →
            (headerStage c).request.contentLength ≠ 0)))) := by
  have hbody : c.request.body.items = [] := by
    have := hwf.size_eq
    rw [hw, Fifo.size_eq] at this
    exact List.length_eq_zero_iff.mp this
  have hstage : headerStage c = parseHeaders c := if_pos hs
  have hstage' : headerStage (c.deliver b) = parseHeaders (c.deliver b) := if_pos hs
  have hread := headersRead b (c.readBuffer, c.request) (by rw [hs]; decide)
  obtain ⟨hlim, headers, state, code, hreq, hst⟩ := headerLoop_frame (c.readBuffer, c.request)
  generalize hloop : headerLoop (c.readBuffer, c.request) = r at hread hlim hreq
  cases hread with
  | @waiting buf' req' hne hpush =>
    left
    simp only at hreq hlim hst
    have heq : headerStage c = { c with readBuffer := buf', request := req' } := by
      rw [hstage, parseHeaders, hloop]
      rfl
    -- the loop only ever changes the state to an error
    have hstate : req'.parseState = .headers := by
      rw [hreq] at hne ⊢
      rcases hst with h | h
      · exact absurd h hne
      · exact h.trans hs
    rw [heq]
    refine ⟨hstate, ?_, ?_, ?_, ?_⟩
    · rw [hreq]; exact hw
    · rw [hreq]; exact ⟨hwf.size_eq, hwf.limit_le⟩
    · rw [hreq]
      exact ⟨hl.path_ne, hl.maxBodySize, hl.body, hlim.trans hl.readBuffer⟩
    · rw [headerStage, if_pos (by exact hstate), hstage', parseHeaders, parseHeaders,
        readBuffer_deliver, readBuffer_deliver, request_deliver, request_deliver, hpush]
      rfl
  | @decided buf' req' blank hend hpush =>
    right
    simp only at hreq hst
    -- a verdict is reached, which does not depend on what follows
    have hpush' : headerStage (c.deliver b) = (headerStage c).deliver b := by
      rw [hstage', hstage, parseHeaders, parseHeaders, hloop, readBuffer_deliver,
        request_deliver, hpush]
      cases blank with
      | true => exact finishHeaders_deliver { c with readBuffer := buf', request := req' } b
      | false => rfl
    refine ⟨hpush', ?_⟩
    rw [hstage, parseHeaders, hloop]
    cases blank with
    | true =>
      obtain ⟨hp, hw', hb', hend'⟩ :=
        finishHeaders_cases { c with readBuffer := buf', request := req' }
      refine ⟨?_, ?_, ?_, hend'⟩
      · rw [afterHeaderLoop, if_pos rfl, hp, hreq]; exact hl.path_ne
      · rw [afterHeaderLoop, if_pos rfl, hw', hreq]; exact hw
      · rw [afterHeaderLoop, if_pos rfl, hb', hreq]; exact hbody
    | false =>
      have he : req'.parseState = .error := by
        rcases hend with h | h
        · simp at h
        · exact h
      refine ⟨?_, ?_, ?_, Or.inl he⟩
      · show req'.path ≠ []
        rw [hreq]; exact hl.path_ne
      · show req'.written = 0
        rw [hreq]; exact hw
      · show req'.body.items = []
        rw [hreq]; exact hbody

/-! ### Feeding -/

theorem feed_of_not_terminal {stat : StatAnswer} {c : Connection}
    (h : c.request.parseState.terminal = false) :
    feed stat c = feedBody (applyLocationBodyLimit (headerStage (requestLineStage stat c))) := by
  rw [feed, if_neg (by simp [h])]

theorem feedBody_of_ne {c : Connection} (h : c.request.parseState ≠ .body) :
    feedBody c = .ok c () := if_neg h

/-- The body stage in terms of the reader. -/
theorem state_feedBody {c : Connection} (h : c.request.parseState = .body) :
    (feedBody c).state = { c with
      readBuffer := (readBody c.readBuffer c.request).1
      request := (readBody c.readBuffer c.request).2 } := by
  rw [feedBody, if_pos h, readBody]
  cases c.request.chunked with
  | true =>
    simp only [if_true]
    cases parseChunked c.readBuffer c.request <;> rfl
  | false =>
    simp only [Bool.false_eq_true, if_false]
    cases parseBody c.readBuffer c.request <;> rfl

theorem threw_feedBody {c : Connection} (h : c.request.parseState = .body → ReadWf c.request) :
    (feedBody c).threw = false := by
  by_cases hb : c.request.parseState = .body
  · have hok := @readBody_threw c.readBuffer c.request (h hb) hb
    rw [feedBody, if_pos hb]
    revert hok
    cases c.request.chunked with
    | true =>
      simp only [if_true]
      cases parseChunked c.readBuffer c.request <;> simp
    | false =>
      simp only [Bool.false_eq_true, if_false]
      cases parseBody c.readBuffer c.request <;> simp
  · rw [feedBody_of_ne hb]
    rfl

/-- Bodies read to an agreement leave connections that agree. -/
theorem agree_of_readBody {c : Connection} {s t : Decoder} (h : s.Agree t) :
    Connection.Agree { c with readBuffer := s.1, request := s.2 }
      { c with readBuffer := t.1, request := t.2 } := by
  rcases h with rfl | ⟨he, hv⟩
  · exact Or.inl rfl
  · refine Or.inr ⟨?_, hv, fun hne => absurd he hne⟩
    show ParseState.terminal s.2.parseState = true
    rw [he]
    rfl

/-- Where a parse is after one call of `feed`, and what more input makes of it. -/
structure Fed (stat : StatAnswer) (c : Connection) (b : Bytes) (c' : Connection) : Prop where
  resumable : Resumable c'
  goes_on : c'.request.parseState.terminal = false →
    (feed stat (c'.deliver b)).state.Agree (feed stat (c.deliver b)).state
  ends : c'.request.parseState.terminal = true → c'.Agree (feed stat (c.deliver b)).state

/-- A parse that is over is done with, if it ends as that of the whole input does. -/
theorem Fed.of_terminal {stat : StatAnswer} {c c' : Connection} {b : Bytes}
    (hterm : c'.request.parseState.terminal = true)
    (h : SameParse c' (feed stat (c.deliver b)).state) : Fed stat c b c' where
  resumable := .of_terminal hterm
  goes_on hopen := by
    rw [hterm] at hopen
    cases hopen
  ends _ := Or.inr ⟨hterm, h⟩

/-- Reading a body leaves the limits of the location applied. -/
theorem LimitApplied.of_frame {c : Connection} {s : Decoder} (hl : LimitApplied c)
    (hframe : SameFrame s (c.readBuffer, c.request)) :
    LimitApplied { c with readBuffer := s.1, request := s.2 } := by
  refine ⟨?_, ?_, ?_, ?_⟩
  · show s.2.path ≠ []
    rw [hframe.path]; exact hl.path_ne
  · show s.2.maxBodySize = effectiveLimit c.config s.2.path
    rw [hframe.maxBodySize, hframe.path]; exact hl.maxBodySize
  · show s.2.body.limit = effectiveLimit c.config s.2.path
    rw [hframe.bodyLimit, hframe.path]; exact hl.body
  · show s.1.limit = effectiveLimit c.config s.2.path
    rw [hframe.limit, hframe.path]; exact hl.readBuffer

/-- The body stage, from the state in which the earlier stages leave the request. -/
theorem feedBody_resume {stat : StatAnswer} {c c₃ : Connection} {b : Bytes} (hb : b ≠ [])
    (hfeed : feed stat (c.deliver b) = feedBody (c₃.deliver b))
    (hend : c₃.request.parseState = .error ∨ c₃.request.parseState = .complete ∨
      (c₃.request.parseState = .body ∧ LimitApplied c₃ ∧ ReadWf c₃.request)) :
    (feedBody c₃).threw = false ∧ Fed stat c b (feedBody c₃).state := by
  -- past its end the request is not touched
  have hstop : c₃.request.parseState.terminal = true → c₃.request.parseState ≠ .body →
      (feedBody c₃).threw = false ∧ Fed stat c b (feedBody c₃).state := by
    intro hterm hne
    rw [feedBody_of_ne hne]
    refine ⟨rfl, .of_terminal hterm ?_⟩
    rw [hfeed, feedBody_of_ne (by exact hne)]
    exact ⟨SameVerdict.refl _, fun _ => ⟨rfl, rfl⟩⟩
  rcases hend with he | hc | ⟨hbody, hl, hread⟩
  · exact hstop (by rw [he]; rfl) (by rw [he]; decide)
  · exact hstop (by rw [hc]; rfl) (by rw [hc]; decide)
  · refine ⟨threw_feedBody fun _ => hread, ?_⟩
    obtain ⟨hdec, hframe⟩ := @bodyRead c₃.readBuffer c₃.request b hb hread hbody
    have hwhole : (feed stat (c.deliver b)).state = { c₃ with
        readBuffer := (readBody (c₃.readBuffer.push b) c₃.request).1
        request := (readBody (c₃.readBuffer.push b) c₃.request).2 } := by
      rw [hfeed, state_feedBody (by exact hbody)]
      rfl
    rw [state_feedBody hbody]
    generalize readBody c₃.readBuffer c₃.request = s at hdec hframe
    cases hdec with
    | waiting hp hwf' ha =>
      have hlim : LimitApplied { c₃ with readBuffer := s.1, request := s.2 } := hl.of_frame hframe
      refine ⟨⟨fun _ => hwf'.wf, ?_, ?_, fun _ => hlim, fun _ => hwf'⟩, ?_, ?_⟩
      · intro h
        rcases h with h | h <;> exact absurd (hp.symm.trans h) (by decide)
      · intro h
        rcases h with h | h | h <;> exact absurd (hp.symm.trans h) (by decide)
      · intro _
        rw [hwhole, feed_of_not_terminal (by
          show ParseState.terminal s.2.parseState = false
          rw [hp]; rfl)]
        -- the earlier stages and the limits leave a request in its body alone
        have hne : ∀ state, state ≠ ParseState.body → s.2.parseState ≠ state := by
          rintro _ hne rfl
          exact hne hp
        rw [requestLineStage_of_ne (hne .idle nofun) (hne .requestLine nofun),
          headerStage_of_ne (hne .headers nofun), (hlim.deliver b).apply_eq,
          state_feedBody (by exact hp)]
        exact agree_of_readBody (c := c₃) ha
      · intro h
        simp only [hp, ParseState.terminal] at h
        simp at h
    | complete hp heq =>
      have hterm : ParseState.terminal s.2.parseState = true := by rw [hp]; rfl
      refine .of_terminal hterm ?_
      rw [hwhole, heq]
      exact ⟨SameVerdict.refl _, fun _ => ⟨rfl, rfl⟩⟩
    | error hp hv =>
      have hterm : ParseState.terminal s.2.parseState = true := by rw [hp]; rfl
      refine .of_terminal hterm ?_
      rw [hwhole]
      exact ⟨hv, fun hne => absurd hp hne⟩

/-- The header stage and the body stage, from what the request line leaves. -/
theorem headerStage_fed {stat : StatAnswer} {c c₁ : Connection} {b : Bytes} (hb : b ≠ [])
    (hfeed : feed stat (c.deliver b) =
      feedBody (applyLocationBodyLimit (headerStage (c₁.deliver b))))
    (hs : c₁.request.parseState = .headers) (hw : c₁.request.written = 0)
    (hwf : BodyWf c₁.request) (hl : LimitApplied c₁) :
    (feedBody (applyLocationBodyLimit (headerStage c₁))).threw = false ∧
      Fed stat c b (feedBody (applyLocationBodyLimit (headerStage c₁))).state := by
  rcases headerStage_resume b hs hw hwf hl with
    ⟨hs', hw', hwf', hl', hpush⟩ | ⟨hpush, hpath, hw', hbody, hend⟩
  · -- the lines are not complete: the state is the one the loop waits in
    rw [hl'.apply_eq, feedBody_of_ne (by rw [hs']; decide)]
    refine ⟨rfl, ⟨?_, ?_, ?_, ?_, ?_⟩, ?_, ?_⟩
    · exact fun _ => hwf'
    · intro h
      rcases h with h | h <;> exact absurd (hs'.symm.trans h) (by decide)
    · exact fun _ => hw'
    · exact fun _ => hl'
    · intro h
      exact absurd (hs'.symm.trans h) (by decide)
    · intro _
      have hline : requestLineStage stat ((headerStage c₁).deliver b) =
          (headerStage c₁).deliver b :=
        requestLineStage_of_ne (by simp [hs']) (by simp [hs'])
      rw [Outcome.state_ok, hfeed, feed_of_not_terminal (by rw [request_deliver, hs']; rfl), hline,
        hpush]
      exact Or.inl rfl
    · intro h
      rw [Outcome.state_ok, hs'] at h
      simp [ParseState.terminal] at h
  · have hl₂ := limitApplied _ hpath
    obtain ⟨hverd, hw₂, hb₂⟩ := applyLocationBodyLimit_frame (headerStage c₁)
    refine feedBody_resume hb ?_ ?_
    · rw [hfeed, hpush, applyLocationBodyLimit_deliver]
    · rw [hverd.parseState]
      rcases hend with he | ⟨hc, -⟩ | ⟨hbd, hfix⟩
      · exact Or.inl he
      · exact Or.inr (Or.inl hc)
      · refine Or.inr (Or.inr ⟨hbd, hl₂, ⟨?_, ?_⟩, ?_⟩)
        · rw [Fifo.size_eq, hb₂, hbody, hw₂, hw']; rfl
        · rw [hl₂.maxBodySize, hl₂.body]
        · intro hc
          rw [hverd.contentLength, hw₂, hw']
          exact Nat.pos_of_ne_zero (hfix (hverd.chunked ▸ hc))

/-- **Going on from where the parser waits is the same as having had the whole
input at once**, and a parse that has come to its end stays the one it is. -/
theorem feed_resume {stat : StatAnswer} {c : Connection} {b : Bytes} (hb : b ≠ [])
    (hc : Resumable c) (hterm : c.request.parseState.terminal = false) :
    (feed stat c).threw = false ∧ Fed stat c b (feed stat c).state := by
  have hfeed := @feed_of_not_terminal stat c hterm
  have hfeed' : feed stat (c.deliver b) = feedBody (applyLocationBodyLimit
      (headerStage (requestLineStage stat (c.deliver b)))) := feed_of_not_terminal hterm
  rcases @requestLineStage_resume stat c b hc with
    ⟨hs, heq, hpath, hw, hpush⟩ | ⟨hpush, hrest⟩
  · -- the request line is not complete
    have hsame : feed stat c = .ok (requestLineStage stat c) () := by
      rw [hfeed, headerStage_of_ne (by rw [hs]; decide), applyLocationBodyLimit,
        if_pos (by rw [heq]; simp [hpath]), feedBody_of_ne (by rw [hs]; decide)]
    have hwf := hc.wf hterm
    rw [hsame]
    refine ⟨rfl, ⟨?_, ?_, ?_, ?_, ?_⟩, ?_, ?_⟩
    · intro _
      rw [Outcome.state_ok, heq]
      exact ⟨hwf.size_eq, hwf.limit_le⟩
    · intro _
      rw [Outcome.state_ok, heq]
      exact hpath
    · intro _
      rw [Outcome.state_ok, heq]
      exact hw
    · intro h
      rw [Outcome.state_ok, hs] at h
      simp at h
    · intro h
      rw [Outcome.state_ok, hs] at h
      simp at h
    · intro _
      rw [Outcome.state_ok, feed_of_not_terminal (by rw [request_deliver, hs]; rfl), hpush, hfeed']
      exact Or.inl rfl
    · intro h
      rw [Outcome.state_ok, hs] at h
      simp [ParseState.terminal] at h
  · rw [hpush] at hfeed'
    rw [hfeed]
    rcases hrest with ⟨hsame, hni, hnr⟩ | ⟨hwf, hw, he | ⟨hs, hl⟩⟩
    · rw [hsame] at hfeed' ⊢
      -- the request was past its first line
      cases hp : c.request.parseState with
      | idle => exact absurd hp hni
      | requestLine => exact absurd hp hnr
      | complete => rw [hp] at hterm; simp [ParseState.terminal] at hterm
      | error => rw [hp] at hterm; simp [ParseState.terminal] at hterm
      | headers =>
        exact headerStage_fed hb hfeed' hp (hc.written_eq (Or.inr (Or.inr hp))) (hc.wf hterm)
          (hc.limit (Or.inl hp))
      | body =>
        have hl := hc.limit (Or.inr hp)
        have hne : c.request.parseState ≠ .headers := by simp [hp]
        rw [@headerStage_of_ne (c.deliver b) hne, (hl.deliver b).apply_eq] at hfeed'
        rw [headerStage_of_ne hne, hl.apply_eq]
        exact feedBody_resume hb hfeed' (Or.inr (Or.inr ⟨hp, hl, hc.read hp⟩))
    · -- the request line was refused
      have hne : (requestLineStage stat c).request.parseState ≠ .headers := by simp [he]
      rw [@headerStage_of_ne (Connection.deliver _ b) hne, applyLocationBodyLimit_deliver] at hfeed'
      rw [headerStage_of_ne hne]
      refine feedBody_resume hb hfeed' (Or.inl ?_)
      exact (applyLocationBodyLimit_frame _).1.parseState.trans he
    · exact headerStage_fed hb hfeed' hs hw hwf hl

/-! ### Any cut -/

/-- **Two pieces do what their concatenation does.** -/
theorem feedPiece_law (stat : StatAnswer) :
    Segmented.Law (feedPiece stat) Resumable Connection.Agree where
  refl := fun c => Or.inl rfl
  trans := by
    intro c c' c'' h h'
    rcases h with rfl | ⟨ht, hp⟩
    · exact h'
    · rcases h' with rfl | ⟨-, hp'⟩
      · exact Or.inr ⟨ht, hp⟩
      · exact Or.inr ⟨ht, hp.trans hp'⟩
  keeps := by
    intro c a hc
    by_cases ht : c.request.parseState.terminal = true
    · rw [feedPiece, if_pos ht]
      exact hc
    · rw [feedPiece, if_neg ht]
      exact (feed_resume (b := [0]) (by simp) (hc.deliver a) (by simpa using ht)).2.resumable
  congr := by
    rintro c c' a - - (rfl | ⟨ht, hp⟩)
    · exact Or.inl rfl
    · have ht' : c'.request.parseState.terminal = true := hp.verdict.parseState ▸ ht
      rw [feedPiece, if_pos ht, feedPiece, if_pos ht']
      exact Or.inr ⟨ht, hp⟩
  append := by
    intro c a b hc _ hb
    by_cases ht : c.request.parseState.terminal = true
    · simp only [feedPiece, ht, if_true]
      exact Or.inl rfl
    · -- `feed` on the front, and then behind it: it has ended, or it is resumed
      obtain ⟨-, hfed⟩ := @feed_resume stat (c.deliver a) b hb (hc.deliver a) (by simpa using ht)
      have ha : feedPiece stat c a = (feed stat (c.deliver a)).state := if_neg ht
      have hab : feedPiece stat c (a ++ b) = (feed stat ((c.deliver a).deliver b)).state := by
        rw [deliver_deliver]
        exact if_neg ht
      rw [ha, hab]
      by_cases ht' : (feed stat (c.deliver a)).state.request.parseState.terminal = true
      · rw [feedPiece, if_pos ht']
        exact hfed.ends ht'
      · rw [feedPiece, if_neg ht']
        exact hfed.goes_on (by simpa using ht')

/-- **The parse of a request does not depend on how its bytes are cut into
pieces.** -/
theorem feed_segmentation (stat : StatAnswer) {c : Connection} {s : Bytes} {pieces : List Bytes}
    (hc : c.Fresh) (hs : s ≠ []) (hp : ∀ p ∈ pieces, p ≠ []) (hcut : pieces.flatten = s) :
    SameParse (pieces.foldl (feedPiece stat) c) (feedPiece stat c s) := by
  have hne : pieces ≠ [] := by
    rintro rfl
    exact hs hcut.symm
  have h := (feedPiece_law stat).foldl_flatten pieces c hc.resumable hne hp
  rw [hcut] at h
  exact h.sameParse

/-- A server without locations, for requests that are not about them. -/
def plainServer : Server := { Server.empty with root := ascii "/srv", clientMaxBodySize := 1000 }

theorem feed_segmentation_post :
    let pieces := [ascii "POST /a HT", ascii "TP/1.1\r\nHost: x\r",
      ascii "\nContent-Length: 3\r\n\r",
      ascii "\nab", ascii "c"]
    SameParse (pieces.foldl (feedPiece fun _ => none) (Connection.new 5 plainServer 0))
      (feedPiece (fun _ => none) (Connection.new 5 plainServer 0)
        (ascii "POST /a HTTP/1.1\r\nHost: x\r\nContent-Length: 3\r\n\r\nabc")) :=
  feed_segmentation (fun _ => none) (Connection.fresh_new 5 plainServer 0) (by decide) (by decide)
    (by decide)

end Webserv
