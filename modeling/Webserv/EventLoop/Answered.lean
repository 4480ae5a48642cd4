import Webserv.HttpParser.Selection
import Webserv.EventLoop.Rounds

/-!
# Errors on record

`_handleRead` looks for an error in one place, behind the parser.  The functions that spool
the body put errors on record behind that place, and once more when `recv` would block.
`RoundAnswers` says what a round of the loop must not do.

## Main results

* `answersErrors_iff` — when an error on record is answered.
-/

namespace Webserv

open Bytes

open Connection.Receives (input)

/-! ### Errors and their answers -/

/-- `_handleRead`, up to what its fate leaves to the event loop. -/
def readClient (env : Env) (c : Connection) (answers : List RecvAnswer) :
    Outcome Connection ReadFate :=
  if c.state = .cgiRunning then .ok c .nothing else catchRead env (readLoop env c answers)

/-- The page for the error on record is queued, and the client is read no more. -/
structure ErrorAnswered (env : Env) (c c' : Connection) : Prop where
  queued : c'.writeBuffer.items =
    c.writeBuffer.items ++ errorResponse env c'.request.errorCode c'.config
  left : c'.state ≠ .reading

/-- The call has returned, and the client has not been closed: there is a record. -/
def ReadFate.LeavesRecord (fate : ReadFate) : Prop := fate ≠ .close ∧ fate ≠ .stuck

/-- If an error is on record when `_handleRead` returns, it has been answered. -/
def AnswersErrors (env : Env) (c : Connection) (answers : List RecvAnswer) : Prop :=
  ∀ c' fate, readClient env c answers = .ok c' fate → fate.LeavesRecord →
    c'.request.parseState = .error → ErrorAnswered env c c'

/-! ### The rounds of the loop -/

/-- There is room for the page, or not even for the 413 page of the handler: then an exception
leaves `_handleRead`. -/
def PageRoom (env : Env) (code : ℕ) (c : Connection) : Prop :=
  c.writeBuffer.size + (errorResponse env code c.config).length ≤ c.writeBuffer.limit ∨
    c.writeBuffer.limit < c.writeBuffer.size + (errorResponse env 413 c.config).length

/-- There is a body to spool, but it is over its limit, or the file cannot be opened, or a call
of `write` fails. -/
def SpoolFails (a : SpoolAnswers) (req : HttpRequest) : Prop :=
  req.body.isEmpty = false ∧
    (OverLimit req ∨ (if req.opened then req.openedFile < 0 else a.openFd = none) ∨
      spoolWrites 0 a.writes req.body.size = none)

/-- There is a file with the body, but it cannot be opened again. -/
def ReopenFails (a : SpoolAnswers) (req : HttpRequest) : Prop :=
  req.opened = true ∧ 0 ≤ req.openedFile ∧ req.bodyFileWritten ≠ 0 ∧ a.reopenFd = none

/-- If the dispatch cannot open the file with the body again, there is room for the 500 page. -/
def ReopenRoom (env : Env) (a : SpoolAnswers) (c : Connection) : Prop :=
  Dispatchable c → pathRequiresCgiBodySpool c.request c.config = true → ReopenFails a c.request →
    PageRoom env 500 c

/-- A round in which nothing more comes: no error is on record, and none comes from the spool. -/
def DrainAnswers (env : Env) (a : SpoolAnswers) (c : Connection) : Prop :=
  c.request.parseState ≠ .error ∧
    (pathRequiresCgiBodySpool c.request c.config = true → ¬ SpoolFails a c.request) ∧
    ReopenRoom env a (drained env a c)

/-- A round that a piece begins: if it is refused, the error on record is the one that the
handler answers; if it is parsed, there is room for the page of an error. -/
def PieceAnswers (env : Env) (d : Bytes) (a : SpoolAnswers) (c : Connection) : Prop :=
  (PieceRefused env d a c → c.request.parseState = .error →
    c.request.errorCode = 413 ∨
      c.writeBuffer.limit < c.writeBuffer.size + (errorResponse env 413 c.config).length) ∧
  ∀ c₁ c₂, c.request.erased = false → c.recv d env.now = .ok c₁ () →
    feed env.fs.statAnswer (resumeBodyIfNeeded c₁) = .ok c₂ () →
    if c₂.request.parseState = .error then PageRoom env c₂.request.errorCode c₂
    else ReopenRoom env a (pieceSpooled env a c₂)

/-- A round leaves no error without its answer. -/
def RoundAnswers (env : Env) (c : Connection) : List RecvAnswer → Prop
  | [] => DrainAnswers env .none c
  | .again a :: _ => DrainAnswers env a c
  | .eof a :: _ => c.request.parseState = .body → ReopenRoom env a (closedBehind env a c)
  | .data d a :: _ => PieceAnswers env d a c

/-! ### What the parser throws -/

theorem eq_of_takeBody_threw {buf : ByteQueue} {req : HttpRequest} {n : ℕ}
    {s : ByteQueue × HttpRequest} (h : takeBody buf req n = .bodyLimit s) : s = (buf, req) := by
  unfold takeBody at h
  split at h
  · cases h
    rfl
  · cases h

theorem eq_of_parseBody_threw {buf : ByteQueue} {req : HttpRequest} {s : ByteQueue × HttpRequest}
    (h : parseBody buf req = .bodyLimit s) : s = (buf, req) := by
  unfold parseBody at h
  dsimp only at h
  split at h
  · cases h
  · split at h
    · split at h
      · cases h
      · exact eq_of_takeBody_threw h
    · split at h
      · cases h
      · cases ht : takeBody buf req (min (req.contentLength - req.written) buf.size) with
        | bodyLimit s' =>
          rw [ht] at h
          cases h
          exact eq_of_takeBody_threw ht
        | ok s' _ =>
          rw [ht] at h
          cases h

/-- Of the stages of a chunk only the one that takes data throws. -/
theorem eq_of_chunkRound_threw {s t : ByteQueue × HttpRequest}
    (h : chunkRound s = .inr (.bodyLimit t)) : t = s := by
  obtain ⟨buf, req⟩ := s
  unfold chunkRound at h
  dsimp only at h
  by_cases htrailing : req.chunkTrailing = true
  · rw [if_pos htrailing] at h
    split_ifs at h
    all_goals cases h
  · rw [if_neg htrailing] at h
    by_cases hsize : req.chunkSize = 0
    · rw [if_pos hsize] at h
      split at h
      · cases h
      · split at h <;> cases h
    · rw [if_neg hsize] at h
      split_ifs at h
      · cases h
      · cases h
      · split at h
        · next ht =>
          cases h
          exact eq_of_takeBody_threw ht
        · split at h <;> cases h

theorem parseState_of_parseChunked_threw (buf : ByteQueue) (req : HttpRequest) :
    ∀ s, parseChunked buf req = .bodyLimit s → s.2.parseState = req.parseState := by
  unfold parseChunked
  refine WhileLoop.loop_induction chunkRound_decreasing
    (P := fun s o => ∀ t, o = .bodyLimit t → t.2.parseState = s.2.parseState) ?leave ?round
    (buf, req)
  case leave =>
    rintro s o ho t rfl
    rw [eq_of_chunkRound_threw ho]
  case round =>
    intro s s' hround ih t ht
    have hstep := keepsHeaders_chunkRound s
    rw [hround] at hstep
    exact (ih t ht).trans hstep.2

/-- **An exception of the parser comes from the body**: no error is on record then. -/
theorem parseState_of_feed_threw {stat : StatAnswer} {c c' : Connection}
    (h : feed stat c = .bodyLimit c') : c'.request.parseState = .body := by
  unfold feed at h
  split at h
  · cases h
  · generalize applyLocationBodyLimit (headerStage (requestLineStage stat c)) = c₀ at h
    unfold feedBody at h
    split at h
    · next hbody =>
      have hread : ∀ s, (if c₀.request.chunked then parseChunked else parseBody) c₀.readBuffer
          c₀.request = .bodyLimit s → s.2.parseState = .body := by
        rw [← hbody]
        split
        · exact parseState_of_parseChunked_threw _ _
        · exact fun s hs => by rw [eq_of_parseBody_threw hs]
      dsimp only at h
      generalize (if c₀.request.chunked then parseChunked else parseBody) c₀.readBuffer
        c₀.request = o at h hread
      cases o with
      | ok s _ => cases h
      | bodyLimit s =>
        cases h
        exact hread s rfl
    · cases h

/-! ### What the handler of the exception leaves -/

section

variable {env : Env} {c s : Connection}

/-- What `_handleRead` makes of the outcome of its loop answers the error on record. -/
def Answered (env : Env) (c : Connection) (o : Outcome Connection ReadFate) : Prop :=
  ∀ c' fate, catchRead env o = .ok c' fate → fate.LeavesRecord →
    c'.request.parseState = .error → ErrorAnswered env c c'

/-- The handler leaves the error on record alone. -/
theorem parseState_catchRead (env : Env) (o : Outcome Connection ReadFate) :
    (catchRead env o).state.request.parseState = o.state.request.parseState := by
  cases o with
  | ok s fate => rfl
  | bodyLimit s =>
    unfold catchRead
    dsimp only
    rw [request_answer_sendError]
    rfl

/-- There is nothing to answer. -/
theorem answered_of_state {o : Outcome Connection ReadFate}
    (h : o.state.request.parseState ≠ .error) : Answered env c o := by
  intro c' fate hcatch _ herror
  have hstate := parseState_catchRead env o
  rw [hcatch, Outcome.state_ok, herror] at hstate
  exact absurd hstate.symm h

/-- Nothing has been queued for the client. -/
theorem not_errorAnswered (hitems : s.writeBuffer.items = c.writeBuffer.items) :
    ¬ ErrorAnswered env c s := by
  intro h
  have hqueued := h.queued
  rw [hitems] at hqueued
  exact errorResponse_ne_nil _ _ _ (List.self_eq_append_right.mp hqueued)

theorem answered_nothing_iff (hitems : s.writeBuffer.items = c.writeBuffer.items) :
    Answered env c (.ok s .nothing) ↔ s.request.parseState ≠ .error := by
  constructor
  · intro h herror
    exact not_errorAnswered hitems (h s .nothing rfl ⟨nofun, nofun⟩ herror)
  · exact fun h => answered_of_state h

/-- A page says which error it is for. -/
theorem errorResponse_injective {env : Env} {code code' : ℕ} {cfg : Server}
    (h : errorResponse env code cfg = errorResponse env code' cfg) : code = code' := by
  have hstatus : ∀ code, statusCode (errorResponse env code cfg) = decimal code := by
    intro code
    unfold errorResponse errorHeaders
    simp only [List.append_assoc]
    exact statusCode_append (notMem_decimal (by decide) code) _
  apply decimal_injective
  rw [← hstatus code, ← hstatus code', h]

/-- Behind an exception the 413 page is queued, whatever the error is. -/
theorem answered_bodyLimit_iff (hitems : s.writeBuffer.items = c.writeBuffer.items) :
    Answered env c (.bodyLimit s) ↔ (s.request.parseState = .error → s.request.errorCode = 413 ∨
      s.writeBuffer.limit < s.writeBuffer.size + (errorResponse env 413 s.config).length) := by
  rcases Nat.lt_or_ge s.writeBuffer.limit
      (s.writeBuffer.size + (errorResponse env 413 s.config).length) with hroom | hroom
  · obtain ⟨c', hcatch⟩ := catchRead_refused hroom
    constructor
    · exact fun _ _ => Or.inr hroom
    · intro _ c' fate hok
      rw [hcatch] at hok
      cases hok
  · have hcatch : ∃ req : HttpRequest, req.parseState = s.request.parseState ∧
        req.errorCode = s.request.errorCode ∧ catchRead env (.bodyLimit s) =
          answer (sendError env 413 { s with request := req }) :=
      ⟨{ s.request with
        headers := s.request.headers.insert (ascii "connection") (ascii "close") }, rfl, rfl, rfl⟩
    obtain ⟨req, hstate, hcode, hcatch⟩ := hcatch
    rw [@sendError_ok env 413 { s with request := req } hroom] at hcatch
    constructor
    · intro h herror
      have hanswered := h _ _ hcatch ⟨nofun, nofun⟩ (hstate.trans herror)
      have hqueued := hanswered.queued
      dsimp only [Connection.setWriting] at hqueued
      rw [Fifo.items_push, hitems, hcode] at hqueued
      exact Or.inl (errorResponse_injective (List.append_cancel_left hqueued)).symm
    · intro h c' fate hok _ herror
      rw [hcatch] at hok
      cases hok
      refine ⟨?_, nofun⟩
      dsimp only [Connection.setWriting]
      rcases h (hstate.symm.trans herror) with h413 | hfull
      · rw [Fifo.items_push, hitems, hcode, h413]
      · omega

/-- An error that is found on record is answered if its page finds room. -/
theorem answered_sendError_iff (hitems : s.writeBuffer.items = c.writeBuffer.items)
    (herror : s.request.parseState = .error) :
    Answered env c (answer (sendError env s.request.errorCode s)) ↔
      PageRoom env s.request.errorCode s := by
  unfold PageRoom
  rcases Nat.lt_or_ge s.writeBuffer.limit
      (s.writeBuffer.size + (errorResponse env s.request.errorCode s.config).length) with
    hroom | hroom
  · rw [sendError_refused hroom]
    refine (answered_bodyLimit_iff hitems).trans ?_
    constructor
    · intro h
      -- a 413 page that finds no room at first finds none in the handler
      rcases h herror with h413 | hfull
      · rw [h413] at hroom
        exact Or.inr hroom
      · exact Or.inr hfull
    · rintro (hfits | hfull) _
      · omega
      · exact Or.inr hfull
  · rw [sendError_ok hroom]
    refine iff_of_true ?_ (Or.inl hroom)
    rintro c' fate ⟨⟩ _ _
    exact ⟨by simp [Connection.setWriting, hitems], nofun⟩

/-! ### The dispatch -/

/-- The file with the body is opened again, or the error on record is 500. -/
theorem finalizeBodyTmpFile_error {a : SpoolAnswers} {req : HttpRequest} (h : ReopenFails a req) :
    (finalizeBodyTmpFile a req).parseState = .error ∧
      (finalizeBodyTmpFile a req).errorCode = 500 ∧
      0 < (finalizeBodyTmpFile a req).bodyFileWritten ∧
      (finalizeBodyTmpFile a req).openedFile < 0 := by
  obtain ⟨hopened, hfile, hwritten, hreopen⟩ := h
  unfold finalizeBodyTmpFile
  rw [if_neg (by simp [hopened, hwritten, not_lt.mpr hfile]), hreopen]
  exact ⟨rfl, rfl, Nat.pos_of_ne_zero hwritten, neg_one_lt_zero⟩

theorem parseState_finalizeBodyTmpFile {a : SpoolAnswers} {req : HttpRequest}
    (h : ¬ ReopenFails a req) : (finalizeBodyTmpFile a req).parseState = req.parseState := by
  unfold finalizeBodyTmpFile
  split
  · rfl
  · next hfile =>
    cases hreopen : a.reopenFd with
    | some fd => rfl
    | none =>
      simp only [Bool.or_eq_true, Bool.not_eq_true', decide_eq_true_eq, not_or,
        Bool.not_eq_false, not_lt] at hfile
      exact absurd ⟨hfile.1.1, hfile.1.2, hfile.2, hreopen⟩ h

/-- A dispatch answers the one error it can put on record, if the page finds room. -/
theorem answered_dispatch_iff {a : SpoolAnswers}
    (hitems : s.writeBuffer.items = c.writeBuffer.items) (hd : Dispatchable s) :
    Answered env c (tryDispatchComplete env a s) ↔ ReopenRoom env a s := by
  have hgood : s.request.parseState ≠ .error := by
    rw [hd.1]
    decide
  unfold ReopenRoom
  cases hcgi : pathRequiresCgiBodySpool s.request s.config with
  | false =>
    -- the handler has no errors for the record
    refine iff_of_true (answered_of_state ?_) (fun _ h => nomatch h)
    obtain ⟨c₁, hreply, -, -, hreq⟩ := @tryDispatchComplete_file env a s hd hcgi
    obtain ⟨path, hpath⟩ := request_handle env (cleanupBodyTmpFile s.request) s.config
    have hqueue : (answer (c₁.queue (replyTo env s).blocks)).state.request = c₁.request := by
      rw [← request_queue c₁ (replyTo env s).blocks]
      cases c₁.queue (replyTo env s).blocks <;> rfl
    rw [hreply, hqueue, hreq, replyTo, hpath]
    exact hgood
  | true =>
    have hspooled : spooled a s =
        { s.setProcessing with request := finalizeBodyTmpFile a s.request } := if_pos hcgi
    rw [tryDispatchComplete_eq env a hd, hspooled]
    by_cases hreopen : ReopenFails a s.request
    · obtain ⟨herror, hcode, hlost⟩ := finalizeBodyTmpFile_error hreopen
      rcases deed_script env a hcgi with ⟨hdeed, -⟩ | ⟨-, hkept⟩
      · rw [hdeed]
        refine (@answered_sendError_iff env c { s.setProcessing with
          request := finalizeBodyTmpFile a s.request } hitems herror).trans ?_
        dsimp only
        rw [hcode]
        exact ⟨fun h _ _ _ => h, fun h => h hd rfl hreopen⟩
      · exact absurd hlost hkept
    · refine iff_of_true (answered_of_state ?_) fun _ _ h => absurd h hreopen
      rw [← parseState_finalizeBodyTmpFile hreopen] at hgood
      rcases deed_script env a hcgi with ⟨hdeed, -⟩ | ⟨⟨info, hdeed⟩, -⟩
      · rw [hdeed, Deed.perform, request_answer_sendError]
        exact hgood
      · rw [hdeed]
        exact hgood

theorem answered_tryDispatchComplete_iff {a : SpoolAnswers}
    (hitems : s.writeBuffer.items = c.writeBuffer.items) :
    Answered env c (tryDispatchComplete env a s) ↔
      (¬ Dispatchable s → s.request.parseState ≠ .error) ∧ ReopenRoom env a s := by
  by_cases hd : Dispatchable s
  · simp [answered_dispatch_iff hitems hd, hd]
  · rw [tryDispatchComplete_of_not hd, answered_nothing_iff hitems]
    simp [ReopenRoom, hd]

/-! ### The rounds -/

/-- The file is there when the body is to be written into it, or the request has failed. -/
theorem openSpoolFile_cases (env : Env) (a : SpoolAnswers) (n : ℕ) (req : HttpRequest) :
    ((openSpoolFile env a n req).openedFile < 0 ↔
        if req.opened then req.openedFile < 0 else a.openFd = none) ∧
      (openSpoolFile env a n req).body = req.body ∧
      (0 ≤ (openSpoolFile env a n req).openedFile →
        (openSpoolFile env a n req).parseState = req.parseState) := by
  unfold openSpoolFile
  cases hopened : req.opened with
  | true => exact ⟨Iff.rfl, rfl, fun _ => rfl⟩
  | false =>
    cases hfd : a.openFd with
    | some fd => simp
    | none => exact ⟨by simp, rfl, fun h => absurd neg_one_lt_zero (not_lt.mpr h)⟩

theorem parseState_flushRequestBodyToTmpFile (env : Env) (a : SpoolAnswers) (c : Connection) :
    (flushRequestBodyToTmpFile env a c).request.parseState = .error ↔
      c.request.parseState = .error ∨ SpoolFails a c.request := by
  obtain ⟨hfile, hbody, hstate⟩ := openSpoolFile_cases env a c.connNum c.request
  unfold flushRequestBodyToTmpFile SpoolFails OverLimit
  dsimp only
  cases hempty : c.request.body.isEmpty with
  | true => simp
  | false =>
    rw [if_neg Bool.false_ne_true, ← hfile, hbody]
    split
    · next hlimit => simp [hlimit]
    · next hlimit =>
      by_cases hopen : (openSpoolFile env a c.connNum c.request).openedFile < 0
      · simp [hopen]
      · rw [if_neg hopen]
        cases hwrites : spoolWrites 0 a.writes c.request.body.size with
        | none => simp
        | some offset => simp [hlimit, hopen, hstate (not_lt.mp hopen)]

/-- An error is on record when nothing more comes. -/
theorem parseState_drained (env : Env) (a : SpoolAnswers) (c : Connection) :
    (drained env a c).request.parseState = .error ↔ c.request.parseState = .error ∨
      pathRequiresCgiBodySpool c.request c.config = true ∧ SpoolFails a c.request := by
  have hcomplete : ∃ req, maybeCompletePostWithoutLength c = { c with request := req } ∧
      (req.parseState = .error ↔ c.request.parseState = .error) ∧
      (pathRequiresCgiBodySpool req c.config = pathRequiresCgiBodySpool c.request c.config) ∧
      (SpoolFails a req ↔ SpoolFails a c.request) := by
    unfold maybeCompletePostWithoutLength
    dsimp only
    split
    · next h => exact ⟨_, rfl, by simp [h.1], rfl, Iff.rfl⟩
    · exact ⟨c.request, rfl, Iff.rfl, rfl, Iff.rfl⟩
  obtain ⟨req, hconn, hstate, hpath, hfails⟩ := hcomplete
  unfold drained Spool.again
  dsimp only
  rw [hconn, hpath, apply_ite Spool.conn]
  split
  · next hcgi =>
    refine (parseState_flushRequestBodyToTmpFile env a _).trans ?_
    simp [hstate, hfails, hcgi]
  · next hcgi => simp [hstate, hcgi]

theorem answered_readAgain_iff {a : SpoolAnswers}
    (hitems : s.writeBuffer.items = c.writeBuffer.items) :
    Answered env c (readAgain env a s) ↔ DrainAnswers env a s := by
  have hstate : Dispatchable (drained env a s) → (drained env a s).request.parseState ≠ .error := by
    intro hd
    rw [hd.1]
    decide
  have hdrained : (¬ Dispatchable (drained env a s) →
      (drained env a s).request.parseState ≠ .error) ↔ s.request.parseState ≠ .error ∧
        (pathRequiresCgiBodySpool s.request s.config = true → ¬ SpoolFails a s.request) := by
    have herror := not_congr (parseState_drained env a s)
    rw [not_or, not_and] at herror
    refine Iff.trans ?_ herror
    by_cases hd : Dispatchable (drained env a s)
    · exact iff_of_true (fun h => absurd hd h) (hstate hd)
    · exact ⟨fun h => h hd, fun h _ => h⟩
  rw [readAgain_eq env a ⟨s, []⟩]
  refine (answered_tryDispatchComplete_iff
    ((receives_drained env a s).queued.trans hitems)).trans ?_
  rw [hdrained, and_assoc]
  rfl

/-- A client that is closed has no record; a body that ends with the connection is dispatched. -/
theorem answered_readEof_iff {a : SpoolAnswers}
    (hitems : s.writeBuffer.items = c.writeBuffer.items) :
    Answered env c (readEof env a s) ↔
      (s.request.parseState = .body → ReopenRoom env a (closedBehind env a s)) := by
  rw [readEof_eq]
  split
  · next h =>
    have hqueued := (receives_closedBehind env a s).queued.trans hitems
    refine (answered_dispatch_iff hqueued h.2).trans ?_
    exact ⟨fun hroom _ => hroom, fun hroom => hroom h.1⟩
  · next h =>
    refine iff_of_true ?_ fun hbody hd => absurd ⟨hbody, hd⟩ h
    rintro c' fate ⟨⟩ hopen
    exact absurd rfl hopen.1

/-- A piece that the read buffer refuses. -/
theorem pieceAnswers_iff_of_refused {d : Bytes} {a : SpoolAnswers}
    (hrefused : PieceRefused env d a s) :
    PieceAnswers env d a s ↔ (s.request.parseState = .error → s.request.errorCode = 413 ∨
      s.writeBuffer.limit < s.writeBuffer.size + (errorResponse env 413 s.config).length) := by
  constructor
  · exact fun h => h.1 hrefused
  · refine fun h => ⟨fun _ => h, ?_⟩
    intro c₁ c₂ hheld hok
    rw [pieceRefused_of_held hheld, hok] at hrefused
    cases hrefused

/-- A piece with which the call does not return. -/
theorem pieceAnswers_of_stuck {d : Bytes} {a : SpoolAnswers} (herased : s.request.erased = true)
    (htaken : ¬ PieceRefused env d a s) : PieceAnswers env d a s := by
  refine ⟨fun h => absurd h htaken, ?_⟩
  intro c₁ c₂ hheld
  rw [herased] at hheld
  cases hheld

/-- A piece that the parser refuses. -/
theorem pieceAnswers_of_threw {d : Bytes} {a : SpoolAnswers} {s₁ s₂ : Connection}
    (hheld : s.request.erased = false) (hrecv : s.recv d env.now = .ok s₁ ())
    (hfeed : feed env.fs.statAnswer (resumeBodyIfNeeded s₁) = .bodyLimit s₂) :
    PieceAnswers env d a s := by
  unfold PieceAnswers
  rw [pieceRefused_of_held hheld, hrecv]
  refine ⟨nofun, ?_⟩
  rintro c₁ c₂ _ ⟨⟩ hok
  rw [hfeed] at hok
  cases hok

/-- A piece that is parsed. -/
theorem pieceAnswers_iff_of_fed {d : Bytes} {a : SpoolAnswers} {s₁ s₂ : Connection}
    (hheld : s.request.erased = false) (hrecv : s.recv d env.now = .ok s₁ ())
    (hfeed : feed env.fs.statAnswer (resumeBodyIfNeeded s₁) = .ok s₂ ()) :
    PieceAnswers env d a s ↔
      if s₂.request.parseState = .error then PageRoom env s₂.request.errorCode s₂
      else ReopenRoom env a (pieceSpooled env a s₂) := by
  unfold PieceAnswers
  rw [pieceRefused_of_held hheld, hrecv]
  constructor
  · exact fun h => h.2 s₁ s₂ hheld rfl hfeed
  · intro h
    refine ⟨nofun, ?_⟩
    rintro c₁ c₂ _ ⟨⟩ hok
    rw [hfeed] at hok
    cases hok
    exact h

/-- **The loop answers the error on record exactly when its rounds do.** -/
theorem byRounds_answered (env : Env) (c : Connection) :
    ByRounds env (fun s => s.writeBuffer.items = c.writeBuffer.items) (Answered env c)
      (RoundAnswers env) where
  receives hreceives hitems := hreceives.queued.trans hitems
  none hitems := answered_readAgain_iff hitems
  again _ _ hitems := answered_readAgain_iff hitems
  eof _ _ hitems := answered_readEof_iff hitems
  refused _ hitems hrefused :=
    (answered_bodyLimit_iff hitems).trans (pieceAnswers_iff_of_refused hrefused).symm
  stuck _ _ herased htaken := by
    refine iff_of_true ?_ (pieceAnswers_of_stuck herased htaken)
    rintro c' fate ⟨⟩ hreturned
    exact absurd rfl hreturned.2
  threw _ _ _ hheld hrecv hfeed := by
    -- the body is refused, and there is no error on record
    refine iff_of_true ?_ (pieceAnswers_of_threw hheld hrecv hfeed)
    apply answered_of_state
    rw [Outcome.state_bodyLimit, parseState_of_feed_threw hfeed]
    decide
  parsed {s s₁ s₂ d} a _ hitems hheld hrecv hfeed := by
    have hfed := receives_parsed hrecv hfeed
    have hqueued := (hfed.trans (receives_fed env a s₂)).queued.trans hitems
    refine Iff.trans ?_ (pieceAnswers_iff_of_fed hheld hrecv hfeed).symm
    by_cases herror : s₂.request.parseState = .error
    · rw [if_pos herror, if_pos herror]
      exact answered_sendError_iff (hfed.queued.trans hitems) herror
    · rw [if_neg herror, if_neg herror]
      by_cases hd : Dispatchable (pieceSpooled env a s₂)
      · rw [answered_dispatch_iff hqueued hd]
        exact ⟨fun h => h hd, fun h _ => h⟩
      · exact iff_of_true (fun h => absurd h hd) fun h => absurd h hd

end

/-! ### Errors without an answer -/

/-- **Every error is answered exactly when each round answers the error it finds**, or when no
error is on record and a script is running. -/
theorem answersErrors_iff (env : Env) (c : Connection) (answers : List RecvAnswer) :
    AnswersErrors env c answers ↔
      if c.state = .cgiRunning then c.request.parseState ≠ .error
      else ∀ s rest, ComesTo env s rest c answers → RoundAnswers env s rest := by
  unfold AnswersErrors readClient
  split
  · exact answered_nothing_iff rfl
  · exact (byRounds_answered env c).readLoop_iff answers c rfl

/-- A post of five bytes to a script. -/
def postToScript : Bytes :=
  ascii "POST /cgi/x.py HTTP/1.1\r\nHost: x\r\nContent-Length: 5\r\n\r\nhello"

/-- The reading has come to nothing so far, for a connection that passes a test. -/
def waitingWith (p : Connection → Bool) : Outcome Connection ReadFate → Bool
  | .ok c .nothing => p c
  | _ => false

theorem exists_of_waitingWith {p : Connection → Bool} {o : Outcome Connection ReadFate}
    (h : waitingWith p o = true) : ∃ c, o = .ok c .nothing ∧ p c = true := by
  unfold waitingWith at h
  split at h
  · exact ⟨_, rfl, h⟩
  · cases h

/-- **An error of the spool may stay without an answer**: the file cannot be opened, `recv` would
block, and the client is read again when more comes, which it has no reason to send. -/
theorem not_answersErrors :
    ¬ AnswersErrors spoolEnv spoolClient.conn [.data postToScript .none, .again .none] := by
  intro h
  have hleft : waitingWith
      (fun c' => c'.request.parseState = .error ∧ c'.state = .reading)
      (readClient spoolEnv spoolClient.conn [.data postToScript .none, .again .none]) = true := by
    decide +kernel
  obtain ⟨c', hread, hc'⟩ := exists_of_waitingWith hleft
  obtain ⟨herror, hreading⟩ := of_decide_eq_true hc'
  exact (h c' .nothing hread ⟨nofun, nofun⟩ herror).left hreading

end Webserv
