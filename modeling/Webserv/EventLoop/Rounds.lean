import Webserv.EventLoop.EarlyStat
import Webserv.EventLoop.FileCalls
import Webserv.EventLoop.Spool

/-!
# The rounds of a reading

The loop of `_handleRead` begins a round with every answer of `recv`.  `ComesTo` are the rounds
that it begins, and what is said of the loop may be said of its rounds.

## Main results

* `readLoop_data` — what the loop does with a piece.
* `ByRounds.readLoop_iff` — **the loop comes to a good end exactly when each of its rounds does.**
-/

namespace Webserv

open Bytes

open Connection.Receives (input)

/-! ### Rounds -/

/-- The connection when a piece has been parsed and spooled. -/
def pieceSpooled (env : Env) (a : SpoolAnswers) (c : Connection) : Connection :=
  (Spool.fed env a ⟨c, []⟩).conn

/-- The connection when nothing more has come. -/
def drained (env : Env) (a : SpoolAnswers) (c : Connection) : Connection :=
  (Spool.again env a ⟨c, []⟩).conn

/-- The connection when the client has closed its end. -/
def closedBehind (env : Env) (a : SpoolAnswers) (c : Connection) : Connection :=
  (Spool.eof env a ⟨c, []⟩).conn

/-- The read buffer does not take a piece: there is no room, or its storage has been given
away. -/
def PieceRefused (env : Env) (d : Bytes) (a : SpoolAnswers) (c : Connection) : Prop :=
  if c.request.erased then c.readBuffer.limit < sizeT (d.length - a.head)
  else (c.recv d env.now).threw = true

/-- The loop that begins with `c` and `answers` comes to a round that begins with `s` and
`rest`. -/
inductive ComesTo (env : Env) (s : Connection) (rest : List RecvAnswer) :
    Connection → List RecvAnswer → Prop
  | here : ComesTo env s rest s rest
  | piece {c c₁ c₂ : Connection} {d : Bytes} {a : SpoolAnswers} {answers : List RecvAnswer} :
      c.request.erased = false → c.recv d env.now = .ok c₁ () →
      feed env.fs.statAnswer (resumeBodyIfNeeded c₁) = .ok c₂ () →
      c₂.request.parseState ≠ .error → ¬ Dispatchable (pieceSpooled env a c₂) →
      ComesTo env s rest (pieceSpooled env a c₂) answers →
      ComesTo env s rest c (.data d a :: answers)

/-! ### What the loop does in a round -/

section

variable {env : Env} {s : Connection}

theorem receives_fed (env : Env) (a : SpoolAnswers) (c : Connection) :
    c.Receives (pieceSpooled env a c) := by
  unfold pieceSpooled Spool.fed
  dsimp only
  split
  · exact (receives_flushRequestBodyToTmpFile env a c).trans
      (receives_maybeCompletePostWithoutLength _)
  · exact receives_maybeCompletePostWithoutLength c

theorem receives_drained (env : Env) (a : SpoolAnswers) (c : Connection) :
    c.Receives (drained env a c) := by
  unfold drained Spool.again
  dsimp only
  split
  · exact (receives_maybeCompletePostWithoutLength c).trans
      (receives_flushRequestBodyToTmpFile env a _)
  · exact receives_maybeCompletePostWithoutLength c

theorem receives_closedBehind (env : Env) (a : SpoolAnswers) (c : Connection) :
    c.Receives (closedBehind env a c) := by
  unfold closedBehind Spool.eof
  dsimp only
  split
  · exact (receives_flushRequestBodyToTmpFile env a c).trans (input _ _ _)
  · exact .refl c

/-- **What the loop does with a piece.** -/
theorem readLoop_data {c c₁ c₂ : Connection} {d : Bytes} {a : SpoolAnswers}
    {rest : List RecvAnswer} (hheld : c.request.erased = false)
    (hrecv : c.recv d env.now = .ok c₁ ())
    (hfeed : feed env.fs.statAnswer (resumeBodyIfNeeded c₁) = .ok c₂ ()) :
    readLoop env c (.data d a :: rest) =
      if c₂.request.parseState = .error then
        answer (sendError env c₂.request.errorCode c₂)
      else if Dispatchable (pieceSpooled env a c₂) then
        tryDispatchComplete env a (pieceSpooled env a c₂)
      else readLoop env (pieceSpooled env a c₂) rest := by
  rw [readLoop_held hheld, hrecv, Outcome.andThen_ok, hfeed, Outcome.andThen_ok,
    readFed_eq env a ⟨c₂, []⟩]
  dsimp only
  split
  · exact andThen_fate _ fun _ => answer_ne_nothing
  · by_cases hd : Dispatchable (pieceSpooled env a c₂)
    · rw [if_pos hd]
      exact andThen_fate _ fun _ => tryDispatchComplete_ne_nothing hd
    · rw [if_neg hd]
      show (tryDispatchComplete env a (pieceSpooled env a c₂)).andThen _ = _
      rw [tryDispatchComplete_of_not hd]
      rfl

/-- **What the loop does when the client has closed its end.** -/
theorem readEof_eq (env : Env) (a : SpoolAnswers) (s : Connection) :
    readEof env a s =
      if s.request.parseState = .body ∧ Dispatchable (closedBehind env a s) then
        tryDispatchComplete env a (closedBehind env a s)
      else .ok (closedBehind env a s) .close := by
  unfold readEof
  dsimp only
  split
  · next hbody =>
    have hbehind : closedBehind env a s = { flushRequestBodyToTmpFile env a s with
        request := { (flushRequestBodyToTmpFile env a s).request with
          parseState := .complete } } := by
      unfold closedBehind Spool.eof
      dsimp only
      rw [if_pos hbody]
      rfl
    rw [← hbehind]
    by_cases hd : Dispatchable (closedBehind env a s)
    · -- the dispatch has a fate, which is that of the client
      rw [if_pos ⟨hbody.1, hd⟩]
      exact andThen_fate _ fun _ => tryDispatchComplete_ne_nothing hd
    · rw [if_neg fun h => hd h.2, tryDispatchComplete_of_not hd]
      rfl
  · next hbody =>
    have hsame : closedBehind env a s = s := by
      unfold closedBehind Spool.eof
      dsimp only
      rw [if_neg hbody]
    rw [hsame, if_neg]
    rintro ⟨hstate, hd⟩
    exact absurd (hstate.symm.trans hd.1) (by decide)

theorem eq_of_recv_bodyLimit {c c' : Connection} {d : Bytes} {now : ℕ}
    (h : c.recv d now = .bodyLimit c') : c' = c := by
  unfold Connection.recv at h
  split at h
  · cases h
    rfl
  · cases h

theorem pieceRefused_of_erased {d : Bytes} {a : SpoolAnswers} (h : s.request.erased = true) :
    PieceRefused env d a s ↔ s.readBuffer.limit < sizeT (d.length - a.head) := by
  rw [PieceRefused, if_pos h]

theorem pieceRefused_of_held {d : Bytes} {a : SpoolAnswers} (h : s.request.erased = false) :
    PieceRefused env d a s ↔ (s.recv d env.now).threw = true := by
  rw [PieceRefused, if_neg (Bool.eq_false_iff.mp h)]

/-- A piece is received and parsed. -/
theorem receives_parsed {d : Bytes} {s₁ s₂ : Connection} (hrecv : s.recv d env.now = .ok s₁ ())
    (hfeed : feed env.fs.statAnswer (resumeBodyIfNeeded s₁) = .ok s₂ ()) : s.Receives s₂ := by
  have hreceives := receives_recv s d env.now
  have hfed := receives_feed env.fs.statAnswer (resumeBodyIfNeeded s₁)
  rw [hrecv] at hreceives
  rw [hfeed] at hfed
  exact (hreceives.trans (receives_resumeBodyIfNeeded s₁)).trans hfed

/-- Behind a piece that is parsed, the loop may begin other rounds. -/
theorem forall_comesTo_of_fed {P : Connection → List RecvAnswer → Prop} {d : Bytes}
    {a : SpoolAnswers} {answers : List RecvAnswer} {s₁ s₂ : Connection}
    (hheld : s.request.erased = false) (hrecv : s.recv d env.now = .ok s₁ ())
    (hfeed : feed env.fs.statAnswer (resumeBodyIfNeeded s₁) = .ok s₂ ()) :
    (∀ s' rest, ComesTo env s' rest s (.data d a :: answers) → P s' rest) ↔
      P s (.data d a :: answers) ∧
        (s₂.request.parseState ≠ .error → ¬ Dispatchable (pieceSpooled env a s₂) →
          ∀ s' rest, ComesTo env s' rest (pieceSpooled env a s₂) answers → P s' rest) := by
  constructor
  · intro h
    refine ⟨h _ _ .here, ?_⟩
    intro hgood hd s' rest hcomes
    exact h s' rest (.piece hheld hrecv hfeed hgood hd hcomes)
  · rintro ⟨hhere, hnext⟩ s' rest hcomes
    cases hcomes with
    | here => exact hhere
    | piece _ hrecv' hfeed' hgood hd hcomes =>
      rw [hrecv] at hrecv'
      cases hrecv'
      rw [hfeed] at hfeed'
      cases hfeed'
      exact hnext hgood hd s' rest hcomes

/-- A loop that ends in its first round. -/
theorem forall_comesTo_of_last {P : Connection → List RecvAnswer → Prop}
    {answers : List RecvAnswer}
    (hlast : ∀ s' rest, ComesTo env s' rest s answers → s' = s ∧ rest = answers) :
    (∀ s' rest, ComesTo env s' rest s answers → P s' rest) ↔ P s answers := by
  constructor
  · exact fun h => h s answers .here
  · intro h s' rest hcomes
    obtain ⟨rfl, rfl⟩ := hlast s' rest hcomes
    exact h

/-- A piece is not taken, and the loop ends. -/
theorem comesTo_of_not_taken {d : Bytes} {a : SpoolAnswers} {answers rest : List RecvAnswer}
    {s' : Connection} (hcomes : ComesTo env s' rest s (.data d a :: answers))
    (hnot : s.request.erased = true ∨ PieceRefused env d a s) :
    s' = s ∧ rest = .data d a :: answers := by
  cases hcomes with
  | here => exact ⟨rfl, rfl⟩
  | piece hheld hrecv _ _ _ _ =>
    rcases hnot with herased | hrefused
    · rw [hheld] at herased
      cases herased
    · rw [pieceRefused_of_held hheld, hrecv] at hrefused
      cases hrefused

end

/-! ### What is said of the rounds -/

/-- `R` says of the outcome of a loop that begins with a connection of which `Q` holds what `P`
says of the rounds. -/
structure ByRounds (env : Env) (Q : Connection → Prop) (R : Outcome Connection ReadFate → Prop)
    (P : Connection → List RecvAnswer → Prop) : Prop where
  receives {s s' : Connection} : s.Receives s' → Q s → Q s'
  none {s : Connection} : Q s → (R (readAgain env .none s) ↔ P s [])
  again {s : Connection} (a : SpoolAnswers) (rest : List RecvAnswer) :
    Q s → (R (readAgain env a s) ↔ P s (.again a :: rest))
  eof {s : Connection} (a : SpoolAnswers) (rest : List RecvAnswer) :
    Q s → (R (readEof env a s) ↔ P s (.eof a :: rest))
  /-- The read buffer refuses the piece. -/
  refused {s : Connection} {d : Bytes} {a : SpoolAnswers} (rest : List RecvAnswer) :
    Q s → PieceRefused env d a s → (R (.bodyLimit s) ↔ P s (.data d a :: rest))
  /-- The call does not return. -/
  stuck {s : Connection} {d : Bytes} {a : SpoolAnswers} (rest : List RecvAnswer) :
    Q s → s.request.erased = true → ¬ PieceRefused env d a s →
      (R (.ok s .stuck) ↔ P s (.data d a :: rest))
  /-- The parser throws. -/
  threw {s s₁ s₂ : Connection} {d : Bytes} (a : SpoolAnswers) (rest : List RecvAnswer) :
    Q s → s.request.erased = false → s.recv d env.now = .ok s₁ () →
      feed env.fs.statAnswer (resumeBodyIfNeeded s₁) = .bodyLimit s₂ →
      (R (.bodyLimit s₂) ↔ P s (.data d a :: rest))
  /-- The piece is parsed. -/
  parsed {s s₁ s₂ : Connection} {d : Bytes} (a : SpoolAnswers) (rest : List RecvAnswer) :
    Q s → s.request.erased = false → s.recv d env.now = .ok s₁ () →
      feed env.fs.statAnswer (resumeBodyIfNeeded s₁) = .ok s₂ () →
      ((if s₂.request.parseState = .error then R (answer (sendError env s₂.request.errorCode s₂))
        else Dispatchable (pieceSpooled env a s₂) →
          R (tryDispatchComplete env a (pieceSpooled env a s₂))) ↔ P s (.data d a :: rest))

namespace ByRounds

variable {env : Env} {Q : Connection → Prop} {R : Outcome Connection ReadFate → Prop}
  {P : Connection → List RecvAnswer → Prop} {s : Connection} {d : Bytes} {a : SpoolAnswers}
  {answers : List RecvAnswer}

/-- A round in which the read buffer does not take the piece is the last one. -/
theorem refused_iff (h : ByRounds env Q R P) (hs : Q s) (hrefused : PieceRefused env d a s)
    (hloop : readLoop env s (.data d a :: answers) = .bodyLimit s) :
    R (readLoop env s (.data d a :: answers)) ↔
      ∀ s' rest, ComesTo env s' rest s (.data d a :: answers) → P s' rest := by
  rw [hloop, forall_comesTo_of_last fun _ _ hcomes => comesTo_of_not_taken hcomes (Or.inr hrefused)]
  exact h.refused answers hs hrefused

/-- So is one that finds the storage of the read buffer given away. -/
theorem erased_iff (h : ByRounds env Q R P) (hs : Q s) (herased : s.request.erased = true) :
    R (readLoop env s (.data d a :: answers)) ↔
      ∀ s' rest, ComesTo env s' rest s (.data d a :: answers) → P s' rest := by
  have hloop : readLoop env s (.data d a :: answers) = s.recvErased d a.head :=
    readLoop_erased herased
  by_cases hrefused : PieceRefused env d a s
  · apply h.refused_iff hs hrefused
    rw [pieceRefused_of_erased herased] at hrefused
    rw [hloop, Connection.recvErased, if_pos hrefused]
  · rw [forall_comesTo_of_last fun _ _ hcomes => comesTo_of_not_taken hcomes (Or.inl herased),
      ← h.stuck answers hs herased hrefused]
    rw [pieceRefused_of_erased herased] at hrefused
    rw [hloop, Connection.recvErased, if_neg hrefused]

/-- The step: a round that a piece begins, and the loop behind it. -/
theorem data_iff (h : ByRounds env Q R P) (hs : Q s)
    (ih : ∀ s : Connection, Q s → (R (readLoop env s answers) ↔
      ∀ s' rest, ComesTo env s' rest s answers → P s' rest)) :
    R (readLoop env s (.data d a :: answers)) ↔
      ∀ s' rest, ComesTo env s' rest s (.data d a :: answers) → P s' rest := by
  cases hheld : s.request.erased with
  | true => exact h.erased_iff hs hheld
  | false =>
    -- the read buffer throws, the parser throws, or the piece is parsed
    cases hrecv : s.recv d env.now with
    | bodyLimit s₁ =>
      have hrefused : PieceRefused env d a s := by
        rw [pieceRefused_of_held hheld, hrecv]
        rfl
      apply h.refused_iff hs hrefused
      rw [readLoop_held hheld, hrecv, Outcome.andThen_bodyLimit, eq_of_recv_bodyLimit hrecv]
    | ok s₁ _ =>
      cases hfeed : feed env.fs.statAnswer (resumeBodyIfNeeded s₁) with
      | bodyLimit s₂ =>
        rw [readLoop_held hheld, hrecv, Outcome.andThen_ok, hfeed, Outcome.andThen_bodyLimit,
          forall_comesTo_of_last]
        · exact h.threw a answers hs hheld hrecv hfeed
        · rintro s' rest (_ | ⟨-, hok, hok', -⟩)
          · exact ⟨rfl, rfl⟩
          · rw [hrecv] at hok
            cases hok
            rw [hfeed] at hok'
            cases hok'
      | ok s₂ _ =>
        have hround := h.parsed a answers hs hheld hrecv hfeed
        rw [readLoop_data hheld hrecv hfeed, forall_comesTo_of_fed hheld hrecv hfeed, ← hround]
        -- an error is answered, a request that is there is dispatched, or the next round begins
        by_cases herror : s₂.request.parseState = .error
        · rw [if_pos herror, if_pos herror]
          exact ⟨fun hR => ⟨hR, fun hgood => absurd herror hgood⟩, And.left⟩
        · rw [if_neg herror, if_neg herror]
          by_cases hd : Dispatchable (pieceSpooled env a s₂)
          · rw [if_pos hd]
            exact ⟨fun hR => ⟨fun _ => hR, fun _ hpending => absurd hd hpending⟩,
              fun hR => hR.1 hd⟩
          · have hspooled :=
              h.receives ((receives_parsed hrecv hfeed).trans (receives_fed env a s₂)) hs
            rw [if_neg hd]
            exact (ih _ hspooled).trans
              ⟨fun hR => ⟨fun hready => absurd hready hd, fun _ _ => hR⟩, fun hR => hR.2 herror hd⟩

/-- **The loop comes to a good end exactly when each of its rounds does.** -/
theorem readLoop_iff (h : ByRounds env Q R P) : ∀ (answers : List RecvAnswer) (s : Connection),
    Q s → (R (readLoop env s answers) ↔
      ∀ s' rest, ComesTo env s' rest s answers → P s' rest) := by
  intro answers
  induction answers with
  | nil =>
    intro s hs
    rw [forall_comesTo_of_last]
    · exact h.none hs
    · rintro s' rest ⟨⟩
      exact ⟨rfl, rfl⟩
  | cons r answers ih =>
    intro s hs
    cases r with
    | eof a =>
      rw [forall_comesTo_of_last]
      · exact h.eof a answers hs
      · rintro s' rest ⟨⟩
        exact ⟨rfl, rfl⟩
    | again a =>
      rw [forall_comesTo_of_last]
      · exact h.again a answers hs
      · rintro s' rest ⟨⟩
        exact ⟨rfl, rfl⟩
    | data d a => exact h.data_iff hs ih

end ByRounds

end Webserv
