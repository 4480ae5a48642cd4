import Webserv.HttpParser.Labels
import Webserv.HttpParser.Segmentation
import Webserv.Lib.Run

/-!
# The parser behind the read buffer

`feedPiece` has a piece parsed whatever its length.  In the server it comes by `Connection::recv`,
into a read buffer that has the limit of a body, and that throws when there is no room.

## Main results

* `receive_of_room` — as long as each piece finds room, the parser does the same.
* `receive_of_full` — otherwise the exception of the read buffer ends the reading.
-/

namespace Webserv

open Bytes

/-- There is room for a piece in the read buffer, if the parser waits for one. -/
def Connection.TakesIn (c : Connection) (d : Bytes) : Prop :=
  c.request.parseState.terminal = false → c.readBuffer.Fits d.length

instance (c : Connection) (d : Bytes) : Decidable (c.TakesIn d) :=
  inferInstanceAs (Decidable (_ → _))

/-- A piece that comes at some time is received and parsed, unless the parser has come to an end or
an exception was thrown before. -/
def receivePiece (stat : StatAnswer) (o : Outcome Connection Unit) (piece : Bytes × ℕ) :
    Outcome Connection Unit :=
  o.andThen fun c _ =>
    if c.request.parseState.terminal then .ok c ()
    else (c.recv piece.1 piece.2).andThen fun c _ => feed stat c

/-- Some pieces are received one after another. -/
def receive (stat : StatAnswer) (c : Connection) (pieces : List (Bytes × ℕ)) :
    Outcome Connection Unit :=
  pieces.foldl (receivePiece stat) (.ok c ())

section

variable {stat : StatAnswer} {c p : Connection} {d : Bytes} {now : ℕ}

theorem recv_of_fits (h : c.readBuffer.Fits d.length) :
    c.recv d now = .ok (({ c with lastActive := now } : Connection).deliver d) () := by
  have happend : c.readBuffer.append d = some (c.readBuffer.push d) :=
    Fifo.append_eq_some_iff.mpr ⟨Or.inr h, rfl⟩
  unfold Connection.recv
  rw [happend]
  rfl

theorem recv_of_full (hd : d ≠ []) (h : ¬ c.readBuffer.Fits d.length) :
    c.recv d now = .bodyLimit c := by
  have happend : c.readBuffer.append d = none :=
    Fifo.append_eq_none_iff.mpr ⟨hd, Nat.lt_of_not_le h⟩
  unfold Connection.recv
  rw [happend]

/-- A piece that finds room is parsed, whatever the time is. -/
theorem receivePiece_of_fits (hp : Resumable p) (heq : p = c.refile p)
    (hwaits : p.request.parseState.terminal = false) (hfits : p.readBuffer.Fits d.length) :
    ∃ c', receivePiece stat (.ok c ()) (d, now) = .ok c' () ∧
      feedPiece stat p d = c'.refile (feedPiece stat p d) := by
  have hstate : ¬ c.request.parseState.terminal = true := by
    rw [heq] at hwaits
    rw [show c.request.parseState.terminal = false from hwaits]
    exact Bool.false_ne_true
  have hroom : c.readBuffer.Fits d.length := by
    rw [heq] at hfits
    exact hfits
  set c₁ : Connection := ({ c with lastActive := now } : Connection).deliver d with hc₁
  have hdeliver : p.deliver d = c₁.refile p := by
    conv_lhs => rw [heq]
    rfl
  have hthrew := (@feed_resume stat (p.deliver d) [0] (by simp) (hp.deliver d) hwaits).1
  have hpiece : feedPiece stat p d = (feed stat (p.deliver d)).state :=
    if_neg (by rw [hwaits]; exact Bool.false_ne_true)
  rw [hdeliver, feed_refile] at hthrew hpiece
  have hreceive : receivePiece stat (.ok c ()) (d, now) = feed stat c₁ := by
    rw [receivePiece, Outcome.andThen_ok, if_neg hstate, recv_of_fits hroom, Outcome.andThen_ok]
  rw [hreceive, hpiece]
  cases hfed : feed stat c₁ with
  | ok c₂ u => exact ⟨c₂, rfl, rfl⟩
  | bodyLimit c₂ =>
    rw [hfed] at hthrew
    cases hthrew

theorem receivePiece_terminal (hend : c.request.parseState.terminal = true) (q : Bytes × ℕ) :
    receivePiece stat (.ok c ()) q = .ok c () := by
  rw [receivePiece, Outcome.andThen_ok, if_pos hend]

/-- **The parser behind the read buffer is the parser** as long as each piece finds room. -/
theorem receive_of_room : ∀ {pieces : List (Bytes × ℕ)} {c p : Connection}, Resumable p →
    p = c.refile p → Run.Meets (feedPiece stat) Connection.TakesIn p (pieces.map (·.1)) →
      ∃ c', receive stat c pieces = .ok c' () ∧ (pieces.map (·.1)).foldl (feedPiece stat) p =
        c'.refile ((pieces.map (·.1)).foldl (feedPiece stat) p) := by
  intro pieces
  induction pieces with
  | nil => exact fun {c p} _ heq _ => ⟨c, rfl, heq⟩
  | cons q pieces ih =>
    intro c p hp heq hroom
    obtain ⟨d, now⟩ := q
    obtain ⟨htakes, hrest⟩ := hroom
    have hkeeps := (feedPiece_law stat).keeps p d hp
    rw [receive, List.foldl_cons, List.map_cons, List.foldl_cons]
    cases hwaits : p.request.parseState.terminal with
    | true =>
      -- the parser has come to an end, and reads no more of them
      have hsame : feedPiece stat p d = p := if_pos hwaits
      have hend : c.request.parseState.terminal = true := by
        rw [heq] at hwaits
        exact hwaits
      rw [receivePiece_terminal hend, hsame]
      exact ih hp heq (hsame ▸ hrest)
    | false =>
      obtain ⟨c', hreceive, heq'⟩ :=
        @receivePiece_of_fits stat c p d now hp heq hwaits (htakes hwaits)
      rw [hreceive]
      exact ih hkeeps heq' hrest

/-- **A piece that finds no room ends the reading.** -/
theorem receive_of_full : ∀ {pieces : List (Bytes × ℕ)} {c p : Connection}, Resumable p →
    p = c.refile p → (∀ q ∈ pieces, q.1 ≠ []) →
      ¬ Run.Meets (feedPiece stat) Connection.TakesIn p (pieces.map (·.1)) →
        ∃ c', receive stat c pieces = .bodyLimit c' := by
  intro pieces
  induction pieces with
  | nil => exact fun _ _ _ hfull => absurd trivial hfull
  | cons q pieces ih =>
    intro c p hp heq hne hfull
    obtain ⟨d, now⟩ := q
    have hne' : ∀ q ∈ pieces, q.1 ≠ [] := fun q hq => hne q (List.mem_cons_of_mem _ hq)
    have hkeeps := (feedPiece_law stat).keeps p d hp
    rw [receive, List.foldl_cons]
    rw [List.map_cons] at hfull
    cases hwaits : p.request.parseState.terminal with
    | true =>
      have hsame : feedPiece stat p d = p := if_pos hwaits
      have hend : c.request.parseState.terminal = true := by
        rw [heq] at hwaits
        exact hwaits
      rw [receivePiece_terminal hend]
      refine ih hp heq hne' fun hroom => hfull ⟨?_, hsame.symm ▸ hroom⟩
      intro hopen
      rw [hwaits] at hopen
      cases hopen
    | false =>
      by_cases hfits : p.readBuffer.Fits d.length
      · obtain ⟨c', hreceive, heq'⟩ :=
          @receivePiece_of_fits stat c p d now hp heq hwaits hfits
        rw [hreceive]
        exact ih hkeeps heq' hne' fun hroom => hfull ⟨fun _ => hfits, hroom⟩
      · have hstate : ¬ c.request.parseState.terminal = true := by
          rw [heq] at hwaits
          rw [show c.request.parseState.terminal = false from hwaits]
          exact Bool.false_ne_true
        have hnone : ¬ c.readBuffer.Fits d.length := by
          rw [heq] at hfits
          exact hfits
        have hreceive : receivePiece stat (.ok c ()) (d, now) = .bodyLimit c := by
          rw [receivePiece, Outcome.andThen_ok, if_neg hstate,
            recv_of_full (hne (d, now) List.mem_cons_self) hnone]
          rfl
        -- no piece is received behind an exception
        have hstays : ∀ rest : List (Bytes × ℕ),
            rest.foldl (receivePiece stat) (.bodyLimit c) = .bodyLimit c := by
          intro rest
          induction rest with
          | nil => rfl
          | cons q rest ih => exact ih
        exact ⟨c, by rw [hreceive, hstays]⟩

end

end Webserv
