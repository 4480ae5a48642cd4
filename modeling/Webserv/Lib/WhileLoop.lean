import Mathlib.Data.Nat.Basic

/-!
# Loops with a decreasing measure

A `while (true)` loop whose body either goes round again or leaves is a function
`body : σ → σ ⊕ τ`.  `loop μ body out` runs it with as many rounds as the measure
`μ` allows, so it is total and evaluates; when the measure drops on every round
(`Decreasing`) the bound is never met, and `loop` satisfies the equation of the
loop it stands for.

## Main results

* `loop_eq` — the unfolding equation.
* `loop_induction` — what holds of every way to leave holds of the loop.
* `loop_map_of`, `loop_map` — a loop on the images of states.
-/

namespace WhileLoop

variable {σ τ : Type*}

/-- At most `n` rounds of the loop body; `out` is what a loop cut short yields. -/
def rounds (body : σ → σ ⊕ τ) (out : σ → τ) : ℕ → σ → τ
  | 0, s => out s
  | n + 1, s =>
      match body s with
      | .inl s' => rounds body out n s'
      | .inr t => t

/-- The loop, with one round more than the measure of its starting state. -/
def loop (μ : σ → ℕ) (body : σ → σ ⊕ τ) (out : σ → τ) (s : σ) : τ :=
  rounds body out (μ s + 1) s

/-- Every round that goes on lowers the measure. -/
def Decreasing (μ : σ → ℕ) (body : σ → σ ⊕ τ) : Prop :=
  ∀ s s', body s = .inl s' → μ s' < μ s

variable {μ : σ → ℕ} {body : σ → σ ⊕ τ} {out : σ → τ}

/-- Rounds beyond the measure change nothing. -/
theorem rounds_eq_rounds (hμ : Decreasing μ body) :
    ∀ (n m : ℕ) (s : σ), μ s < n → μ s < m → rounds body out n s = rounds body out m s := by
  intro n
  induction n with
  | zero => intro m s hn; omega
  | succ n ih =>
    intro m s hn hm
    cases m with
    | zero => omega
    | succ m =>
      simp only [rounds]
      cases hb : body s with
      | inr t => rfl
      | inl s' =>
        have hlt := hμ s s' hb
        exact ih m s' (by omega) (by omega)

/-- **The unfolding equation of the loop.** -/
theorem loop_eq (hμ : Decreasing μ body) (s : σ) :
    loop μ body out s =
      match body s with
      | .inl s' => loop μ body out s'
      | .inr t => t := by
  rw [loop, rounds]
  cases hb : body s with
  | inr t => rfl
  | inl s' =>
    have hlt := hμ s s' hb
    exact rounds_eq_rounds hμ _ _ s' hlt (Nat.lt_succ_self _)

theorem loop_inl (hμ : Decreasing μ body) {s s' : σ} (hb : body s = .inl s') :
    loop μ body out s = loop μ body out s' := by
  rw [loop_eq hμ, hb]

theorem loop_inr {s : σ} {t : τ} (hb : body s = .inr t) : loop μ body out s = t := by
  rw [loop, rounds, hb]

/-- **Induction along the rounds of a loop**: a relation between the state a
round starts in and the result of the loop, established where the loop leaves
and carried back over every round that goes on. -/
theorem loop_induction (hμ : Decreasing μ body) {P : σ → τ → Prop}
    (leave : ∀ s t, body s = .inr t → P s t)
    (round : ∀ s s', body s = .inl s' → P s' (loop μ body out s') → P s (loop μ body out s')) :
    ∀ s, P s (loop μ body out s) := by
  intro s
  induction hn : μ s using Nat.strong_induction_on generalizing s with
  | _ n ih =>
    cases hb : body s with
    | inr t => rw [loop_inr hb]; exact leave s t hb
    | inl s' =>
      rw [loop_inl hμ hb]
      exact round s s' hb (ih (μ s') (hn ▸ hμ s s' hb) s' rfl)

/-- **A loop on the images of states** leaves with the image of the result, if its rounds
do what those of the other loop do, in all states that satisfy an invariant of the rounds. -/
theorem loop_map_of {σ' τ' : Type*} {μ' : σ' → ℕ} {body' : σ' → σ' ⊕ τ'} {out' : σ' → τ'}
    (I : σ → Prop) (hI : ∀ s s', I s → body s = .inl s' → I s') (f : σ → σ') (g : τ → τ')
    (hμ : ∀ s, μ' (f s) = μ s) (hbody : ∀ s, I s → body' (f s) = (body s).map f g)
    (hout : ∀ s, out' (f s) = g (out s)) {s : σ} (hs : I s) :
    loop μ' body' out' (f s) = g (loop μ body out s) := by
  have hrounds : ∀ (n : ℕ) (s : σ), I s →
      rounds body' out' n (f s) = g (rounds body out n s) := by
    intro n
    induction n with
    | zero => exact fun s _ => hout s
    | succ n ih =>
      intro s hs
      rw [rounds, rounds, hbody s hs]
      cases hb : body s with
      | inl s' => exact ih s' (hI s s' hs hb)
      | inr t => rfl
  rw [loop, loop, hμ, hrounds _ s hs]

/-- The same, if the rounds do so in all states. -/
theorem loop_map {σ' τ' : Type*} {μ' : σ' → ℕ} {body' : σ' → σ' ⊕ τ'} {out' : σ' → τ'}
    (f : σ → σ') (g : τ → τ') (hμ : ∀ s, μ' (f s) = μ s)
    (hbody : ∀ s, body' (f s) = (body s).map f g) (hout : ∀ s, out' (f s) = g (out s)) (s : σ) :
    loop μ' body' out' (f s) = g (loop μ body out s) :=
  loop_map_of (fun _ => True) (fun _ _ _ _ => trivial) f g hμ (fun s _ => hbody s) hout trivial

end WhileLoop
