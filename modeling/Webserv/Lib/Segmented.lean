import Mathlib.Data.List.Basic

/-!
# Consumers of a stream that do not see how it is cut

A consumer takes its input in pieces: `step s a` is the state after the piece `a`
has arrived in state `s`.  It is *segmentation free* up to a relation `R` on
states when two pieces one after the other do what their concatenation does.
From that one law about two pieces, `foldl_flatten` gives the law for any number
of them.

The states the law is about are restricted by an invariant `I`, which every
piece keeps.  `R` need not be equality: a consumer that has come to its end may
have read ahead by different amounts.
-/

namespace Segmented

variable {σ α : Type*}

/-- The two-piece law, on the states of `I` and up to `R`. -/
structure Law (step : σ → List α → σ) (I : σ → Prop) (R : σ → σ → Prop) : Prop where
  /-- Every state agrees with itself. -/
  refl : ∀ s, R s s
  /-- Agreement is transitive. -/
  trans : ∀ {s t u}, R s t → R t u → R s u
  /-- A piece keeps the invariant. -/
  keeps : ∀ s a, I s → I (step s a)
  /-- States that agree go on agreeing. -/
  congr : ∀ {s t} a, I s → I t → R s t → R (step s a) (step t a)
  /-- Two pieces do what their concatenation does. -/
  append : ∀ s a b, I s → a ≠ [] → b ≠ [] → R (step (step s a) b) (step s (a ++ b))

variable {step : σ → List α → σ} {I : σ → Prop} {R : σ → σ → Prop}

/-- **Any cut of a stream does what the whole stream does.** -/
theorem Law.foldl_flatten (h : Law step I R) :
    ∀ (pieces : List (List α)) (s : σ), I s → pieces ≠ [] → (∀ p ∈ pieces, p ≠ []) →
      R (pieces.foldl step s) (step s pieces.flatten) := by
  intro pieces
  induction pieces with
  | nil => intro s _ hne; exact absurd rfl hne
  | cons a pieces ih =>
    intro s hs _ hp
    have ha : a ≠ [] := hp a List.mem_cons_self
    have hp' : ∀ p ∈ pieces, p ≠ [] := fun p h => hp p (List.mem_cons_of_mem _ h)
    rw [List.foldl_cons, List.flatten_cons]
    by_cases hnil : pieces = []
    · subst hnil
      simpa using h.refl (step s a)
    · have hfl : pieces.flatten ≠ [] := by
        obtain ⟨b, rest, rfl⟩ := List.exists_cons_of_ne_nil hnil
        have hb := hp' b List.mem_cons_self
        simp [hb]
      -- the rest of the pieces is one piece by induction, and two pieces are one by the law
      exact h.trans (ih (step s a) (h.keeps s a hs) hnil hp') (h.append s a _ hs ha hfl)

end Segmented
