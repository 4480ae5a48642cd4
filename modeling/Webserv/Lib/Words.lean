import Mathlib.Data.List.Basic

/-!
# Words

The words of a list are the pieces between its separators that are not empty.

## Main results

* `words_append_cons` — a separator stands between the words.
* `words_squeeze` — runs of separators may be squeezed into one.
-/

namespace Words

variable {α : Type*} {p q : α → Bool} {a blank : α}

/-- The longest parts of a list without separators. -/
def words (p : α → Bool) (s : List α) : List (List α) := (s.splitOnP p).filter fun w => !w.isEmpty

/-- The one word that a list makes without separators, if it is not empty. -/
def single (w : List α) : List (List α) := if w.isEmpty then [] else [w]

@[simp] theorem words_nil : words p ([] : List α) = [] := by simp [words]

theorem words_of_forall {w : List α} (h : ∀ a ∈ w, p a = false) : words p w = single w := by
  rw [words, List.splitOnP_eq_singleton h, single]
  cases w <;> rfl

/-- **A separator stands between the words.** -/
theorem words_append_cons (ha : p a = true) (s t : List α) :
    words p (s ++ a :: t) = words p s ++ words p t := by
  rw [words, List.splitOnP_append_cons s t ha, List.filter_append]
  rfl

theorem words_cons (ha : p a = true) (s : List α) : words p (a :: s) = words p s := by
  have h := words_append_cons ha [] s
  rwa [words_nil, List.nil_append, List.nil_append] at h

theorem words_concat (ha : p a = true) (s : List α) : words p (s ++ [a]) = words p s := by
  rw [words_append_cons ha, words_nil, List.append_nil]

theorem single_eq_nil_iff {w : List α} : single w = [] ↔ w = [] := by
  cases w <;> simp [single]

theorem words_append_eq_nil_iff {s : List α} : ∀ {cur : List α}, (∀ a ∈ cur, p a = false) →
    (words p (cur ++ s) = [] ↔ cur = [] ∧ ∀ a ∈ s, p a = true) := by
  induction s with
  | nil =>
    intro cur hcur
    rw [List.append_nil, words_of_forall hcur, single_eq_nil_iff]
    simp
  | cons a s ih =>
    intro cur hcur
    cases ha : p a with
    | true =>
      have hrest : words p s = [] ↔ _ := @ih [] (by simp)
      rw [words_append_cons ha, words_of_forall hcur, List.append_eq_nil_iff, single_eq_nil_iff,
        hrest]
      simp [ha]
    | false =>
      have hword : ∀ b ∈ cur ++ [a], p b = false :=
        List.forall_mem_append.mpr ⟨hcur, by simpa using ha⟩
      rw [List.append_cons, ih hword]
      simp [ha]

/-- A list has no words when it has nothing but separators. -/
theorem words_eq_nil_iff {s : List α} : words p s = [] ↔ ∀ a ∈ s, p a = true := by
  have h := @words_append_eq_nil_iff _ p s [] (by simp)
  simpa using h

/-- Writes one blank for a run of separators; `after` says that one has been written. -/
def squeeze (p : α → Bool) (blank : α) : Bool → List α → List α
  | _, [] => []
  | after, a :: s =>
    if p a then if after then squeeze p blank true s else blank :: squeeze p blank true s
    else a :: squeeze p blank false s

/-- **Squeezing keeps the words**, where the blank is the separator. -/
theorem words_squeeze (hblank : q blank = true) (hq : ∀ a, p a = false → q a = false) :
    ∀ s : List α, words q (squeeze p blank true s) = words p s ∧
      ∀ cur : List α, (∀ a ∈ cur, p a = false) →
        words q (cur ++ squeeze p blank false s) = words p (cur ++ s) := by
  intro s
  induction s with
  | nil =>
    refine ⟨by simp [squeeze], fun cur hcur => ?_⟩
    rw [squeeze, List.append_nil, words_of_forall hcur,
      words_of_forall fun a ha => hq a (hcur a ha)]
  | cons a s ih =>
    obtain ⟨hafter, hcurrent⟩ := ih
    cases ha : p a with
    | true =>
      refine ⟨by rw [squeeze, if_pos ha, if_pos rfl, hafter, words_cons ha], fun cur hcur => ?_⟩
      rw [squeeze, if_pos ha, if_neg Bool.false_ne_true, words_append_cons hblank,
        words_append_cons ha, hafter, words_of_forall hcur,
        words_of_forall fun a ha => hq a (hcur a ha)]
    | false =>
      have hplain : ¬ p a = true := by simp [ha]
      -- the symbol goes on with the word
      have hgo : ∀ cur : List α, (∀ b ∈ cur, p b = false) →
          words q (cur ++ a :: squeeze p blank false s) = words p (cur ++ a :: s) := by
        intro cur hcur
        have hword : ∀ b ∈ cur ++ [a], p b = false := by
          intro b hb
          rcases List.mem_append.mp hb with hb | hb
          · exact hcur b hb
          · rw [List.mem_singleton.mp hb]
            exact ha
        have hnext := hcurrent (cur ++ [a]) hword
        rwa [List.append_assoc, List.append_assoc] at hnext
      constructor
      · rw [squeeze, if_neg hplain]
        exact hgo [] (by simp)
      · intro cur hcur
        rw [squeeze, if_neg hplain]
        exact hgo cur hcur

theorem mem_squeeze {s : List α} : ∀ {after : Bool}, a ∈ squeeze p blank after s →
    a = blank ∨ p a = false := by
  induction s with
  | nil => exact fun h => absurd h List.not_mem_nil
  | cons b s ih =>
    intro after h
    rw [squeeze] at h
    split at h
    · split at h
      · exact ih h
      · rcases List.mem_cons.mp h with rfl | h
        · exact .inl rfl
        · exact ih h
    · next hb =>
      rcases List.mem_cons.mp h with rfl | h
      · exact .inr (Bool.not_eq_true _ ▸ hb)
      · exact ih h

end Words
