import Mathlib.Data.List.Infix
import Mathlib.Data.Nat.Find

/-!
# The first occurrence of a pattern in a list

`find pat l` is the position at which `pat` first begins in `l`, the answer of a
left-to-right scan.  Everything a caller needs is in `find_eq_some_iff`: the list
is cut at the occurrence, and no earlier position begins one.  A found occurrence
stays the first one when the list grows (`find_append_of_some`), and one that only
shows up once the list has grown reaches into the new part (`lt_of_find_append`).
No occurrence crosses a symbol that the pattern does not have
(`find_append_cons_of_notMem`).
-/

namespace FirstMatch

variable {α : Type*} [DecidableEq α]

/-- The first position of `l` at which `pat` begins. -/
def find (pat : List α) : List α → Option ℕ
  | [] => if pat = [] then some 0 else none
  | a :: l => if pat <+: a :: l then some 0 else (find pat l).map (· + 1)

variable {pat : List α}

/-- **The specification of `find`**: an occurrence there, and none before. -/
theorem find_eq_some_iff : ∀ {l : List α} {n : ℕ},
    find pat l = some n ↔
      n ≤ l.length ∧ pat <+: l.drop n ∧ ∀ i < n, ¬ pat <+: l.drop i := by
  intro l
  induction l with
  | nil =>
    intro n
    by_cases hp : pat = []
    · subst hp
      simp only [find, if_true, Option.some.injEq, List.length_nil, List.drop_nil]
      constructor
      · rintro rfl
        exact ⟨Nat.le_refl _, List.nil_prefix, fun i hi => absurd hi (Nat.not_lt_zero i)⟩
      · rintro ⟨h, -, -⟩
        omega
    · simp [find, hp]
  | cons a l ih =>
    intro n
    rw [find]
    split
    · -- a match at the front is the first one
      next h =>
      rw [Option.some.injEq]
      constructor
      · rintro rfl
        exact ⟨Nat.zero_le _, h, fun i hi => absurd hi (Nat.not_lt_zero i)⟩
      · rintro ⟨-, -, hmin⟩
        by_contra hn
        exact hmin 0 (by omega) h
    · -- otherwise the first match is that of the tail, one place further on
      next h =>
      rw [Option.map_eq_some_iff]
      constructor
      · rintro ⟨m, hm, rfl⟩
        obtain ⟨hle, hpre, hmin⟩ := ih.mp hm
        refine ⟨by simpa using hle, by simpa using hpre, ?_⟩
        intro i hi
        cases i with
        | zero => exact h
        | succ i => simpa using hmin i (by omega)
      · rintro ⟨hle, hpre, hmin⟩
        cases n with
        | zero => exact absurd hpre h
        | succ n =>
          refine ⟨n, ih.mpr ⟨by simpa using hle, by simpa using hpre, ?_⟩, rfl⟩
          intro i hi
          simpa using hmin (i + 1) (by omega)

theorem find_eq_none_iff : ∀ {l : List α},
    find pat l = none ↔ ∀ i ≤ l.length, ¬ pat <+: l.drop i := by
  intro l
  constructor
  · intro h i hi hpre
    have hex : ∃ n, n ≤ l.length ∧ pat <+: l.drop n := ⟨i, hi, hpre⟩
    classical
    obtain ⟨hle, hp⟩ := Nat.find_spec hex
    have hs := find_eq_some_iff.mpr ⟨hle, hp, fun j hj hpj =>
      Nat.find_min hex hj ⟨by omega, hpj⟩⟩
    rw [h] at hs
    exact absurd hs (by simp)
  · intro h
    cases hf : find pat l with
    | none => rfl
    | some n =>
      obtain ⟨hle, hpre, -⟩ := find_eq_some_iff.mp hf
      exact absurd hpre (h n hle)

/-- The occurrence lies inside the list. -/
theorem length_le_of_find {l : List α} {n : ℕ} (h : find pat l = some n) :
    n + pat.length ≤ l.length := by
  obtain ⟨hle, hpre, -⟩ := find_eq_some_iff.mp h
  have := hpre.length_le
  rw [List.length_drop] at this
  omega

/-- A list is what stands before its first occurrence, the pattern, and the rest. -/
theorem eq_append_of_find {l : List α} {n : ℕ} (h : find pat l = some n) :
    l = l.take n ++ pat ++ l.drop (n + pat.length) := by
  obtain ⟨-, ⟨rest, hrest⟩, -⟩ := find_eq_some_iff.mp h
  have hdrop : l.drop (n + pat.length) = rest := by
    rw [← List.drop_drop, ← hrest, List.drop_left]
  rw [hdrop, List.append_assoc, hrest, List.take_append_drop]

/-- A pattern is found at once where it is in front. -/
theorem find_append_self (l : List α) : find pat (pat ++ l) = some 0 :=
  find_eq_some_iff.mpr ⟨Nat.zero_le _, by simp, by simp⟩

/-- Nothing is found where there is no occurrence at all. -/
theorem find_eq_none_iff_not_infix {l : List α} : find pat l = none ↔ ¬ pat <:+: l := by
  rw [find_eq_none_iff]
  constructor
  · rintro h ⟨front, behind, rfl⟩
    refine h front.length (by simp) ?_
    rw [List.append_assoc, List.drop_left]
    exact List.prefix_append _ _
  · intro h i _ hpre
    exact h (hpre.isInfix.trans (List.drop_suffix i l).isInfix)

/-- No occurrence begins before the first one. -/
theorem not_infix_take {l : List α} {n m : ℕ} (h : find pat l = some n) (hne : pat ≠ [])
    (hm : m ≤ n) : ¬ pat <:+: l.take m := by
  rintro ⟨before, behind, heq⟩
  have hlt : before.length < n := by
    have hlen := congrArg List.length heq
    have hpos := List.length_pos_of_ne_nil hne
    simp only [List.length_append, List.length_take] at hlen
    omega
  refine (find_eq_some_iff.mp h).2.2 before.length hlt ?_
  refine List.IsPrefix.trans ?_ ((List.take_prefix m l).drop before.length)
  rw [← heq, List.append_assoc, List.drop_left]
  exact List.prefix_append pat behind

omit [DecidableEq α] in
/-- The drop of an appended list begins as the drop of its first part did. -/
theorem prefix_drop_append_iff {l r : List α} {i : ℕ} (hi : i + pat.length ≤ l.length) :
    pat <+: (l ++ r).drop i ↔ pat <+: l.drop i := by
  rw [List.drop_append_of_le_length (by omega)]
  constructor
  · intro h
    exact List.prefix_of_prefix_length_le h (List.prefix_append _ _)
      (by rw [List.length_drop]; omega)
  · intro h
    exact h.trans (List.prefix_append _ _)

omit [DecidableEq α] in
/-- The symbols of an occurrence. -/
theorem getElem?_of_prefix_drop {l : List α} {i k : ℕ} (h : pat <+: l.drop i)
    (hk : k < pat.length) : l[i + k]? = pat[k]? := by
  obtain ⟨rest, hrest⟩ := h
  rw [← List.getElem?_drop, ← hrest, List.getElem?_append_left hk]

/-- **What is found stays found when the list grows.** -/
theorem find_append_of_some {l r : List α} {n : ℕ} (h : find pat l = some n) :
    find pat (l ++ r) = some n := by
  have hlen := length_le_of_find h
  obtain ⟨hle, hpre, hmin⟩ := find_eq_some_iff.mp h
  refine find_eq_some_iff.mpr ⟨by rw [List.length_append]; omega,
    (prefix_drop_append_iff hlen).mpr hpre, ?_⟩
  intro i hi hp
  exact hmin i hi ((prefix_drop_append_iff (by omega)).mp hp)

/-- An occurrence that the shorter list did not have reaches beyond it. -/
theorem lt_of_find_append {l r : List α} {n : ℕ} (hl : find pat l = none)
    (h : find pat (l ++ r) = some n) : l.length < n + pat.length := by
  by_contra hle
  obtain ⟨-, hpre, -⟩ := find_eq_some_iff.mp h
  exact find_eq_none_iff.mp hl n (by omega) ((prefix_drop_append_iff (by omega)).mp hpre)

/-- A pattern of two different symbols does not begin inside a list without the first. -/
theorem find_append_cons {a : α} {l rest r : List α} (ha : a ∉ l) :
    find (a :: rest) (l ++ a :: rest ++ r) = some l.length := by
  refine find_eq_some_iff.mpr ⟨by simp, by simp, ?_⟩
  intro i hi hpre
  rw [List.append_assoc, List.drop_append_of_le_length (by omega)] at hpre
  cases hd : l.drop i with
  | nil =>
    have := congrArg List.length hd
    rw [List.length_drop, List.length_nil] at this
    omega
  | cons x xs =>
    rw [hd, List.cons_append, List.cons_prefix_cons] at hpre
    have hx : x ∈ l := List.mem_of_mem_drop (hd ▸ List.mem_cons_self)
    exact ha (hpre.1 ▸ hx)

/-! ### Symbols that no occurrence crosses -/

theorem find_nil (hne : pat ≠ []) : find pat [] = none := by
  rw [find, if_neg hne]

theorem find_cons_pos {a : α} {l : List α} (h : pat <+: a :: l) : find pat (a :: l) = some 0 := by
  rw [find, if_pos h]

theorem find_cons_neg {a : α} {l : List α} (h : ¬ pat <+: a :: l) :
    find pat (a :: l) = (find pat l).map (· + 1) := by
  rw [find, if_neg h]

omit [DecidableEq α] in
/-- A pattern does not reach a symbol that it does not have. -/
theorem prefix_append_cons_iff {a : α} (ha : a ∉ pat) {l r : List α} :
    pat <+: l ++ a :: r ↔ pat <+: l := by
  refine ⟨fun h => ?_, fun h => h.trans (List.prefix_append _ _)⟩
  by_cases hle : pat.length ≤ l.length
  · exact List.prefix_of_prefix_length_le h (List.prefix_append _ _) hle
  · have hfront : l ++ [a] <+: l ++ a :: r := ⟨r, by simp⟩
    have hlength : (l ++ [a]).length ≤ pat.length := by
      rw [List.length_append, List.length_singleton]
      omega
    have hpat : l ++ [a] <+: pat := List.prefix_of_prefix_length_le hfront h hlength
    exact absurd (hpat.subset (by simp)) ha

/-- **No occurrence crosses a symbol that the pattern does not have.** -/
theorem find_append_cons_of_notMem {a : α} (ha : a ∉ pat) (hne : pat ≠ []) {l r : List α} :
    find pat (l ++ a :: r) = (find pat l).or ((find pat r).map (l.length + 1 + ·)) := by
  induction l with
  | nil =>
    have hhere : ¬ pat <+: a :: r := by
      rw [← List.nil_append (a :: r), prefix_append_cons_iff ha, List.prefix_nil]
      exact hne
    rw [List.nil_append, find_cons_neg hhere, find_nil hne, Option.none_or]
    simp [Nat.add_comm]
  | cons x l ih =>
    have hiff := @prefix_append_cons_iff α pat a ha (x :: l) r
    rw [List.cons_append] at hiff ⊢
    by_cases hhere : pat <+: x :: l
    · rw [find_cons_pos (hiff.mpr hhere), find_cons_pos hhere]
      rfl
    · rw [find_cons_neg (mt hiff.mp hhere), find_cons_neg hhere, ih]
      cases find pat l with
      | some n => rfl
      | none =>
        rw [Option.map_none, Option.none_or, Option.none_or, Option.map_map]
        refine congrArg (Option.map · (find pat r)) (funext fun n => ?_)
        simp only [Function.comp, List.length_cons]
        omega

/-- A pattern is not found in front of its first symbol. -/
theorem find_append_of_notMem {a : α} {rest l r : List α} (ha : a ∉ l) :
    find (a :: rest) (l ++ r) = (find (a :: rest) r).map (l.length + ·) := by
  induction l with
  | nil => simp
  | cons x l ih =>
    have hhere : ¬ a :: rest <+: x :: (l ++ r) := by
      intro h
      exact ha (by simp [(List.cons_prefix_cons.mp h).1])
    rw [List.cons_append, find_cons_neg hhere, ih fun h => ha (List.mem_cons_of_mem x h),
      Option.map_map]
    refine congrArg (Option.map · (find (a :: rest) r)) (funext fun n => ?_)
    simp only [Function.comp, List.length_cons]
    omega

omit [DecidableEq α] in
theorem concat_prefix_append_cons_iff {a : α} {key : List α} (hkey : a ∉ key) :
    ∀ {l r : List α}, a ∉ l → (key ++ [a] <+: l ++ a :: r ↔ key = l) := by
  induction key with
  | nil =>
    intro l r hl
    cases l with
    | nil => simp
    | cons x l => simpa using fun h : a = x => hl (by simp [h])
  | cons k key ih =>
    intro l r hl
    cases l with
    | nil =>
      have hk : ¬ k = a := fun h => hkey (by simp [h])
      simp [hk]
    | cons x l =>
      rw [List.cons_append, List.cons_append, List.cons_prefix_cons,
        ih (fun h => hkey (List.mem_cons_of_mem k h)) (fun h => hl (List.mem_cons_of_mem x h)),
        List.cons.injEq]

/-- **A pattern with a symbol at its end only** is found at the first such symbol that has the rest
of the pattern in front of it. -/
theorem find_concat_append_cons {a : α} {key : List α} (hkey : a ∉ key) {l r : List α}
    (hl : a ∉ l) : find (key ++ [a]) (l ++ a :: r) =
      if key <:+ l then some (l.length - key.length)
      else (find (key ++ [a]) r).map (l.length + 1 + ·) := by
  induction l with
  | nil =>
    have hiff := @concat_prefix_append_cons_iff α a key hkey [] r hl
    rw [List.nil_append] at hiff ⊢
    by_cases hhere : key = []
    · rw [find_cons_pos (hiff.mpr hhere)]
      simp [hhere]
    · rw [find_cons_neg (mt hiff.mp hhere)]
      simp [hhere, Nat.add_comm]
  | cons x l ih =>
    have hiff := @concat_prefix_append_cons_iff α a key hkey (x :: l) r hl
    have hl' : a ∉ l := fun h => hl (List.mem_cons_of_mem x h)
    rw [List.cons_append] at hiff ⊢
    by_cases hhere : key = x :: l
    · rw [find_cons_pos (hiff.mpr hhere)]
      simp [hhere]
    · rw [find_cons_neg (mt hiff.mp hhere), ih hl']
      by_cases hthere : key <:+ l
      · have hle := hthere.length_le
        simp only [List.suffix_cons_iff, hhere, hthere, or_true, if_true, Option.map_some,
          List.length_cons]
        rw [Nat.sub_add_comm hle]
      · simp only [List.suffix_cons_iff, hhere, hthere, or_self, if_false, Option.map_map]
        refine congrArg (Option.map · (find (key ++ [a]) r)) (funext fun n => ?_)
        simp only [Function.comp, List.length_cons]
        omega

end FirstMatch
