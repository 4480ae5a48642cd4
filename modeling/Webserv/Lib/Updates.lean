import Mathlib.Data.List.Basic
import Std.Data.ExtTreeMap

/-!
# Updates of a finite map

A list of updates is applied to a map in its order.

## Main results

* `getElem?_setAll_of_forall` — updates that say what the map says change nothing.
* `getElem?_setAll_of_mem` — updates of a key that agree.
* `setAll_toList` — **a map that is copied entry by entry.**
-/

namespace Updates

open Std

variable {κ β : Type} {cmp : κ → κ → Ordering} [TransCmp cmp]

/-- The updates one after the other. -/
def setAll (m : ExtTreeMap κ β cmp) (us : List (κ × β)) : ExtTreeMap κ β cmp :=
  us.foldl (fun m u => m.insert u.1 u.2) m

@[simp] theorem setAll_nil (m : ExtTreeMap κ β cmp) : setAll m [] = m := rfl

@[simp] theorem setAll_cons (m : ExtTreeMap κ β cmp) (u : κ × β) (us : List (κ × β)) :
    setAll m (u :: us) = setAll (m.insert u.1 u.2) us := rfl

theorem setAll_append (m : ExtTreeMap κ β cmp) (us vs : List (κ × β)) :
    setAll m (us ++ vs) = setAll (setAll m us) vs := List.foldl_append

/-- An update leaves an entry behind. -/
theorem setAll_eq_empty_iff {m : ExtTreeMap κ β cmp} {us : List (κ × β)} :
    setAll m us = ∅ ↔ m = ∅ ∧ us = [] := by
  induction us generalizing m with
  | nil => simp
  | cons u us ih =>
    have hne : m.insert u.1 u.2 ≠ ∅ := ExtTreeMap.insert_ne_empty
    rw [setAll_cons, ih]
    simp [hne]

variable [LawfulEqCmp cmp] {m m' : ExtTreeMap κ β cmp} {us : List (κ × β)} {x : κ} {p : β}

/-- One update. -/
theorem getElem?_insert_cases (m : ExtTreeMap κ β cmp) (u : κ × β) (x : κ) :
    u.1 = x ∧ (m.insert u.1 u.2)[x]? = some u.2 ∨ u.1 ≠ x ∧ (m.insert u.1 u.2)[x]? = m[x]? := by
  rw [ExtTreeMap.getElem?_insert]
  by_cases h : u.1 = x
  · exact .inl ⟨h, if_pos (LawfulEqCmp.compare_eq_iff_eq.mpr h)⟩
  · exact .inr ⟨h, if_neg fun heq => h (LawfulEqCmp.compare_eq_iff_eq.mp heq)⟩

/-- **Updates of a key that say what the map says.** -/
theorem getElem?_setAll_of_forall (h : ∀ u ∈ us, u.1 = x → m[x]? = some u.2) :
    (setAll m us)[x]? = m[x]? := by
  induction us generalizing m with
  | nil => rfl
  | cons u us ih =>
    rw [List.forall_mem_cons] at h
    have hsame : (m.insert u.1 u.2)[x]? = m[x]? := by
      rcases getElem?_insert_cases m u x with ⟨hx, hu⟩ | ⟨-, hu⟩
      · rw [hu, h.1 hx]
      · exact hu
    rw [setAll_cons, ih, hsame]
    intro v hv hx
    rw [hsame, h.2 v hv hx]

/-- **Updates of a key that agree.** -/
theorem getElem?_setAll_of_mem (hx : ∃ u ∈ us, u.1 = x) (h : ∀ u ∈ us, u.1 = x → u.2 = p) :
    (setAll m us)[x]? = some p := by
  induction us generalizing m with
  | nil => simp at hx
  | cons u us ih =>
    rw [List.forall_mem_cons] at h
    rw [setAll_cons]
    by_cases hrest : ∃ v ∈ us, v.1 = x
    · exact ih hrest h.2
    · have hu : u.1 = x := by
        obtain ⟨v, hv, hvx⟩ := hx
        rcases List.mem_cons.mp hv with rfl | hv
        · exact hvx
        · exact absurd ⟨v, hv, hvx⟩ hrest
      rw [getElem?_setAll_of_forall fun v hv hvx => absurd ⟨v, hv, hvx⟩ hrest]
      rcases getElem?_insert_cases m u x with ⟨-, hset⟩ | ⟨hne, -⟩
      · rw [hset, h.1 hu]
      · exact absurd hu hne

/-- A key that is updated, or that has one entry in both maps. -/
theorem getElem?_setAll_congr (h : (∃ u ∈ us, u.1 = x) ∨ m[x]? = m'[x]?) :
    (setAll m us)[x]? = (setAll m' us)[x]? := by
  induction us generalizing m m' with
  | nil =>
    rcases h with ⟨u, hu, -⟩ | h
    · cases hu
    · exact h
  | cons u us ih =>
    rw [setAll_cons, setAll_cons]
    refine ih ?_
    rcases getElem?_insert_cases m u x with ⟨hx, hu⟩ | ⟨hx, hu⟩
    · right
      rcases getElem?_insert_cases m' u x with ⟨-, hu'⟩ | ⟨hne, -⟩
      · rw [hu, hu']
      · exact absurd hx hne
    · rcases h with ⟨v, hv, hvx⟩ | h
      · rcases List.mem_cons.mp hv with rfl | hv
        · exact absurd hvx hx
        · exact .inl ⟨v, hv, hvx⟩
      · right
        rcases getElem?_insert_cases m' u x with ⟨hx', -⟩ | ⟨-, hu'⟩
        · exact absurd hx' hx
        · rw [hu, hu', h]

/-- **A map that is copied entry by entry.** -/
theorem setAll_toList (m : ExtTreeMap κ β cmp) : setAll ∅ m.toList = m := by
  refine ExtTreeMap.ext_getElem? fun x => ?_
  cases hx : m[x]? with
  | none =>
    rw [getElem?_setAll_of_forall]
    · exact ExtTreeMap.getElem?_empty
    · rintro ⟨y, q⟩ hu rfl
      rw [ExtTreeMap.mem_toList_iff_getElem?_eq_some, hx] at hu
      cases hu
  | some p =>
    refine getElem?_setAll_of_mem ⟨(x, p), ?_, rfl⟩ ?_
    · rwa [ExtTreeMap.mem_toList_iff_getElem?_eq_some]
    · rintro ⟨y, q⟩ hu rfl
      rw [ExtTreeMap.mem_toList_iff_getElem?_eq_some, hx] at hu
      exact (Option.some.inj hu).symm

end Updates
