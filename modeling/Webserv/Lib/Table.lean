import Std.Data.TreeMap.Lemmas
import Mathlib.Data.List.Basic

/-!
# Tables of numbered entries

A table keeps its entries under numbers, in the order of the numbers.  Besides looking up,
filing and erasing an entry, a program goes through the table for the entries of some kind;
`keysWhere` lists their numbers, and `findKey` is the first of them.
-/

/-- A table of entries under numbers. -/
abbrev Table (β : Type) := Std.TreeMap ℕ β

namespace Table

variable {β : Type}

theorem getElem?_insert_ne (t : Table β) {k a : ℕ} (v : β) (h : a ≠ k) :
    (t.insert k v)[a]? = t[a]? := by
  rw [Std.TreeMap.getElem?_insert, if_neg]
  rw [Std.LawfulEqCmp.compare_eq_iff_eq]
  exact h.symm

theorem getElem?_erase_ne (t : Table β) {k a : ℕ} (h : a ≠ k) : (t.erase k)[a]? = t[a]? := by
  rw [Std.TreeMap.getElem?_erase, if_neg]
  rw [Std.LawfulEqCmp.compare_eq_iff_eq]
  exact h.symm

/-- The numbers of the entries that satisfy `p`, in order. -/
def keysWhere (t : Table β) (p : β → Bool) : List ℕ :=
  (t.toList.filter fun e => p e.2).map Prod.fst

theorem mem_keysWhere {t : Table β} {p : β → Bool} {k : ℕ} :
    k ∈ t.keysWhere p ↔ ∃ v, t[k]? = some v ∧ p v = true := by
  simp only [keysWhere, List.mem_map, List.mem_filter, Prod.exists, exists_and_right,
    exists_eq_right, Std.TreeMap.mem_toList_iff_getElem?_eq_some]

/-- The number of the first entry that satisfies `p`. -/
def findKey (t : Table β) (p : β → Bool) : Option ℕ := (t.keysWhere p).head?

theorem findKey_eq_none {t : Table β} {p : β → Bool} :
    t.findKey p = none ↔ ∀ (k : ℕ) (v : β), t[k]? = some v → p v = false := by
  rw [findKey, List.head?_eq_none_iff, List.eq_nil_iff_forall_not_mem]
  constructor
  · intro h k v hk
    cases hp : p v with
    | false => rfl
    | true => exact absurd (mem_keysWhere.mpr ⟨v, hk, hp⟩) (h k)
  · intro h k hk
    obtain ⟨v, hv, hp⟩ := mem_keysWhere.mp hk
    rw [h k v hv] at hp
    cases hp

theorem findKey_eq_some {t : Table β} {p : β → Bool} {k : ℕ} (h : t.findKey p = some k) :
    ∃ v, t[k]? = some v ∧ p v = true :=
  mem_keysWhere.mp (List.mem_of_head? h)

end Table
