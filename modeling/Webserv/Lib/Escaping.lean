import Mathlib.Data.List.Basic
import Mathlib.Logic.Function.Basic

/-!
# Escaping by a table

A table gives entities for some symbols.  An escaped string has the entity of a symbol in its
place; every entity begins with a mark, which is escaped itself.

## Main results

* `unescape_escape` — replacing the entities gives the string back.
* `mark_begins_entity` — a mark that is found is the beginning of an entity.
-/

namespace Escaping

variable {α : Type*} [DecidableEq α] {table : List (α × List α)} {mark : α}

/-- What stands in the place of a symbol. -/
def escapeOne (table : List (α × List α)) (a : α) : List α :=
  match table.find? (·.1 = a) with
  | some e => e.2
  | none => [a]

/-- Every element replaced by its entity, if it has one. -/
def escape (table : List (α × List α)) (s : List α) : List α := s.flatMap (escapeOne table)

/-- The entity that a string begins with. -/
def entityAt (table : List (α × List α)) (s : List α) : Option (α × List α) :=
  table.find? fun e => e.2.isPrefixOf s

/-- Replaces the entities from the left to the right; `skip` symbols belong to one that has been
replaced. -/
def unescapeFrom (table : List (α × List α)) : ℕ → List α → List α
  | _, [] => []
  | skip + 1, _ :: s => unescapeFrom table skip s
  | 0, a :: s =>
    match entityAt table (a :: s) with
    | some e => e.1 :: unescapeFrom table (e.2.length - 1) s
    | none => a :: unescapeFrom table 0 s

/-- Every entity replaced by what it stands for. -/
def unescape (table : List (α × List α)) (s : List α) : List α := unescapeFrom table 0 s

/-- The entities can be told from each other and from what is not escaped. -/
structure Sound (table : List (α × List α)) (mark : α) : Prop where
  marked : ∀ e ∈ table, ∃ t, e.2 = mark :: t ∧ mark ∉ t
  escaped : mark ∈ table.map Prod.fst
  apart : ∀ e ∈ table, ∀ e' ∈ table, e.2 <+: e'.2 → e = e'

@[simp] theorem escape_nil : escape table [] = [] := rfl

@[simp] theorem escape_cons (a : α) (s : List α) :
    escape table (a :: s) = escapeOne table a ++ escape table s := List.flatMap_cons

theorem escape_append (s t : List α) :
    escape table (s ++ t) = escape table s ++ escape table t := List.flatMap_append

/-- A symbol has an entity, or stands for itself. -/
theorem escapeOne_cases (table : List (α × List α)) (a : α) :
    (∃ e ∈ table, e.1 = a ∧ escapeOne table a = e.2) ∨
      a ∉ table.map Prod.fst ∧ escapeOne table a = [a] := by
  unfold escapeOne
  cases hfind : table.find? (·.1 = a) with
  | some e =>
    exact Or.inl ⟨e, List.mem_of_find?_eq_some hfind, by simpa using List.find?_some hfind, rfl⟩
  | none =>
    refine Or.inr ⟨?_, rfl⟩
    intro hmem
    obtain ⟨e, he, rfl⟩ := List.mem_map.mp hmem
    simpa using List.find?_eq_none.mp hfind e he

/-- A symbol that neither is escaped nor stands in an entity comes from the string. -/
theorem mem_escape {a : α} {s : List α} (h : a ∈ escape table s) :
    (∃ e ∈ table, a ∈ e.2) ∨ a ∉ table.map Prod.fst := by
  obtain ⟨b, -, hb⟩ := List.mem_flatMap.mp h
  rcases escapeOne_cases table b with ⟨e, he, -, hone⟩ | ⟨hplain, hone⟩
  · exact Or.inl ⟨e, he, hone ▸ hb⟩
  · rw [hone, List.mem_singleton] at hb
    exact Or.inr (hb ▸ hplain)

/-! ### There and back -/

/-- What belongs to an entity is skipped. -/
theorem unescapeFrom_append (t s : List α) :
    unescapeFrom table t.length (t ++ s) = unescape table s := by
  induction t with
  | nil => rfl
  | cons a t ih => exact ih

/-- A string that begins with an entity begins with no other. -/
theorem Sound.entityAt_append (h : Sound table mark) {e : α × List α} (he : e ∈ table)
    (s : List α) : entityAt table (e.2 ++ s) = some e := by
  have hsome : (entityAt table (e.2 ++ s)).isSome := by
    rw [entityAt, List.find?_isSome]
    exact ⟨e, he, by simp⟩
  obtain ⟨e', he'⟩ := Option.isSome_iff_exists.mp hsome
  have hmem : e' ∈ table := List.mem_of_find?_eq_some he'
  have hpre : e'.2 <+: e.2 ++ s := by simpa using List.find?_some he'
  rcases List.prefix_or_prefix_of_prefix hpre (List.prefix_append e.2 s) with hle | hle
  · rw [he', h.apart e' hmem e he hle]
  · rw [he', h.apart e he e' hmem hle]

/-- A symbol that is not escaped does not begin an entity. -/
theorem Sound.entityAt_plain (h : Sound table mark) {a : α} (ha : a ∉ table.map Prod.fst)
    (s : List α) : entityAt table (a :: s) = none := by
  rw [entityAt, List.find?_eq_none]
  intro e he
  obtain ⟨t, ht, -⟩ := h.marked e he
  have hne : mark ≠ a := fun heq => ha (heq ▸ h.escaped)
  simp [ht, hne]

/-- **Replacing the entities gives the string back.** -/
theorem unescape_escape (h : Sound table mark) (s : List α) :
    unescape table (escape table s) = s := by
  induction s with
  | nil => rfl
  | cons a s ih =>
    rw [escape_cons]
    rcases escapeOne_cases table a with ⟨e, he, rfl, hone⟩ | ⟨hplain, hone⟩
    · obtain ⟨t, ht, -⟩ := h.marked e he
      have hentity := h.entityAt_append he (escape table s)
      rw [hone]
      rw [ht, List.cons_append] at hentity ⊢
      simp only [unescape, unescapeFrom, hentity, ht, List.length_cons, Nat.add_sub_cancel]
      rw [unescapeFrom_append, ih]
    · rw [hone, List.singleton_append]
      simp only [unescape, unescapeFrom, h.entityAt_plain hplain]
      rw [← unescape, ih]

/-- No two strings are escaped to the same. -/
theorem escape_injective (h : Sound table mark) : Function.Injective (escape table) :=
  Function.LeftInverse.injective (unescape_escape h)

/-- **A mark that is found is the beginning of an entity.** -/
theorem mark_begins_entity (h : Sound table mark) : ∀ {s front rest : List α},
    escape table s = front ++ mark :: rest → ∃ e ∈ table, e.2 <+: mark :: rest := by
  intro s
  induction s with
  | nil => intro front rest heq; simp at heq
  | cons a s ih =>
    intro front rest heq
    rw [escape_cons, List.append_eq_append_iff] at heq
    rcases heq with ⟨front', -, hrest⟩ | ⟨tail, hone, hrest⟩
    · exact ih hrest
    · cases tail with
      | nil => exact @ih [] _ hrest.symm
      | cons b tail =>
        obtain ⟨rfl, hrest⟩ := List.cons.inj hrest
        rcases escapeOne_cases table a with ⟨e, he, -, hentity⟩ | ⟨hplain, hentity⟩
        · -- the mark is the first symbol of the entity, for it is no other
          obtain ⟨t, ht, hnot⟩ := h.marked e he
          rw [hentity, ht] at hone
          cases front with
          | nil =>
            refine ⟨e, he, ?_⟩
            rw [ht, hone, hrest]
            exact List.prefix_append _ _
          | cons b front =>
            rw [List.cons_append, List.cons.injEq] at hone
            exact absurd (hone.2 ▸ List.mem_append_right front List.mem_cons_self) hnot
        · rw [hentity, List.singleton_eq_append_iff] at hone
          rcases hone with ⟨-, hone⟩ | ⟨-, hone⟩
          · rw [List.cons.injEq] at hone
            exact absurd (hone.1 ▸ h.escaped) hplain
          · cases hone

end Escaping
