import Mathlib.Data.List.Nodup

/-!
# Lists of assignments

An assignment is a name, a separator and a value in one list, so that a name that holds the
separator is cut short when the assignment is read.  A list of assignments is read by name.

## Main results

* `lookup_of_nodup` — what is found under a name when the names are told apart.
* `readable_append_iff` — **when every assignment can be read back.**
-/

namespace Assignments

variable {α : Type*} [DecidableEq α] {sep : α}

/-- An assignment. -/
def entry (sep : α) (name value : List α) : List α := name ++ sep :: value

/-- What stands in front of the first separator. -/
def nameOf (sep : α) (e : List α) : List α := e.takeWhile (· ≠ sep)

/-- What stands behind it. -/
def valueOf (sep : α) (e : List α) : List α := (e.dropWhile (· ≠ sep)).drop 1

/-- The values that are found under a name. -/
def lookup (sep : α) (env : List (List α)) (name : List α) : List (List α) :=
  (env.filter fun e => nameOf sep e = name).map (valueOf sep)

theorem notMem_nameOf (e : List α) : sep ∉ nameOf sep e := by
  intro h
  have hne := List.all_eq_true.mp List.all_takeWhile sep h
  simp at hne

@[simp] theorem nameOf_entry {name : List α} (h : sep ∉ name) (value : List α) :
    nameOf sep (entry sep name value) = name := by
  have hall : ∀ a ∈ name, decide (a ≠ sep) = true := by
    intro a ha
    simpa using fun heq : a = sep => h (heq ▸ ha)
  rw [nameOf, entry, List.takeWhile_append_of_pos hall]
  simp

@[simp] theorem valueOf_entry {name : List α} (h : sep ∉ name) (value : List α) :
    valueOf sep (entry sep name value) = value := by
  have hall : ∀ a ∈ name, decide (a ≠ sep) = true := by
    intro a ha
    simpa using fun heq : a = sep => h (heq ▸ ha)
  rw [valueOf, entry, List.dropWhile_append_of_pos hall]
  simp

/-- **What is found under a name** when the names are told apart. -/
theorem lookup_of_nodup {env : List (List α)} (hnodup : (env.map (nameOf sep)).Nodup) {e : List α}
    (he : e ∈ env) : lookup sep env (nameOf sep e) = [valueOf sep e] := by
  unfold lookup
  induction env with
  | nil => cases he
  | cons e' env ih =>
    rw [List.map_cons, List.nodup_cons] at hnodup
    by_cases heq : nameOf sep e' = nameOf sep e
    · -- no other assignment has the name
      have hrest : env.filter (fun e'' => nameOf sep e'' = nameOf sep e) = [] := by
        rw [List.filter_eq_nil_iff]
        intro e'' he'' hname
        refine hnodup.1 (List.mem_map.mpr ⟨e'', he'', ?_⟩)
        rw [heq]
        simpa using hname
      have hsame : e = e' := by
        rcases List.mem_cons.mp he with rfl | he
        · rfl
        · exact absurd (List.mem_map.mpr ⟨e, he, heq.symm⟩) hnodup.1
      rw [List.filter_cons_of_pos (by simpa using heq), hrest, hsame]
      rfl
    · rw [List.filter_cons_of_neg (by simpa using heq)]
      refine ih hnodup.2 ?_
      rcases List.mem_cons.mp he with rfl | he
      · exact absurd rfl heq
      · exact he

theorem lookup_append (env env' : List (List α)) (name : List α) :
    lookup sep (env ++ env') name = lookup sep env name ++ lookup sep env' name := by
  simp [lookup]

/-- Nothing is found under a name that no assignment has. -/
theorem lookup_eq_nil {env : List (List α)} {name : List α} (h : ∀ e ∈ env, nameOf sep e ≠ name) :
    lookup sep env name = [] := by
  rw [lookup, List.map_eq_nil_iff, List.filter_eq_nil_iff]
  exact fun e he => by simpa using h e he

variable {fixed pairs : List (List α × List α)}

/-- What is found under one of the names that are told apart. -/
theorem lookup_entry (hfixed : ∀ p ∈ fixed, sep ∉ p.1) (hnodup : (fixed.map Prod.fst).Nodup)
    {p : List α × List α} (hp : p ∈ fixed) :
    lookup sep (fixed.map fun p => entry sep p.1 p.2) p.1 = [p.2] := by
  have hnames : (fixed.map fun p => entry sep p.1 p.2).map (nameOf sep) = fixed.map Prod.fst := by
    rw [List.map_map]
    exact List.map_congr_left fun q hq => nameOf_entry (hfixed q hq) q.2
  have hlookup := lookup_of_nodup (hnames.symm ▸ hnodup) (List.mem_map_of_mem hp)
  rwa [nameOf_entry (hfixed p hp), valueOf_entry (hfixed p hp)] at hlookup

/-- **When every assignment can be read back**: no name has the separator in it, and no two are the
same; the first assignments are known to have names without it. -/
theorem readable_append_iff (hfixed : ∀ p ∈ fixed, sep ∉ p.1) :
    ((((fixed ++ pairs).map fun p => entry sep p.1 p.2).map (nameOf sep)).Nodup ∧
        ∀ p ∈ pairs,
          lookup sep ((fixed ++ pairs).map fun p => entry sep p.1 p.2) p.1 = [p.2]) ↔
      (∀ p ∈ pairs, sep ∉ p.1) ∧ ((fixed ++ pairs).map Prod.fst).Nodup := by
  have hnames : (∀ p ∈ pairs, sep ∉ p.1) →
      ((fixed ++ pairs).map fun p => entry sep p.1 p.2).map (nameOf sep) =
        (fixed ++ pairs).map Prod.fst := by
    intro h
    rw [List.map_map]
    refine List.map_congr_left fun p hp => ?_
    rcases List.mem_append.mp hp with hp | hp
    · exact nameOf_entry (hfixed p hp) p.2
    · exact nameOf_entry (h p hp) p.2
  constructor
  · rintro ⟨hnodup, hread⟩
    have hsep : ∀ p ∈ pairs, sep ∉ p.1 := by
      intro p hp hmem
      -- a name that is found has no separator
      obtain ⟨e, he⟩ : ∃ e, e ∈ ((fixed ++ pairs).map fun p => entry sep p.1 p.2).filter
          (fun e => nameOf sep e = p.1) := by
        have hne : lookup sep ((fixed ++ pairs).map fun p => entry sep p.1 p.2) p.1 ≠ [] := by
          rw [hread p hp]
          exact List.cons_ne_nil _ _
        exact List.exists_mem_of_ne_nil _ fun hnil => hne (by rw [lookup, hnil]; rfl)
      have hname : nameOf sep e = p.1 := by simpa using (List.mem_filter.mp he).2
      exact notMem_nameOf e (hname ▸ hmem)
    exact ⟨hsep, hnames hsep ▸ hnodup⟩
  · rintro ⟨hsep, hnodup⟩
    rw [hnames hsep]
    refine ⟨hnodup, fun p hp => ?_⟩
    have hmem : entry sep p.1 p.2 ∈ (fixed ++ pairs).map fun p => entry sep p.1 p.2 :=
      List.mem_map.mpr ⟨p, List.mem_append_right _ hp, rfl⟩
    have hlookup := lookup_of_nodup ((hnames hsep).symm ▸ hnodup) hmem
    rwa [nameOf_entry (hsep p hp), valueOf_entry (hsep p hp)] at hlookup

end Assignments
