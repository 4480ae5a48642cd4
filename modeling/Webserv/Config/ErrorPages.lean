import Webserv.Config.Inheritance

/-!
# The error pages of a location

A location has the error pages that its server has at that point, and its own.  If there are none,
a second pass gives it those that the server ends with.

## Main results

* `pagesSettled_iff` — **when the point does not matter.**
-/

namespace Webserv

open Bytes Updates

/-- The updates of some `error_page` directives. -/
def updatesOf (es : List Directive) : List (ℤ × Bytes) := es.flatMap pageUpdates

/-- The pages of a location after the second pass, where the server ends with `final`. -/
def settlePages (final pages : ErrorPages) : ErrorPages := if pages.isEmpty then final else pages

/-- The pages of a location do not depend on the point, with the pages `http` of the http block, the
`error_page` directives `es` of the server, and the location's own updates.  If there is nothing
but the server's directives, the later ones repeat the first; else each page of the server is one
that the location sets itself, or is that of the http block. -/
def PagesSettled (http : ErrorPages) (es : List Directive) (own : List (ℤ × Bytes)) : Prop :=
  if http = ∅ ∧ own = [] then
    ∀ e ∈ es.head?, ∀ u ∈ updatesOf es.tail, u ∈ pageUpdates e
  else ∀ u ∈ updatesOf es, (∃ o ∈ own, o.1 = u.1) ∨ http[u.1]? = some u.2

/-- A directive sets its codes to one page. -/
theorem getElem?_setAll_pageUpdates {e : Directive} {u : ℤ × Bytes} (hu : u ∈ pageUpdates e)
    (m : ErrorPages) : (setAll m (pageUpdates e))[u.1]? = some u.2 := by
  refine getElem?_setAll_of_mem ⟨u, hu, rfl⟩ fun w hw _ => ?_
  obtain ⟨c, -, rfl⟩ := List.mem_map.mp hu
  obtain ⟨d, -, rfl⟩ := List.mem_map.mp hw
  rfl

theorem updatesOf_append (a b : List Directive) :
    updatesOf (a ++ b) = updatesOf a ++ updatesOf b := List.flatMap_append

theorem setAll_updatesOf_append (m : ErrorPages) (a b : List Directive) :
    setAll m (updatesOf (a ++ b)) = setAll (setAll m (updatesOf a)) (updatesOf b) := by
  rw [updatesOf_append, setAll_append]

/-- What a directive sets stands in the map behind it. -/
theorem getElem?_setAll_concat {e : Directive} {u : ℤ × Bytes} (hu : u ∈ pageUpdates e)
    (m : ErrorPages) (a : List Directive) :
    (setAll m (updatesOf (a ++ [e])))[u.1]? = some u.2 := by
  rw [setAll_updatesOf_append]
  have hone : updatesOf [e] = pageUpdates e := by simp [updatesOf]
  rw [hone]
  exact getElem?_setAll_pageUpdates hu _

/-- The directive that an update is from, among the others. -/
theorem exists_of_mem_updatesOf {u : ℤ × Bytes} {es : List Directive} (hu : u ∈ updatesOf es) :
    ∃ a e b, es = a ++ e :: b ∧ u ∈ pageUpdates e := by
  obtain ⟨e, he, hu⟩ := List.mem_flatMap.mp hu
  obtain ⟨a, b, hsplit⟩ := List.append_of_mem he
  exact ⟨a, e, b, hsplit, hu⟩

/-- **Nothing but the server's directives**: the later ones repeat the first. -/
theorem repeats_iff {e : Directive} {es : List Directive} :
    (∀ a b, es = a ++ b →
        setAll (∅ : ErrorPages) (updatesOf (e :: a)) = setAll ∅ (updatesOf (e :: es))) ↔
      ∀ u ∈ updatesOf es, u ∈ pageUpdates e := by
  have hcons : ∀ a : List Directive, setAll (∅ : ErrorPages) (updatesOf (e :: a)) =
      setAll (setAll ∅ (pageUpdates e)) (updatesOf a) := by
    intro a
    rw [updatesOf, List.flatMap_cons, setAll_append]
    rfl
  constructor
  · intro h u hu
    obtain ⟨a, e', b, rfl, hlate⟩ := exists_of_mem_updatesOf hu
    -- behind the later directive the map is the same as behind the first
    have hfirst := h [] (a ++ e' :: b) rfl
    have hlater := h (a ++ [e']) b (by simp)
    have hsame : setAll (∅ : ErrorPages) (pageUpdates e) =
        setAll ∅ (updatesOf (e :: a ++ [e'])) :=
      (hcons []).symm.trans (hfirst.trans hlater.symm)
    have hentry : (setAll (∅ : ErrorPages) (pageUpdates e))[u.1]? = some u.2 := by
      rw [hsame]
      exact getElem?_setAll_concat hlate _ _
    by_cases hkey : ∃ w ∈ pageUpdates e, w.1 = u.1
    · obtain ⟨w, hw, hwu⟩ := hkey
      have hpage := getElem?_setAll_pageUpdates hw ∅
      rw [hwu, hentry, Option.some.injEq] at hpage
      exact (Prod.ext hwu hpage.symm : w = u) ▸ hw
    · rw [getElem?_setAll_of_forall fun w hw hwu => absurd ⟨w, hw, hwu⟩ hkey,
        Std.ExtTreeMap.getElem?_empty] at hentry
      cases hentry
  · intro h a b hsplit
    have hrepeat : ∀ us : List (ℤ × Bytes), (∀ u ∈ us, u ∈ pageUpdates e) →
        setAll (setAll (∅ : ErrorPages) (pageUpdates e)) us = setAll ∅ (pageUpdates e) := by
      intro us hus
      refine Std.ExtTreeMap.ext_getElem? fun x => getElem?_setAll_of_forall ?_
      rintro u hu rfl
      exact getElem?_setAll_pageUpdates (hus u hu) ∅
    rw [hcons, hcons, hrepeat _ h, hrepeat]
    intro u hu
    refine h u ?_
    rw [hsplit, updatesOf_append]
    exact List.mem_append_left _ hu

/-- **With other pages**: each page of the server is the location's to set, or there already. -/
theorem keeps_iff {http : ErrorPages} {es : List Directive} {own : List (ℤ × Bytes)} :
    (∀ a b, es = a ++ b → setAll (setAll http (updatesOf a)) own = setAll http own) ↔
      ∀ u ∈ updatesOf es, (∃ o ∈ own, o.1 = u.1) ∨ http[u.1]? = some u.2 := by
  constructor
  · intro h u hu
    obtain ⟨a, e, b, rfl, hset⟩ := exists_of_mem_updatesOf hu
    refine or_iff_not_imp_left.mpr fun hown => ?_
    have hnone : ∀ o ∈ own, o.1 = u.1 → http[u.1]? = some o.2 :=
      fun o ho hou => absurd ⟨o, ho, hou⟩ hown
    have hsame : (setAll (setAll http (updatesOf (a ++ [e]))) own)[u.1]? =
        (setAll http own)[u.1]? := by
      rw [h (a ++ [e]) b (by simp)]
    rw [getElem?_setAll_of_forall hnone,
      getElem?_setAll_of_forall fun o ho hou => absurd ⟨o, ho, hou⟩ hown,
      getElem?_setAll_concat hset] at hsame
    exact hsame.symm
  · intro h a b hsplit
    refine Std.ExtTreeMap.ext_getElem? fun x => getElem?_setAll_congr ?_
    refine or_iff_not_imp_left.mpr fun hown => getElem?_setAll_of_forall ?_
    rintro u hu rfl
    refine (h u ?_).resolve_left hown
    rw [hsplit, updatesOf_append]
    exact List.mem_append_left _ hu

/-- **When the point of a location does not matter** for its error pages. -/
theorem pagesSettled_iff {http : ErrorPages} {es : List Directive} (own : List (ℤ × Bytes))
    (hes : ∀ e ∈ es, pageUpdates e ≠ []) :
    (∀ a b, es = a ++ b →
        settlePages (setAll http (updatesOf es)) (setAll (setAll http (updatesOf a)) own) =
          settlePages (setAll http (updatesOf es)) (setAll http own)) ↔
      PagesSettled http es own := by
  unfold PagesSettled
  split
  · next hempty =>
    obtain ⟨rfl, rfl⟩ := hempty
    cases es with
    | nil =>
      refine iff_of_true (fun a b hsplit => ?_) (fun e he => by cases he)
      obtain ⟨rfl, rfl⟩ := List.append_eq_nil_iff.mp hsplit.symm
      rfl
    | cons e es =>
      -- behind the first directive there are pages, in front of it there are none
      have hsome : ∀ a, setAll (∅ : ErrorPages) (updatesOf (e :: a)) ≠ ∅ := by
        intro a h
        have hnil := (setAll_eq_empty_iff.mp h).2
        exact hes e List.mem_cons_self (List.append_eq_nil_iff.mp hnil).1
      have hpages : ∀ a, settlePages (setAll ∅ (updatesOf (e :: es)))
          (setAll (∅ : ErrorPages) (updatesOf (e :: a))) = setAll ∅ (updatesOf (e :: a)) :=
        fun a => if_neg (mt Std.ExtTreeMap.isEmpty_iff.mp (hsome a))
      have hnone : settlePages (setAll ∅ (updatesOf (e :: es))) (∅ : ErrorPages) =
          setAll ∅ (updatesOf (e :: es)) := if_pos Std.ExtTreeMap.isEmpty_empty
      simp only [List.head?_cons, Option.mem_some_iff, forall_eq', List.tail_cons, setAll_nil]
      rw [← repeats_iff, hnone]
      constructor
      · intro h a b hsplit
        have hab := h (e :: a) b (by rw [hsplit]; rfl)
        rwa [hpages] at hab
      · intro h a b hsplit
        cases a with
        | nil => exact hnone
        | cons e' a =>
          obtain ⟨rfl, htail⟩ := List.cons.inj hsplit
          rw [hpages]
          exact h a b htail
  · next hpages =>
    -- there is always some page, and the second pass does nothing
    have hne : ∀ a, settlePages (setAll http (updatesOf es))
        (setAll (setAll http (updatesOf a)) own) = setAll (setAll http (updatesOf a)) own := by
      intro a
      refine if_neg fun hempty => hpages ?_
      have h := setAll_eq_empty_iff.mp (Std.ExtTreeMap.isEmpty_iff.mp hempty)
      exact ⟨(setAll_eq_empty_iff.mp h.1).1, h.2⟩
    have hhttp : settlePages (setAll http (updatesOf es)) (setAll http own) = setAll http own :=
      hne []
    rw [← keeps_iff, hhttp]
    exact forall₂_congr fun a b => imp_congr_right fun _ => by rw [hne]

end Webserv
