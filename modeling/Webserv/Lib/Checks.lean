import Mathlib.Data.List.Forall2
import Mathlib.Data.List.Nodup

/-!
# Sequences of checks

A computation that checks its input stops at the first error.  Where it comes to its end, all the
checks have been passed.

## Main results

* `bind_eq_ok_iff`, `forM_eq_ok_iff`, `mapM_eq_ok_iff` — what has been passed when a sequence of
  checks is through.
* `eachOnce_eq_ok_iff` — **the elements of a list, which have to be told apart.**
* `Ensures.bind`, `Ensures.foldlM` — **postconditions**, of one step and of a loop of steps.
-/

namespace Checks

variable {ε α β κ : Type}

theorem bind_eq_ok_iff {c : Except ε α} {f : α → Except ε β} {b : β} :
    c >>= f = .ok b ↔ ∃ a, c = .ok a ∧ f a = .ok b := by
  cases c with
  | error e => exact ⟨nofun, nofun⟩
  | ok a =>
    refine ⟨fun h => ⟨a, rfl, h⟩, ?_⟩
    rintro ⟨a', ha, h⟩
    cases ha
    exact h

/-- A check, with what is wrong when it fails. -/
def require (p : Bool) (e : ε) : Except ε Unit := if p then .ok () else .error e

@[simp] theorem require_eq_ok_iff {p : Bool} {e : ε} : require p e = .ok () ↔ p = true := by
  unfold require
  split <;> simp_all

/-- Something behind a check. -/
theorem check_bind_eq_ok_iff {c : Except ε Unit} {f : Unit → Except ε β} {b : β} :
    c >>= f = .ok b ↔ c = .ok () ∧ f () = .ok b := by
  rw [bind_eq_ok_iff]
  exact ⟨fun ⟨_, hc, h⟩ => ⟨hc, h⟩, fun ⟨hc, h⟩ => ⟨(), hc, h⟩⟩

theorem forM_eq_ok_iff {f : α → Except ε Unit} : ∀ {xs : List α},
    xs.forM f = .ok () ↔ ∀ x ∈ xs, f x = .ok ()
  | [] => iff_of_true rfl fun x hx => absurd hx List.not_mem_nil
  | x :: xs => by
    change (f x >>= fun _ => xs.forM f) = .ok () ↔ _
    rw [check_bind_eq_ok_iff, List.forall_mem_cons, forM_eq_ok_iff]

theorem mapM_eq_ok_iff {f : α → Except ε β} : ∀ {xs : List α} {ys : List β},
    xs.mapM f = .ok ys ↔ List.Forall₂ (fun x y => f x = .ok y) xs ys
  | [], ys => by
    rw [List.mapM_nil, List.forall₂_nil_left_iff]
    exact ⟨fun h => (Except.ok.inj h).symm, fun h => congrArg Except.ok h.symm⟩
  | x :: xs, ys => by
    rw [List.mapM_cons, bind_eq_ok_iff, List.forall₂_cons_left_iff]
    constructor
    · rintro ⟨y, hy, h⟩
      obtain ⟨zs, hzs, h⟩ := bind_eq_ok_iff.mp h
      exact ⟨y, zs, hy, mapM_eq_ok_iff.mp hzs, (Except.ok.inj h).symm⟩
    · rintro ⟨y, zs, hy, hzs, rfl⟩
      exact ⟨y, hy, bind_eq_ok_iff.mpr ⟨zs, mapM_eq_ok_iff.mpr hzs, rfl⟩⟩

/-- What is made of a list element by element. -/
theorem forall₂_iff_map {P : α → Prop} {g : α → β} {xs : List α} {ys : List β} :
    List.Forall₂ (fun x y => P x ∧ y = g x) xs ys ↔ (∀ x ∈ xs, P x) ∧ ys = xs.map g := by
  constructor
  · intro h
    induction h with
    | nil => exact ⟨by simp, rfl⟩
    | cons hx _ ih =>
      obtain ⟨hall, rfl⟩ := ih
      exact ⟨List.forall_mem_cons.mpr ⟨hx.1, hall⟩, by rw [hx.2, List.map_cons]⟩
  · rintro ⟨hall, rfl⟩
    rw [List.forall₂_map_right_iff, List.forall₂_same]
    exact fun x hx => ⟨hall x hx, rfl⟩

theorem mapM_eq_ok_iff_map {f : α → Except ε β} {P : α → Prop} {g : α → β}
    (hf : ∀ x y, f x = .ok y ↔ P x ∧ y = g x) {xs : List α} {ys : List β} :
    xs.mapM f = .ok ys ↔ (∀ x ∈ xs, P x) ∧ ys = xs.map g := by
  simp only [mapM_eq_ok_iff, hf, forall₂_iff_map]

/-! ### Elements that are told apart -/

/-- Each element is checked, and none may have the key of one in front of it; `seen` are the keys
that have been there. -/
def eachOnce [BEq κ] (key : α → κ) (twice : α → ε) (f : α → Except ε β) (seen : List κ) :
    List α → Except ε (List β)
  | [] => .ok []
  | x :: xs => do
    require (!seen.contains (key x)) (twice x)
    let y ← f x
    let ys ← eachOnce key twice f (key x :: seen) xs
    .ok (y :: ys)

variable [BEq κ] [LawfulBEq κ] {key : α → κ} {twice : α → ε} {f : α → Except ε β}

theorem eachOnce_eq_ok_iff {xs : List α} {ys : List β} : ∀ {seen : List κ},
    eachOnce key twice f seen xs = .ok ys ↔ (xs.map key).Nodup ∧ (∀ x ∈ xs, key x ∉ seen) ∧
      List.Forall₂ (fun x y => f x = .ok y) xs ys := by
  induction xs generalizing ys with
  | nil =>
    intro seen
    rw [eachOnce, List.forall₂_nil_left_iff]
    simp [eq_comm]
  | cons x xs ih =>
    intro seen
    rw [eachOnce, check_bind_eq_ok_iff, require_eq_ok_iff, bind_eq_ok_iff,
      List.forall₂_cons_left_iff, List.map_cons, List.nodup_cons, List.forall_mem_cons]
    have hnew : (!seen.contains (key x)) = true ↔ key x ∉ seen := by simp
    have hseen : (∀ a ∈ xs, key a ∉ key x :: seen) ↔
        key x ∉ xs.map key ∧ ∀ a ∈ xs, key a ∉ seen := by
      simp only [List.mem_cons, not_or, List.mem_map, not_exists, not_and, forall_and]
    constructor
    · rintro ⟨hx, y, hy, h⟩
      obtain ⟨zs, hzs, h⟩ := bind_eq_ok_iff.mp h
      obtain ⟨hnodup, hrest, hall⟩ := ih.mp hzs
      obtain ⟨hx', hrest⟩ := hseen.mp hrest
      exact ⟨⟨hx', hnodup⟩, ⟨hnew.mp hx, hrest⟩, y, zs, hy, hall, (Except.ok.inj h).symm⟩
    · rintro ⟨⟨hx', hnodup⟩, ⟨hx, hrest⟩, y, zs, hy, hall, rfl⟩
      refine ⟨hnew.mpr hx, y, hy, bind_eq_ok_iff.mpr ⟨zs, ?_, rfl⟩⟩
      exact ih.mpr ⟨hnodup, hseen.mpr ⟨hx', hrest⟩, hall⟩

/-- **The elements of a list**, where what is made of one is a function of it. -/
theorem eachOnce_eq_ok_iff_map {P : α → Prop} {g : α → β}
    (hf : ∀ x y, f x = .ok y ↔ P x ∧ y = g x) {xs : List α} {ys : List β} :
    eachOnce key twice f [] xs = .ok ys ↔
      (xs.map key).Nodup ∧ (∀ x ∈ xs, P x) ∧ ys = xs.map g := by
  simp only [eachOnce_eq_ok_iff, hf, forall₂_iff_map, List.not_mem_nil, not_false_iff,
    implies_true, true_and]

/-! ### Postconditions -/

/-- What comes out, if anything does, satisfies `P`. -/
def Ensures (P : α → Prop) (c : Except ε α) : Prop := ∀ a, c = .ok a → P a

namespace Ensures

variable {P : α → Prop} {Q : β → Prop}

theorem ok {a : α} (h : P a) : Ensures P (.ok a : Except ε α) := by
  rintro a' ⟨⟩
  exact h

theorem error (e : ε) : Ensures P (.error e) := nofun

theorem result (c : Except ε α) : Ensures (fun a => c = .ok a) c := fun _ h => h

theorem imp {P' : α → Prop} {c : Except ε α} (h : Ensures P c) (hP : ∀ a, P a → P' a) :
    Ensures P' c := fun a ha => hP a (h a ha)

theorem bind {c : Except ε α} {f : α → Except ε β} (h : Ensures P c)
    (hf : ∀ a, P a → Ensures Q (f a)) : Ensures Q (c >>= f) := by
  intro b hb
  obtain ⟨a, ha, hb⟩ := bind_eq_ok_iff.mp hb
  exact hf a (h a ha) b hb

theorem map {c : Except ε α} {f : α → β} (h : Ensures P c) (hf : ∀ a, P a → Q (f a)) :
    Ensures Q (c.map f) := by
  cases c with
  | error e => exact error e
  | ok a => exact ok (hf a (h a rfl))

theorem mapError {ε' : Type} {c : Except ε α} (h : Ensures P c) (f : ε → ε') :
    Ensures P (c.mapError f) := by
  cases c with
  | error e => exact error (f e)
  | ok a => exact ok (h a rfl)

theorem ite {p : Prop} [Decidable p] {c c' : Except ε α} (ht : p → Ensures P c)
    (hf : ¬ p → Ensures P c') : Ensures P (if p then c else c') := by
  split
  · next h => exact ht h
  · next h => exact hf h

/-- **What every step keeps**, a loop of steps keeps. -/
theorem foldlM {σ : Type} {f : σ → α → Except ε σ} {Inv : σ → Prop}
    (hstep : ∀ s a, Inv s → Ensures Inv (f s a)) :
    ∀ (xs : List α) {s : σ}, Inv s → Ensures Inv (xs.foldlM f s)
  | [], _, hs => .ok hs
  | x :: xs, s, hs => by
    rw [List.foldlM_cons]
    exact (hstep s x hs).bind fun t ht => foldlM hstep xs ht

end Ensures

end Checks
