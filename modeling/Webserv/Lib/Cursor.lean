import Mathlib.Data.List.Basic
import Webserv.Lib.WhileLoop

/-!
# Reading a list with a cursor

A reader goes through a list with an index.  It ends with a result and a later index, with an
error of its own, with a read out of range, or not at all.  `Reads` says that it does one of the
first two, and what the piece is that it has read.

## Main results

* `Reads.bind` — one reader after the other.
* `whileReading_cases`, `reads_whileReading` — **a loop of readers reads a sequence**.
* `whileReading_flatMap` — what a loop makes of a sequence.
-/

namespace Cursor

universe v

variable {α ε : Type*} {σ τ τ' : Type v} {s : List α} {i j k : ℕ}

/-- How a reader ends without a result. -/
inductive Stop (ε : Type*) where
  | threw (e : ε)
  | outOfRange
  | stuck

/-- `s[i]`. -/
def tokenAt (s : List α) (i : ℕ) : Except (Stop ε) α :=
  match s[i]? with
  | some a => .ok a
  | none => .error .outOfRange

/-- `i < s.size() && p(s[i])`. -/
def test (s : List α) (p : α → Bool) (i : ℕ) : Except (Stop ε) Bool :=
  if i < s.length then (tokenAt s i).map p else .ok false

theorem tokenAt_eq {a : α} (h : s[i]? = some a) : tokenAt (ε := ε) s i = .ok a := by
  rw [tokenAt, h]

theorem test_eq (p : α → Bool) : test (ε := ε) s p i = .ok (s[i]?.any p) := by
  unfold test
  split
  · next hlt =>
    rw [tokenAt_eq (List.getElem?_eq_getElem hlt), List.getElem?_eq_getElem hlt]
    rfl
  · next hge =>
    rw [List.getElem?_eq_none (Nat.not_lt.mp hge)]
    rfl

/-- A result at an index, or the error. -/
def atCursor (j : ℕ) : Except ε τ → Except (Stop ε) (τ × ℕ)
  | .ok t => .ok (t, j)
  | .error e => .error (.threw e)

theorem atCursor_eq_ok_iff {t : τ} {j k : ℕ} {c : Except ε τ} :
    atCursor j c = .ok (t, k) ↔ c = .ok t ∧ j = k := by
  cases c with
  | ok t' => simp [atCursor]
  | error e => simp [atCursor]

/-! ### Pieces -/

/-- `seg` is the piece of `s` from `i` to `j`. -/
def Span (s : List α) (i j : ℕ) (seg : List α) : Prop := i + seg.length = j ∧ seg <+: s.drop i

theorem Span.nil (s : List α) (i : ℕ) : Span s i i [] := ⟨rfl, List.nil_prefix⟩

theorem Span.single {a : α} (h : s[i]? = some a) : Span s i (i + 1) [a] := by
  refine ⟨rfl, ?_⟩
  obtain ⟨hlt, rfl⟩ := List.getElem?_eq_some_iff.mp h
  rw [List.drop_eq_getElem_cons hlt]
  exact List.prefix_append [s[i]] _

theorem Span.between (front seg back : List α) :
    Span (front ++ seg ++ back) front.length (front.length + seg.length) seg := by
  refine ⟨rfl, ?_⟩
  rw [List.append_assoc, List.drop_left]
  exact List.prefix_append seg back

theorem Span.append {u v : List α} (hu : Span s i j u) (hv : Span s j k v) :
    Span s i k (u ++ v) := by
  obtain ⟨rfl, w, hw⟩ := hu
  obtain ⟨rfl, hv⟩ := hv
  refine ⟨by rw [List.length_append, Nat.add_assoc], ?_⟩
  rw [← List.drop_drop, ← hw, List.drop_left] at hv
  rw [← hw]
  exact (List.prefix_append_right_inj u).mpr hv

theorem Span.le {u : List α} (h : Span s i j u) (hi : i ≤ s.length) : j ≤ s.length := by
  have hlength := h.2.length_le
  rw [List.length_drop] at hlength
  have hj := h.1
  omega

theorem Span.left {u v : List α} (h : Span s i j (u ++ v)) : Span s i (i + u.length) u :=
  ⟨rfl, (List.prefix_append u v).trans h.2⟩

theorem Span.right {u v : List α} (h : Span s i j (u ++ v)) : Span s (i + u.length) j v := by
  obtain ⟨hj, w, hw⟩ := h
  refine ⟨by rw [← hj, List.length_append, Nat.add_assoc], ?_⟩
  rw [← List.drop_drop, ← hw, List.append_assoc, List.drop_left]
  exact List.prefix_append v w

theorem Span.head {a : α} {u : List α} (h : Span s i j (a :: u)) : s[i]? = some a := by
  obtain ⟨-, w, hw⟩ := h
  rw [List.cons_append] at hw
  rw [← List.head?_drop, ← hw, List.head?_cons]

theorem Span.tail {a : α} {u : List α} (h : Span s i j (a :: u)) : Span s (i + 1) j u :=
  h.right (u := [a])

/-! ### Readers -/

/-- **What a reader does from `i` on**: it throws, or has read a piece that is related to its
result by `G`.  It does not read out of range, and comes to an end. -/
inductive Reads (s : List α) (i : ℕ) (G : List α → τ → Prop) : Except (Stop ε) (τ × ℕ) → Prop where
  | threw (e : ε) : Reads s i G (.error (.threw e))
  | ok {t : τ} {j : ℕ} {u : List α} : Span s i j u → G u t → Reads s i G (.ok (t, j))

variable {G : List α → τ → Prop} {G' : List α → τ' → Prop}

theorem Reads.imp {G₂ : List α → τ → Prop} {r : Except (Stop ε) (τ × ℕ)} (h : Reads s i G r)
    (hG : ∀ u t, G u t → G₂ u t) : Reads s i G₂ r := by
  cases h with
  | threw e => exact .threw e
  | ok hspan ht => exact .ok hspan (hG _ _ ht)

/-- What is read is in the sequence. -/
theorem Reads.mem {r : Except (Stop ε) (τ × ℕ)} (h : Reads s i G r) :
    Reads s i (fun u t => G u t ∧ ∀ a ∈ u, a ∈ s) r := by
  cases h with
  | threw e => exact .threw e
  | ok hspan hu =>
    exact .ok hspan ⟨hu, fun a ha => List.mem_of_mem_drop (hspan.2.subset ha)⟩

/-- **One reader after the other.** -/
theorem Reads.bind {r : Except (Stop ε) (τ × ℕ)} {f : τ × ℕ → Except (Stop ε) (τ' × ℕ)}
    (hi : i ≤ s.length) (hr : Reads s i G r)
    (hf : ∀ t j u, j ≤ s.length → Span s i j u → G u t →
      Reads s j (fun v t' => G' (u ++ v) t') (f (t, j))) : Reads s i G' (r >>= f) := by
  cases hr with
  | threw e => exact .threw e
  | @ok t j u hspan ht =>
    have hnext := hf t j u (hspan.le hi) hspan ht
    change Reads s i G' (f (t, j))
    generalize f (t, j) = r' at hnext ⊢
    cases hnext with
    | threw e => exact .threw e
    | ok hspan' ht' => exact .ok (hspan.append hspan') ht'

/-- A reader that starts behind a piece. -/
theorem Reads.after {r : Except (Stop ε) (τ × ℕ)} {u : List α} (hspan : Span s i j u)
    (hr : Reads s j (fun v t => G (u ++ v) t) r) : Reads s i G r := by
  cases hr with
  | threw e => exact .threw e
  | ok hspan' ht => exact .ok (hspan.append hspan') ht

/-- A check that reads nothing. -/
theorem Reads.check {c : Except (Stop ε) σ} {f : σ → Except (Stop ε) (τ × ℕ)}
    (hc : (∃ a, c = .ok a ∧ Reads s i G (f a)) ∨ ∃ e, c = .error (.threw e)) :
    Reads s i G (c >>= f) := by
  rcases hc with ⟨a, rfl, hf⟩ | ⟨e, rfl⟩
  · exact hf
  · exact .threw e

/-! ### Loops -/

/-- One round of `whileReading`. -/
def round (stop : α → Bool) (item : α → σ → ℕ → Except (Stop ε) (σ × ℕ)) (s : List α)
    (x : σ × ℕ) : (σ × ℕ) ⊕ Except (Stop ε) (σ × ℕ) :=
  if x.2 < s.length then
    match tokenAt s x.2 with
    | .error e => .inr (.error e)
    | .ok a =>
      if stop a then .inr (.ok x)
      else
        match item a x.1 x.2 with
        | .error e => .inr (.error e)
        | .ok y => .inl y
  else .inr (.ok x)

/-- `while (i < s.size() && !stop(s[i]))`, with a state beside the index. -/
def whileReading (stop : α → Bool) (item : α → σ → ℕ → Except (Stop ε) (σ × ℕ)) (s : List α)
    (x : σ × ℕ) : Except (Stop ε) (σ × ℕ) :=
  WhileLoop.loop (fun x => s.length - x.2) (round stop item s) (fun _ => .error .stuck) x

/-- A sequence of items, with the states in front of and behind it. -/
inductive Items (Item : List α → σ → σ → Prop) : List α → σ → σ → Prop where
  | nil (t : σ) : Items Item [] t t
  | cons {u v : List α} {t t' t'' : σ} : Item u t t' → Items Item v t' t'' →
      Items Item (u ++ v) t t''

/-- The readers of the items of a loop, which read something each. -/
def ReadsItems (stop : α → Bool) (item : α → σ → ℕ → Except (Stop ε) (σ × ℕ)) (s : List α)
    (Item : List α → σ → σ → Prop) : Prop :=
  ∀ a t i, s[i]? = some a → stop a = false →
    Reads s i (fun u t' => u ≠ [] ∧ Item u t t') (item a t i)

variable {stop : α → Bool} {item : α → σ → ℕ → Except (Stop ε) (σ × ℕ)}
  {Item : List α → σ → σ → Prop}

/-- What a round can do. -/
theorem round_cases (h : ReadsItems stop item s Item) (t : σ) (hi : i ≤ s.length) :
    ((∀ a, s[i]? = some a → stop a = true) ∧ round stop item s (t, i) = .inr (.ok (t, i))) ∨
      (∃ e, round stop item s (t, i) = .inr (.error (.threw e))) ∨
        ∃ t' j u, i < j ∧ j ≤ s.length ∧ Span s i j u ∧ Item u t t' ∧
          round stop item s (t, i) = .inl (t', j) := by
  by_cases hlt : i < s.length
  · have hsome := List.getElem?_eq_getElem hlt
    rw [round, if_pos hlt, tokenAt_eq hsome]
    dsimp only
    cases hstop : stop s[i] with
    | true =>
      refine .inl ⟨fun a ha => ?_, rfl⟩
      rw [hsome, Option.some.injEq] at ha
      exact ha ▸ hstop
    | false =>
      right
      have hreads := h s[i] t i hsome hstop
      generalize item s[i] t i = r at hreads ⊢
      cases hreads with
      | threw e => exact .inl ⟨e, rfl⟩
      | @ok t' j u hspan hu =>
        have hpos := List.length_pos_of_ne_nil hu.1
        have hj := hspan.1
        exact .inr ⟨t', j, u, by omega, hspan.le hi, hspan, hu.2, rfl⟩
  · refine .inl ⟨fun a ha => ?_, by rw [round, if_neg hlt]⟩
    exact absurd (List.getElem?_eq_some_iff.mp ha).1 hlt

/-- Every round brings the index nearer to the end. -/
theorem decreasing_round (h : ReadsItems stop item s Item) :
    WhileLoop.Decreasing (fun x => s.length - x.2) (round stop item s) := by
  rintro ⟨t, i⟩ ⟨t', j⟩ hround
  by_cases hi : i < s.length
  · rcases round_cases h t (Nat.le_of_lt hi) with
      ⟨-, hr⟩ | ⟨e, hr⟩ | ⟨t₂, j₂, u, hlt, hle, -, -, hr⟩
    · rw [hr] at hround
      cases hround
    · rw [hr] at hround
      cases hround
    · rw [hr] at hround
      cases hround
      dsimp only
      omega
  · rw [round, if_neg hi] at hround
    cases hround

/-- What a loop of readers can do: it throws, or stands behind a sequence, at a symbol that stops it
or at the end. -/
theorem whileReading_cases (h : ReadsItems stop item s Item) (t : σ) (hi : i ≤ s.length) :
    (∃ e, whileReading stop item s (t, i) = .error (.threw e)) ∨
      ∃ t' j u, whileReading stop item s (t, i) = .ok (t', j) ∧ Span s i j u ∧ Items Item u t t' ∧
        ∀ a, s[j]? = some a → stop a = true := by
  have hloop := @WhileLoop.loop_induction _ _ _ _ (fun _ => .error .stuck) (decreasing_round h)
    (fun x r => x.2 ≤ s.length → (∃ e, r = .error (.threw e)) ∨
      ∃ t' j u, r = .ok (t', j) ∧ Span s x.2 j u ∧ Items Item u x.1 t' ∧
        ∀ a, s[j]? = some a → stop a = true) ?_ ?_ (t, i)
  · exact hloop hi
  · -- the loop leaves
    rintro ⟨t, i⟩ r hround hi
    rcases round_cases h t hi with ⟨hstop, hr⟩ | ⟨e, hr⟩ | ⟨_, _, _, -, -, -, -, hr⟩
    · rw [hr] at hround
      cases hround
      exact .inr ⟨t, i, [], rfl, Span.nil s i, .nil t, hstop⟩
    · rw [hr] at hround
      cases hround
      exact .inl ⟨e, rfl⟩
    · rw [hr] at hround
      cases hround
  · -- an item has been read
    rintro ⟨t, i⟩ ⟨t', j⟩ hround hrest hi
    rcases round_cases h t hi with ⟨-, hr⟩ | ⟨e, hr⟩ | ⟨t₂, j₂, u, -, hle, hspan, hu, hr⟩
    · rw [hr] at hround
      cases hround
    · rw [hr] at hround
      cases hround
    · rw [hr] at hround
      cases hround
      rcases hrest hle with hthrew | ⟨t₃, j₃, v, hv, hspan', hitems, hstop⟩
      · exact .inl hthrew
      · exact .inr ⟨t₃, j₃, u ++ v, hv, hspan.append hspan', .cons hu hitems, hstop⟩

/-- **A loop of readers reads a sequence.** -/
theorem reads_whileReading (h : ReadsItems stop item s Item) (t : σ) (hi : i ≤ s.length) :
    Reads s i (fun u t' => Items Item u t t') (whileReading stop item s (t, i)) := by
  rcases whileReading_cases h t hi with ⟨e, hr⟩ | ⟨t', j, u, hr, hspan, hitems, -⟩
  · exact hr ▸ .threw e
  · exact hr ▸ .ok hspan hitems

/-! ### What is made of a sequence -/

/-- **What a loop makes of a sequence**, where each reader makes `sem` of its part. -/
theorem whileReading_flatMap {π : Type*} {render : π → List α} (sem : σ → π → Except ε σ)
    (h : ReadsItems stop item s Item)
    (hitem : ∀ p t i j, Span s i j (render p) →
      ∃ a, s[i]? = some a ∧ stop a = false ∧ item a t i = atCursor j (sem t p)) {b : α}
    (hb : stop b = true) :
    ∀ (ps : List π) (t : σ) (i : ℕ), Span s i j (ps.flatMap render) → s[j]? = some b →
      whileReading stop item s (t, i) = atCursor j (ps.foldlM sem t) := by
  intro ps
  induction ps with
  | nil =>
    intro t i hspan hj
    obtain rfl : i = j := hspan.1
    have hlt := (List.getElem?_eq_some_iff.mp hj).1
    -- the cursor stands at what ends the items
    have hround : round stop item s (t, i) = .inr (.ok (t, i)) := by
      rw [round, if_pos hlt, tokenAt_eq hj]
      dsimp only
      rw [if_pos hb]
    exact WhileLoop.loop_inr hround
  | cons p ps ih =>
    intro t i hspan hj
    rw [List.flatMap_cons] at hspan
    obtain ⟨a, ha, hstop, hread⟩ := hitem p t i _ hspan.left
    have hlt := (List.getElem?_eq_some_iff.mp ha).1
    rw [List.foldlM_cons]
    cases hsem : sem t p with
    | error e =>
      have hround : round stop item s (t, i) = .inr (.error (.threw e)) := by
        rw [round, if_pos hlt, tokenAt_eq ha]
        dsimp only
        rw [hstop, if_neg Bool.false_ne_true, hread, hsem]
        rfl
      exact WhileLoop.loop_inr hround
    | ok t' =>
      -- the item is read, and the rest from behind it
      have hround : round stop item s (t, i) = .inl (t', i + (render p).length) := by
        rw [round, if_pos hlt, tokenAt_eq ha]
        dsimp only
        rw [hstop, if_neg Bool.false_ne_true, hread, hsem]
        rfl
      rw [whileReading, WhileLoop.loop_inl (decreasing_round h) hround]
      exact ih t' _ hspan.right hj

end Cursor
