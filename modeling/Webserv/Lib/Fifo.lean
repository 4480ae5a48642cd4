import Mathlib.Data.List.Basic

/-!
# A queue with a limit

A `Fifo` is the list of its items, oldest first, and the number of items it may
hold.  Items enter together or not at all: `append` refuses a block that would
take the queue over its limit and leaves it as it was, while the empty block
always passes.  `appendAll` appends blocks one after another up to the first
that is refused, which is what a sequence of appends amounts to when a refusal
ends it.
-/

/-- A first-in first-out queue that holds at most `limit` items. -/
@[ext] structure Fifo (α : Type*) where
  /-- The items, oldest first. -/
  items : List α
  /-- How many items may be held. -/
  limit : ℕ
  deriving DecidableEq, Repr

namespace Fifo

variable {α : Type*}

/-- The empty queue with a limit. -/
def new (limit : ℕ) : Fifo α := ⟨[], limit⟩

/-- How many items there are. -/
def size (q : Fifo α) : ℕ := q.items.length

/-- Nothing is queued. -/
def isEmpty (q : Fifo α) : Bool := q.items.isEmpty

/-- Append a block, or refuse it. -/
def append (q : Fifo α) (xs : List α) : Option (Fifo α) :=
  if xs = [] then some q
  else if q.size + xs.length > q.limit then none
  else some { q with items := q.items ++ xs }

/-- Append a block whatever the limit. -/
def push (q : Fifo α) (xs : List α) : Fifo α := { q with items := q.items ++ xs }

/-- Drop the `n` oldest items, or all when there are fewer. -/
def consume (q : Fifo α) (n : ℕ) : Fifo α := { q with items := q.items.drop n }

/-- Drop everything. -/
def clear (q : Fifo α) : Fifo α := { q with items := [] }

/-- The same items under another limit. -/
def setLimit (q : Fifo α) (limit : ℕ) : Fifo α := { q with limit := limit }

@[simp] theorem items_new (n : ℕ) : (new n : Fifo α).items = [] := rfl
@[simp] theorem limit_new (n : ℕ) : (new n : Fifo α).limit = n := rfl
@[simp] theorem items_push (q : Fifo α) (xs : List α) : (q.push xs).items = q.items ++ xs := rfl
@[simp] theorem limit_push (q : Fifo α) (xs : List α) : (q.push xs).limit = q.limit := rfl
@[simp] theorem items_consume (q : Fifo α) (n : ℕ) : (q.consume n).items = q.items.drop n := rfl
@[simp] theorem limit_consume (q : Fifo α) (n : ℕ) : (q.consume n).limit = q.limit := rfl
@[simp] theorem items_clear (q : Fifo α) : q.clear.items = [] := rfl
@[simp] theorem limit_clear (q : Fifo α) : q.clear.limit = q.limit := rfl
@[simp] theorem items_setLimit (q : Fifo α) (n : ℕ) : (q.setLimit n).items = q.items := rfl
@[simp] theorem limit_setLimit (q : Fifo α) (n : ℕ) : (q.setLimit n).limit = n := rfl
theorem size_eq (q : Fifo α) : q.size = q.items.length := rfl

@[simp] theorem size_push (q : Fifo α) (xs : List α) : (q.push xs).size = q.size + xs.length := by
  simp [size_eq]

@[simp] theorem size_consume (q : Fifo α) (n : ℕ) : (q.consume n).size = q.size - n := by
  simp [size_eq]

theorem length_take (q : Fifo α) {n : ℕ} (hn : n ≤ q.size) : (q.items.take n).length = n := by
  rw [size_eq] at hn
  rw [List.length_take, Nat.min_eq_left hn]

theorem isEmpty_iff (q : Fifo α) : q.isEmpty = true ↔ q.items = [] := List.isEmpty_iff

theorem push_push (q : Fifo α) (a b : List α) : (q.push a).push b = q.push (a ++ b) := by
  simp [push]

@[simp] theorem push_nil (q : Fifo α) : q.push [] = q := by simp [push]

/-- Consuming what is there leaves what was pushed behind it. -/
theorem consume_push (q : Fifo α) {n : ℕ} (b : List α) (hn : n ≤ q.size) :
    (q.push b).consume n = (q.consume n).push b := by
  ext1
  · rw [items_consume, items_push, items_push, items_consume,
      List.drop_append_of_le_length hn]
  · rfl

/-- A block is accepted exactly when it is empty or fits. -/
theorem append_eq_some_iff {q q' : Fifo α} {xs : List α} :
    q.append xs = some q' ↔ (xs = [] ∨ q.size + xs.length ≤ q.limit) ∧ q' = q.push xs := by
  unfold append
  split
  · next h => subst h; simp [eq_comm]
  · next h =>
    split
    · next hgt =>
      simp only [reduceCtorEq, false_iff, not_and]
      rintro (h' | h')
      · exact absurd h' h
      · omega
    · next hle => simp only [Option.some.injEq, push, h, false_or]; constructor
                  · rintro rfl; exact ⟨by omega, rfl⟩
                  · rintro ⟨-, rfl⟩; rfl

/-- **A block is refused exactly when it is not empty and does not fit.** -/
theorem append_eq_none_iff {q : Fifo α} {xs : List α} :
    q.append xs = none ↔ xs ≠ [] ∧ q.limit < q.size + xs.length := by
  unfold append
  split
  · next h => simp [h]
  · next h => split <;> simp_all

/-! ### Appending blocks up to the first refusal -/

/-- Append blocks in order up to the first one refused; the flag tells whether
all were accepted. -/
def appendAll : Fifo α → List (List α) → Fifo α × Bool
  | q, [] => (q, true)
  | q, xs :: blocks =>
      match q.append xs with
      | none => (q, false)
      | some q' => appendAll q' blocks

@[simp] theorem appendAll_nil (q : Fifo α) : q.appendAll [] = (q, true) := rfl

theorem appendAll_singleton_of_none {q : Fifo α} {xs : List α} (h : q.append xs = none) :
    q.appendAll [xs] = (q, false) := by
  simp [appendAll, h]

/-- What `appendAll` queues is a run of whole blocks from the front of the list;
it stops only at a block that does not fit behind them. -/
theorem appendAll_spec : ∀ (blocks : List (List α)) (q : Fifo α),
    ∃ done rest, blocks = done ++ rest ∧ (q.appendAll blocks).1 = q.push done.flatten ∧
      ((q.appendAll blocks).2 = true → rest = []) ∧
      ((q.appendAll blocks).2 = false →
        ∃ xs rest', rest = xs :: rest' ∧ (q.push done.flatten).append xs = none) := by
  intro blocks
  induction blocks with
  | nil => intro q; exact ⟨[], [], by simp⟩
  | cons xs blocks ih =>
    intro q
    rw [appendAll]
    cases hx : q.append xs with
    | none =>
      refine ⟨[], xs :: blocks, rfl, by simp, by simp, ?_⟩
      intro _
      exact ⟨xs, blocks, rfl, by simpa using hx⟩
    | some q' =>
      obtain ⟨-, rfl⟩ := append_eq_some_iff.mp hx
      obtain ⟨done, rest, hb, hq, ht, hf⟩ := ih (q.push xs)
      refine ⟨xs :: done, rest, by rw [hb]; rfl, ?_, ht, ?_⟩
      · rw [hq, push_push, List.flatten_cons]
      · intro hstop
        obtain ⟨ys, rest', hr, hn⟩ := hf hstop
        refine ⟨ys, rest', hr, ?_⟩
        rw [← hn, push_push, List.flatten_cons]

/-- When everything fits together, every block is accepted. -/
theorem appendAll_of_fits : ∀ (blocks : List (List α)) (q : Fifo α),
    q.size + blocks.flatten.length ≤ q.limit →
      q.appendAll blocks = (q.push blocks.flatten, true) := by
  intro blocks
  induction blocks with
  | nil => intro q _; simp
  | cons xs blocks ih =>
    intro q h
    rw [List.flatten_cons, List.length_append] at h
    have hx : q.append xs = some (q.push xs) :=
      append_eq_some_iff.mpr ⟨Or.inr (by omega), rfl⟩
    simp only [appendAll, hx]
    rw [ih (q.push xs) (by simp only [size_eq, items_push, List.length_append, limit_push] at h ⊢
                           omega), push_push, List.flatten_cons]

/-- Blocks never take a queue over its limit. -/
theorem size_appendAll_le : ∀ (blocks : List (List α)) (q : Fifo α),
    (q.appendAll blocks).1 = q ∨ (q.appendAll blocks).1.size ≤ q.limit := by
  intro blocks
  induction blocks with
  | nil => exact fun q => Or.inl rfl
  | cons xs blocks ih =>
    intro q
    rw [appendAll]
    cases hx : q.append xs with
    | none => exact Or.inl rfl
    | some q' =>
      obtain ⟨hfits, rfl⟩ := append_eq_some_iff.mp hx
      rcases hfits with rfl | hfits
      · rw [push_nil]
        exact ih q
      · rcases ih (q.push xs) with h | h
        · right
          simp only [h, size_push]
          exact hfits
        · exact Or.inr h

/-- **Everything is accepted exactly when it fits together.** -/
theorem appendAll_iff_fits {q : Fifo α} {blocks : List (List α)} (h : q.size ≤ q.limit) :
    (q.appendAll blocks).2 = true ↔ q.size + blocks.flatten.length ≤ q.limit := by
  constructor
  · intro hall
    obtain ⟨done, rest, hblocks, hq, htrue, -⟩ := appendAll_spec blocks q
    rw [htrue hall, List.append_nil] at hblocks
    have hsize : (q.appendAll blocks).1.size = q.size + blocks.flatten.length := by
      rw [hq, size_push, hblocks]
    rcases size_appendAll_le blocks q with heq | hle
    · rw [heq] at hsize
      omega
    · omega
  · intro hfits
    rw [appendAll_of_fits blocks q hfits]

/-! ### How much of it is accepted -/

/-- How many items of blocks that are appended one after another find room. -/
def admitted (room : ℕ) : List (List α) → ℕ
  | [] => 0
  | xs :: blocks =>
      if xs.length ≤ room then xs.length + admitted (room - xs.length) blocks else 0

/-- The room a queue has. -/
def room (q : Fifo α) : ℕ := q.limit - q.size

theorem appendAll_admitted : ∀ (blocks : List (List α)) (q : Fifo α),
    (q.appendAll blocks).1.size = q.size + admitted q.room blocks ∧
      ((q.appendAll blocks).2 = true ↔ admitted q.room blocks = blocks.flatten.length) := by
  intro blocks
  induction blocks with
  | nil => exact fun q => ⟨rfl, by simp [admitted]⟩
  | cons xs blocks ih =>
    intro q
    rw [appendAll, admitted, List.flatten_cons, List.length_append]
    cases hx : q.append xs with
    | none =>
      obtain ⟨hne, hlt⟩ := append_eq_none_iff.mp hx
      have hpos := List.length_pos_of_ne_nil hne
      have hroom : ¬ xs.length ≤ q.room := by
        unfold room
        omega
      rw [if_neg hroom]
      constructor
      · rfl
      · simp only [Bool.false_eq_true, false_iff]
        omega
    | some q' =>
      obtain ⟨hfits, rfl⟩ := append_eq_some_iff.mp hx
      have hroom : xs.length ≤ q.room := by
        unfold room
        rcases hfits with rfl | hfits
        · exact Nat.zero_le _
        · omega
      have hpush : (q.push xs).room = q.room - xs.length := by
        unfold room
        rw [limit_push, size_push]
        omega
      obtain ⟨hsize, hall⟩ := ih (q.push xs)
      rw [if_pos hroom, hsize, hall, hpush, size_push]
      constructor
      · omega
      · omega

/-- There is room for `n` items. -/
def Fits (q : Fifo α) (n : ℕ) : Prop := q.size + n ≤ q.limit

instance (q : Fifo α) (n : ℕ) : Decidable (q.Fits n) := inferInstanceAs (Decidable (_ ≤ _))

/-- Blocks that are not all empty are accepted exactly when they fit together. -/
theorem appendAll_iff_fits_of_ne_nil {q : Fifo α} {blocks : List (List α)}
    (h : blocks.flatten ≠ []) : (q.appendAll blocks).2 = true ↔ q.Fits blocks.flatten.length := by
  constructor
  · intro hall
    obtain ⟨done, rest, rfl, hq, htrue, -⟩ := appendAll_spec blocks q
    rw [htrue hall, List.append_nil] at hq h ⊢
    have hpos := List.length_pos_of_ne_nil h
    rcases size_appendAll_le done q with heq | hle
    · have hsize := congrArg size (hq.symm.trans heq)
      rw [size_push] at hsize
      omega
    · rwa [hq, size_push] at hle
  · intro hfits
    rw [appendAll_of_fits blocks q hfits]

/-- The blocks are accepted, all of them, or there is room for `n` items behind those that are. -/
def LeavesRoom (q : Fifo α) (blocks : List (List α)) (n : ℕ) : Prop :=
  admitted q.room blocks = blocks.flatten.length ∨ q.size + admitted q.room blocks + n ≤ q.limit

instance (q : Fifo α) (blocks : List (List α)) (n : ℕ) : Decidable (q.LeavesRoom blocks n) :=
  inferInstanceAs (Decidable (_ ∨ _))

theorem leavesRoom_of_true {q : Fifo α} {blocks : List (List α)}
    (h : (q.appendAll blocks).2 = true) (n : ℕ) : q.LeavesRoom blocks n :=
  Or.inl ((appendAll_admitted blocks q).2.mp h)

theorem leavesRoom_iff_of_false {q : Fifo α} {blocks : List (List α)}
    (h : (q.appendAll blocks).2 = false) (n : ℕ) :
    q.LeavesRoom blocks n ↔ (q.appendAll blocks).1.Fits n := by
  obtain ⟨hsize, hall⟩ := appendAll_admitted blocks q
  have hlimit : (q.appendAll blocks).1.limit = q.limit := by
    obtain ⟨done, _, _, hq, -⟩ := appendAll_spec blocks q
    rw [hq, limit_push]
  have hsome : admitted q.room blocks ≠ blocks.flatten.length := by
    intro heq
    rw [hall.mpr heq] at h
    cases h
  unfold LeavesRoom Fits
  rw [hsize, hlimit]
  exact or_iff_right hsome

theorem appendAll_singleton_of_fits {q : Fifo α} {xs : List α} (h : q.Fits xs.length) :
    q.appendAll [xs] = (q.push xs, true) := by
  have hall := appendAll_of_fits [xs] q (by rwa [List.flatten_singleton])
  rwa [List.flatten_singleton] at hall

theorem leavesRoom_singleton_iff {q : Fifo α} {xs : List α} (hxs : xs ≠ []) (n : ℕ) :
    q.LeavesRoom [xs] n ↔ q.Fits xs.length ∨ q.Fits n := by
  have hpos := List.length_pos_of_ne_nil hxs
  unfold LeavesRoom Fits
  rw [List.flatten_singleton, admitted, admitted, room]
  split
  · constructor <;> omega
  · constructor <;> omega

theorem appendAll_singleton_of_not_fits {q : Fifo α} {xs : List α} (hxs : xs ≠ [])
    (h : ¬ q.Fits xs.length) : q.appendAll [xs] = (q, false) :=
  appendAll_singleton_of_none (append_eq_none_iff.mpr ⟨hxs, Nat.lt_of_not_le h⟩)

end Fifo
