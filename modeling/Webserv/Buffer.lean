import Webserv.Cgi.Job

/-!
# The byte buffer

`Buffer` keeps its bytes in a `std::vector<char>` behind an offset: `consume` only moves the
offset, and the bytes in front of it are dropped later, when they are half of the storage.  The
rest of this development knows a buffer as the queue of its readable bytes; this module has the
class itself, with the offset, the capacity and the ways in which a call may fail to return.

Sizes are `size_t`.  No sum of sizes that are in memory reaches 2 ^ 64, but a difference may be
negative, and then it wraps: `sizeT`.
-/

namespace Webserv

open Bytes

/-- The value of a `size_t` expression that would be `z`. -/
def sizeT (z : ℤ) : ℕ := if 0 ≤ z then z.toNat else (z + 2 ^ 64).toNat

theorem sizeT_of_nonneg {z : ℤ} (h : 0 ≤ z) : sizeT z = z.toNat := if_pos h

/-! ### The storage -/

/-- What the standard leaves open of a `std::vector`: the capacity after a reallocation. -/
structure Allocator where
  /-- From the old capacity and the one that is needed. -/
  grow : ℕ → ℕ → ℕ
  le_grow : ∀ cap needed, needed ≤ grow cap needed

/-- An allocator that gives what is needed and no more. -/
def Allocator.exact : Allocator := ⟨fun _ needed => needed, fun _ _ => le_rfl⟩

/-- A `std::vector<char>`. -/
structure Storage where
  bytes : Bytes
  capacity : ℕ
  fits : bytes.length ≤ capacity

namespace Storage

variable {A : Allocator}

/-- A vector that nothing has been put into. -/
def empty : Storage := ⟨[], 0, le_rfl⟩

/-- `size` of `std::vector`. -/
def size (v : Storage) : ℕ := v.bytes.length

/-- `reserve`; it never lowers the capacity. -/
def reserve (A : Allocator) (v : Storage) (n : ℕ) : Storage :=
  if h : n ≤ v.capacity then v
  else ⟨v.bytes, A.grow v.capacity n,
    v.fits.trans ((Nat.le_of_not_le h).trans (A.le_grow v.capacity n))⟩

/-- `resize` to make room, and `memcpy` into it. -/
def push (A : Allocator) (v : Storage) (src : Bytes) : Storage :=
  ⟨v.bytes ++ src, (v.reserve A (v.size + src.length)).capacity, by
    unfold reserve size
    split
    · rwa [List.length_append]
    · rw [List.length_append]
      exact A.le_grow _ _⟩

/-- `memmove` of what is behind the first `n` bytes, and `resize` to it. -/
def dropFront (v : Storage) (n : ℕ) : Storage :=
  ⟨v.bytes.drop n, v.capacity, by
    rw [List.length_drop]
    exact (Nat.sub_le _ _).trans v.fits⟩

@[simp] theorem bytes_reserve (v : Storage) (n : ℕ) : (v.reserve A n).bytes = v.bytes := by
  unfold reserve
  split <;> rfl

@[simp] theorem size_reserve (v : Storage) (n : ℕ) : (v.reserve A n).size = v.size :=
  congrArg List.length (bytes_reserve v n)

theorem le_capacity_reserve (v : Storage) (n : ℕ) : n ≤ (v.reserve A n).capacity := by
  unfold reserve
  split
  · assumption
  · exact A.le_grow _ _

theorem capacity_le_reserve (v : Storage) (n : ℕ) : v.capacity ≤ (v.reserve A n).capacity := by
  unfold reserve
  split
  · exact le_rfl
  · next h => exact (Nat.le_of_not_le h).trans (A.le_grow _ _)

end Storage

/-! ### The class -/

/-- Why a call neither returns nor throws. -/
inductive BufferFault where
  /-- A loop that does not end. -/
  | diverges
  /-- Memory outside the storage is read. -/
  | undefined
  deriving DecidableEq, Repr

/-- `Buffer`, with its storage, its `_head` and its limit. -/
structure Buffer where
  cmbs : ℕ
  storage : Storage
  head : ℕ

namespace Buffer

variable {A : Allocator}

/-- How much is reserved when there is nothing in the buffer. -/
def initialCapacity (cmbs : ℕ) : ℕ :=
  if 64 * 1024 > cmbs ∧ cmbs > 0 then cmbs else 64 * 1024

/-- `Buffer(client_max_body_size)`. -/
def new (A : Allocator) (cmbs : ℕ) : Buffer :=
  ⟨cmbs, Storage.empty.reserve A (initialCapacity cmbs), 0⟩

/-- `size`. -/
def size (b : Buffer) : ℕ := sizeT (b.storage.size - b.head)

/-- `empty`. -/
def empty (b : Buffer) : Bool := b.size = 0

/-- `data()[0..size())`. -/
def content (b : Buffer) : Bytes := (b.storage.bytes.drop b.head).take b.size

/-- `_compact`; with the offset behind the end of the storage it moves bytes that are not there. -/
def compact (b : Buffer) : Except BufferFault Buffer :=
  if b.head = 0 then .ok b
  else if b.storage.size < b.head then .error .undefined
  else .ok { b with storage := b.storage.dropFront b.head, head := 0 }

/-- What `append` and `consume` do when half of the storage lies before the offset. -/
def compactHalf (b : Buffer) : Except BufferFault Buffer :=
  if 0 < b.head ∧ b.storage.size / 2 ≤ b.head then b.compact else .ok b

/-- The loop of `_ensureCapacity`, with a bound on its rounds. -/
def doubling (cmbs needed : ℕ) : ℕ → ℕ → Option ℕ
  | 0, _ => none
  | n + 1, cap =>
      if cap < needed then
        if cmbs < cap * 2 then some cmbs else doubling cmbs needed n (cap * 2)
      else some cap

/-- `_ensureCapacity`; a capacity that is not doubled away by then never is. -/
def ensureCapacity (A : Allocator) (b : Buffer) (needed : ℕ) : Except BufferFault Buffer :=
  match doubling b.cmbs needed (needed + 1) b.storage.capacity with
  | none => .error .diverges
  | some cap => .ok { b with storage := b.storage.reserve A cap }

/-- `append` and `append_result`, which have different limits. -/
def appendUpTo (A : Allocator) (limit : ℕ) (b : Buffer) (src : Bytes) :
    Except BufferFault (Outcome Buffer Unit) :=
  if src.length = 0 then .ok (.ok b ())
  else if limit < sizeT (b.storage.size - b.head + src.length) then .ok (.bodyLimit b)
  else do
    let b ← b.compactHalf
    let b ← b.ensureCapacity A (b.storage.size + src.length)
    return .ok { b with storage := b.storage.push A src } ()

/-- `append`. -/
def append (A : Allocator) (b : Buffer) (src : Bytes) : Except BufferFault (Outcome Buffer Unit) :=
  b.appendUpTo A b.cmbs src

/-- `append_result`. -/
def appendResult (A : Allocator) (b : Buffer) (src : Bytes) :
    Except BufferFault (Outcome Buffer Unit) :=
  b.appendUpTo A limitRequestBody src

/-- `reset`. -/
def reset (A : Allocator) (b : Buffer) : Buffer := new A b.cmbs

/-- `consume`. -/
def consume (A : Allocator) (b : Buffer) (n : ℕ) : Except BufferFault Buffer := do
  let n : ℤ := if b.size ≤ n then b.storage.size - b.head else n
  let b ← compactHalf { b with head := sizeT (b.head + n) }
  return if b.head = b.storage.size then b.reset A else b

/-- `earase`. -/
def earase (b : Buffer) : Buffer := { b with storage := Storage.empty }

/-- `setMaxSize`. -/
def setMaxSize (b : Buffer) (n : ℕ) : Buffer := { b with cmbs := n }

/-! ### The doubling loop -/

/-- **The loop ends when there is a capacity to double**: every round adds one at least. -/
theorem doubling_isSome {cmbs needed : ℕ} : ∀ {n cap : ℕ}, 0 < n → 0 < cap →
    needed < n + cap → ∃ r, doubling cmbs needed n cap = some r := by
  intro n
  induction n with
  | zero => exact fun h => absurd h (lt_irrefl 0)
  | succ n ih =>
    intro cap _ hpos hn
    rw [doubling]
    split
    · split
      · exact ⟨_, rfl⟩
      · exact ih (by omega) (by omega) (by omega)
    · exact ⟨_, rfl⟩

/-- Without a capacity it goes on for ever. -/
theorem doubling_zero {cmbs needed : ℕ} (h : 0 < needed) :
    ∀ n, doubling cmbs needed n 0 = none := by
  intro n
  induction n with
  | zero => rfl
  | succ n ih => rw [doubling, if_pos h, Nat.zero_mul, if_neg (Nat.not_lt_zero _), ih]

/-- The bound in `ensureCapacity` cuts no loop that ends. -/
theorem doubling_eq_none {cmbs needed cap : ℕ} (h : doubling cmbs needed (needed + 1) cap = none) :
    ∀ n, doubling cmbs needed n cap = none := by
  rcases Nat.eq_zero_or_pos cap with rfl | hpos
  · rcases Nat.eq_zero_or_pos needed with rfl | hneeded
    · cases h
    · exact doubling_zero hneeded
  · obtain ⟨r, hr⟩ := doubling_isSome (n := needed + 1) (Nat.succ_pos _) hpos
      (show needed < needed + 1 + _ by omega)
    rw [hr] at h
    cases h

theorem ensureCapacity_of_pos {b : Buffer} (h : 0 < b.storage.capacity) (needed : ℕ) :
    ∃ cap, b.ensureCapacity A needed = .ok { b with storage := b.storage.reserve A cap } := by
  obtain ⟨cap, hcap⟩ :=
    doubling_isSome (n := needed + 1) (Nat.succ_pos _) h (show needed < needed + 1 + _ by omega)
  exact ⟨cap, by rw [ensureCapacity, hcap]⟩

theorem ensureCapacity_of_zero {b : Buffer} (h : b.storage.capacity = 0) {needed : ℕ}
    (hneeded : 0 < needed) : b.ensureCapacity A needed = .error .diverges := by
  rw [ensureCapacity, h, doubling_zero hneeded]

/-! ### What the calls do with the offset in bounds -/

/-- The readable bytes and the limit. -/
def toFifo (b : Buffer) : ByteQueue := ⟨b.storage.bytes.drop b.head, b.cmbs⟩

/-- The offset is in bounds, and there is a capacity. -/
structure Sound (b : Buffer) : Prop where
  head_le : b.head ≤ b.storage.size
  capacity_pos : 0 < b.storage.capacity

section

variable {b : Buffer}

theorem size_of_le (h : b.head ≤ b.storage.size) : b.size = b.storage.size - b.head := by
  unfold size
  rw [sizeT_of_nonneg (by omega)]
  omega

theorem size_eq_toFifo (h : b.head ≤ b.storage.size) : b.size = b.toFifo.size := by
  rw [size_of_le h, toFifo, Fifo.size_eq, List.length_drop]
  rfl

theorem content_eq_toFifo (h : b.head ≤ b.storage.size) : b.content = b.toFifo.items := by
  rw [content, size_eq_toFifo h]
  exact List.take_length

theorem initialCapacity_pos (cmbs : ℕ) : 0 < initialCapacity cmbs := by
  unfold initialCapacity
  split <;> omega

theorem sound_new (cmbs : ℕ) : (new A cmbs).Sound where
  head_le := Nat.zero_le _
  capacity_pos := (initialCapacity_pos cmbs).trans_le (Storage.le_capacity_reserve _ _)

theorem toFifo_new (cmbs : ℕ) : (new A cmbs).toFifo = Fifo.new cmbs := by
  unfold new toFifo
  rw [Storage.bytes_reserve]
  rfl

/-- Compaction is invisible. -/
theorem compactHalf_spec (h : b.head ≤ b.storage.size) : ∃ b', b.compactHalf = .ok b' ∧
    b'.head ≤ b'.storage.size ∧ b'.toFifo = b.toFifo ∧
      b'.storage.capacity = b.storage.capacity := by
  unfold compactHalf
  split
  · next hhalf =>
    unfold compact
    rw [if_neg hhalf.1.ne', if_neg (Nat.not_lt.mpr h)]
    exact ⟨_, rfl, Nat.zero_le _, rfl, rfl⟩
  · exact ⟨b, rfl, h, rfl, rfl⟩

theorem compactHalf_of_zero (h : b.head = 0) : b.compactHalf = .ok b := by
  unfold compactHalf
  rw [if_neg (by omega)]

theorem compactHalf_beyond (h : b.storage.size < b.head) :
    b.compactHalf = .error .undefined := by
  unfold compactHalf compact
  rw [if_pos (by omega), if_neg (by omega), if_pos h]

/-- An append of nothing. -/
theorem appendUpTo_nil (limit : ℕ) : b.appendUpTo A limit [] = .ok (.ok b ()) := rfl

theorem appendUpTo_refused (h : b.head ≤ b.storage.size) {limit : ℕ} {src : Bytes} (hsrc : src ≠ [])
    (hroom : limit < b.size + src.length) : b.appendUpTo A limit src = .ok (.bodyLimit b) := by
  have hlen := List.length_pos_of_ne_nil hsrc
  rw [size_of_le h] at hroom
  unfold appendUpTo
  rw [if_neg hlen.ne', if_pos (by rw [sizeT_of_nonneg (by omega)]; omega)]

theorem appendUpTo_ok (h : b.Sound) {limit : ℕ} {src : Bytes} (hsrc : src ≠ [])
    (hroom : b.size + src.length ≤ limit) : ∃ b', b.appendUpTo A limit src = .ok (.ok b' ()) ∧
      b'.Sound ∧ b'.toFifo = b.toFifo.push src ∧ b.storage.capacity ≤ b'.storage.capacity := by
  have hlen := List.length_pos_of_ne_nil hsrc
  have hle := h.head_le
  rw [size_of_le hle] at hroom
  obtain ⟨b₁, hcompact, hle₁, hfifo, hcap⟩ := compactHalf_spec hle
  obtain ⟨cap, hensure⟩ := ensureCapacity_of_pos (A := A) (b := b₁)
    (by rw [hcap]; exact h.capacity_pos)
    (b₁.storage.size + src.length)
  have hgrown := (Storage.capacity_le_reserve (A := A) b₁.storage cap).trans
    (Storage.capacity_le_reserve (A := A) (b₁.storage.reserve A cap)
      ((b₁.storage.reserve A cap).size + src.length))
  refine ⟨{ b₁ with storage := (b₁.storage.reserve A cap).push A src }, ?_, ⟨?_, ?_⟩, ?_, ?_⟩
  · unfold appendUpTo
    rw [if_neg hlen.ne', if_neg (by rw [sizeT_of_nonneg (by omega)]; omega), hcompact]
    show (b₁.ensureCapacity A (b₁.storage.size + src.length) >>= _) = _
    rw [hensure]
    rfl
  · show b₁.head ≤ ((b₁.storage.reserve A cap).bytes ++ src).length
    rw [Storage.bytes_reserve, List.length_append]
    exact hle₁.trans (Nat.le_add_right _ _)
  · exact (hcap ▸ h.capacity_pos : 0 < b₁.storage.capacity).trans_le hgrown
  · rw [← hfifo]
    show (⟨((b₁.storage.reserve A cap).bytes ++ src).drop b₁.head, b₁.cmbs⟩ : ByteQueue) = _
    rw [Storage.bytes_reserve, List.drop_append_of_le_length hle₁]
    rfl
  · rw [← hcap]
    exact hgrown

/-- **Behind `earase` no `append` returns**: it throws if the offset, which is still there,
makes the size too large for it, and otherwise there is no capacity to double, or nothing at the
offset to move. -/
theorem append_earase (b : Buffer) {src : Bytes} (hsrc : src ≠ []) : b.earase.append A src =
    if b.cmbs < sizeT (src.length - b.head) then .ok (.bodyLimit b.earase)
    else .error (if b.head = 0 then .diverges else .undefined) := by
  have hlen := List.length_pos_of_ne_nil hsrc
  have hsize : ((b.earase.storage.size : ℤ) - b.earase.head + src.length) =
      src.length - b.head := by
    show ((0 : ℕ) : ℤ) - b.head + src.length = _
    omega
  unfold append appendUpTo
  rw [if_neg hlen.ne', hsize]
  show (if b.cmbs < _ then _ else _) = _
  split
  · rfl
  · rcases Nat.eq_zero_or_pos b.head with hzero | hpos
    · have hcompact : b.earase.compactHalf = .ok b.earase := compactHalf_of_zero hzero
      have hneeded : 0 < b.earase.storage.size + src.length := by omega
      rw [if_pos hzero, hcompact]
      show (b.earase.ensureCapacity A (b.earase.storage.size + src.length) >>= _) = _
      rw [ensureCapacity_of_zero rfl hneeded]
      rfl
    · have hcompact : b.earase.compactHalf = .error .undefined := compactHalf_beyond hpos
      rw [if_neg hpos.ne', hcompact]
      rfl

/-- The offset moves over what is consumed, and not beyond the end. -/
theorem head_consume (h : b.head ≤ b.storage.size) (n : ℕ) :
    sizeT (b.head + if b.size ≤ n then (b.storage.size - b.head : ℤ) else n) =
      b.head + min n b.size := by
  rw [size_of_le h]
  split
  · rw [sizeT_of_nonneg (by omega)]
    omega
  · rw [sizeT_of_nonneg (by omega)]
    omega

/-- After `consume` there is always a capacity: a buffer that is emptied is reset. -/
theorem consume_spec (hle : b.head ≤ b.storage.size) (n : ℕ) : ∃ b', b.consume A n = .ok b' ∧
    b'.Sound ∧ b'.toFifo = b.toFifo.consume n := by
  have hsize := size_of_le hle
  obtain ⟨b₁, hcompact, hle₁, hfifo, -⟩ :=
    compactHalf_spec (b := { b with head := b.head + min n b.size })
      (show b.head + min n b.size ≤ b.storage.size by omega)
  have hitems : b.storage.bytes.drop (b.head + min n b.size) =
      (b.storage.bytes.drop b.head).drop n := by
    rw [← List.drop_drop, hsize]
    rcases Nat.le_total n (b.storage.size - b.head) with hn | hn
    · rw [Nat.min_eq_left hn]
    · have hlen : (b.storage.bytes.drop b.head).length = b.storage.size - b.head := List.length_drop
      rw [Nat.min_eq_right hn, List.drop_of_length_le hlen.le,
        List.drop_of_length_le (hlen.le.trans hn)]
  have hconsumed : b₁.toFifo = b.toFifo.consume n := by
    rw [hfifo, toFifo, hitems]
    rfl
  have heq : b.consume A n =
      .ok (if b₁.head = b₁.storage.size then b₁.reset A else b₁) := by
    unfold consume
    dsimp only
    rw [head_consume hle, hcompact]
    rfl
  refine ⟨_, heq, ?_, ?_⟩
  · split
    · exact sound_new _
    · next hpending =>
      have hpos : 0 < b₁.storage.size := by omega
      exact ⟨hle₁, hpos.trans_le b₁.storage.fits⟩
  · split
    · next hempty =>
      rw [← hconsumed, reset, toFifo_new, toFifo, hempty]
      exact congrArg (Fifo.mk · _) (List.drop_length ..).symm
    · exact hconsumed

end

end Buffer

end Webserv
