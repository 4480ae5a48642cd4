import Webserv.Lib.Run
import Webserv.Buffer

/-!
# Histories of a buffer

Any calls in any order on a new buffer.  Without `earase` a buffer is the queue of the bytes that
were appended and not consumed.  `earase` gives the storage away and keeps the offset: the size
is right behind it only when the offset was 0, and nothing can be appended before the buffer has
been reset.

## Main results

* `isBoundedFifo` — **a buffer is a bounded queue**, compaction and growth being invisible.
* `keepsSize_iff` — when the size stays well defined all along a history.
* `appendEnds_iff` — when appending ends.
-/

namespace Webserv

open Bytes

/-- A call of a method that changes the buffer. -/
inductive BufferOp where
  | append (src : Bytes)
  | appendResult (src : Bytes)
  | consume (n : ℕ)
  | earase
  | reset
  | setMaxSize (n : ℕ)
  deriving DecidableEq

namespace Buffer

variable {A : Allocator} {b b' : Buffer}

/-- What a call does. -/
def call (A : Allocator) (b : Buffer) : BufferOp → Except BufferFault (Outcome Buffer Unit)
  | .append src => b.append A src
  | .appendResult src => b.appendResult A src
  | .consume n => (b.consume A n).map (.ok · ())
  | .earase => .ok (.ok b.earase ())
  | .reset => .ok (.ok (b.reset A) ())
  | .setMaxSize n => .ok (.ok (b.setMaxSize n) ())

/-- The buffer when the call has returned or thrown; none when it does neither. -/
def next (A : Allocator) (s : Option Buffer) (op : BufferOp) : Option Buffer :=
  s.bind fun b => match b.call A op with
    | .ok o => some o.state
    | .error _ => none

/-- A history of a new buffer. -/
def run (A : Allocator) (cmbs : ℕ) (ops : List BufferOp) : Option Buffer :=
  ops.foldl (next A) (some (new A cmbs))

/-! ### The bounded queue -/

/-- What the calls are for: none when the call is to throw. -/
def queueCall (q : ByteQueue) : BufferOp → Option ByteQueue
  | .append src => q.append src
  | .appendResult src => Webserv.appendResult q src
  | .consume n => some (q.consume n)
  | .earase => some q.clear
  | .reset => some q.clear
  | .setMaxSize n => some (q.setLimit n)

/-- The queue of the bytes that were appended and not consumed; a call that throws leaves it. -/
def queueOf (cmbs : ℕ) (ops : List BufferOp) : ByteQueue :=
  ops.foldl (fun q op => (queueCall q op).getD q) (Fifo.new cmbs)

/-- The call throws. -/
def Throws (o : Except BufferFault (Outcome Buffer Unit)) : Prop := ∃ b, o = .ok (.bodyLimit b)

/-- The buffer `b` is the queue `q`. -/
structure IsFifo (A : Allocator) (b : Buffer) (q : ByteQueue) : Prop where
  head_le : b.head ≤ b.storage.size
  content : b.content = q.items
  size : b.size = q.items.length
  limit : b.cmbs = q.limit
  append_throws : ∀ src, src ≠ [] →
    (Throws (b.append A src) ↔ b.cmbs < b.size + src.length)
  appendResult_throws : ∀ src, src ≠ [] →
    (Throws (b.appendResult A src) ↔ limitRequestBody < b.size + src.length)
  /-- A call that throws leaves everything as it was. -/
  unchanged : ∀ op b', b.call A op = .ok (.bodyLimit b') → b' = b

theorem appendUpTo_throws_iff (h : b.Sound) {limit : ℕ} {src : Bytes} (hsrc : src ≠ []) :
    Throws (b.appendUpTo A limit src) ↔ limit < b.size + src.length := by
  constructor
  · rintro ⟨b', hb'⟩
    by_contra hroom
    obtain ⟨b₁, hok, -⟩ := appendUpTo_ok (A := A) h hsrc (Nat.not_lt.mp hroom)
    rw [hok] at hb'
    cases hb'
  · exact fun hroom => ⟨b, appendUpTo_refused h.head_le hsrc hroom⟩

theorem unchanged_appendUpTo {limit : ℕ} {src : Bytes}
    (h : b.appendUpTo A limit src = .ok (.bodyLimit b')) : b' = b := by
  unfold appendUpTo at h
  split at h
  · cases h
  · split at h
    · cases h
      rfl
    · cases hcompact : b.compactHalf with
      | error e => rw [hcompact] at h; cases h
      | ok b₁ =>
        rw [hcompact] at h
        change (b₁.ensureCapacity A (b₁.storage.size + src.length) >>= _) = _ at h
        cases hensure : b₁.ensureCapacity A (b₁.storage.size + src.length) with
        | error e => rw [hensure] at h; cases h
        | ok b₂ => rw [hensure] at h; cases h

theorem Sound.isFifo (h : b.Sound) : b.IsFifo A b.toFifo where
  head_le := h.head_le
  content := content_eq_toFifo h.head_le
  size := size_eq_toFifo h.head_le
  limit := rfl
  append_throws := fun _ => appendUpTo_throws_iff h
  appendResult_throws := fun _ => appendUpTo_throws_iff h
  unchanged := by
    intro op b' hcall
    cases op with
    | append src => exact unchanged_appendUpTo hcall
    | appendResult src => exact unchanged_appendUpTo hcall
    | consume n =>
      change (b.consume A n).map _ = _ at hcall
      cases hconsume : b.consume A n with
      | error e => rw [hconsume] at hcall; cases hcall
      | ok b₁ => rw [hconsume] at hcall; cases hcall
    | earase => cases hcall
    | reset => cases hcall
    | setMaxSize n => cases hcall

/-- An append to the queue under a limit. -/
def queueUpTo (limit : ℕ) (q : ByteQueue) (src : Bytes) : Option ByteQueue :=
  if src = [] then some q
  else if q.size + src.length > limit then none
  else some (q.push src)

/-- An append, under whichever limit, does what it does to the queue. -/
theorem next_appendUpTo (h : b.Sound) (limit : ℕ) (src : Bytes) :
    ∃ o, b.appendUpTo A limit src = .ok o ∧ o.state.Sound ∧
      o.state.toFifo = (queueUpTo limit b.toFifo src).getD b.toFifo := by
  unfold queueUpTo
  rcases eq_or_ne src [] with rfl | hsrc
  · exact ⟨_, appendUpTo_nil limit, h, rfl⟩
  · rw [if_neg hsrc, ← size_eq_toFifo h.head_le]
    split
    · next hroom => exact ⟨_, appendUpTo_refused h.head_le hsrc hroom, h, rfl⟩
    · next hroom =>
      obtain ⟨b', hok, hsound, hfifo, -⟩ := appendUpTo_ok (A := A) h hsrc (Nat.not_lt.mp hroom)
      exact ⟨_, hok, hsound, hfifo⟩

/-- **The buffer does what the queue does**, whatever it does to its storage. -/
theorem next_sound (h : b.Sound) {op : BufferOp} (hop : op ≠ .earase) :
    ∃ b', next A (some b) op = some b' ∧ b'.Sound ∧
      b'.toFifo = (queueCall b.toFifo op).getD b.toFifo := by
  cases op with
  | append src =>
    obtain ⟨o, hcall, hsound, hfifo⟩ := next_appendUpTo (A := A) h b.cmbs src
    exact ⟨o.state, by simp only [next, Option.bind_some, call, append, hcall], hsound, hfifo⟩
  | appendResult src =>
    obtain ⟨o, hcall, hsound, hfifo⟩ := next_appendUpTo (A := A) h limitRequestBody src
    exact ⟨o.state, by simp only [next, Option.bind_some, call, appendResult, hcall], hsound, hfifo⟩
  | consume n =>
    obtain ⟨b', hcall, hsound, hfifo⟩ := consume_spec (A := A) h.head_le n
    refine ⟨b', ?_, hsound, hfifo⟩
    simp only [next, Option.bind_some, call, hcall, Except.map, Outcome.state_ok]
  | earase => exact absurd rfl hop
  | reset => exact ⟨_, rfl, sound_new _, toFifo_new _⟩
  | setMaxSize n => exact ⟨_, rfl, ⟨h.head_le, h.capacity_pos⟩, rfl⟩

/-- The same along a history. -/
theorem foldl_next_sound : ∀ (ops : List BufferOp) (b : Buffer), b.Sound → .earase ∉ ops →
    ∃ b', ops.foldl (next A) (some b) = some b' ∧ b'.Sound ∧
      b'.toFifo = ops.foldl (fun q op => (queueCall q op).getD q) b.toFifo := by
  intro ops
  induction ops with
  | nil => exact fun b h _ => ⟨b, rfl, h, rfl⟩
  | cons op ops ih =>
    intro b h hops
    rw [List.mem_cons, not_or] at hops
    obtain ⟨b₁, hnext, hsound, hfifo⟩ := next_sound (A := A) h (Ne.symm hops.1)
    obtain ⟨b', hrun, hsound', hfifo'⟩ := ih b₁ hsound hops.2
    refine ⟨b', ?_, hsound', ?_⟩
    · rw [List.foldl_cons, hnext, hrun]
    · rw [List.foldl_cons, hfifo', hfifo]

/-- **A buffer is a bounded queue**: after every history without `earase`. -/
theorem isBoundedFifo (A : Allocator) (cmbs : ℕ) {ops : List BufferOp} (h : .earase ∉ ops) :
    ∃ b, run A cmbs ops = some b ∧ b.IsFifo A (queueOf cmbs ops) := by
  obtain ⟨b, hrun, hsound, hfifo⟩ := foldl_next_sound (A := A) ops (new A cmbs) (sound_new cmbs) h
  rw [toFifo_new] at hfifo
  refine ⟨b, hrun, ?_⟩
  have hqueue : b.toFifo = queueOf cmbs ops := hfifo
  rw [← hqueue]
  exact hsound.isFifo

/-- Ten letters, of which four are consumed. -/
theorem isBoundedFifo_letters : ∃ b,
    run Allocator.exact 100 [.append (ascii "abcdefghij"), .consume 4] = some b ∧
      b.IsFifo Allocator.exact (queueOf 100 [.append (ascii "abcdefghij"), .consume 4]) :=
  isBoundedFifo Allocator.exact 100 (by decide)

/-! ### After `earase` -/

/-- Has the storage been given away, and not been reset since? -/
def erasedBy (erased : Bool) : BufferOp → Bool
  | .earase => true
  | .consume _ => false
  | .reset => false
  | _ => erased

/-- Calls have given the storage away, and nothing has undone it. -/
def erased (ops : List BufferOp) : Bool := ops.foldl erasedBy false

/-- Nothing can be appended to storage that was given away: there is no capacity to double, and
bytes before the offset cannot be moved. -/
theorem appendUpTo_of_empty (h : b.storage = Storage.empty) {limit : ℕ} {src : Bytes}
    (hsrc : src ≠ []) (hroom : ¬ limit < sizeT (b.storage.size - b.head + src.length)) :
    b.appendUpTo A limit src = .error (if b.head = 0 then .diverges else .undefined) := by
  have hlen := List.length_pos_of_ne_nil hsrc
  have hsize : b.storage.size = 0 := by rw [h]; rfl
  unfold appendUpTo
  rw [if_neg hlen.ne', if_neg hroom]
  by_cases hhead : b.head = 0
  · rw [compactHalf_of_zero hhead, if_pos hhead]
    show b.ensureCapacity A (b.storage.size + src.length) >>= _ = _
    rw [ensureCapacity_of_zero (by rw [h]; rfl) (by omega)]
    rfl
  · rw [compactHalf_beyond (by omega), if_neg hhead]
    rfl

/-- Consuming resets what was given away, or reads outside of it. -/
theorem consume_of_empty (h : b.storage = Storage.empty) {n : ℕ}
    (hconsume : b.consume A n = .ok b') : b'.Sound := by
  have hsize : b.storage.size = 0 := by rw [h]; rfl
  unfold consume at hconsume
  dsimp only at hconsume
  generalize sizeT _ = head at hconsume
  by_cases hhead : head = 0
  · rw [compactHalf_of_zero hhead] at hconsume
    change Except.ok (if head = b.storage.size then _ else _) = _ at hconsume
    rw [if_pos (hhead.trans hsize.symm)] at hconsume
    cases hconsume
    exact sound_new _
  · rw [compactHalf_beyond (show b.storage.size < head by omega)] at hconsume
    cases hconsume

/-- What becomes of storage that was given away. -/
theorem next_of_empty (h : b.storage = Storage.empty) {op : BufferOp} (hop : op ≠ .earase)
    (hnext : next A (some b) op = some b') :
    if erasedBy true op then b'.storage = Storage.empty ∧ b'.head = b.head else b'.Sound := by
  -- an `append` is refused, or it does not return
  have happend : ∀ limit src, (match b.appendUpTo A limit src with
      | .ok o => some o.state
      | .error _ => none) = some b' → b'.storage = Storage.empty ∧ b'.head = b.head := by
    intro limit src hb'
    rcases eq_or_ne src [] with rfl | hsrc
    · cases hb'
      exact ⟨h, rfl⟩
    · by_cases hroom : limit < sizeT (b.storage.size - b.head + src.length)
      · have hrefused : b.appendUpTo A limit src = .ok (.bodyLimit b) := by
          unfold appendUpTo
          rw [if_neg (List.length_pos_of_ne_nil hsrc).ne', if_pos hroom]
        rw [hrefused] at hb'
        cases hb'
        exact ⟨h, rfl⟩
      · rw [appendUpTo_of_empty h hsrc hroom] at hb'
        cases hb'
  cases op with
  | append src => exact happend b.cmbs src hnext
  | appendResult src => exact happend limitRequestBody src hnext
  | consume n =>
    change (match (b.consume A n).map (Outcome.ok · ()) with
      | .ok o => some o.state
      | .error _ => none) = some b' at hnext
    cases hconsume : b.consume A n with
    | error e =>
      rw [hconsume] at hnext
      cases hnext
    | ok b₁ =>
      rw [hconsume] at hnext
      cases hnext
      exact consume_of_empty h hconsume
  | earase => exact absurd rfl hop
  | reset =>
    cases hnext
    exact sound_new _
  | setMaxSize n =>
    cases hnext
    exact ⟨h, rfl⟩

/-- Storage without a capacity is empty. -/
theorem eq_empty_of_capacity {v : Storage} (h : v.capacity = 0) : v = Storage.empty := by
  obtain ⟨bytes, capacity, hfits⟩ := v
  obtain rfl : capacity = 0 := h
  obtain rfl : bytes = [] := List.eq_nil_of_length_eq_zero (Nat.le_zero.mp hfits)
  rfl

/-! ### The size -/

/-- Every call but `earase` keeps the offset in bounds. -/
theorem head_le_next (h : b.head ≤ b.storage.size) {op : BufferOp} (hop : op ≠ .earase)
    (hnext : next A (some b) op = some b') : b'.head ≤ b'.storage.size := by
  rcases Nat.eq_zero_or_pos b.storage.capacity with hcap | hcap
  · have hempty := eq_empty_of_capacity hcap
    have hkept := next_of_empty hempty hop hnext
    split at hkept
    · rw [hempty] at h
      rw [hkept.1, hkept.2]
      exact h
    · exact hkept.head_le
  · obtain ⟨b₁, hnext₁, hsound, -⟩ := next_sound (A := A) ⟨h, hcap⟩ hop
    rw [hnext] at hnext₁
    cases hnext₁
    exact hsound.head_le

/-- After the history the size is well defined, and right behind `earase` it is 0. -/
def KeepsSize (A : Allocator) (cmbs : ℕ) (done : List BufferOp) : Prop :=
  ∀ b, run A cmbs done = some b → b.head ≤ b.storage.size ∧
    (done.getLast? = some .earase → b.size = 0 ∧ b.empty = true)

/-- `earase` is called with the offset at the front. -/
def ErasesAtFront (s : Option Buffer) (op : BufferOp) : Prop :=
  op = .earase → ∀ b, s = some b → b.head = 0

theorem earase_head_le_iff : b.earase.head ≤ b.earase.storage.size ↔ b.head = 0 :=
  Nat.le_zero

/-- **When the size stays well defined**: all along a history, if and only if every `earase` in it
is called with the offset at the front. -/
theorem keepsSize_iff (A : Allocator) (cmbs : ℕ) (ops : List BufferOp) :
    (∀ done, done <+: ops → KeepsSize A cmbs done) ↔
      Run.Meets (next A) ErasesAtFront (some (new A cmbs)) ops := by
  have hbounds : (∀ done, done <+: ops → ∀ b, run A cmbs done = some b → b.head ≤ b.storage.size) ↔
      Run.Meets (next A) ErasesAtFront (some (new A cmbs)) ops := by
    refine Run.Meets.always_iff
      (I := fun s : Option Buffer => ∀ b, s = some b → b.head ≤ b.storage.size)
      (J := fun _ => True) (Q := fun _ _ => True) (fun _ _ _ _ _ => trivial) ?_ trivial ?_
      (Run.Meets.of_forall (fun _ _ => trivial) _ _)
    · -- only `earase` moves the end of the storage in front of the offset
      rintro (_ | b) op - hle -
      · exact iff_of_true (by rintro b ⟨⟩) (by rintro - b ⟨⟩)
      · have hb := hle b rfl
        by_cases hop : op = .earase
        · subst hop
          constructor
          · rintro hnext - _ ⟨⟩
            exact earase_head_le_iff.mp (hnext b.earase rfl)
          · rintro hfront _ ⟨⟩
            exact earase_head_le_iff.mpr (hfront rfl b rfl)
        · exact iff_of_true (fun b' hnext => head_le_next hb hop hnext) fun h => absurd h hop
    · rintro b ⟨⟩
      exact (sound_new cmbs).head_le
  rw [← hbounds]
  refine forall₂_congr fun done _ => ⟨fun h b hb => (h b hb).1, fun h b hb => ⟨h b hb, ?_⟩⟩
  intro hlast
  obtain ⟨before, rfl⟩ : ∃ before, done = before ++ [.earase] :=
    List.getLast?_eq_some_iff.mp hlast
  have hle := h b hb
  -- right behind `earase` there is nothing in the storage
  have hempty : b.storage = Storage.empty := by
    rw [run, List.foldl_append] at hb
    cases hbefore : before.foldl (next A) (some (new A cmbs)) with
    | none =>
      rw [hbefore] at hb
      cases hb
    | some b₁ =>
      rw [hbefore] at hb
      cases hb
      rfl
  have hsize : b.size = 0 := by
    rw [size_of_le hle, hempty]
    exact Nat.zero_sub _
  exact ⟨hsize, decide_eq_true hsize⟩

/-- **`earase` makes the size wrap around**, when some of what was appended is consumed. -/
theorem not_keepsSize : ¬ KeepsSize Allocator.exact 100
    [.append (ascii "abcdefghij"), .consume 4, .earase] := by
  intro h
  exact absurd (h _ rfl).1 (by decide)

/-! ### Appending -/

/-- A call that has taken no step leads nowhere. -/
theorem foldl_next_none (ops : List BufferOp) : ops.foldl (next A) none = none := by
  induction ops with
  | nil => rfl
  | cons op ops ih => exact ih

/-- What the storage is, by whether it was given away. -/
theorem foldl_next_erased : ∀ (ops : List BufferOp) (e : Bool) (b b' : Buffer),
    (if e then b.storage = Storage.empty else b.Sound) →
    ops.foldl (next A) (some b) = some b' →
    if ops.foldl erasedBy e then b'.storage = Storage.empty else b'.Sound := by
  intro ops
  induction ops with
  | nil =>
    rintro e b b' h ⟨⟩
    exact h
  | cons op ops ih =>
    intro e b b' h hrun
    rw [List.foldl_cons] at hrun ⊢
    cases hnext : next A (some b) op with
    | none =>
      rw [hnext, foldl_next_none] at hrun
      cases hrun
    | some b₁ =>
      rw [hnext] at hrun
      refine ih _ b₁ b' ?_ hrun
      -- the state is told apart by whether the storage has been given away
      by_cases hop : op = .earase
      · subst hop
        cases hnext
        rfl
      · cases e with
        | true =>
          have hkept := next_of_empty h hop hnext
          split at hkept
          · next herased =>
            rw [herased]
            exact hkept.1
          · next herased =>
            rw [Bool.eq_false_iff.mpr herased]
            exact hkept
        | false =>
          obtain ⟨b₂, hnext₂, hsound, -⟩ := next_sound (A := A) h hop
          rw [hnext] at hnext₂
          cases hnext₂
          cases op with
          | earase => exact absurd rfl hop
          | _ => exact hsound

/-- The append returns, with no less capacity than before. -/
def AppendEnds (A : Allocator) (limit : ℕ) (b : Buffer) (src : Bytes) : Prop :=
  ∃ b', b.appendUpTo A limit src = .ok (.ok b' ()) ∧ b.storage.capacity ≤ b'.storage.capacity

/-- The check in front of the append lets it pass. -/
def Admits (limit : ℕ) (b : Buffer) (src : Bytes) : Prop :=
  sizeT (b.storage.size - b.head + src.length) ≤ limit

instance (limit : ℕ) (b : Buffer) (src : Bytes) : Decidable (b.Admits limit src) :=
  inferInstanceAs (Decidable (_ ≤ _))

/-- **When appending ends**: after any history, an append that is within its limit (`_cmbs` for
`append`, `LimitRequestBody` for `append_result`) returns if and only if it appends nothing or
the storage has been reset since it was last given away. -/
theorem appendEnds_iff (A : Allocator) (cmbs limit : ℕ) {ops : List BufferOp} {src : Bytes}
    (hrun : run A cmbs ops = some b) (hadmits : b.Admits limit src) :
    AppendEnds A limit b src ↔ src = [] ∨ erased ops = false := by
  have hstorage := foldl_next_erased ops false (new A cmbs) b (sound_new cmbs) hrun
  change if erased ops then _ else _ at hstorage
  rcases eq_or_ne src [] with rfl | hsrc
  · exact iff_of_true ⟨b, rfl, le_rfl⟩ (Or.inl rfl)
  · cases herased : erased ops with
    | true =>
      rw [herased] at hstorage
      refine iff_of_false ?_ (by simp [hsrc])
      rintro ⟨b', hb', -⟩
      rw [appendUpTo_of_empty hstorage hsrc (Nat.not_lt.mpr hadmits)] at hb'
      cases hb'
    | false =>
      rw [herased] at hstorage
      refine iff_of_true ?_ (Or.inr rfl)
      have hroom : b.size + src.length ≤ limit := by
        have hle := hstorage.head_le
        rw [size_of_le hle]
        rw [Admits, sizeT_of_nonneg (by omega)] at hadmits
        omega
      obtain ⟨b', hok, -, -, hcap⟩ := appendUpTo_ok (A := A) hstorage hsrc hroom
      exact ⟨b', hok, hcap⟩

/-- A letter is appended to a new buffer. -/
theorem appendEnds_new : AppendEnds Allocator.exact 10 (new Allocator.exact 10) (ascii "a") :=
  have hrun : run Allocator.exact 10 [] = some (new Allocator.exact 10) := rfl
  (appendEnds_iff Allocator.exact 10 10 hrun (by decide)).mpr (Or.inr rfl)

/-- **An append that does not end**: a new buffer, whose storage is given away; the loop never
ends, with however many rounds. -/
theorem not_appendEnds : ∃ b, run Allocator.exact 10 [.earase] = some b ∧
    b.Admits b.cmbs (ascii "a") ∧ ¬ AppendEnds Allocator.exact b.cmbs b (ascii "a") ∧
    ∀ n, doubling b.cmbs (b.storage.size + 1) n b.storage.capacity = none := by
  refine ⟨_, rfl, by decide, ?_, doubling_zero (by decide)⟩
  rintro ⟨b', hb', -⟩
  cases hb'

end Buffer

end Webserv
