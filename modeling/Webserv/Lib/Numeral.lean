import Webserv.Lib.Bytes

/-!
# Numerals that are read up to a bound

A reader of a numeral keeps the value of the digits it has seen, and gives up at the first value
above a bound.  Since more digits never make the value smaller, it gives up exactly when the whole
numeral is above the bound, and no value it forms is much larger than that.

* `readUpTo_eq` — what the reader returns.
* `lt_of_mem_formed` — the values it forms.
-/

namespace Numeral

/-- The value of some digits, most significant first, behind those that have been read. -/
def valueFrom (b acc : ℕ) (ds : List ℕ) : ℕ := ds.foldl (fun v d => v * b + d) acc

@[simp] theorem valueFrom_nil (b acc : ℕ) : valueFrom b acc [] = acc := rfl

@[simp] theorem valueFrom_cons (b acc d : ℕ) (ds : List ℕ) :
    valueFrom b acc (d :: ds) = valueFrom b (acc * b + d) ds := rfl

/-- The reader that gives up above `limit`. -/
def readUpTo (b limit acc : ℕ) : List ℕ → Option ℕ
  | [] => some acc
  | d :: ds => if limit < acc * b + d then none else readUpTo b limit (acc * b + d) ds

/-- The values that it forms. -/
def formed (b limit acc : ℕ) : List ℕ → List ℕ
  | [] => []
  | d :: ds =>
      (acc * b + d) :: if limit < acc * b + d then [] else formed b limit (acc * b + d) ds

variable {b limit acc : ℕ} {ds : List ℕ}

/-- More digits never make the value smaller. -/
theorem le_valueFrom (hb : 0 < b) : acc ≤ valueFrom b acc ds := by
  induction ds generalizing acc with
  | nil => simp
  | cons d ds ih =>
    calc acc ≤ acc * b := Nat.le_mul_of_pos_right acc hb
      _ ≤ acc * b + d := Nat.le_add_right _ d
      _ ≤ valueFrom b acc (d :: ds) := ih

/-- **The reader returns the value of the numeral**, if that is within the bound. -/
theorem readUpTo_eq (hb : 0 < b) (hacc : acc ≤ limit) :
    readUpTo b limit acc ds =
      if valueFrom b acc ds ≤ limit then some (valueFrom b acc ds) else none := by
  induction ds generalizing acc with
  | nil => simp [readUpTo, hacc]
  | cons d ds ih =>
    rw [readUpTo, valueFrom_cons]
    by_cases h : limit < acc * b + d
    · have hle : acc * b + d ≤ valueFrom b (acc * b + d) ds := le_valueFrom hb
      rw [if_pos h, if_neg (by omega)]
    · rw [if_neg h, ih (by omega)]

/-- **No value is formed that is much larger than the bound.** -/
theorem lt_of_mem_formed (hacc : acc ≤ limit) (hds : ∀ d ∈ ds, d < b) :
    ∀ v ∈ formed b limit acc ds, v < (limit + 1) * b := by
  induction ds generalizing acc with
  | nil => simp [formed]
  | cons d ds ih =>
    intro v hv
    rw [formed, List.mem_cons] at hv
    have hd : d < b := hds d List.mem_cons_self
    rcases hv with rfl | hv
    · calc acc * b + d < acc * b + b := by omega
        _ = (acc + 1) * b := (Nat.succ_mul acc b).symm
        _ ≤ (limit + 1) * b := Nat.mul_le_mul_right b (by omega)
    · split at hv
      · simp at hv
      · exact ih (by omega) (fun d' hd' => hds d' (List.mem_cons_of_mem d hd')) v hv

end Numeral

namespace Bytes

/-- The digits of a decimal numeral. -/
def decimalDigits (s : Bytes) : List ℕ := s.map fun b => b.toNat - 48

/-- The number that a string of decimal digits denotes. -/
def decimalValue (s : Bytes) : ℕ := Numeral.valueFrom 10 0 (decimalDigits s)

/-- The digits of a hexadecimal numeral. -/
def hexDigits (s : Bytes) : List ℕ := s.filterMap hexDigit?

/-- What holds of the 256 bytes holds of every byte. -/
theorem forall_byte {P : UInt8 → Prop} (h : ∀ n : Fin 256, P (UInt8.ofNat n)) (b : UInt8) :
    P b := by
  have hb : UInt8.ofNat b.toNat = b := UInt8.ofNat_toNat
  exact hb ▸ h ⟨b.toNat, b.toNat_lt⟩

theorem isDigit_toNat {b : UInt8} (h : isDigit b = true) : 48 ≤ b.toNat ∧ b.toNat ≤ 57 := by
  revert h
  exact forall_byte (P := fun b => isDigit b = true → 48 ≤ b.toNat ∧ b.toNat ≤ 57)
    (by decide +kernel) b

theorem lt_of_mem_decimalDigits {s : Bytes} (h : ∀ b ∈ s, isDigit b = true) :
    ∀ d ∈ decimalDigits s, d < 10 := by
  intro d hd
  obtain ⟨b, hb, rfl⟩ := List.mem_map.mp hd
  have hrange := isDigit_toNat (h b hb)
  omega

theorem lt_of_mem_hexDigits {s : Bytes} : ∀ d ∈ hexDigits s, d < 16 := by
  intro d hd
  obtain ⟨b, -, hb⟩ := List.mem_filterMap.mp hd
  exact hexDigit?_lt hb

/-- The value of a hexadecimal numeral is that of its digits. -/
theorem hexValueFrom_eq (s : Bytes) {acc : ℕ} (h : ∀ b ∈ s, (hexDigit? b).isSome) :
    hexValueFrom acc s = some (Numeral.valueFrom 16 acc (hexDigits s)) := by
  induction s generalizing acc with
  | nil => rfl
  | cons b s ih =>
    rw [List.forall_mem_cons] at h
    obtain ⟨d, hd⟩ := Option.isSome_iff_exists.mp h.1
    rw [hexValueFrom, hd, hexDigits, List.filterMap_cons_some hd, Numeral.valueFrom_cons]
    exact ih h.2

end Bytes
