import Webserv.Cgi.Stream

/-!
# Where the header block ends

A blank line ends the header block of a script's output: CR LF CR LF, or two bare
LF.  `FirstBlankLine` says which one is the first, without reference to any scan.
`findHeaderEnd` looks for the first form in all that was read before it looks for
the second, so it finds the first blank line unless that one is made of bare LF
and the bytes read so far hold the other form further on.

## Main results

* `findHeaderEnd_eq_iff` — when `findHeaderEnd` reports the first blank line.
-/

namespace Webserv

open Bytes ChunkedCoding

/-- A blank line ends in front of position `e`. -/
def BlankLineAt (d : Bytes) (e : ℕ) : Prop :=
  (∃ i, e = i + 4 ∧ crlfcrlf <+: d.drop i) ∨ ∃ i, e = i + 2 ∧ lflf <+: d.drop i

/-- The first blank line ends in front of position `e`. -/
def FirstBlankLine (d : Bytes) (e : ℕ) : Prop :=
  BlankLineAt d e ∧ ∀ e' < e, ¬ BlankLineAt d e'

theorem BlankLineAt.le_length {d : Bytes} {e : ℕ} (h : BlankLineAt d e) : e ≤ d.length := by
  have hlen : ∀ {pat : Bytes} {i : ℕ}, pat ≠ [] → pat <+: d.drop i →
      i + pat.length ≤ d.length := by
    intro pat i hpat hpre
    have hle := hpre.length_le
    have hpos := List.length_pos_iff.mpr hpat
    rw [List.length_drop] at hle
    omega
  rcases h with ⟨i, rfl, hpre⟩ | ⟨i, rfl, hpre⟩
  · exact hlen (by decide) hpre
  · exact hlen (by decide) hpre

/-- A blank line is where it is, whatever follows. -/
theorem blankLineAt_append {d r : Bytes} {e : ℕ} (he : e ≤ d.length) :
    BlankLineAt (d ++ r) e ↔ BlankLineAt d e := by
  constructor
  · rintro (⟨i, rfl, hpre⟩ | ⟨i, rfl, hpre⟩)
    · exact Or.inl ⟨i, rfl, (FirstMatch.prefix_drop_append_iff he).mp hpre⟩
    · exact Or.inr ⟨i, rfl, (FirstMatch.prefix_drop_append_iff he).mp hpre⟩
  · rintro (⟨i, rfl, hpre⟩ | ⟨i, rfl, hpre⟩)
    · exact Or.inl ⟨i, rfl, (FirstMatch.prefix_drop_append_iff he).mpr hpre⟩
    · exact Or.inr ⟨i, rfl, (FirstMatch.prefix_drop_append_iff he).mpr hpre⟩

theorem FirstBlankLine.of_append {d r : Bytes} {e : ℕ} (h : FirstBlankLine (d ++ r) e)
    (he : e ≤ d.length) : FirstBlankLine d e := by
  refine ⟨(blankLineAt_append he).mp h.1, ?_⟩
  intro e' hlt hb
  exact h.2 e' hlt ((blankLineAt_append (by omega)).mpr hb)

/-- The first blank line of all that is written is one of what has been read, if that has any. -/
theorem FirstBlankLine.of_blankLineAt {d r : Bytes} {e m : ℕ} (h : FirstBlankLine (d ++ r) e)
    (hm : BlankLineAt d m) : FirstBlankLine d e := by
  apply h.of_append
  by_contra hgt
  have hle := hm.le_length
  exact h.2 m (by omega) ((blankLineAt_append hle).mpr hm)

theorem FirstBlankLine.append {d : Bytes} {e : ℕ} (h : FirstBlankLine d e) (r : Bytes) :
    FirstBlankLine (d ++ r) e := by
  have hle := h.1.le_length
  refine ⟨(blankLineAt_append hle).mpr h.1, ?_⟩
  intro e' hlt hb
  exact h.2 e' hlt ((blankLineAt_append (by omega)).mp hb)

/-- What is in front of the first blank line is cut off. -/
theorem FirstBlankLine.take {d : Bytes} {e : ℕ} (h : FirstBlankLine d e) :
    FirstBlankLine (d.take e) e := by
  have hle := h.1.le_length
  rw [← List.take_append_drop e d] at h
  apply h.of_append
  rw [List.length_take, Nat.min_eq_left hle]

theorem FirstBlankLine.unique {d : Bytes} {e e' : ℕ} (h : FirstBlankLine d e)
    (h' : FirstBlankLine d e') : e = e' := by
  by_contra hne
  rcases Nat.lt_or_gt_of_ne hne with hlt | hlt
  · exact h'.2 e hlt h.1
  · exact h.2 e' hlt h'.1

/-- Where there is a blank line there is a first one. -/
theorem BlankLineAt.exists_first {d : Bytes} {e : ℕ} (h : BlankLineAt d e) :
    ∃ e', FirstBlankLine d e' := by
  classical
  exact ⟨Nat.find ⟨e, h⟩, Nat.find_spec ⟨e, h⟩, fun _ hlt => Nat.find_min ⟨e, h⟩ hlt⟩

/-! ### The scan -/

/-- What `findHeaderEnd` reports is a blank line. -/
theorem blankLineAt_of_findHeaderEnd {d : Bytes} {e : ℕ} (h : findHeaderEnd d = some e) :
    BlankLineAt d e := by
  unfold findHeaderEnd at h
  split at h
  · next i hi =>
    rw [Option.some.injEq] at h
    exact Or.inl ⟨i, h.symm, (FirstMatch.find_eq_some_iff.mp hi).2.1⟩
  · rw [Option.map_eq_some_iff] at h
    obtain ⟨i, hi, h⟩ := h
    exact Or.inr ⟨i, h.symm, (FirstMatch.find_eq_some_iff.mp hi).2.1⟩

/-- It misses none. -/
theorem findHeaderEnd_ne_none {d : Bytes} {e : ℕ} (h : BlankLineAt d e) :
    findHeaderEnd d ≠ none := by
  intro hnone
  unfold findHeaderEnd at hnone
  split at hnone
  · simp at hnone
  · next hcr =>
    rw [Option.map_eq_none_iff] at hnone
    have hle := h.le_length
    rcases h with ⟨i, rfl, hpre⟩ | ⟨i, rfl, hpre⟩
    · exact FirstMatch.find_eq_none_iff.mp hcr i (by omega) hpre
    · exact FirstMatch.find_eq_none_iff.mp hnone i (by omega) hpre

/-- The bytes of the two forms tell them apart, so neither begins inside the other
and ends behind it, but for the last LF of the first. -/
theorem lf_lf_of_lflf {d : Bytes} {i : ℕ} (h : lflf <+: d.drop i) :
    d[i]? = some LF ∧ d[i + 1]? = some LF :=
  ⟨FirstMatch.getElem?_of_prefix_drop (k := 0) h (by decide),
    FirstMatch.getElem?_of_prefix_drop (k := 1) h (by decide)⟩

theorem cr_cr_of_crlfcrlf {d : Bytes} {i : ℕ} (h : crlfcrlf <+: d.drop i) :
    d[i]? = some CR ∧ d[i + 2]? = some CR :=
  ⟨FirstMatch.getElem?_of_prefix_drop (k := 0) h (by decide),
    FirstMatch.getElem?_of_prefix_drop (k := 2) h (by decide)⟩

/-- A CR LF CR LF that begins before the end of the first blank line is that line. -/
theorem crlfcrlf_of_lt {d : Bytes} {e i : ℕ} (h : FirstBlankLine d e)
    (hpre : crlfcrlf <+: d.drop i) (hlt : i < e) (hfirst : ∀ j < i, ¬ crlfcrlf <+: d.drop j) :
    i + 4 = e := by
  have hge : e ≤ i + 4 := by
    by_contra hgt
    exact h.2 (i + 4) (by omega) (Or.inl ⟨i, rfl, hpre⟩)
  rcases h.1 with ⟨j, rfl, hj⟩ | ⟨j, rfl, hj⟩
  · by_contra hne
    exact hfirst j (by omega) hj
  · -- the two LF would have to stand where the other form has a CR
    obtain ⟨hcr, hcr'⟩ := cr_cr_of_crlfcrlf hpre
    obtain ⟨hlf, hlf'⟩ := lf_lf_of_lflf hj
    have hCL : CR ≠ LF := by decide
    have hcases : j + 1 = i ∨ j = i ∨ j + 1 = i + 2 ∨ j = i + 2 := by omega
    rcases hcases with hk | hk | hk | hk
    · rw [hk, hcr] at hlf'
      exact absurd (Option.some.inj hlf') hCL
    · rw [hk, hcr] at hlf
      exact absurd (Option.some.inj hlf) hCL
    · rw [hk, hcr'] at hlf'
      exact absurd (Option.some.inj hlf') hCL
    · rw [hk, hcr'] at hlf
      exact absurd (Option.some.inj hlf) hCL

/-- **`findHeaderEnd` reports the first blank line unless a CR LF CR LF stands
behind it.** -/
theorem findHeaderEnd_eq_iff {d : Bytes} {e : ℕ} (h : FirstBlankLine d e) :
    findHeaderEnd d = some e ↔ ∀ i, FirstMatch.find crlfcrlf d = some i → i < e := by
  constructor
  · intro hfind i hi
    rw [findHeaderEnd, hi] at hfind
    have hie := Option.some.inj hfind
    omega
  · intro hall
    cases hcr : FirstMatch.find crlfcrlf d with
    | some i =>
      obtain ⟨-, hpre, hfirst⟩ := FirstMatch.find_eq_some_iff.mp hcr
      rw [findHeaderEnd, hcr]
      exact congrArg some (crlfcrlf_of_lt h hpre (hall i hcr) hfirst)
    | none =>
      cases hfind : findHeaderEnd d with
      | none => exact absurd hfind (findHeaderEnd_ne_none h.1)
      | some e' =>
        -- the reported line is made of bare LF, and the scan takes the first of these
        have hle : e ≤ e' := by
          by_contra hgt
          exact h.2 e' (by omega) (blankLineAt_of_findHeaderEnd hfind)
        rw [findHeaderEnd, hcr, Option.map_eq_some_iff] at hfind
        obtain ⟨j, hj, rfl⟩ := hfind
        obtain ⟨-, -, hfirst⟩ := FirstMatch.find_eq_some_iff.mp hj
        rcases h.1 with ⟨i, rfl, hi⟩ | ⟨i, rfl, hi⟩
        · have hlen := h.1.le_length
          exact absurd hi (FirstMatch.find_eq_none_iff.mp hcr i (by omega))
        · have hij : ¬ i < j := fun hlt => hfirst i hlt hi
          rw [show j = i by omega]

namespace CgiStream

theorem live_iff {s : CgiStream} : s.live = true ↔ s.isOpen = true ∧ s.escaped = false := by
  simp [live]

end CgiStream

end Webserv
