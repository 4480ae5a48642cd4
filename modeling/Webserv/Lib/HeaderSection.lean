import Webserv.Lib.Bytes

/-!
# Header sections

A header section is a sequence of lines, each ended by CR LF, and an empty line behind
them.  `readSection` cuts the lines off what follows: it is what a reader of messages
does before it looks at any field.

## Main results

* `readSection_line` — a line in front is the first line.
* `eq_of_readSection` — the text from what was read of it.
* `readSection_eq_none_iff` — there is no section where there is no empty line.
* `readSection_append_of_none`, `readSection_append_of_some` — what is read of a text
  that others have been put behind.
-/

namespace HeaderSection

open Bytes

/-- The lines up to the first empty one, and what is behind it; `line` is the part of the
current line that has been read. -/
def readSection (line : Bytes) : Bytes → Option (List Bytes × Bytes)
  | [] => none
  | [_] => none
  | a :: b :: rest =>
      if a = CR ∧ b = LF then
        if line = [] then some ([], rest)
        else (readSection [] rest).map fun r => (line :: r.1, r.2)
      else readSection (line ++ [a]) (b :: rest)

/-- Characters other than CR belong to the line. -/
theorem readSection_text {l : Bytes} (hl : CR ∉ l) : ∀ (line : Bytes) {s : Bytes}, s ≠ [] →
    readSection line (l ++ s) = readSection (line ++ l) s := by
  induction l with
  | nil =>
    intro line s _
    rw [List.nil_append, List.append_nil]
  | cons a l ih =>
    intro line s hs
    have ha : a ≠ CR := fun h => hl (h ▸ List.mem_cons_self)
    have hl' : CR ∉ l := fun h => hl (List.mem_cons_of_mem _ h)
    obtain ⟨b, rest, hrest⟩ := List.exists_cons_of_ne_nil (List.append_ne_nil_of_right_ne_nil l hs)
    rw [List.cons_append, hrest, readSection, if_neg (fun h => ha h.1), ← hrest,
      ih hl' (line ++ [a]) hs, List.append_assoc, List.singleton_append]

/-- A line without CR in front. -/
theorem readSection_line {l : Bytes} (hl : CR ∉ l) (hne : l ≠ []) (rest : Bytes) :
    readSection [] (l ++ crlf ++ rest) = (readSection [] rest).map fun r => (l :: r.1, r.2) := by
  rw [List.append_assoc, readSection_text hl [] (by simp [crlf]), List.nil_append]
  show readSection l (CR :: LF :: rest) = _
  rw [readSection, if_pos ⟨rfl, rfl⟩, if_neg hne]

/-- A line is read to its end when there is no line end within it. -/
theorem readSection_unbroken (rest : Bytes) : ∀ {l line : Bytes}, ¬ crlf <:+: l →
    readSection line (l ++ (crlf ++ rest)) = readSection (line ++ l) (crlf ++ rest) := by
  intro l
  induction l with
  | nil =>
    intro line _
    rw [List.nil_append, List.append_nil]
  | cons a l ih =>
    intro line hl
    have hl' : ¬ crlf <:+: l := fun h => hl (h.trans (List.suffix_cons a l).isInfix)
    obtain ⟨b, s, hs⟩ := List.exists_cons_of_ne_nil
      (List.append_ne_nil_of_right_ne_nil l (by simp [crlf] : crlf ++ rest ≠ []))
    have hend : ¬ (a = CR ∧ b = LF) := by
      rintro ⟨rfl, rfl⟩
      cases l with
      | nil => cases hs
      | cons b l =>
        cases hs
        exact hl ⟨[], l, rfl⟩
    rw [List.cons_append, hs, readSection, if_neg hend, ← hs, ih hl', List.append_assoc,
      List.singleton_append]

/-- The same, with the line in front of everything. -/
theorem readSection_line_of_unbroken {l : Bytes} (hl : ¬ crlf <:+: l) (hne : l ≠ [])
    (rest : Bytes) :
    readSection [] (l ++ crlf ++ rest) = (readSection [] rest).map fun r => (l :: r.1, r.2) := by
  rw [List.append_assoc, readSection_unbroken rest hl, List.nil_append]
  show readSection l (CR :: LF :: rest) = _
  rw [readSection, if_pos ⟨rfl, rfl⟩, if_neg hne]

/-- **There is no line end within a line that was read.** -/
theorem unbroken_of_readSection {s : Bytes} : ∀ {line : Bytes} {ls : List Bytes} {b : Bytes},
    readSection line s = some (ls, b) → ¬ crlf <:+: line →
      (s.head? = some LF → line.getLast? ≠ some CR) → ∀ l ∈ ls, ¬ crlf <:+: l := by
  induction s using List.twoStepInduction with
  | nil => intro line ls b h; simp [readSection] at h
  | singleton x => intro line ls b h; simp [readSection] at h
  | cons_cons x y s ih₁ ih₂ =>
    intro line ls b h hline hjoin
    rw [readSection] at h
    split at h
    · split at h
      · cases h
        exact fun l hl => absurd hl List.not_mem_nil
      · simp only [Option.map_eq_some_iff, Prod.mk.injEq, Prod.exists] at h
        obtain ⟨ls', b', h', rfl, rfl⟩ := h
        intro l hl
        rcases List.mem_cons.mp hl with rfl | hl
        · exact hline
        · exact ih₁ h' (by simp [crlf]) (fun _ => by simp) l hl
    · next hxy =>
      refine ih₂ y h ?_ ?_
      · intro hinfix
        -- a line end that comes with `x` has its CR at the end of the line so far
        rcases List.infix_concat_iff.mp hinfix with hsuffix | hinfix
        · obtain ⟨t, ht⟩ := hsuffix
          have hsplit : (t ++ [CR]) ++ [LF] = line ++ [x] := by
            rw [← ht, crlf, List.append_assoc]
            rfl
          obtain ⟨rfl, hx⟩ := List.append_inj' hsplit rfl
          cases hx
          exact hjoin rfl (List.getLast?_concat ..)
        · exact hline hinfix
      · rintro hy hlast
        rw [List.head?_cons, Option.some.injEq] at hy
        rw [List.getLast?_concat, Option.some.injEq] at hlast
        exact hxy ⟨hlast, hy⟩

/-- **What was read is what there is**: the lines with their ends, the empty line, and the rest. -/
theorem eq_of_readSection {s : Bytes} : ∀ {line : Bytes} {ls : List Bytes} {b : Bytes},
    readSection line s = some (ls, b) →
      line ++ s = (ls.map (· ++ crlf)).flatten ++ (crlf ++ b) ∧ ∀ l ∈ ls, l ≠ [] := by
  induction s using List.twoStepInduction with
  | nil => intro line ls b h; simp [readSection] at h
  | singleton x => intro line ls b h; simp [readSection] at h
  | cons_cons x y s ih₁ ih₂ =>
    intro line ls b h
    rw [readSection] at h
    split at h
    · next hxy =>
      obtain ⟨rfl, rfl⟩ := hxy
      split at h
      · next hline =>
        cases h
        rw [hline]
        exact ⟨rfl, fun l hl => absurd hl List.not_mem_nil⟩
      · next hline =>
        simp only [Option.map_eq_some_iff, Prod.mk.injEq, Prod.exists] at h
        obtain ⟨ls', b', h', rfl, rfl⟩ := h
        obtain ⟨heq, hne⟩ := ih₁ h'
        rw [List.nil_append] at heq
        constructor
        · rw [List.map_cons, List.flatten_cons, List.append_assoc, ← heq, List.append_assoc]
          rfl
        · intro l hl
          rcases List.mem_cons.mp hl with rfl | hl
          · exact hline
          · exact hne l hl
    · obtain ⟨heq, hne⟩ := ih₂ y h
      rw [List.append_assoc] at heq
      exact ⟨heq, hne⟩

/-- The empty line. -/
theorem readSection_end (rest : Bytes) : readSection [] (crlf ++ rest) = some ([], rest) := by
  show readSection [] (CR :: LF :: rest) = _
  rw [readSection, if_pos ⟨rfl, rfl⟩, if_pos rfl]

/-- What was read stays what it is when more follows. -/
theorem readSection_append_of_some {s r : Bytes} : ∀ {line : Bytes} {ls : List Bytes} {b : Bytes},
    readSection line s = some (ls, b) → readSection line (s ++ r) = some (ls, b ++ r) := by
  induction s using List.twoStepInduction with
  | nil => intro line ls b h; simp [readSection] at h
  | singleton x => intro line ls b h; simp [readSection] at h
  | cons_cons x y s ih₁ ih₂ =>
    intro line ls b h
    rw [List.cons_append, List.cons_append]
    rw [readSection] at h ⊢
    split at h
    · next hxy =>
      rw [if_pos hxy]
      split at h
      · next hline =>
        simp only [Option.some.injEq, Prod.mk.injEq] at h
        rw [if_pos hline, ← h.1, ← h.2]
      · next hline =>
        rw [if_neg hline]
        simp only [Option.map_eq_some_iff, Prod.mk.injEq, Prod.exists] at h ⊢
        obtain ⟨ls', b', h', rfl, rfl⟩ := h
        exact ⟨ls', b' ++ r, ih₁ h', rfl, rfl⟩
    · next hxy =>
      rw [if_neg hxy]
      exact ih₂ y h

/-- Lines without an empty one are all read. -/
theorem readSection_append_of_none {s r : Bytes} : ∀ {line : Bytes}, crlf <:+ s →
    readSection line s = none →
      ∃ ls, readSection line (s ++ r) = (readSection [] r).map fun p => (ls ++ p.1, p.2) := by
  induction s using List.twoStepInduction with
  | nil => intro line hs; simp [crlf] at hs
  | singleton x => intro line hs; exact absurd hs.length_le (by simp [crlf])
  | cons_cons x y s ih₁ ih₂ =>
    intro line hs h
    rw [List.cons_append, List.cons_append]
    rw [readSection] at h ⊢
    split at h
    · next hxy =>
      rw [if_pos hxy]
      split at h
      · simp at h
      · next hline =>
        rw [if_neg hline]
        rw [Option.map_eq_none_iff] at h
        by_cases hs' : s = []
        · subst hs'
          exact ⟨[line], rfl⟩
        · have hend : crlf <:+ s := by
            rcases List.suffix_cons_iff.mp hs with heq | hs
            · simp only [crlf, List.cons.injEq] at heq
              exact absurd heq.2.2.symm hs'
            · rcases List.suffix_cons_iff.mp hs with heq | hs
              · simp only [crlf, List.cons.injEq] at heq
                exact absurd (heq.1.trans hxy.2) (by decide)
              · exact hs
          obtain ⟨ls, hls⟩ := ih₁ hend h
          refine ⟨line :: ls, ?_⟩
          rw [hls, Option.map_map]
          rfl
    · next hxy =>
      rw [if_neg hxy]
      have hend : crlf <:+ y :: s := by
        rcases List.suffix_cons_iff.mp hs with heq | hs
        · simp only [crlf, List.cons.injEq] at heq
          exact absurd ⟨heq.1.symm, heq.2.1.symm⟩ hxy
        · exact hs
      exact ih₂ y hend h

/-- An empty line is a line end behind a line end, or at the beginning. -/
theorem readSection_eq_none_iff {s : Bytes} : ∀ {line : Bytes},
    readSection line s = none ↔ ¬ (line = [] ∧ crlf <+: s) ∧ ¬ crlfcrlf <:+: s := by
  induction s using List.twoStepInduction with
  | nil => intro line; simp [readSection, crlf, crlfcrlf]
  | singleton x =>
    intro line
    have h₁ : ¬ crlf <+: [x] := fun h => absurd h.length_le (by simp [crlf])
    have h₂ : ¬ crlfcrlf <:+: [x] := fun h => absurd h.length_le (by simp [crlfcrlf])
    simp [readSection, h₁, h₂]
  | cons_cons x y s ih₁ ih₂ =>
    intro line
    have hcrlf : crlf <+: x :: y :: s ↔ x = CR ∧ y = LF := by
      rw [crlf, List.cons_prefix_cons, List.cons_prefix_cons]
      simp [eq_comm]
    rw [readSection]
    split
    · -- the line ends here: the section does too if the line is empty
      next hxy =>
      obtain ⟨rfl, rfl⟩ := hxy
      have hblank : crlfcrlf <:+: CR :: LF :: s ↔ crlf <+: s ∨ crlfcrlf <:+: s := by
        have hLF : ¬ crlfcrlf <+: LF :: s := by
          rw [crlfcrlf, List.cons_prefix_cons]
          exact fun h => absurd h.1 (by decide)
        rw [List.infix_cons_iff, List.infix_cons_iff]
        simp only [hLF, false_or]
        rw [crlfcrlf, List.cons_prefix_cons, List.cons_prefix_cons]
        simp [crlf]
      split
      · next hline => simp [hline, hcrlf]
      · next hline =>
        rw [Option.map_eq_none_iff, ih₁, hblank]
        simp [hline]
    · -- the line goes on, and no section ends across `x`
      next hxy =>
      have hblank : crlfcrlf <:+: x :: y :: s ↔ crlfcrlf <:+: y :: s := by
        rw [List.infix_cons_iff, crlfcrlf, List.cons_prefix_cons, List.cons_prefix_cons]
        constructor
        · rintro (⟨h₁, h₂, -⟩ | h)
          · exact absurd ⟨h₁.symm, h₂.symm⟩ hxy
          · exact h
        · exact Or.inr
      rw [ih₂ y, hblank, hcrlf]
      simp [hxy]

end HeaderSection
