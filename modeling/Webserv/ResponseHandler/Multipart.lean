import Webserv.ResponseHandler.Upload

/-!
# Reading a form with pointers

`parseMultipartFirstFile` works on the bytes of the body with pointers.  Here a pointer is a
position, and a byte that is read outside the body is a fault.

## Main results

* `findSubstr_eq` — the search, within its bounds.
* `parseMultipartAt_eq` — what is read with pointers is what `parseMultipartFirstFile` yields.
* `multipart_inside` — **no fault, and a slice between its delimiters.**
-/

namespace Webserv

open Bytes

/-! ### The search -/

/-- The inner loop of `findSubstr`: the bytes from `p` on, compared up to the first that differs.
`none` is a byte outside the body. -/
def matchesAt (body : Bytes) (p : ℕ) : Bytes → Option Bool
  | [] => some true
  | b :: needle =>
      match body[p]? with
      | none => none
      | some a => if a = b then matchesAt body (p + 1) needle else some false

/-- The outer loop, with so many positions left before `limit`. -/
def findSubstrLoop (body : Bytes) (fin : ℕ) (needle : Bytes) (p : ℕ) : ℕ → Option ℕ
  | 0 => some fin
  | left + 1 =>
      match matchesAt body p needle with
      | none => none
      | some true => some p
      | some false => findSubstrLoop body fin needle (p + 1) left

/-- `findSubstr` between two positions of the body. -/
def findSubstr (body : Bytes) (start fin : ℕ) (needle : Bytes) : Option ℕ :=
  if needle.isEmpty then some start
  else if fin - start < needle.length then some fin
  else findSubstrLoop body fin needle start (fin - needle.length + 1 - start)

theorem matchesAt_eq {body : Bytes} : ∀ {needle : Bytes} {p : ℕ}, p + needle.length ≤ body.length →
    matchesAt body p needle = some (needle.isPrefixOf (body.drop p)) := by
  intro needle
  induction needle with
  | nil => simp [matchesAt]
  | cons b needle ih =>
    intro p h
    rw [List.length_cons] at h
    have hp : p < body.length := by omega
    rw [matchesAt, List.getElem?_eq_getElem hp, List.drop_eq_getElem_cons hp,
      List.isPrefixOf_cons_cons]
    by_cases heq : body[p] = b
    · rw [ih (show p + 1 + needle.length ≤ body.length by omega)]
      simp [heq]
    · simp [heq, Ne.symm heq]

/-- The first occurrence of the needle between two positions of the body, or the second position
when there is none. -/
def IsFirst (body : Bytes) (start fin : ℕ) (needle : Bytes) (p : ℕ) : Prop :=
  (start ≤ p ∧ p + needle.length ≤ fin ∧ needle <+: body.drop p ∨ p = fin) ∧
    ∀ q, start ≤ q → q < p → q + needle.length ≤ fin → ¬ needle <+: body.drop q

/-- The loop finds what is there. -/
theorem findSubstrLoop_spec {body needle : Bytes} {fin : ℕ} (hfin : fin ≤ body.length)
    (hlen : needle.length ≤ fin) : ∀ {left p : ℕ}, p + left = fin - needle.length + 1 →
      ∃ q, findSubstrLoop body fin needle p left = some q ∧ IsFirst body p fin needle q := by
  intro left
  induction left with
  | zero =>
    intro p hp
    refine ⟨fin, rfl, Or.inr rfl, ?_⟩
    intro q hq _ hend
    omega
  | succ left ih =>
    intro p hp
    rw [findSubstrLoop, matchesAt_eq (show p + needle.length ≤ body.length by omega)]
    cases hmatch : needle.isPrefixOf (body.drop p) with
    | true =>
      refine ⟨p, rfl, Or.inl ⟨Nat.le_refl p, by omega, by simpa using hmatch⟩, ?_⟩
      intro q hq hlt
      omega
    | false =>
      have hno : ¬ needle <+: body.drop p := by
        rw [← List.isPrefixOf_iff_prefix, hmatch]
        exact Bool.false_ne_true
      obtain ⟨q, hloop, hfirst, hmin⟩ := @ih (p + 1) (by omega)
      refine ⟨q, hloop, ?_, ?_⟩
      · rcases hfirst with ⟨hstart, hend, hpre⟩ | hq
        · exact Or.inl ⟨by omega, hend, hpre⟩
        · exact Or.inr hq
      · -- the position that was passed over is no occurrence
        intro r hr hlt hend
        rcases Nat.eq_or_lt_of_le hr with rfl | hlater
        · exact hno
        · exact hmin r hlater hlt hend

/-- **The search stays within its bounds, and finds the first occurrence.** -/
theorem findSubstr_spec {body : Bytes} {start fin : ℕ} (needle : Bytes) (hstart : start ≤ fin)
    (hfin : fin ≤ body.length) :
    ∃ p, findSubstr body start fin needle = some p ∧ IsFirst body start fin needle p := by
  unfold findSubstr
  by_cases hempty : needle = []
  · subst hempty
    exact ⟨start, rfl, Or.inl ⟨Nat.le_refl _, by simpa using hstart, List.nil_prefix⟩,
      fun q hq hlt => absurd hq (Nat.not_le.mpr hlt)⟩
  · rw [if_neg (by simpa using hempty)]
    by_cases hshort : fin - start < needle.length
    · rw [if_pos hshort]
      refine ⟨fin, rfl, Or.inr rfl, ?_⟩
      intro q hq _ hend
      omega
    · rw [if_neg hshort]
      exact findSubstrLoop_spec hfin (by omega) (by omega)

/-- The search up to the end of the body, over what is left of it. -/
theorem findSubstr_eq {body needle : Bytes} {start : ℕ} (hne : needle ≠ [])
    (hstart : start ≤ body.length) : findSubstr body start body.length needle =
      some ((FirstMatch.find needle (body.drop start)).elim body.length (start + ·)) := by
  obtain ⟨p, hfind, hfirst, hmin⟩ := findSubstr_spec needle hstart (Nat.le_refl _)
  rw [hfind]
  have hpos := List.length_pos_of_ne_nil hne
  have hinside : ∀ {q : ℕ}, needle <+: body.drop q → q + needle.length ≤ body.length := by
    intro q hpre
    have hle := hpre.length_le
    rw [List.length_drop] at hle
    omega
  cases hlist : FirstMatch.find needle (body.drop start) with
  | none =>
    rcases hfirst with ⟨hle, hend, hpre⟩ | rfl
    · refine absurd ?_ (FirstMatch.find_eq_none_iff.mp hlist (p - start)
        (by rw [List.length_drop]; omega))
      rw [List.drop_drop, Nat.add_sub_cancel' hle]
      exact hpre
    · rfl
  | some n =>
    obtain ⟨-, hpre, hbefore⟩ := FirstMatch.find_eq_some_iff.mp hlist
    rw [List.drop_drop] at hpre
    have hend := hinside hpre
    rw [Option.elim_some, Option.some.injEq]
    -- neither of the two is before the other
    have hnotBefore : ¬ start + n < p := fun hlt =>
      hmin (start + n) (Nat.le_add_right _ _) hlt hend hpre
    rcases hfirst with ⟨hle, -, hpre'⟩ | rfl
    · have hnotAfter : ¬ p - start < n := by
        intro hlt
        refine hbefore (p - start) hlt ?_
        rw [List.drop_drop, Nat.add_sub_cancel' hle]
        exact hpre'
      omega
    · omega

/-! ### The parse -/

/-- A file of the form: where its data begins, and how much there is. -/
structure MultipartSlice where
  filename : Bytes
  contentType : Bytes
  data : ℕ
  len : ℕ
  deriving DecidableEq, Repr

/-- The bytes between two positions; `none` is a range that is not in the body. -/
def bytesBetween (body : Bytes) (start fin : ℕ) : Option Bytes :=
  if start ≤ fin ∧ fin ≤ body.length then some ((body.drop start).take (fin - start)) else none

/-- Two bytes that are compared where there are two. -/
def pairAt (body : Bytes) (p fin : ℕ) (pair : Bytes) : Option Bool :=
  if p + 2 ≤ fin then matchesAt body p pair else some false

/-- The test for a line end in front of `next`, where there is room for it behind `start`. -/
def lineEndBefore (body : Bytes) (start next : ℕ) : Option Bool :=
  if 2 ≤ next - start then matchesAt body (next - 2) crlf else some false

/-- What `parseMultipartFirstFile` does once it has the header block, with the data behind it. -/
def multipartData (body delim headers : Bytes) (dataStart : ℕ) :
    Option (Option MultipartSlice) := do
  let next ← findSubstr body dataStart body.length delim
  if next = body.length then return none
  else do
    let broken ← lineEndBefore body dataStart next
    let dataEnd := if broken then next - 2 else next
    if dataEnd < dataStart then return none
    else return some ⟨partFilename headers, partContentType headers, dataStart, dataEnd - dataStart⟩

/-- `parseMultipartFirstFile` on the bytes of the body: `none` is a fault, `some none` is its
`false`. -/
def parseMultipartAt (body boundary : Bytes) : Option (Option MultipartSlice) := do
  let fin := body.length
  if fin = 0 then return none
  else do
    let delim := ascii "--" ++ boundary
    let first ← findSubstr body 0 fin delim
    if first = fin then return none
    else do
      let part := first + delim.length
      if ← pairAt body part fin (ascii "--") then return none
      else do
        let part := if ← pairAt body part fin crlf then part + 2 else part
        let hdrEnd ← findSubstr body part fin crlfcrlf
        if hdrEnd = fin then return none
        else do
          let headers ← bytesBetween body part hdrEnd
          multipartData body delim headers (hdrEnd + 4)

/-- The file as its bytes. -/
def MultipartSlice.file (body : Bytes) (slice : MultipartSlice) : MultipartFile :=
  ⟨slice.filename, slice.contentType, (body.drop slice.data).take slice.len⟩

/-- A slice of the body behind a blank line, up to a delimiter or the line end in front of it, with
no delimiter inside. -/
structure MultipartSlice.Delimited (body delim : Bytes) (slice : MultipartSlice) : Prop where
  inside : slice.data + slice.len ≤ body.length
  blank : crlfcrlf <:+ body.take slice.data
  delimiter : delim <+: body.drop (slice.data + slice.len) ∨
    crlf ++ delim <+: body.drop (slice.data + slice.len)
  whole : ¬ delim <:+: (body.drop slice.data).take slice.len

theorem lineEndBefore_eq {body : Bytes} {start n : ℕ} (h : start + n ≤ body.length) :
    lineEndBefore body start (start + n) =
      some (crlf.isSuffixOf ((body.drop start).take n)) := by
  unfold lineEndBefore
  rw [Nat.add_sub_cancel_left]
  have hlen : ((body.drop start).take n).length = n := by
    rw [List.length_take, List.length_drop]
    omega
  by_cases htwo : 2 ≤ n
  · have hcrlf : crlf.length = 2 := rfl
    rw [if_pos htwo, matchesAt_eq (by rw [hcrlf]; omega), Option.some.injEq, Bool.eq_iff_iff,
      List.isPrefixOf_iff_prefix, List.isSuffixOf_iff_suffix, List.prefix_iff_eq_take,
      List.suffix_iff_eq_drop, hlen, hcrlf, List.drop_take, List.drop_drop,
      show n - (n - 2) = 2 by omega, show start + (n - 2) = start + n - 2 by omega]
  · rw [if_neg htwo, Option.some.injEq, eq_comm, ← Bool.not_eq_true, List.isSuffixOf_iff_suffix]
    intro hsuffix
    have hle := hsuffix.length_le
    rw [hlen, show crlf.length = 2 from rfl] at hle
    exact htwo hle

/-- **The data of the part**: no fault, and the slice up to the first delimiter. -/
theorem multipartData_spec {body delim headers : Bytes} {dataStart : ℕ} (hne : delim ≠ [])
    (hstart : dataStart ≤ body.length) (hblank : crlfcrlf <:+ body.take dataStart) :
    ∃ r, multipartData body delim headers dataStart = some r ∧
      r.map (·.file body) = (FirstMatch.find delim (body.drop dataStart)).map (fun next =>
        let data := (body.drop dataStart).take next
        { filename := partFilename headers
          contentType := partContentType headers
          data := if crlf.isSuffixOf data then data.dropLast.dropLast else data }) ∧
      ∀ slice ∈ r, slice.Delimited body delim := by
  unfold multipartData
  rw [findSubstr_eq hne hstart]
  cases hfind : FirstMatch.find delim (body.drop dataStart) with
  | none => exact ⟨none, by simp, rfl, by simp⟩
  | some n =>
    have hlen := FirstMatch.length_le_of_find hfind
    have hpos := List.length_pos_of_ne_nil hne
    have hpre := (FirstMatch.find_eq_some_iff.mp hfind).2.1
    rw [List.drop_drop] at hpre
    rw [List.length_drop] at hlen
    have hnext : dataStart + n ≠ body.length := by omega
    have htotal : dataStart + n ≤ body.length := by omega
    simp only [Option.elim_some, Option.bind_eq_bind, Option.bind_some, hnext, if_false,
      lineEndBefore_eq htotal, Option.map_some]
    cases hbroken : crlf.isSuffixOf ((body.drop dataStart).take n) with
    | false =>
      refine ⟨some ⟨partFilename headers, partContentType headers, dataStart, n⟩, by simp, ?_, ?_⟩
      · simp [MultipartSlice.file]
      · rintro slice ⟨⟩
        exact ⟨htotal, hblank, Or.inl hpre, FirstMatch.not_infix_take hfind hne (Nat.le_refl n)⟩
    | true =>
      -- the line end is cut off
      obtain ⟨before, hbefore⟩ := List.isSuffixOf_iff_suffix.mp hbroken
      have htwo : before.length + 2 = n := by
        have hlength := congrArg List.length hbefore
        simp only [List.length_append, List.length_take, List.length_drop, crlf, List.length_cons,
          List.length_nil] at hlength
        omega
      have hsplit : body.drop dataStart = before ++ (crlf ++ (body.drop dataStart).drop n) := by
        rw [← List.append_assoc, hbefore, List.take_append_drop]
      have hdata : ((body.drop dataStart).take n).dropLast.dropLast = before := by
        rw [← hbefore]
        simp [crlf]
      have htake : (body.drop dataStart).take before.length = before := by
        rw [hsplit, List.take_left]
      refine ⟨some ⟨partFilename headers, partContentType headers, dataStart, before.length⟩, ?_,
        ?_, ?_⟩
      · have hle : ¬ dataStart + n - 2 < dataStart := by omega
        have hlength : dataStart + n - 2 - dataStart = before.length := by omega
        simp [hle, hlength]
      · simp [MultipartSlice.file, hdata, htake]
      · rintro slice ⟨⟩
        have hle : before.length ≤ n := by omega
        refine ⟨by dsimp only; omega, hblank, Or.inr ?_, FirstMatch.not_infix_take hfind hne hle⟩
        dsimp only
        rw [← List.drop_drop, hsplit, List.drop_left, List.drop_drop]
        exact (List.prefix_append_right_inj crlf).mpr hpre

theorem pairAt_eq {body pair : Bytes} {p : ℕ} (hp : p ≤ body.length) (htwo : pair.length = 2) :
    pairAt body p body.length pair = some (pair.isPrefixOf (body.drop p)) := by
  unfold pairAt
  by_cases hroom : p + 2 ≤ body.length
  · rw [if_pos hroom, matchesAt_eq (by omega)]
  · rw [if_neg hroom, Option.some.injEq, eq_comm, ← Bool.not_eq_true, List.isPrefixOf_iff_prefix]
    intro hpre
    have hle := hpre.length_le
    rw [List.length_drop] at hle
    omega

/-- A line end that may stand at a position is passed over. -/
theorem exists_behindLine {body : Bytes} {part : ℕ} (h : part ≤ body.length) : ∃ part',
    (if crlf.isPrefixOf (body.drop part) = true then part + 2 else part) = part' ∧
      part' ≤ body.length ∧ (if crlf.isPrefixOf (body.drop part) = true then
        (body.drop part).drop 2 else body.drop part) = body.drop part' := by
  by_cases hline : crlf.isPrefixOf (body.drop part) = true
  · have hroom := (List.isPrefixOf_iff_prefix.mp hline).length_le
    rw [List.length_drop, show crlf.length = 2 from rfl] at hroom
    exact ⟨part + 2, if_pos hline, by omega, by rw [if_pos hline, List.drop_drop]⟩
  · exact ⟨part, if_neg hline, h, if_neg hline⟩

/-- The blank line that was found is in front of what follows it. -/
theorem blank_suffix_take {body : Bytes} {start n : ℕ}
    (h : FirstMatch.find crlfcrlf (body.drop start) = some n) :
    crlfcrlf <:+ body.take (start + n + 4) := by
  have hpre := (FirstMatch.find_eq_some_iff.mp h).2.1
  rw [List.drop_drop, List.prefix_iff_eq_take, show crlfcrlf.length = 4 from rfl] at hpre
  rw [List.take_add, ← hpre]
  exact List.suffix_append _ _

/-- **What is read with pointers is what `parseMultipartFirstFile` yields**, without a fault. -/
theorem parseMultipartAt_eq (body boundary : Bytes) :
    ∃ r, parseMultipartAt body boundary = some r ∧
      r.map (·.file body) = parseMultipartFirstFile body boundary ∧
      ∀ slice ∈ r, slice.Delimited body (ascii "--" ++ boundary) := by
  have hdelim : ascii "--" ++ boundary ≠ [] := by simp
  unfold parseMultipartAt parseMultipartFirstFile
  by_cases hempty : body = []
  · subst hempty
    exact ⟨none, rfl, by simp [FirstMatch.find], by simp⟩
  have hpos : body.length ≠ 0 := fun h => hempty (List.eq_nil_of_length_eq_zero h)
  dsimp only
  rw [if_neg hpos, findSubstr_eq hdelim (Nat.zero_le _), List.drop_zero]
  generalize ascii "--" ++ boundary = delim at hdelim ⊢
  cases hfirst : FirstMatch.find delim body with
  | none => exact ⟨none, by simp, rfl, by simp⟩
  | some first =>
    have hlen := FirstMatch.length_le_of_find hfirst
    have hdelimPos := List.length_pos_of_ne_nil hdelim
    have hne : first ≠ body.length := by omega
    simp only [Option.elim_some, Nat.zero_add, Option.bind_eq_bind, Option.bind_some, hne, if_false,
      pairAt_eq hlen (show (ascii "--").length = 2 from rfl), pairAt_eq hlen (show crlf.length = 2
        from rfl)]
    generalize first + delim.length = part at hlen
    cases hclose : (ascii "--").isPrefixOf (body.drop part) with
    | true => exact ⟨none, by simp, by simp, by simp⟩
    | false =>
      -- the header block begins behind the line end, if there is one
      obtain ⟨part', hpart', hle, hdrop⟩ := exists_behindLine hlen
      simp only [hpart', hdrop, Bool.not_false, guard_true, Option.bind_some,
        findSubstr_eq (show crlfcrlf ≠ [] by decide) hle]
      cases hend : FirstMatch.find crlfcrlf (body.drop part') with
      | none => exact ⟨none, by simp, by simp, by simp⟩
      | some n =>
        have hroom := FirstMatch.length_le_of_find hend
        rw [List.length_drop, show crlfcrlf.length = 4 from rfl] at hroom
        have hinside : part' + n ≤ body.length := by omega
        have hne' : part' + n ≠ body.length := by omega
        have hbytes : bytesBetween body part' (part' + n) = some ((body.drop part').take n) := by
          rw [bytesBetween, if_pos ⟨Nat.le_add_right _ _, hinside⟩, Nat.add_sub_cancel_left]
        obtain ⟨r, hr, hfile, hslice⟩ := @multipartData_spec body delim
          ((body.drop part').take n) (part' + n + 4) hdelim (by omega) (blank_suffix_take hend)
        refine ⟨r, by simpa [hne', hbytes] using hr, ?_, hslice⟩
        have hdata : (body.drop part').drop (n + 4) = body.drop (part' + n + 4) := by
          rw [List.drop_drop, Nat.add_assoc]
        simp only [hfile, Option.pure_def, Option.bind_some, hdata]
        cases FirstMatch.find delim (body.drop (part' + n + 4)) with
        | none => rfl
        | some next => rfl

/-- **No fault, and a slice between its delimiters.**  The search stays within its bounds and finds
the first occurrence; the parse reads inside the body, and what it yields is a slice behind a blank
line, in front of a delimiter, with no delimiter inside. -/
theorem multipart_inside (body boundary : Bytes) :
    (∀ start fin needle, start ≤ fin → fin ≤ body.length →
        ∃ p, findSubstr body start fin needle = some p ∧ IsFirst body start fin needle p) ∧
      ∃ r, parseMultipartAt body boundary = some r ∧
        r.map (·.file body) = parseMultipartFirstFile body boundary ∧
        ∀ slice ∈ r, slice.Delimited body (ascii "--" ++ boundary) :=
  ⟨fun _ _ needle hstart hfin => findSubstr_spec needle hstart hfin,
    parseMultipartAt_eq body boundary⟩

theorem multipart_inside_overlap :
    ∃ p, findSubstr (ascii "aab-ab") 1 5 (ascii "ab") = some p ∧
      IsFirst (ascii "aab-ab") 1 5 (ascii "ab") p :=
  (multipart_inside (ascii "aab-ab") (ascii "b")).1 1 5 (ascii "ab") (by decide) (by decide)

/-- A delimiter that is cut short at the end of the body. -/
example : parseMultipartAt (ascii "--b\r\n\r\n\r\nx\r\n--") (ascii "b") = some none := by
  decide +kernel

end Webserv
