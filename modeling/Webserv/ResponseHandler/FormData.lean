import Webserv.ResponseHandler.Multipart

/-!
# Forms

A form is written part by part, each behind a delimiter of its own.  `parseMultipartFirstFile`
reads the first part, whether it has a file name or not.

## Main results

* `partFilename_quote` — a file name is looked for from quote to quote.
* `parseMultipartFirstFile_formBody` — what is read off a form.
* `firstFile_iff` — **when that is the first file of the form.**
-/

namespace Webserv

open Bytes

/-- A part of a form. -/
structure FormPart where
  name : Bytes
  filename : Option Bytes
  contentType : Option Bytes
  content : Bytes

namespace FormPart

/-- The Content-Type line, with the line end in front of it. -/
def typeLine (p : FormPart) : Bytes :=
  p.contentType.elim [] fun ct => crlf ++ (ascii "Content-Type: " ++ ct)

/-- The header block. -/
def headers (p : FormPart) : Bytes :=
  ascii "Content-Disposition: form-data; name=\"" ++ p.name ++ ascii "\"" ++
    p.filename.elim [] (fun fn => ascii "; filename=\"" ++ fn ++ ascii "\"") ++ p.typeLine

/-- A part with the delimiter in front of it. -/
def text (delim : Bytes) (p : FormPart) : Bytes :=
  delim ++ crlf ++ p.headers ++ crlfcrlf ++ p.content ++ crlf

/-- No quotes and line ends where they would end a field, and no delimiter in the content. -/
structure WellFormed (delim : Bytes) (p : FormPart) : Prop where
  name : 34 ∉ p.name ∧ CR ∉ p.name
  filename : ∀ fn ∈ p.filename, 34 ∉ fn ∧ CR ∉ fn
  contentType : ∀ ct ∈ p.contentType, CR ∉ ct
  content : ¬ crlf ++ delim <:+: p.content ∧ ¬ delim <+: p.content

end FormPart

/-- A form, with what stands behind its last delimiter. -/
def formBody (boundary : Bytes) (parts : List FormPart) (epilogue : Bytes) : Bytes :=
  (parts.map (·.text (ascii "--" ++ boundary))).flatten ++
    (ascii "--" ++ boundary ++ ascii "--" ++ epilogue)

/-- The first file of a form, with its name. -/
def firstFile (parts : List FormPart) : Option (Bytes × Bytes) :=
  parts.findSome? fun p => p.filename.map fun fn => (fn, p.content)

/-! ### The file name -/

/-- The text up to the next quote, if there is one. -/
def upToQuote (text : Bytes) : Bytes :=
  if text.contains 34 then text.takeWhile (· != 34) else []

theorem upToQuote_append {l r : Bytes} (hl : 34 ∉ l) : upToQuote (l ++ 34 :: r) = l := by
  have hall : ∀ b ∈ l, (b != 34) = true := by
    intro b hb
    simpa using fun h : b = 34 => hl (h ▸ hb)
  rw [upToQuote, if_pos (by simp), List.takeWhile_append_of_pos hall]
  simp

/-- **A file name is looked for from quote to quote.** -/
theorem partFilename_quote {l r : Bytes} (hl : 34 ∉ l) :
    partFilename (l ++ 34 :: r) =
      if ascii "filename=" <:+ l then upToQuote r else partFilename r := by
  have hpat : ascii "filename=\"" = ascii "filename=" ++ [34] := by decide
  have hkey : 34 ∉ ascii "filename=" := by decide
  have hlen : (ascii "filename=").length = 9 := rfl
  unfold partFilename
  rw [hpat, FirstMatch.find_concat_append_cons hkey hl]
  by_cases hname : ascii "filename=" <:+ l
  · have hle := hname.length_le
    have hdrop : (l ++ 34 :: r).drop (l.length - 9 + 10) = r := by
      rw [show l.length - 9 + 10 = l.length + 1 by omega, List.drop_append]
      simp
    simp only [hname, if_true, hlen, hdrop, upToQuote]
  · simp only [hname, if_false]
    cases FirstMatch.find (ascii "filename=" ++ [34]) r with
    | none => rfl
    | some i =>
      have hdrop : (l ++ 34 :: r).drop (l.length + 1 + i + 10) = r.drop (i + 10) := by
        rw [show l.length + 1 + i + 10 = l.length + (i + 10 + 1) by omega, List.drop_append]
        simp
      simp only [Option.map_some, hdrop]

/-- The file name that is read off a part without one: what stands quoted behind `filename=`. -/
def FormPart.stray (p : FormPart) : Bytes :=
  if ascii "filename=" <:+ p.name then upToQuote p.typeLine
  else (FirstMatch.find (ascii "filename=\"") p.typeLine).elim [] fun i =>
    upToQuote (p.typeLine.drop (i + 10))

theorem partFilename_eq_elim (text : Bytes) : partFilename text =
    (FirstMatch.find (ascii "filename=\"") text).elim [] fun i =>
      upToQuote (text.drop (i + 10)) := by
  unfold partFilename upToQuote
  cases FirstMatch.find (ascii "filename=\"") text with
  | none => rfl
  | some i => rfl

/-- The file name that is read off a part. -/
theorem partFilename_headers {delim : Bytes} {p : FormPart} (h : p.WellFormed delim) :
    partFilename p.headers = match p.filename with
      | some fn => if ascii "filename=" <:+ p.name then ascii "; filename=" else fn
      | none => p.stray := by
  have hfield : ascii "Content-Disposition: form-data; name=\"" =
      ascii "Content-Disposition: form-data; name=" ++ [34] := by decide
  have hfile : ascii "; filename=\"" = ascii "; filename=" ++ [34] := by decide
  have hquote : ascii "\"" = [34] := rfl
  have hname := h.name.1
  have hfirst : ¬ ascii "filename=" <:+ ascii "Content-Disposition: form-data; name=" := by decide
  unfold FormPart.headers
  rw [hfield, hfile, hquote]
  simp only [List.append_assoc, List.cons_append, List.nil_append]
  rw [partFilename_quote (by decide), if_neg hfirst, partFilename_quote hname]
  cases hfn : p.filename with
  | none =>
    rw [Option.elim_none, List.nil_append, FormPart.stray, partFilename_eq_elim]
  | some fn =>
    have hfn' := (h.filename fn hfn).1
    have hsecond : ascii "filename=" <:+ ascii "; filename=" := by decide
    simp only [Option.elim_some, List.append_assoc, List.cons_append, List.nil_append]
    rw [upToQuote_append (by decide), partFilename_quote (by decide), if_pos hsecond,
      upToQuote_append hfn']

/-! ### The first part -/

/-- The content of a part up to the delimiter. -/
def FormPart.cut (delim : Bytes) (p : FormPart) : Bytes :=
  p.content.take ((FirstMatch.find delim p.content).getD p.content.length)

/-- The header block ends where it does. -/
theorem find_headers {delim : Bytes} {p : FormPart} (h : p.WellFormed delim) (rest : Bytes) :
    FirstMatch.find crlfcrlf (p.headers ++ (crlfcrlf ++ rest)) = some p.headers.length := by
  have hfront : CR ∉ ascii "Content-Disposition: form-data; name=\"" ++ p.name ++ ascii "\"" ++
      p.filename.elim [] (fun fn => ascii "; filename=\"" ++ fn ++ ascii "\"") := by
    have hfile : CR ∉ p.filename.elim [] (fun fn => ascii "; filename=\"" ++ fn ++ ascii "\"") := by
      cases hfn : p.filename with
      | none => simp
      | some fn =>
        have hcr := (h.filename fn hfn).2
        have hconst : CR ∉ ascii "; filename=\"" ∧ CR ∉ ascii "\"" := by decide
        simp [hcr, hconst]
    have hconst : CR ∉ ascii "Content-Disposition: form-data; name=\"" ∧ CR ∉ ascii "\"" := by
      decide
    simp only [List.mem_append, not_or]
    exact ⟨⟨⟨hconst.1, h.name.2⟩, hconst.2⟩, hfile⟩
  unfold FormPart.headers
  generalize ascii "Content-Disposition: form-data; name=\"" ++ p.name ++ ascii "\"" ++
      p.filename.elim [] (fun fn => ascii "; filename=\"" ++ fn ++ ascii "\"") = front at hfront ⊢
  have hcrlf : crlfcrlf = CR :: [LF, CR, LF] := rfl
  rw [List.append_assoc, hcrlf, FirstMatch.find_append_of_notMem hfront, ← hcrlf]
  unfold FormPart.typeLine
  cases hct : p.contentType with
  | none => simp [FirstMatch.find_append_self]
  | some ct =>
    -- the line end in front of the Content-Type line is not followed by another one
    have hline : CR ∉ LF :: (ascii "Content-Type: " ++ ct) := by
      have hconst : CR ∉ ascii "Content-Type: " ∧ ¬ CR = LF := by decide
      simp [hconst, h.contentType ct hct]
    have hpair :
        ¬ crlfcrlf <+: CR :: (LF :: (ascii "Content-Type: " ++ ct) ++ (crlfcrlf ++ rest)) := by
      rw [hcrlf, show ascii "Content-Type: " = 67 :: ascii "ontent-Type: " by decide]
      simp [CR]
    have htext : crlf ++ (ascii "Content-Type: " ++ ct) ++ (crlfcrlf ++ rest) =
        CR :: (LF :: (ascii "Content-Type: " ++ ct) ++ (crlfcrlf ++ rest)) := by
      simp [crlf]
    rw [Option.elim_some, htext, FirstMatch.find_cons_neg hpair, hcrlf,
      FirstMatch.find_append_of_notMem hline, ← hcrlf, FirstMatch.find_append_self]
    simp [crlf]

/-- The data end at the first delimiter, which is not across the line end in front of the next
part. -/
theorem find_content {delim : Bytes} (hdelim : CR ∉ delim ∧ LF ∉ delim) (hne : delim ≠ [])
    (content rest : Bytes) :
    FirstMatch.find delim (content ++ (crlf ++ (delim ++ rest))) =
      some ((FirstMatch.find delim content).getD (content.length + 2)) := by
  have hlf : FirstMatch.find delim (LF :: (delim ++ rest)) = some 1 := by
    rw [← List.nil_append (LF :: _), FirstMatch.find_append_cons_of_notMem hdelim.2 hne,
      FirstMatch.find_nil hne, FirstMatch.find_append_self]
    rfl
  rw [show crlf ++ (delim ++ rest) = CR :: (LF :: (delim ++ rest)) from rfl,
    FirstMatch.find_append_cons_of_notMem hdelim.1 hne, hlf]
  cases FirstMatch.find delim content with
  | none => rfl
  | some n => rfl

/-- The data, without the line end in front of the delimiter. -/
theorem data_eq_cut {delim : Bytes} {p : FormPart} (h : p.WellFormed delim) (rest : Bytes) :
    let data := (p.content ++ (crlf ++ rest)).take
      ((FirstMatch.find delim p.content).getD (p.content.length + 2))
    (if crlf.isSuffixOf data then data.dropLast.dropLast else data) = p.cut delim := by
  unfold FormPart.cut
  dsimp only
  cases hfind : FirstMatch.find delim p.content with
  | none =>
    have htake : (p.content ++ (crlf ++ rest)).take (p.content.length + 2) = p.content ++ crlf := by
      rw [List.take_append]
      simp [crlf]
    rw [Option.getD_none, Option.getD_none, htake,
      if_pos (List.isSuffixOf_iff_suffix.mpr (List.suffix_append _ _)), List.take_length]
    simp [crlf]
  | some n =>
    have hlen := FirstMatch.length_le_of_find hfind
    have htake : (p.content ++ (crlf ++ rest)).take n = p.content.take n :=
      List.take_append_of_le_length (by omega)
    rw [Option.getD_some, Option.getD_some, htake, if_neg]
    -- the content has no delimiter behind a line end
    intro hsuffix
    refine h.content.1 ?_
    rw [FirstMatch.eq_append_of_find hfind]
    obtain ⟨before, hbefore⟩ := List.isSuffixOf_iff_suffix.mp hsuffix
    rw [← hbefore]
    exact ⟨before, p.content.drop (n + delim.length), by simp⟩

/-- **What is read off a form**: its first part, up to the first delimiter. -/
theorem parseMultipartFirstFile_formBody {boundary : Bytes} (hcr : CR ∉ boundary)
    (hlf : LF ∉ boundary) {p : FormPart} (h : p.WellFormed (ascii "--" ++ boundary))
    (parts : List FormPart) (epilogue : Bytes) :
    parseMultipartFirstFile (formBody boundary (p :: parts) epilogue) boundary =
      some ⟨partFilename p.headers, partContentType p.headers, p.cut (ascii "--" ++ boundary)⟩ := by
  have hdelim : CR ∉ ascii "--" ++ boundary ∧ LF ∉ ascii "--" ++ boundary := by
    have hconst : CR ∉ ascii "--" ∧ LF ∉ ascii "--" := by decide
    simp [hcr, hlf, hconst]
  have hne : ascii "--" ++ boundary ≠ [] := by simp
  unfold parseMultipartFirstFile formBody
  generalize ascii "--" ++ boundary = delim at h hdelim hne ⊢
  -- behind the first part there is another delimiter
  obtain ⟨rest, hrest⟩ : ∃ rest, (parts.map (·.text delim)).flatten ++
      (delim ++ ascii "--" ++ epilogue) = delim ++ rest := by
    cases parts with
    | nil => exact ⟨ascii "--" ++ epilogue, by simp⟩
    | cons p' parts =>
      rw [List.map_cons, List.flatten_cons, FormPart.text]
      simp only [List.append_assoc]
      exact ⟨_, rfl⟩
  have hbody : ((p :: parts).map (·.text delim)).flatten ++ (delim ++ ascii "--" ++ epilogue) =
      delim ++ (crlf ++ (p.headers ++ (crlfcrlf ++ (p.content ++ (crlf ++ (delim ++ rest)))))) := by
    rw [List.map_cons, List.flatten_cons, List.append_assoc, hrest]
    simp [FormPart.text]
  have hclose : ∀ r, (ascii "--").isPrefixOf (crlf ++ r) = false := fun r => rfl
  have hline : ∀ r, crlf.isPrefixOf (crlf ++ r) = true := fun r => by simp
  have hcrlf : ∀ r, (crlf ++ r).drop 2 = r := fun r => rfl
  have hblank : ∀ r : Bytes, (p.headers ++ (crlfcrlf ++ r)).drop (p.headers.length + 4) = r := by
    intro r
    rw [← List.drop_drop, List.drop_left]
    rfl
  dsimp only
  rw [hbody, FirstMatch.find_append_self]
  simp only [Option.bind_eq_bind, Option.bind_some, Nat.zero_add, List.drop_left, hclose,
    Bool.not_false, guard_true, Option.pure_def, hline, if_true, hcrlf, find_headers h,
    List.take_left, hblank, find_content hdelim hne, data_eq_cut h]

/-! ### The first file -/

/-- A content is read whole when there is no delimiter in it. -/
theorem cut_eq_content_iff {delim : Bytes} (hne : delim ≠ []) (p : FormPart) :
    p.cut delim = p.content ↔ ¬ delim <:+: p.content := by
  have hpos := List.length_pos_of_ne_nil hne
  unfold FormPart.cut
  cases hfind : FirstMatch.find delim p.content with
  | none =>
    exact iff_of_true List.take_length (FirstMatch.find_eq_none_iff_not_infix.mp hfind)
  | some n =>
    refine iff_of_false ?_ (not_not_intro ?_)
    · intro heq
      have hlen := FirstMatch.length_le_of_find hfind
      have hlength := congrArg List.length heq
      rw [Option.getD_some, List.length_take] at hlength
      omega
    · rw [FirstMatch.eq_append_of_find hfind]
      exact ⟨p.content.take n, _, rfl⟩

/-- The form is read as it should be: its first part is a file with nothing in the way of its name
and content, or it is none and happens to read like the file. -/
def ReadAsMeant (delim : Bytes) (p : FormPart) (parts : List FormPart) : Prop :=
  match p.filename with
  | some fn => (ascii "filename=" <:+ p.name → fn = ascii "; filename=") ∧ ¬ delim <:+: p.content
  | none => firstFile parts = some (p.stray, p.cut delim)

/-- **When a form is read as its first file.** -/
theorem firstFile_iff {boundary : Bytes} (hcr : CR ∉ boundary) (hlf : LF ∉ boundary)
    {p : FormPart} {parts : List FormPart}
    (h : ∀ q ∈ p :: parts, q.WellFormed (ascii "--" ++ boundary)) (epilogue : Bytes) :
    (parseMultipartFirstFile (formBody boundary (p :: parts) epilogue) boundary).map
        (fun file => (file.filename, file.data)) = firstFile (p :: parts) ↔
      ReadAsMeant (ascii "--" ++ boundary) p parts := by
  have hp := h p List.mem_cons_self
  rw [parseMultipartFirstFile_formBody hcr hlf hp, Option.map_some, partFilename_headers hp]
  unfold ReadAsMeant firstFile
  rw [List.findSome?_cons]
  cases hfn : p.filename with
  | none =>
    dsimp only [Option.map_none]
    exact eq_comm
  | some fn =>
    dsimp only [Option.map_some]
    rw [Option.some.injEq, Prod.mk.injEq,
      cut_eq_content_iff (show ascii "--" ++ boundary ≠ [] by simp)]
    by_cases hname : ascii "filename=" <:+ p.name
    · simp only [hname, if_true, forall_const]
      rw [eq_comm]
    · simp [hname]

/-- A form with a field and a file. -/
private def fieldAndFile : List FormPart :=
  [⟨ascii "a", none, none, ascii "1"⟩, ⟨ascii "f", some (ascii "x"), none, ascii "2"⟩]

/-- A form with a file and a field. -/
private def fileAndField : List FormPart :=
  [⟨ascii "f", some (ascii "x"), some (ascii "text/plain"), ascii "2\r\n"⟩,
    ⟨ascii "a", none, none, ascii "1"⟩]

theorem firstFile_read : (parseMultipartFirstFile (formBody (ascii "b") fileAndField crlf)
    (ascii "b")).map (fun file => (file.filename, file.data)) = firstFile fileAndField := by
  refine (firstFile_iff (by decide) (by decide) ?_ crlf).mpr ⟨?_, ?_⟩
  · intro q hq
    rcases List.mem_pair.mp hq with rfl | rfl
    · exact ⟨by decide, by decide, by decide, by decide⟩
    · exact ⟨by decide, by decide, by decide, by decide⟩
  · exact fun hname => absurd hname (by decide)
  · decide

/-- **A field in front of the file** is stored instead of it. -/
theorem not_firstFile : ¬ ∀ (boundary : Bytes) (parts : List FormPart) (epilogue : Bytes),
    CR ∉ boundary → LF ∉ boundary → 34 ∉ boundary → parts ≠ [] →
      (∀ q ∈ parts, q.WellFormed (ascii "--" ++ boundary)) →
        (parseMultipartFirstFile (formBody boundary parts epilogue) boundary).map
          (fun file => (file.filename, file.data)) = firstFile parts := by
  intro h
  have hread := h (ascii "b") fieldAndFile [] (by decide) (by decide) (by decide) (by decide) (by
    intro q hq
    rcases List.mem_pair.mp hq with rfl | rfl
    · exact ⟨by decide, by decide, by decide, by decide⟩
    · exact ⟨by decide, by decide, by decide, by decide⟩)
  exact absurd hread (by decide +kernel)

end Webserv
