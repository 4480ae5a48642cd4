import Webserv.Lib.Escaping
import Webserv.ResponseHandler.Handle

/-!
# Names in a page

`htmlEscape` writes five bytes as entities.  A reader of a page is in text, in a tag or in a value
between quotes, and no escaped name takes it from one into another.

## Main results

* `notMem_htmlEscape`, `unescape_htmlEscape` — what is escaped, and how it is read back.
* `listing_slot` — what a reader of a listing finds where a name or a path was placed.
* `htmlEscape_spec` — **escaping is complete and can be undone, in the listing too.**
-/

namespace Webserv

open Bytes Escaping

/-! ### Entities -/

/-- The entities, each with the byte that it stands for. -/
def entities : List (UInt8 × Bytes) :=
  [(38, ascii "&amp;"), (60, ascii "&lt;"), (62, ascii "&gt;"), (34, ascii "&quot;"),
    (39, ascii "&#39;")]

theorem escapeByte_eq (b : UInt8) : escapeByte b = escapeOne entities b := by
  by_cases hb : b ∈ entities.map (·.1)
  · have hall : ∀ e ∈ entities, escapeByte e.1 = escapeOne entities e.1 := by decide
    obtain ⟨e, he, rfl⟩ := List.mem_map.mp hb
    exact hall e he
  · have hnone : entities.find? (·.1 = b) = none := by
      rw [List.find?_eq_none]
      intro e he heq
      exact hb (List.mem_map.mpr ⟨e, he, of_decide_eq_true heq⟩)
    rw [escapeOne, hnone]
    simp only [entities, List.map_cons, List.map_nil, List.mem_cons, not_or] at hb
    simp [escapeByte, hb]

theorem htmlEscape_eq (s : Bytes) : htmlEscape s = escape entities s := by
  rw [htmlEscape, escape, funext escapeByte_eq]

theorem sound_entities : Sound entities 38 where
  marked e he := by
    have htail : ∀ e ∈ entities, e.2 = 38 :: e.2.tail ∧ 38 ∉ e.2.tail := by decide
    exact ⟨e.2.tail, htail e he⟩
  escaped := by decide
  apart := by decide

theorem htmlEscape_append (s t : Bytes) : htmlEscape (s ++ t) = htmlEscape s ++ htmlEscape t := by
  simp only [htmlEscape_eq, escape_append]

/-- None of the bytes that end a text or a value are left. -/
theorem notMem_htmlEscape {b : UInt8} (hb : b ∈ [60, 62, 34, 39]) (s : Bytes) :
    b ∉ htmlEscape s := by
  intro hmem
  rw [htmlEscape_eq] at hmem
  have hentity : ∀ b ∈ [60, 62, 34, 39], (∀ e ∈ entities, b ∉ e.2) ∧ b ∈ entities.map Prod.fst := by
    decide +kernel
  rcases mem_escape hmem with ⟨e, he, hin⟩ | hplain
  · exact (hentity b hb).1 e he hin
  · exact hplain (hentity b hb).2

theorem unescape_htmlEscape (s : Bytes) : unescape entities (htmlEscape s) = s := by
  rw [htmlEscape_eq, unescape_escape sound_entities]

/-! ### Readers of a page -/

/-- Where a reader of a page is: in text, in a tag, or in a value of it between two quotes. -/
inductive Place
  | text
  | tag
  | value (quote : UInt8)
  deriving DecidableEq

namespace Place

/-- Where a reader is behind a character. -/
def next : Place → UInt8 → Place
  | .text, b => if b = 60 then .tag else .text
  | .tag, b => if b = 62 then .text else if b = 34 ∨ b = 39 then .value b else .tag
  | .value quote, b => if b = quote then .tag else .value quote

/-- Where a reader is behind a text. -/
def after (p : Place) (s : Bytes) : Place := s.foldl next p

/-- What a reader takes for the text or the value that it is in. -/
def content (p : Place) (s : Bytes) : Bytes := s.takeWhile fun b => p.next b = p

@[simp] theorem after_nil (p : Place) : p.after [] = p := rfl

theorem after_append (p : Place) (s t : Bytes) : p.after (s ++ t) = (p.after s).after t :=
  List.foldl_append

/-- Bytes at which a reader stays where it is. -/
theorem after_eq_self {p : Place} {s : Bytes} (h : ∀ b ∈ s, p.next b = p) : p.after s = p := by
  induction s with
  | nil => rfl
  | cons b s ih =>
    rw [after, List.foldl_cons, h b List.mem_cons_self]
    exact ih fun b hb => h b (List.mem_cons_of_mem _ hb)

/-- A place for names: in text, or in a value between double quotes. -/
def ForNames (p : Place) : Prop := p = .text ∨ p = .value 34

/-- **An escaped name does not lead out of its place.** -/
theorem ForNames.next_htmlEscape {p : Place} (hp : p.ForNames) (s : Bytes) :
    ∀ b ∈ htmlEscape s, p.next b = p := by
  intro b hb
  rcases hp with rfl | rfl
  · refine if_neg ?_
    rintro rfl
    exact notMem_htmlEscape (by decide) s hb
  · refine if_neg ?_
    rintro rfl
    exact notMem_htmlEscape (by decide) s hb

/-- **The byte behind an escaped name ends it**, and nothing before does. -/
theorem ForNames.content_htmlEscape {p : Place} (hp : p.ForNames) {b : UInt8} (hb : p.next b ≠ p)
    (s t : Bytes) : p.content (htmlEscape s ++ b :: t) = htmlEscape s := by
  have hall : ∀ b ∈ htmlEscape s, decide (p.next b = p) = true := fun b hb =>
    decide_eq_true (hp.next_htmlEscape s b hb)
  rw [content, List.takeWhile_append_of_pos hall, List.takeWhile_cons_of_neg (by simpa using hb),
    List.append_nil]

end Place

/-! ### The parts of a page -/

/-- A part of a page: bytes that are written as they are, or a place for a name. -/
inductive Part
  | fixed (s : Bytes)
  | slot (raw : Bytes)

/-- A part as it is written. -/
def Part.render : Part → Bytes
  | .fixed s => s
  | .slot raw => htmlEscape raw

/-- A page as it is written. -/
def render (parts : List Part) : Bytes := parts.flatMap Part.render

@[simp] theorem render_cons (part : Part) (parts : List Part) :
    render (part :: parts) = part.render ++ render parts := List.flatMap_cons

theorem render_append (parts parts' : List Part) :
    render (parts ++ parts') = render parts ++ render parts' := List.flatMap_append

/-- Every slot is a place for names, which the next byte of the page ends. -/
def Bounded : Place → List Part → Prop
  | _, [] => True
  | p, .fixed s :: parts => Bounded (p.after s) parts
  | p, .slot _ :: parts =>
    p.ForNames ∧ (∃ b t, render parts = b :: t ∧ p.next b ≠ p) ∧ Bounded p parts

theorem Bounded.fixed {p q : Place} {s : Bytes} {parts : List Part} (hs : p.after s = q)
    (h : Bounded q parts) : Bounded p (.fixed s :: parts) := by
  rw [Bounded, hs]
  exact h

/-- A slot in a text, with a tag behind it. -/
theorem Bounded.slot_text {parts : List Part} {raw : Bytes}
    (hend : (render parts).head? = some 60) (h : Bounded .text parts) :
    Bounded .text (.slot raw :: parts) :=
  ⟨Or.inl rfl, ⟨60, (render parts).tail, (List.cons_head?_tail hend).symm, by decide⟩, h⟩

/-- **What a reader finds in a slot** is what was placed there. -/
theorem Bounded.slot : ∀ {parts front back : List Part} {p : Place} {raw : Bytes},
    Bounded p parts → parts = front ++ .slot raw :: back →
      (p.after (render front)).ForNames ∧
        unescape entities ((p.after (render front)).content (render (.slot raw :: back))) =
          raw := by
  intro parts
  induction parts with
  | nil => intro front back p raw _ heq; simp at heq
  | cons part parts ih =>
    intro front back p raw h heq
    cases front with
    | nil =>
      rw [List.nil_append, List.cons.injEq] at heq
      obtain ⟨rfl, rfl⟩ := heq
      obtain ⟨hp, ⟨b, t, hrest, hb⟩, -⟩ := h
      refine ⟨hp, ?_⟩
      change unescape entities (p.content (htmlEscape raw ++ render parts)) = raw
      rw [hrest, hp.content_htmlEscape hb, unescape_htmlEscape]
    | cons part' front =>
      rw [List.cons_append, List.cons.injEq] at heq
      obtain ⟨rfl, heq⟩ := heq
      rw [render_cons, Place.after_append]
      cases part with
      | fixed s => exact ih h heq
      | slot raw' =>
        have hstay : p.after (Part.render (.slot raw')) = p :=
          Place.after_eq_self (h.1.next_htmlEscape raw')
        rw [hstay]
        exact ih h.2.2 heq

/-! ### The listing -/

/-- The parts of the row of an entry. -/
def rowParts (fs : FileSystem) (reqPath fsPath name : Bytes) : List Part :=
  let st := entryStat fs (fsPath ++ name)
  let slash := if st.isDir then [SLASH] else []
  [.fixed (ascii "<tr><td><a href=\""), .slot (reqPath ++ name ++ slash), .fixed (ascii "\">"),
    .slot (name ++ slash),
    .fixed (ascii "</a></td><td>" ++ (if st.isDir then ascii "-" else decimal st.size) ++
      ascii "</td></tr>\n")]

/-- The parts of the page for a directory. -/
def listingParts (fs : FileSystem) (reqPath fsPath : Bytes) (names : List Bytes) : List Part :=
  [.fixed (ascii "<!DOCTYPE html>\n<html>\n<head><meta charset=\"UTF-8\"><title>Index of "),
    .slot reqPath,
    .fixed (ascii "</title>\n" ++
      ascii ("<style>body\x7bfont-family:monospace;padding:1em\x7d" ++
        "table\x7bborder-collapse:collapse;width:100%\x7d" ++
        "th,td\x7btext-align:left;padding:4px 12px\x7d" ++
        "tr:nth-child(even)\x7bbackground:#f2f2f2\x7d" ++
        "a\x7btext-decoration:none\x7da:hover\x7btext-decoration:underline\x7d" ++
        "</style></head>\n<body>\n<h1>Index of ")),
    .slot reqPath,
    .fixed (ascii "</h1>\n<hr>\n<table>\n<tr><th>Name</th><th>Size</th></tr>\n" ++
      if reqPath ≠ [SLASH] then ascii "<tr><td><a href=\"../\">../</a></td><td>-</td></tr>\n"
      else [])] ++
  (names.filter fun name => name ≠ dot ∧ name ≠ Path.dotDot).flatMap
    (rowParts fs reqPath fsPath) ++
  [.fixed (ascii "</table>\n<hr>\n</body>\n</html>\n")]

theorem render_rowParts (fs : FileSystem) (reqPath fsPath name : Bytes) :
    render (rowParts fs reqPath fsPath name) = listingRow fs reqPath fsPath name := by
  simp [rowParts, listingRow, render, Part.render]

/-- The page is made of its parts. -/
theorem render_listingParts (fs : FileSystem) (reqPath fsPath : Bytes) (names : List Bytes) :
    render (listingParts fs reqPath fsPath names) = listingBody fs reqPath fsPath names := by
  have hrows : ∀ shown : List Bytes, render (shown.flatMap (rowParts fs reqPath fsPath)) =
      (shown.map (listingRow fs reqPath fsPath)).flatten := by
    intro shown
    induction shown with
    | nil => rfl
    | cons name shown ih =>
      rw [List.flatMap_cons, render_append, render_rowParts, ih, List.map_cons, List.flatten_cons]
  rw [listingParts, render_append, render_append, hrows]
  simp only [listingBody, render, Part.render, List.flatMap_cons, List.flatMap_nil,
    List.append_nil, List.append_assoc]

theorem after_decimal (n : ℕ) : Place.text.after (decimal n) = .text := by
  refine Place.after_eq_self fun b hb => if_neg ?_
  rintro rfl
  exact notMem_decimal (by decide) n hb

/-- A row is read as one from the text to the text. -/
theorem bounded_rowParts {fs : FileSystem} {reqPath fsPath : Bytes} (name : Bytes)
    {parts : List Part} (h : Bounded .text parts) :
    Bounded .text (rowParts fs reqPath fsPath name ++ parts) := by
  have hend : Place.text.after (ascii "</a></td><td>" ++
      (if (entryStat fs (fsPath ++ name)).isDir then ascii "-"
        else decimal (entryStat fs (fsPath ++ name)).size) ++ ascii "</td></tr>\n") = .text := by
    rw [Place.after_append, Place.after_append]
    have hbegin : Place.text.after (ascii "</a></td><td>") = .text := by decide
    rw [hbegin]
    split
    · decide
    · rw [after_decimal]
      decide
  have hopen : Place.text.after (ascii "<tr><td><a href=\"") = .value 34 := by decide
  have hclose : (Place.value 34).after (ascii "\">") = .text := by decide
  exact .fixed hopen ⟨Or.inr rfl, ⟨34, _, rfl, by decide⟩,
    .fixed hclose (.slot_text rfl (.fixed hend h))⟩

theorem bounded_listingParts (fs : FileSystem) (reqPath fsPath : Bytes) (names : List Bytes) :
    Bounded .text (listingParts fs reqPath fsPath names) := by
  have hrows : ∀ shown : List Bytes, Bounded .text (shown.flatMap (rowParts fs reqPath fsPath) ++
      [.fixed (ascii "</table>\n<hr>\n</body>\n</html>\n")]) := by
    intro shown
    induction shown with
    | nil => exact trivial
    | cons name shown ih =>
      rw [List.flatMap_cons, List.append_assoc]
      exact bounded_rowParts name ih
  have hup : Place.text.after
      (ascii "</h1>\n<hr>\n<table>\n<tr><th>Name</th><th>Size</th></tr>\n" ++
      if reqPath ≠ [SLASH] then ascii "<tr><td><a href=\"../\">../</a></td><td>-</td></tr>\n"
      else []) = .text := by
    rw [Place.after_append]
    split <;> decide +kernel
  have hopen : Place.text.after
      (ascii "<!DOCTYPE html>\n<html>\n<head><meta charset=\"UTF-8\"><title>Index of ") =
        .text := by decide +kernel
  have hstyle : Place.text.after (ascii "</title>\n" ++
      ascii ("<style>body\x7bfont-family:monospace;padding:1em\x7d" ++
        "table\x7bborder-collapse:collapse;width:100%\x7d" ++
        "th,td\x7btext-align:left;padding:4px 12px\x7d" ++
        "tr:nth-child(even)\x7bbackground:#f2f2f2\x7d" ++
        "a\x7btext-decoration:none\x7da:hover\x7btext-decoration:underline\x7d" ++
        "</style></head>\n<body>\n<h1>Index of ")) = .text := by
    -- piece by piece: none of them opens a tag that it does not close
    have htitle : Place.text.after (ascii "</title>\n") = .text := by decide
    have hbody : Place.text.after
        (ascii "<style>body\x7bfont-family:monospace;padding:1em\x7d") = .text := by
      decide +kernel
    have htable : Place.text.after
        (ascii "table\x7bborder-collapse:collapse;width:100%\x7d") = .text := by decide +kernel
    have hcell : Place.text.after
        (ascii "th,td\x7btext-align:left;padding:4px 12px\x7d") = .text := by decide +kernel
    have hrow : Place.text.after
        (ascii "tr:nth-child(even)\x7bbackground:#f2f2f2\x7d") = .text := by decide +kernel
    have hlink : Place.text.after
        (ascii "a\x7btext-decoration:none\x7da:hover\x7btext-decoration:underline\x7d") =
          .text := by decide +kernel
    have hhead : Place.text.after (ascii "</style></head>\n<body>\n<h1>Index of ") = .text := by
      decide +kernel
    simp only [ascii_append, Place.after_append, htitle, hbody, htable, hcell, hrow, hlink, hhead]
  rw [listingParts, List.append_assoc]
  exact .fixed hopen (.slot_text rfl (.fixed hstyle (.slot_text rfl (.fixed hup (hrows _)))))

/-- **What a reader of a listing finds** where the path or a name was placed. -/
theorem listing_slot {fs : FileSystem} {reqPath fsPath : Bytes} {names : List Bytes}
    {front back : List Part} {raw : Bytes}
    (h : listingParts fs reqPath fsPath names = front ++ .slot raw :: back) :
    (Place.text.after (render front)).ForNames ∧
      unescape entities ((Place.text.after (render front)).content (render (.slot raw :: back))) =
        raw :=
  (bounded_listingParts fs reqPath fsPath names).slot h

/-- **Escaping is complete and can be undone**, in the listing too. -/
theorem htmlEscape_spec :
    (∀ s, ∀ b ∈ [60, 62, 34, 39], b ∉ htmlEscape s) ∧
    (∀ s front rest, htmlEscape s = front ++ 38 :: rest →
      ∃ e ∈ entities, e.2 <+: 38 :: rest) ∧
    (∀ s, unescape entities (htmlEscape s) = s) ∧
    Function.Injective htmlEscape ∧
    (∀ s t, htmlEscape (s ++ t) = htmlEscape s ++ htmlEscape t) ∧
    ∀ fs reqPath fsPath names, render (listingParts fs reqPath fsPath names) =
        listingBody fs reqPath fsPath names ∧
      ∀ front raw back, listingParts fs reqPath fsPath names = front ++ .slot raw :: back →
        (Place.text.after (render front)).ForNames ∧
          unescape entities
            ((Place.text.after (render front)).content (render (.slot raw :: back))) = raw := by
  refine ⟨fun s b hb => notMem_htmlEscape hb s, fun s front rest h => ?_, unescape_htmlEscape, ?_,
    htmlEscape_append, fun fs reqPath fsPath names =>
      ⟨render_listingParts fs reqPath fsPath names, fun front raw back => listing_slot⟩⟩
  · rw [htmlEscape_eq] at h
    exact mark_begins_entity sound_entities h
  · rw [funext htmlEscape_eq]
    exact escape_injective sound_entities

end Webserv
