import Webserv.Cgi.Output
import Webserv.Lib.Numeral
import Webserv.Lib.Words

/-!
# The text of the configuration

Four passes rewrite the text of a configuration before it is cut at the spaces: they put spaces
around the punctuation, take the comments away, and squeeze the white space.  A lexer that reads
the text once finds the same tokens.

## Main results

* `lexes_of_valid` — what the first two passes leave, against the lexer.
* `tokensOf_eq` — **the four passes are the one-pass lexer.**
-/

namespace Webserv

open Bytes Words

/-! ### The passes -/

/-- A byte that `check_valid_content` lets pass. -/
def isValidByte (b : UInt8) : Bool := b == 9 || b == 10 || b == 13 || (32 ≤ b && b ≤ 126)

/-- `check_valid_content`. -/
def checkValidContent (s : Bytes) : Bool := s.all isValidByte

/-- The braces and the semicolon. -/
def isPunctuation (b : UInt8) : Bool := b == 123 || b == 125 || b == 59

/-- `insert_space`. -/
def insertSpace (s : Bytes) : Bytes :=
  s.flatMap fun b => if isPunctuation b then [SP, b, SP] else [b]

/-- `#`. -/
def HASH : UInt8 := 35

/-- One of the two quotes. -/
def isQuote (b : UInt8) : Bool := b == 39 || b == 34

/-- The loop of `remove_comments`, in a comment or not; `starts` says that nothing or white space
stands in front of the next byte.  A quote is an error. -/
def removeCommentsFrom (comment starts : Bool) : Bytes → Except Bytes Bytes
  | [] => .ok []
  | b :: rest =>
    if comment then
      if b == LF then (removeCommentsFrom false true rest).map (b :: ·)
      else removeCommentsFrom true false rest
    else if isQuote b then .error (ascii "configuration error: quoted strings are not supported")
    else if b == HASH && starts then removeCommentsFrom true false rest
    else (removeCommentsFrom false (isSpace b) rest).map (b :: ·)

/-- `remove_comments`. -/
def removeComments (s : Bytes) : Except Bytes Bytes := removeCommentsFrom false true s

/-- `refactoring_buffer`. -/
def refactoringBuffer (s : Bytes) : Bytes :=
  let out := squeeze isSpace SP false s
  let out := if out.getLast? = some SP then out.dropLast else out
  if out.head? = some SP then out.drop 1 else out

/-- `storing_in_vec`: the lines between spaces that are not empty. -/
def storingInVec (s : Bytes) : List Bytes := words (· == SP) s

/-- The four passes in their order. -/
def tokensOf (s : Bytes) : Except Bytes (List Bytes) :=
  (removeComments (insertSpace s)).map fun out => storingInVec (refactoringBuffer out)

example : tokensOf (ascii "a#b;\x7b# x\nroot\t/;") =
    .ok (["a#b", ";", "\x7b", "root", "/", ";"].map ascii) := by
  decide +kernel

/-! ### The lexer -/

/-- White space of a configuration: tab, line feed, carriage return and space. -/
def isWhite (b : UInt8) : Bool := b == 9 || b == 10 || b == 13 || b == 32

/-- The lexer, in a comment or not; `starts` says that a comment may begin, and `cur` is the token
that has been begun. -/
def lexFrom (comment starts : Bool) (cur : Bytes) : Bytes → List Bytes
  | [] => single cur
  | b :: rest =>
    if comment then lexFrom (b != LF) (b == LF) cur rest
    else if isPunctuation b then single cur ++ [b] :: lexFrom false true [] rest
    else if isWhite b then single cur ++ lexFrom false true [] rest
    else if b == HASH && starts then lexFrom true false cur rest
    else lexFrom false false (cur ++ [b]) rest

/-- The tokens of a text, as words. -/
def lex (s : Bytes) : List Bytes := lexFrom false true [] s

/-- A quote outside of the comments. -/
def hasQuoteFrom (comment starts : Bool) : Bytes → Bool
  | [] => false
  | b :: rest =>
    if comment then hasQuoteFrom (b != LF) (b == LF) rest
    else if b == HASH && starts then hasQuoteFrom true false rest
    else isQuote b || hasQuoteFrom false (isPunctuation b || isWhite b) rest

/-- A quote stands outside of the comments. -/
def hasQuote (s : Bytes) : Bool := hasQuoteFrom false true s

/-! ### The last two passes -/

/-- Taking one space off the end keeps the words. -/
theorem words_stripRight (s : Bytes) :
    words (· == SP) (if s.getLast? = some SP then s.dropLast else s) = words (· == SP) s := by
  split
  · next hlast =>
    obtain ⟨t, rfl⟩ := List.getLast?_eq_some_iff.mp hlast
    rw [List.dropLast_concat, words_concat (p := (· == SP)) (beq_self_eq_true SP)]
  · rfl

/-- Taking one space off the front keeps the words. -/
theorem words_stripLeft (s : Bytes) :
    words (· == SP) (if s.head? = some SP then s.drop 1 else s) = words (· == SP) s := by
  split
  · next hhead =>
    obtain ⟨t, rfl⟩ := List.head?_eq_some_iff.mp hhead
    rw [List.drop_one, List.tail_cons, words_cons (p := (· == SP)) (beq_self_eq_true SP)]
  · rfl

theorem storingInVec_refactoringBuffer (s : Bytes) :
    storingInVec (refactoringBuffer s) = words isSpace s := by
  have hspace : ∀ b : UInt8, isSpace b = false → (b == SP) = false := by
    intro b hb
    rw [isSpace, Bool.or_eq_false_iff] at hb
    exact hb.1
  have hsqueeze := words_squeeze (p := isSpace) (q := (· == SP)) (beq_self_eq_true SP) hspace s
  rw [storingInVec, refactoringBuffer]
  rw [words_stripLeft, words_stripRight]
  exact hsqueeze.2 [] (by simp)

/-! ### The first two passes -/

theorem insertSpace_cons (b : UInt8) (s : Bytes) :
    insertSpace (b :: s) =
      (if isPunctuation b then [SP, b, SP] else [b]) ++ insertSpace s := List.flatMap_cons

/-- The white space of an accepted text is what `isspace` takes. -/
theorem isSpace_eq_isWhite :
    ∀ b : UInt8, isValidByte b = true → isSpace b = isWhite b := by
  exact forall_byte (by decide +kernel)

theorem isPunctuation_plain : ∀ b : UInt8, isPunctuation b = true →
    isQuote b = false ∧ (b == HASH) = false ∧ isSpace b = false := by
  exact forall_byte (by decide +kernel)

theorem isWhite_plain : ∀ b : UInt8, isWhite b = true →
    isQuote b = false ∧ (b == HASH) = false ∧ isSpace b = true := by
  exact forall_byte (by decide +kernel)

/-- What a pass over the rest of a text gives: an error with a quote, else the tokens of what was
begun and what is left. -/
def Reads (result : Except Bytes Bytes) (quote : Bool) (cur : Bytes) (tokens : List Bytes) : Prop :=
  (quote = true ∧ ∃ e, result = .error e) ∨
    (quote = false ∧ ∃ out, result = .ok out ∧ words isSpace (cur ++ out) = tokens)

/-- Bytes written in front of what is left. -/
theorem Reads.map {result : Except Bytes Bytes} {quote : Bool} {cur cur' front : Bytes}
    {tokens tokens' : List Bytes} (h : Reads result quote cur tokens)
    (hwords : ∀ out, words isSpace (cur ++ out) = tokens →
      words isSpace (cur' ++ (front ++ out)) = tokens') :
    Reads (result.map (front ++ ·)) quote cur' tokens' := by
  rcases h with ⟨hquote, e, rfl⟩ | ⟨hquote, out, rfl, hout⟩
  · exact .inl ⟨hquote, e, rfl⟩
  · exact .inr ⟨hquote, front ++ out, rfl, hwords out hout⟩

/-- Punctuation, outside of a comment and with its two spaces. -/
theorem removeComments_punctuation {b : UInt8} (hb : isPunctuation b = true) (starts : Bool)
    (s : Bytes) :
    removeCommentsFrom false starts (SP :: b :: SP :: s) =
      (removeCommentsFrom false true s).map ([SP, b, SP] ++ ·) := by
  obtain ⟨hquote, hhash, hspace⟩ := isPunctuation_plain b hb
  obtain ⟨hquoteSP, hhashSP, hspaceSP⟩ := isWhite_plain SP rfl
  simp only [removeCommentsFrom, hquote, hhash, hspace, hquoteSP, hhashSP, hspaceSP,
    Bool.false_and, Bool.false_eq_true, if_false]
  cases removeCommentsFrom false true s with
  | error e => rfl
  | ok out => rfl

/-- A byte outside of a comment that is neither a quote nor the start of one. -/
theorem removeComments_plain {b : UInt8} {starts : Bool} (hquote : isQuote b = false)
    (hhash : (b == HASH && starts) = false) (s : Bytes) :
    removeCommentsFrom false starts (b :: s) =
      (removeCommentsFrom false (isSpace b) s).map ([b] ++ ·) := by
  rw [removeCommentsFrom, if_neg Bool.false_ne_true, hquote, if_neg Bool.false_ne_true, hhash,
    if_neg Bool.false_ne_true]
  rfl

/-- A comment takes the spaces around punctuation. -/
theorem removeComments_comment {b : UInt8} (hb : b ≠ LF) (s : Bytes) :
    removeCommentsFrom true false ((if isPunctuation b then [SP, b, SP] else [b]) ++ s) =
      removeCommentsFrom true false s := by
  have hLF : (b == LF) = false := beq_eq_false_iff_ne.mpr hb
  have hSP : (SP == LF) = false := rfl
  split <;> simp only [List.cons_append, List.nil_append, removeCommentsFrom, hLF, hSP, if_true,
    Bool.false_eq_true, if_false]

/-- The first two passes against the lexer, in a comment and outside of it. -/
structure Lexes (s : Bytes) : Prop where
  comment : Reads (removeCommentsFrom true false (insertSpace s)) (hasQuoteFrom true false s) []
    (lexFrom true false [] s)
  code : ∀ (starts : Bool) (cur : Bytes), (∀ b ∈ cur, isSpace b = false) →
    (starts = true → cur = []) →
      Reads (removeCommentsFrom false starts (insertSpace s)) (hasQuoteFrom false starts s) cur
        (lexFrom false starts cur s)

theorem lexes_nil : Lexes [] where
  comment := .inr ⟨rfl, [], rfl, by simp [lexFrom, single]⟩
  code starts cur hcur _ := by
    refine .inr ⟨rfl, [], rfl, ?_⟩
    rw [List.append_nil, words_of_forall hcur, lexFrom]

namespace Lexes

variable {s : Bytes} {b : UInt8} (h : Lexes s)
include h

/-- The next byte of a comment, which a line feed ends. -/
theorem comment_cons (b : UInt8) :
    Reads (removeCommentsFrom true false (insertSpace (b :: s))) (hasQuoteFrom true false (b :: s))
      [] (lexFrom true false [] (b :: s)) := by
  rw [insertSpace_cons]
  by_cases hLF : b = LF
  · subst hLF
    have hnext : Reads ((removeCommentsFrom false true (insertSpace s)).map ([LF] ++ ·))
        (hasQuoteFrom false true s) [] (lexFrom false true [] s) :=
      (h.code true [] (by simp) fun _ => rfl).map fun out hout =>
        (words_cons (p := isSpace) rfl out).trans hout
    exact hnext
  · rw [removeComments_comment hLF]
    have hne : (b == LF) = false := beq_eq_false_iff_ne.mpr hLF
    rw [hasQuoteFrom, if_pos rfl, lexFrom, if_pos rfl, bne, hne]
    exact h.comment

variable (starts : Bool) {cur : Bytes} (hcur : ∀ b ∈ cur, isSpace b = false)
include hcur

/-- Punctuation ends a token, and is one. -/
theorem punctuation (hpunct : isPunctuation b = true) :
    Reads (removeCommentsFrom false starts (insertSpace (b :: s)))
      (hasQuoteFrom false starts (b :: s)) cur (lexFrom false starts cur (b :: s)) := by
  obtain ⟨hquote, hhash, hplain⟩ := isPunctuation_plain b hpunct
  have hout : ∀ out, words isSpace ([] ++ out) = lexFrom false true [] s →
      words isSpace (cur ++ ([SP, b, SP] ++ out)) =
        single cur ++ [b] :: lexFrom false true [] s := by
    intro out hout
    calc words isSpace (cur ++ SP :: ([b] ++ SP :: out))
        = words isSpace cur ++ (words isSpace [b] ++ words isSpace out) := by
          rw [words_append_cons (p := isSpace) rfl, words_append_cons (p := isSpace) rfl]
      _ = single cur ++ (single [b] ++ lexFrom false true [] s) := by
          rw [words_of_forall hcur, words_of_forall (by simpa using hplain), ← hout]
          rfl
  have hnext := (h.code true [] (by simp) fun _ => rfl).map hout
  rw [insertSpace_cons, hpunct, if_pos rfl, hasQuoteFrom, lexFrom, hpunct, hhash, hquote]
  exact (removeComments_punctuation hpunct starts (insertSpace s)).symm ▸ hnext

/-- White space ends a token. -/
theorem white (hpunct : isPunctuation b = false) (hwhite : isWhite b = true) :
    Reads (removeCommentsFrom false starts (insertSpace (b :: s)))
      (hasQuoteFrom false starts (b :: s)) cur (lexFrom false starts cur (b :: s)) := by
  obtain ⟨hquote, hhash, hspace⟩ := isWhite_plain b hwhite
  have hnext : Reads ((removeCommentsFrom false true (insertSpace s)).map ([b] ++ ·))
      (hasQuoteFrom false true s) cur (single cur ++ lexFrom false true [] s) := by
    refine (h.code true [] (by simp) fun _ => rfl).map fun out hout => ?_
    rw [List.singleton_append, words_append_cons hspace, words_of_forall hcur, ← hout]
    rfl
  rw [insertSpace_cons, hpunct, if_neg Bool.false_ne_true, List.singleton_append,
    removeComments_plain hquote (by rw [hhash, Bool.false_and]), hspace, hasQuoteFrom, lexFrom,
    hpunct, hwhite, hhash, hquote]
  exact hnext

/-- Another byte starts a comment, is a quote, or goes on with a token. -/
theorem other (hstarts : starts = true → cur = []) (hpunct : isPunctuation b = false)
    (hwhite : isWhite b = false) (hplain : isSpace b = false) :
    Reads (removeCommentsFrom false starts (insertSpace (b :: s)))
      (hasQuoteFrom false starts (b :: s)) cur (lexFrom false starts cur (b :: s)) := by
  rw [insertSpace_cons, hpunct, if_neg Bool.false_ne_true, List.singleton_append]
  cases hstart : b == HASH && starts with
  | true =>
    -- no token has been begun
    obtain ⟨hhash, hbegun⟩ := Bool.and_eq_true_iff.mp hstart
    have hquote : isQuote b = false := by rw [beq_iff_eq.mp hhash]; rfl
    rw [hstarts hbegun, removeCommentsFrom, hquote, hstart, hasQuoteFrom, hstart, lexFrom,
      hpunct, hwhite, hstart]
    exact h.comment
  | false =>
    rw [hasQuoteFrom, lexFrom, hstart, hpunct, hwhite]
    cases hquote : isQuote b with
    | true => exact .inl ⟨rfl, _, by rw [removeCommentsFrom, hquote]; rfl⟩
    | false =>
      have hword : ∀ c ∈ cur ++ [b], isSpace c = false := by
        intro c hc
        rcases List.mem_append.mp hc with hc | hc
        · exact hcur c hc
        · rw [List.mem_singleton.mp hc]
          exact hplain
      rw [removeComments_plain hquote hstart, hplain]
      refine (h.code false (cur ++ [b]) hword (by simp)).map fun out hout => ?_
      rw [← List.append_assoc]
      exact hout

end Lexes

/-- The first two passes of accepted text. -/
theorem lexes_of_valid {s : Bytes} (hs : checkValidContent s = true) : Lexes s := by
  induction s with
  | nil => exact lexes_nil
  | cons b s ih =>
    rw [checkValidContent, List.all_cons, Bool.and_eq_true] at hs
    have h := ih hs.2
    refine ⟨h.comment_cons b, fun starts cur hcur hstarts => ?_⟩
    cases hpunct : isPunctuation b with
    | true => exact h.punctuation starts hcur hpunct
    | false =>
      have hspace := isSpace_eq_isWhite b hs.1
      cases hwhite : isWhite b with
      | true => exact h.white starts hcur hpunct hwhite
      | false => exact h.other starts hcur hstarts hpunct hwhite (hspace.trans hwhite)

/-- **The four passes are the one-pass lexer**: on accepted text they throw where a quote stands
outside of a comment, and give the lexer's tokens where none does. -/
theorem tokensOf_eq (s : Bytes) (hs : checkValidContent s = true) :
    ((∃ e, tokensOf s = .error e) ↔ hasQuote s = true) ∧
      (hasQuote s = false → tokensOf s = .ok (lex s)) := by
  rcases (lexes_of_valid hs).code true [] (by simp) fun _ => rfl with
    ⟨hquote, e, hthrow⟩ | ⟨hquote, out, hout, hwords⟩
  · rw [tokensOf, removeComments, hthrow, hasQuote, hquote]
    exact ⟨⟨fun _ => rfl, fun _ => ⟨e, rfl⟩⟩, fun h => absurd h (by simp)⟩
  · have hok : tokensOf s = .ok (lex s) := by
      rw [tokensOf, removeComments, hout, Except.map, storingInVec_refactoringBuffer]
      exact congrArg _ hwords
    rw [hok, hasQuote, hquote]
    refine ⟨⟨fun ⟨e, he⟩ => ?_, fun h => absurd h (by simp)⟩, fun _ => rfl⟩
    cases he

theorem tokensOf_eq_block :
    checkValidContent (ascii "a#b;\x7b# 'x\nroot\t/;") = true ∧
      tokensOf (ascii "a#b;\x7b# 'x\nroot\t/;") = .ok (lex (ascii "a#b;\x7b# 'x\nroot\t/;")) :=
  have hvalid : checkValidContent (ascii "a#b;\x7b# 'x\nroot\t/;") = true := by decide +kernel
  ⟨hvalid, (tokensOf_eq _ hvalid).2 (by decide +kernel)⟩

end Webserv
