import Webserv.Config.Preprocess

/-!
# The layout of a configuration

A text is a layout of its tokens: white space and comments may stand between them, and have to
stand between two words.  A comment begins where a token might, so that `#` within a word is a part
of the word.

## Main results

* `laid_iff` — **the tokens of a text are those that it is a layout of.**
-/

namespace Webserv

open Bytes Words

/-- A byte that a word may go on with. -/
def isWordByte (b : UInt8) : Bool := !isPunctuation b && !isWhite b && !isQuote b

/-- A word is not empty, and does not look like a comment. -/
structure IsPlain (w : Bytes) : Prop where
  ne_nil : w ≠ []
  bytes : ∀ b ∈ w, isWordByte b = true
  head : w.head? ≠ some HASH

/-- The text is a layout of the tokens; `glued` says that a word stands right in front. -/
inductive Laid : Bool → List Bytes → Bytes → Prop
  | nil (glued : Bool) : Laid glued [] []
  | white {glued : Bool} {b : UInt8} {tokens : List Bytes} {s : Bytes} : isWhite b = true →
      Laid false tokens s → Laid glued tokens (b :: s)
  | comment {c : Bytes} {tokens : List Bytes} {s : Bytes} : LF ∉ c → Laid false tokens s →
      Laid false tokens (HASH :: (c ++ LF :: s))
  /-- A comment that the end of the text ends. -/
  | lastComment {c : Bytes} : LF ∉ c → Laid false [] (HASH :: c)
  | punctuation {glued : Bool} {b : UInt8} {tokens : List Bytes} {s : Bytes} :
      isPunctuation b = true → Laid false tokens s → Laid glued ([b] :: tokens) (b :: s)
  | word {w : Bytes} {tokens : List Bytes} {s : Bytes} : IsPlain w → Laid true tokens s →
      Laid false (w :: tokens) (w ++ s)

/-! ### What the lexer makes of a layout -/

theorem isPunctuation_of_isWhite : ∀ b : UInt8, isWhite b = true → isPunctuation b = false := by
  exact forall_byte (by decide +kernel)

theorem isWordByte_iff {b : UInt8} : isWordByte b = true ↔
    isPunctuation b = false ∧ isWhite b = false ∧ isQuote b = false := by
  simp [isWordByte, and_assoc]

/-- A comment is skipped up to its line feed. -/
theorem lexFrom_comment {c : Bytes} (hc : LF ∉ c) (starts : Bool) (cur s : Bytes) :
    lexFrom true starts cur (c ++ LF :: s) = lexFrom false true cur s := by
  induction c generalizing starts with
  | nil => rfl
  | cons b c ih =>
    rw [List.mem_cons, not_or] at hc
    have hb : (b == LF) = false := beq_eq_false_iff_ne.mpr (Ne.symm hc.1)
    rw [List.cons_append, lexFrom, if_pos rfl, bne, hb]
    exact ih hc.2 false

theorem lexFrom_lastComment {c : Bytes} (hc : LF ∉ c) (starts : Bool) (cur : Bytes) :
    lexFrom true starts cur c = single cur := by
  induction c generalizing starts with
  | nil => rfl
  | cons b c ih =>
    rw [List.mem_cons, not_or] at hc
    have hb : (b == LF) = false := beq_eq_false_iff_ne.mpr (Ne.symm hc.1)
    rw [lexFrom, if_pos rfl, bne, hb]
    exact ih hc.2 false

theorem hasQuoteFrom_comment {c : Bytes} (hc : LF ∉ c) (starts : Bool) (s : Bytes) :
    hasQuoteFrom true starts (c ++ LF :: s) = hasQuoteFrom false true s := by
  induction c generalizing starts with
  | nil => rfl
  | cons b c ih =>
    rw [List.mem_cons, not_or] at hc
    have hb : (b == LF) = false := beq_eq_false_iff_ne.mpr (Ne.symm hc.1)
    rw [List.cons_append, hasQuoteFrom, if_pos rfl, bne, hb]
    exact ih hc.2 false

theorem hasQuoteFrom_lastComment {c : Bytes} (hc : LF ∉ c) (starts : Bool) :
    hasQuoteFrom true starts c = false := by
  induction c generalizing starts with
  | nil => rfl
  | cons b c ih =>
    rw [List.mem_cons, not_or] at hc
    have hb : (b == LF) = false := beq_eq_false_iff_ne.mpr (Ne.symm hc.1)
    rw [hasQuoteFrom, if_pos rfl, bne, hb]
    exact ih hc.2 false

/-- A byte of a word, where it does not begin a comment. -/
theorem lexFrom_word_cons {b : UInt8} {starts : Bool} (hb : isWordByte b = true)
    (hhash : (b == HASH && starts) = false) (cur s : Bytes) :
    lexFrom false starts cur (b :: s) = lexFrom false false (cur ++ [b]) s ∧
      hasQuoteFrom false starts (b :: s) = hasQuoteFrom false false s := by
  obtain ⟨hpunct, hwhite, hquote⟩ := isWordByte_iff.mp hb
  constructor
  · rw [lexFrom, hpunct, hwhite, hhash]
    rfl
  · rw [hasQuoteFrom, hpunct, hwhite, hhash, hquote]
    rfl

/-- The rest of a word. -/
theorem lexFrom_word {w : Bytes} (hw : ∀ b ∈ w, isWordByte b = true) (cur s : Bytes) :
    lexFrom false false cur (w ++ s) = lexFrom false false (cur ++ w) s ∧
      hasQuoteFrom false false (w ++ s) = hasQuoteFrom false false s := by
  induction w generalizing cur with
  | nil => simp
  | cons b w ih =>
    rw [List.forall_mem_cons] at hw
    obtain ⟨hlex, hquote⟩ :=
      lexFrom_word_cons hw.1 (Bool.and_false (b == HASH)) cur (w ++ s)
    obtain ⟨hlex', hquote'⟩ := ih hw.2 (cur ++ [b])
    rw [List.cons_append, hlex, hquote, hlex', hquote', List.append_assoc]
    exact ⟨rfl, rfl⟩

/-- **What is laid out is read.** -/
theorem Laid.reads {glued : Bool} {tokens : List Bytes} {s : Bytes} (h : Laid glued tokens s) :
    ∀ cur, (cur = [] ↔ glued = false) → hasQuoteFrom false (!glued) s = false ∧
      lexFrom false (!glued) cur s = single cur ++ tokens := by
  induction h with
  | nil glued => exact fun cur _ => ⟨rfl, (List.append_nil _).symm⟩
  | @white glued b tokens s hb _ ih =>
    intro cur _
    obtain ⟨hquote, hlex⟩ := ih [] (by simp)
    -- white space ends the token that has been begun
    obtain ⟨hplain, hhash, -⟩ := isWhite_plain b hb
    have hpunct := isPunctuation_of_isWhite b hb
    constructor
    · rw [hasQuoteFrom, hpunct, hb, hhash, hplain]
      exact hquote
    · rw [lexFrom, hpunct, hb]
      exact congrArg (single cur ++ ·) hlex
  | @comment c tokens s hc _ ih =>
    intro cur hcur
    -- a comment begins only where no token has been begun
    obtain rfl := hcur.mpr rfl
    obtain ⟨hquote, hlex⟩ := ih [] (by simp)
    exact ⟨(hasQuoteFrom_comment hc false s).trans hquote,
      (lexFrom_comment hc false [] s).trans hlex⟩
  | @lastComment c hc =>
    intro cur hcur
    obtain rfl := hcur.mpr rfl
    exact ⟨hasQuoteFrom_lastComment hc false, lexFrom_lastComment hc false []⟩
  | @punctuation glued b tokens s hb _ ih =>
    intro cur _
    obtain ⟨hquote, hlex⟩ := ih [] (by simp)
    obtain ⟨hplain, hhash, -⟩ := isPunctuation_plain b hb
    constructor
    · rw [hasQuoteFrom, hb, hhash, hplain]
      exact hquote
    · rw [lexFrom, hb]
      exact congrArg (fun ts => single cur ++ [b] :: ts) hlex
  | @word w tokens s hw _ ih =>
    intro cur hcur
    obtain rfl := hcur.mpr rfl
    obtain ⟨hne, hbytes, hhead⟩ := hw
    -- the first byte begins the token, the others are added to it
    obtain ⟨b, w, rfl⟩ := List.exists_cons_of_ne_nil hne
    obtain ⟨hquote, hlex⟩ := ih (b :: w) (by simp)
    rw [List.forall_mem_cons] at hbytes
    have hhash : (b == HASH && true) = false := by
      rw [Bool.and_true, beq_eq_false_iff_ne]
      rintro rfl
      exact hhead rfl
    obtain ⟨hfirst, hfirst'⟩ := lexFrom_word_cons hbytes.1 hhash [] (w ++ s)
    obtain ⟨hrest, hrest'⟩ := lexFrom_word hbytes.2 [b] s
    constructor
    · exact hfirst'.trans (hrest'.trans hquote)
    · exact hfirst.trans (hrest.trans hlex)

/-! ### Every text is a layout -/

/-- The rest of a comment, and what stands behind it. -/
def LaidComment (tokens : List Bytes) (s : Bytes) : Prop :=
  (LF ∉ s ∧ tokens = []) ∨ ∃ c rest, s = c ++ LF :: rest ∧ LF ∉ c ∧ Laid false tokens rest

/-- The rest of a word that has been begun, and what stands behind it. -/
def LaidWord (cur : Bytes) (tokens : List Bytes) (s : Bytes) : Prop :=
  ∃ w rest tokens', s = w ++ rest ∧ (∀ b ∈ w, isWordByte b = true) ∧ Laid true tokens' rest ∧
    tokens = (cur ++ w) :: tokens'

theorem LaidComment.laid {tokens : List Bytes} {s : Bytes} (h : LaidComment tokens s) :
    Laid false tokens (HASH :: s) := by
  rcases h with ⟨hs, rfl⟩ | ⟨c, rest, rfl, hc, hrest⟩
  · exact .lastComment hs
  · exact .comment hc hrest

theorem LaidWord.laid {b : UInt8} {tokens : List Bytes} {s : Bytes} (h : LaidWord [b] tokens s)
    (hb : isWordByte b = true) (hhash : b ≠ HASH) : Laid false tokens (b :: s) := by
  obtain ⟨w, rest, tokens', rfl, hw, hrest, rfl⟩ := h
  refine .word (w := b :: w) ⟨List.cons_ne_nil b w, ?_, by simpa using hhash⟩ hrest
  exact List.forall_mem_cons.mpr ⟨hb, hw⟩

/-- The tokens of the text are laid out in it: from where a token may begin, in a comment, and in
a word. -/
structure LaidOut (s : Bytes) : Prop where
  code : hasQuoteFrom false true s = false → Laid false (lexFrom false true [] s) s
  comment : ∀ starts, hasQuoteFrom true starts s = false →
    LaidComment (lexFrom true starts [] s) s
  word : ∀ cur, cur ≠ [] → hasQuoteFrom false false s = false →
    LaidWord cur (lexFrom false false cur s) s

/-- Nothing goes on with the word. -/
theorem laidWord_end {cur : Bytes} {tokens : List Bytes} {s : Bytes} (hcur : cur ≠ [])
    (h : Laid true tokens s) : LaidWord cur (single cur ++ tokens) s := by
  refine ⟨[], s, tokens, rfl, by simp, h, ?_⟩
  rw [List.append_nil, single, if_neg (by simpa using hcur)]
  rfl

namespace LaidOut

variable {s : Bytes} (h : LaidOut s)
include h

theorem comment_cons (b : UInt8) (starts : Bool)
    (hquote : hasQuoteFrom true starts (b :: s) = false) :
    LaidComment (lexFrom true starts [] (b :: s)) (b :: s) := by
  rw [lexFrom, if_pos rfl]
  rw [hasQuoteFrom, if_pos rfl] at hquote
  by_cases hLF : b = LF
  · subst hLF
    exact Or.inr ⟨[], s, rfl, List.not_mem_nil, h.code hquote⟩
  · have hb : (b == LF) = false := beq_eq_false_iff_ne.mpr hLF
    rw [bne, hb] at hquote ⊢
    rcases h.comment false hquote with ⟨hs, htokens⟩ | ⟨c, rest, hs, hc, hrest⟩
    · exact Or.inl ⟨List.not_mem_cons_of_ne_of_not_mem (Ne.symm hLF) hs, htokens⟩
    · exact Or.inr ⟨b :: c, rest, by rw [hs, List.cons_append],
        List.not_mem_cons_of_ne_of_not_mem (Ne.symm hLF) hc, hrest⟩

/-- Punctuation and white space, where a token may begin and behind a word. -/
theorem separator_cons {b : UInt8} (hb : isPunctuation b = true ∨ isWhite b = true) (starts : Bool)
    (cur : Bytes) (hquote : hasQuoteFrom false starts (b :: s) = false) :
    ∃ tokens, lexFrom false starts cur (b :: s) = single cur ++ tokens ∧
      ∀ glued, Laid glued tokens (b :: s) := by
  rw [hasQuoteFrom, if_neg Bool.false_ne_true] at hquote
  by_cases hpunct : isPunctuation b = true
  · obtain ⟨hplain, hhash, -⟩ := isPunctuation_plain b hpunct
    rw [hhash, hplain, hpunct] at hquote
    refine ⟨[b] :: lexFrom false true [] s, ?_, fun glued => .punctuation hpunct (h.code hquote)⟩
    rw [lexFrom, hpunct]
    rfl
  · have hwhite := hb.resolve_left hpunct
    obtain ⟨hplain, hhash, -⟩ := isWhite_plain b hwhite
    rw [hhash, hplain, hwhite, Bool.or_true] at hquote
    refine ⟨lexFrom false true [] s, ?_, fun glued => .white hwhite (h.code hquote)⟩
    rw [lexFrom, Bool.eq_false_iff.mpr hpunct, hwhite]
    rfl

/-- A byte of a word, where it does not begin a comment. -/
theorem word_cons {b : UInt8} {starts : Bool} (cur : Bytes)
    (hb : isPunctuation b = false ∧ isWhite b = false) (hhash : (b == HASH && starts) = false)
    (hquote : hasQuoteFrom false starts (b :: s) = false) :
    isWordByte b = true ∧
      LaidWord (cur ++ [b]) (lexFrom false starts cur (b :: s)) s := by
  have hword : isWordByte b = true := by
    rw [hasQuoteFrom, if_neg Bool.false_ne_true, hhash, if_neg Bool.false_ne_true,
      Bool.or_eq_false_iff] at hquote
    exact isWordByte_iff.mpr ⟨hb.1, hb.2, hquote.1⟩
  obtain ⟨hlex, hquote'⟩ := lexFrom_word_cons hword hhash cur s
  rw [hlex]
  exact ⟨hword, h.word (cur ++ [b]) (by simp) (hquote'.symm.trans hquote)⟩

end LaidOut

theorem laidOut : ∀ s : Bytes, LaidOut s := by
  intro s
  induction s with
  | nil =>
    refine ⟨fun _ => .nil false, fun _ _ => Or.inl ⟨List.not_mem_nil, rfl⟩, fun cur hcur _ => ?_⟩
    simpa [lexFrom] using laidWord_end hcur (.nil true)
  | cons b s h =>
    refine ⟨fun hquote => ?_, fun starts hquote => h.comment_cons b starts hquote, ?_⟩
    · by_cases hsep : isPunctuation b = true ∨ isWhite b = true
      · obtain ⟨tokens, hlex, hlaid⟩ := h.separator_cons hsep true [] hquote
        rw [hlex]
        exact hlaid false
      · rw [not_or, Bool.not_eq_true, Bool.not_eq_true] at hsep
        by_cases hhash : b = HASH
        · subst hhash
          exact (h.comment false hquote).laid
        · have hcode : (b == HASH && true) = false := by
            rw [Bool.and_true]
            exact beq_eq_false_iff_ne.mpr hhash
          obtain ⟨hword, hlaid⟩ := h.word_cons [] hsep hcode hquote
          exact hlaid.laid hword hhash
    · intro cur hcur hquote
      by_cases hsep : isPunctuation b = true ∨ isWhite b = true
      · obtain ⟨tokens, hlex, hlaid⟩ := h.separator_cons hsep false cur hquote
        rw [hlex]
        exact laidWord_end hcur (hlaid true)
      · rw [not_or, Bool.not_eq_true, Bool.not_eq_true] at hsep
        obtain ⟨hword, w, rest, tokens', rfl, hw, hrest, htokens⟩ :=
          h.word_cons cur hsep (Bool.and_false _) hquote
        refine ⟨b :: w, rest, tokens', rfl, List.forall_mem_cons.mpr ⟨hword, hw⟩, hrest, ?_⟩
        rw [htokens, List.append_assoc]
        rfl

/-- **The tokens of a text are those that it is a layout of.** -/
theorem laid_iff {tokens : List Bytes} {s : Bytes} :
    Laid false tokens s ↔ hasQuote s = false ∧ lex s = tokens := by
  refine ⟨fun h => h.reads [] (by simp), ?_⟩
  rintro ⟨hquote, rfl⟩
  exact (laidOut s).code hquote

end Webserv
