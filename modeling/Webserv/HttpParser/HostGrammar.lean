import Webserv.HttpParser.Text
import Webserv.Lib.Numeral

/-!
# The grammar of a Host value

A Host value is a host, and behind it a colon and a port, or nothing.  The host is a name or an
address literal in brackets; `validateHost` accepts exactly these values, and what it makes of a
host is a host that it leaves alone.

## Main results

* `validateHost_iff` — what is accepted, and what it is made into.
* `validateHost_spec` — **acceptance, normal form, and the normal form once more.**
-/

namespace Webserv

open Bytes

/-- `[`. -/
def LBRACKET : UInt8 := 91

/-- `]`. -/
def RBRACKET : UInt8 := 93

/-- No two dots are next to each other. -/
def DotsApart (s : Bytes) : Prop := ¬ [DOT, DOT] <:+: s

instance (s : Bytes) : Decidable (DotsApart s) := inferInstanceAs (Decidable (¬ _))

/-- A name without its one final dot. -/
def dropFinalDot (s : Bytes) : Bytes := if s.getLast? = some DOT then s.dropLast else s

/-- What `Host` may name: a literal in brackets, or a name. -/
inductive IsHost : Bytes → Prop
  | literal {s : Bytes} (chars : ∀ b ∈ s, isHostChar b = true ∨ b = COLON) (dots : DotsApart s) :
      IsHost (LBRACKET :: s ++ [RBRACKET])
  | name {s : Bytes} (chars : ∀ b ∈ s, isHostChar b = true) (dots : DotsApart s)
      (hne : dropFinalDot s ≠ []) : IsHost s

/-- What stands behind the host: nothing, or a colon and digits, of which there may be none. -/
inductive IsPort : Bytes → ℕ → Prop
  | absent : IsPort [] 0
  | present {digits : Bytes} (h : ∀ b ∈ digits, isDigit b = true) :
      IsPort (COLON :: digits) (decimalValue digits)

theorem IsPort.unique {text : Bytes} {p q : ℕ} (hp : IsPort text p) (hq : IsPort text q) :
    p = q := by
  cases hp with
  | absent => cases hq; rfl
  | present _ => cases hq; rfl

theorem IsPort.start {text : Bytes} {p : ℕ} (h : IsPort text p) :
    text = [] ∨ text.head? = some COLON := by
  cases h with
  | absent => exact Or.inl rfl
  | present _ => exact Or.inr rfl

/-! ### Characters -/

theorem isHostChar_COLON : isHostChar COLON = false := by decide

theorem isHostChar_LBRACKET : isHostChar LBRACKET = false := by decide

theorem isHostChar_RBRACKET : isHostChar RBRACKET = false := by decide

theorem isLower_toLower (b : UInt8) : isUpper b = true → isLower (toLower b) = true := by
  revert b
  exact forall_byte (by decide +kernel)

theorem isHostChar_toLower (b : UInt8) : isHostChar (toLower b) = isHostChar b := by
  by_cases hupper : isUpper b = true
  · simp [isHostChar, isLower_toLower b hupper, hupper]
  · rw [toLower, if_neg hupper]

theorem toLower_eq_DOT_iff (b : UInt8) : toLower b = DOT ↔ b = DOT := by
  revert b
  exact forall_byte (by decide +kernel)

theorem toLower_eq_COLON_iff (b : UInt8) : toLower b = COLON ↔ b = COLON := by
  revert b
  exact forall_byte (by decide +kernel)

theorem toLower_toLower (b : UInt8) : toLower (toLower b) = toLower b := by
  revert b
  exact forall_byte (by decide +kernel)

theorem toLower_of_not_isUpper {b : UInt8} (h : isUpper b = false) : toLower b = b :=
  if_neg (by simp [h])

/-! ### Dots -/

theorem dotsApart_nil : DotsApart [] := by simp [DotsApart]

/-- A character that is not a dot keeps dots apart. -/
theorem dotsApart_cons_iff {b : UInt8} (hb : b ≠ DOT) (s : Bytes) :
    DotsApart (b :: s) ↔ DotsApart s := by
  rw [DotsApart, DotsApart, List.infix_cons_iff, List.cons_prefix_cons]
  simp [Ne.symm hb]

theorem dotsApart_dot_cons_iff {b : UInt8} (hb : b ≠ DOT) (s : Bytes) :
    DotsApart (DOT :: b :: s) ↔ DotsApart s := by
  rw [← dotsApart_cons_iff hb s, DotsApart, DotsApart, List.infix_cons_iff,
    List.cons_prefix_cons, List.cons_prefix_cons]
  simp [Ne.symm hb]

theorem not_dotsApart_dot_dot (s : Bytes) : ¬ DotsApart (DOT :: DOT :: s) :=
  fun h => h (List.IsPrefix.isInfix ⟨s, rfl⟩)

theorem DotsApart.of_infix {s t : Bytes} (h : DotsApart t) (hs : s <:+: t) : DotsApart s :=
  fun h' => h (h'.trans hs)

theorem DotsApart.map_toLower {s : Bytes} (h : DotsApart s) : DotsApart (s.map toLower) := by
  rintro ⟨x, y, hxy⟩
  obtain ⟨l, r, rfl, hl, hr⟩ := List.map_eq_append_iff.mp hxy.symm
  obtain ⟨x', dots, rfl, -, hdots⟩ := List.map_eq_append_iff.mp hl
  obtain ⟨a, t, rfl, ha, ht⟩ := List.map_eq_cons_iff.mp hdots
  obtain ⟨b, t', rfl, hb, ht'⟩ := List.map_eq_cons_iff.mp ht
  obtain rfl := (toLower_eq_DOT_iff a).mp ha
  obtain rfl := (toLower_eq_DOT_iff b).mp hb
  obtain rfl := List.map_eq_nil_iff.mp ht'
  exact h ⟨x', r, rfl⟩

/-- Behind the one final dot there is no other. -/
theorem getLast?_dropFinalDot {s : Bytes} (h : DotsApart s) :
    (dropFinalDot s).getLast? ≠ some DOT := by
  unfold dropFinalDot
  split
  · next hlast =>
    intro hagain
    obtain ⟨x, rfl⟩ := List.getLast?_eq_some_iff.mp hlast
    rw [List.dropLast_concat] at hagain
    obtain ⟨y, rfl⟩ := List.getLast?_eq_some_iff.mp hagain
    exact h ⟨y, [], by simp⟩
  · assumption

theorem dropFinalDot_of_ne {s : Bytes} (h : s.getLast? ≠ some DOT) : dropFinalDot s = s := if_neg h

theorem prefix_dropFinalDot (s : Bytes) : dropFinalDot s <+: s := by
  unfold dropFinalDot
  split
  · exact List.dropLast_prefix s
  · exact List.prefix_rfl

/-! ### The scan -/

theorem hostScan_append (a b : Bytes) (sc : HostScan) (i : ℕ) :
    hostScan sc i (a ++ b) =
      (hostScan sc i a).bind fun sc' => hostScan sc' (i + a.length) b := by
  induction a generalizing sc i with
  | nil => simp [hostScan]
  | cons c a ih =>
    rw [List.cons_append, hostScan, hostScan]
    cases hostStep sc i c with
    | none => rfl
    | some sc' =>
      dsimp only
      rw [ih, List.length_cons, Nat.add_assoc, Nat.add_comm 1]

/-- The characters that the states inside a host walk over. -/
def HostState.takes : HostState → UInt8 → Bool
  | .ipLiteral, b => isHostChar b || b == COLON
  | _, b => isHostChar b

/-- The character that ends them. -/
def HostState.stop : HostState → UInt8
  | .ipLiteral => RBRACKET
  | _ => COLON

/-- The sets of characters that the states tell apart, as far as they overlap. -/
theorem hostChar_cases (b : UInt8) :
    (isUpper b = true → isHostChar b = true ∧ b ≠ DOT ∧ b ≠ COLON ∧ b ≠ RBRACKET ∧ b ≠ 45) ∧
      ((isLower b || isDigit b) = true →
        isHostChar b = true ∧ isUpper b = false ∧ b ≠ DOT ∧ b ≠ COLON) ∧
      isUpper 45 = false ∧ isHostChar 45 = true ∧ isUpper COLON = false := by
  revert b
  exact forall_byte (by decide +kernel)

/-- **One character of a host**, but for the one that ends it. -/
theorem hostStep_run {sc : HostScan} {i : ℕ} {b : UInt8}
    (hst : sc.state = .inHost ∨ sc.state = .ipLiteral) (hb : b ≠ sc.state.stop) :
    hostStep sc i b =
      if b = DOT then if sc.dotPos + 1 = i then none else some { sc with dotPos := i }
      else if sc.state.takes b then some { sc with needLc := sc.needLc || isUpper b }
      else none := by
  obtain ⟨hupper, hlower, hdash, hdash', hcolon⟩ := hostChar_cases b
  obtain ⟨state, hostLen, dotPos, port, needLc⟩ := sc
  dsimp only at hst hb ⊢
  by_cases hu : isUpper b = true
  · obtain ⟨hchar, hdot, -, -, -⟩ := hupper hu
    rcases hst with rfl | rfl
    · simp [hostStep, hostInHost, HostState.takes, hu, hchar, hdot]
    · simp [hostStep, HostState.takes, hu, hchar, hdot]
  · rw [Bool.not_eq_true] at hu
    by_cases hl : (isLower b || isDigit b) = true
    · obtain ⟨hchar, -, hdot, -⟩ := hlower hl
      rcases hst with rfl | rfl
      · simp [hostStep, hostInHost, HostState.takes, hu, hl, hchar, hdot]
      · simp [hostStep, HostState.takes, hu, hl, hchar, hdot]
    · rw [Bool.not_eq_true] at hl
      by_cases hd : b = 45
      · subst hd
        rcases hst with rfl | rfl
        · simp [hostStep, hostInHost, HostState.takes, hu, hl, hdash',
            show (45 : UInt8) ≠ COLON by decide, show (45 : UInt8) ≠ DOT by decide]
        · simp [hostStep, HostState.takes, hu, hl, hdash', show (45 : UInt8) ≠ DOT by decide]
      · rcases hst with rfl | rfl
        · have hb' : b ≠ COLON := hb
          simp [hostStep, hostInHost, HostState.takes, hu, hl, hd, hb']
        · have hb' : b ≠ 93 := hb
          by_cases hc : b = COLON
          · subst hc
            simp [hostStep, HostState.takes, hcolon, hl, show COLON ≠ DOT by decide]
          · simp [hostStep, HostState.takes, hu, hl, hd, hb', hc]

/-- The dots of a host, when the character in front of it is a dot or is not. -/
def DotsBehind (afterDot : Prop) [Decidable afterDot] (s : Bytes) : Prop :=
  DotsApart (if afterDot then DOT :: s else s)

/-- **The characters of a host**: no two dots next to each other, and only characters that the
state takes. -/
theorem hostScan_run : ∀ (s : Bytes) {sc sc' : HostScan} {i : ℕ},
    (sc.state = .inHost ∨ sc.state = .ipLiteral) → sc.state.stop ∉ s →
      (sc.dotPos < i ∨ i + s.length ≤ sc.dotPos) →
      ((∃ dot, hostScan sc i s = some { sc' with dotPos := dot }) ↔
        ((∀ b ∈ s, sc.state.takes b = true) ∧ DotsBehind (sc.dotPos + 1 = i) s) ∧
          sc'.state = sc.state ∧ sc'.hostLen = sc.hostLen ∧ sc'.port = sc.port ∧
          sc'.needLc = (sc.needLc || s.any isUpper)) := by
  intro s
  induction s with
  | nil =>
    intro sc sc' i _ _ _
    have hdots : DotsBehind (sc.dotPos + 1 = i) [] := by
      unfold DotsBehind
      split
      · exact (by decide : DotsApart [DOT])
      · exact dotsApart_nil
    obtain ⟨state, hostLen, dotPos, port, needLc⟩ := sc
    obtain ⟨state', hostLen', dotPos', port', needLc'⟩ := sc'
    simp only [hostScan, hdots, Option.some.injEq, HostScan.mk.injEq, List.not_mem_nil,
      false_implies, implies_true, true_and, List.any_nil, Bool.or_false, exists_and_left]
    constructor
    · rintro ⟨rfl, rfl, -, -, rfl, rfl⟩
      exact ⟨rfl, rfl, rfl, rfl⟩
    · rintro ⟨rfl, rfl, rfl, rfl⟩
      exact ⟨rfl, rfl, dotPos, rfl, rfl, rfl⟩
  | cons b s ih =>
    intro sc sc' i hst hstop hpos
    rw [List.mem_cons, not_or] at hstop
    rw [List.length_cons] at hpos
    rw [hostScan, hostStep_run hst (Ne.symm hstop.1), List.forall_mem_cons, List.any_cons]
    by_cases hb : b = DOT
    · -- a dot: the one in front of it would be at the position that is kept
      subst hb
      have htakes : sc.state.takes DOT = true := by
        rcases hst with hst | hst <;> rw [hst] <;> decide
      have hupper : isUpper DOT = false := by decide
      rw [if_pos rfl]
      by_cases hadj : sc.dotPos + 1 = i
      · have hdots : ¬ DotsBehind (sc.dotPos + 1 = i) (DOT :: s) := by
          rw [DotsBehind, if_pos hadj]
          exact not_dotsApart_dot_dot s
        rw [if_pos hadj]
        simp only [reduceCtorEq, exists_false, false_iff]
        exact fun h => hdots h.1.2
      · have hnext := @ih { sc with dotPos := i } sc' (i + 1) hst hstop.2 (Or.inl (by simp))
        have hdots : DotsBehind (i + 1 = i + 1) s ↔ DotsBehind (sc.dotPos + 1 = i) (DOT :: s) := by
          rw [DotsBehind, DotsBehind, if_pos rfl, if_neg hadj]
        rw [if_neg hadj]
        dsimp only at hnext ⊢
        rw [hnext, hdots, htakes, hupper]
        simp
    · rw [if_neg hb]
      by_cases htakes : sc.state.takes b = true
      · have hnext := @ih { sc with needLc := sc.needLc || isUpper b } sc' (i + 1) hst hstop.2
          (by dsimp only; omega)
        have hfar : ¬ sc.dotPos + 1 = i + 1 := by omega
        have hdots : DotsBehind (sc.dotPos + 1 = i + 1) s ↔
            DotsBehind (sc.dotPos + 1 = i) (b :: s) := by
          rw [DotsBehind, DotsBehind, if_neg hfar]
          split
          · exact (dotsApart_dot_cons_iff hb s).symm
          · exact (dotsApart_cons_iff hb s).symm
        rw [if_pos htakes]
        dsimp only at hnext ⊢
        rw [hnext, hdots, htakes, Bool.or_assoc]
        simp
      · simp [htakes]

/-- **The digits of a port**: their value is kept, and does not exceed 65535. -/
theorem hostScan_port : ∀ (s : Bytes) {sc : HostScan} {i : ℕ}, sc.state = .port →
    hostScan sc i s =
      if s.all isDigit then
        (Numeral.readUpTo 10 65535 sc.port (decimalDigits s)).map fun n => { sc with port := n }
      else none := by
  intro s
  induction s with
  | nil =>
    intro sc i hst
    simp [hostScan, decimalDigits, Numeral.readUpTo]
  | cons b s ih =>
    intro sc i hst
    by_cases hb : isDigit b = true
    · have hlast : (sc.port > 6553 || (decide (sc.port = 6553) && decide (b.toNat - 48 > 5))) =
          decide (65535 < sc.port * 10 + (b.toNat - 48)) := by
        have hrange := isDigit_toNat hb
        rw [← Bool.decide_and, ← Bool.decide_or, decide_eq_decide]
        omega
      simp only [hostScan, hostStep, hst, hb, if_true, hlast, decimalDigits, List.map_cons,
        Numeral.readUpTo, decide_eq_true_eq, List.all_cons, Bool.true_and]
      by_cases hbig : 65535 < sc.port * 10 + (b.toNat - 48)
      · simp [hbig]
      · rw [if_neg hbig, if_neg hbig]
        dsimp only
        rw [ih (by rfl)]
        rfl
    · simp [hostScan, hostStep, hst, hb]

/-- What stands behind a host. -/
theorem hostScan_tail_eq {sc : HostScan} {i : ℕ} {digits : Bytes} (hport : sc.port = 0)
    (hdigits : ∀ b ∈ digits, isDigit b = true) (hst : sc.state = .port) :
    hostScan sc i digits =
      if decimalValue digits ≤ 65535 then some { sc with port := decimalValue digits }
      else none := by
  rw [hostScan_port digits hst, if_pos (List.all_eq_true.mpr hdigits),
    Numeral.readUpTo_eq (by decide) (by rw [hport]; decide), hport, decimalValue]
  split <;> rfl

/-- The colon behind a host. -/
theorem hostStep_colon {sc : HostScan} {i : ℕ}
    (hst : sc.state = .inHost ∨ sc.state = .ipLiteralEnd ∧ sc.hostLen = i) :
    hostStep sc i COLON = some { sc with state := .port, hostLen := i } := by
  obtain ⟨state, hostLen, dotPos, port, needLc⟩ := sc
  dsimp only at hst
  rcases hst with rfl | ⟨rfl, rfl⟩
  · have hcolon : isUpper COLON = false ∧ isLower COLON = false ∧ isDigit COLON = false := by decide
    simp [hostStep, hostInHost, hcolon]
  · simp [hostStep]

/-- **Behind a host**: the value is over, or a port follows. -/
theorem hostScan_tail_iff {sc sc' : HostScan} {i : ℕ} {text : Bytes}
    (hst : sc.state = .inHost ∧ (text = [] ∨ text.head? = some COLON) ∨
      sc.state = .ipLiteralEnd ∧ sc.hostLen = i) (hport : sc.port = 0) :
    hostScan sc i text = some sc' ↔ text = [] ∧ sc' = sc ∨
      ∃ digits, text = COLON :: digits ∧ (∀ b ∈ digits, isDigit b = true) ∧
        decimalValue digits ≤ 65535 ∧
          sc' = { sc with state := .port, hostLen := i, port := decimalValue digits } := by
  cases text with
  | nil =>
    simp only [hostScan, Option.some.injEq, true_and, reduceCtorEq, false_and, exists_false,
      or_false]
    exact ⟨Eq.symm, Eq.symm⟩
  | cons b digits =>
    simp only [reduceCtorEq, false_and, false_or, List.cons.injEq]
    by_cases hb : b = COLON
    · subst hb
      have hcolon := @hostStep_colon sc i (hst.imp_left And.left)
      rw [hostScan, hcolon]
      dsimp only
      by_cases hdigits : ∀ b ∈ digits, isDigit b = true
      · rw [hostScan_tail_eq (by exact hport) hdigits (by rfl)]
        split
        · next hle =>
          rw [Option.some.injEq]
          constructor
          · exact fun h => ⟨digits, ⟨rfl, rfl⟩, hdigits, hle, h.symm⟩
          · rintro ⟨_, ⟨-, rfl⟩, -, -, h⟩
            exact h.symm
        · next hle =>
          simp only [reduceCtorEq, false_iff]
          rintro ⟨_, ⟨-, rfl⟩, -, hle', -⟩
          exact hle hle'
      · rw [hostScan_port digits (by rfl), if_neg (mt List.all_eq_true.mp hdigits)]
        simp only [reduceCtorEq, false_iff]
        rintro ⟨_, ⟨-, rfl⟩, hdigits', -⟩
        exact hdigits hdigits'
    · -- behind a literal nothing but a colon may come
      have hend : sc.state = .ipLiteralEnd := by
        rcases hst with ⟨-, htext⟩ | ⟨hend, -⟩
        · simp [hb] at htext
        · exact hend
      simp [hostScan, hostStep, hend, hb]

/-- What the scan leaves behind a host and a port. -/
structure Scanned (name text : Bytes) (sc : HostScan) : Prop where
  state_ne : sc.state ≠ .ipLiteral
  hostLen : sc.hostLen = name.length
  needLc : sc.needLc = name.any isUpper
  port : IsPort text sc.port
  port_le : sc.port ≤ 65535

/-- The state in which `validateHost` begins. -/
def HostScan.init (h : Bytes) : HostScan := ⟨.start, h.length, h.length, 0, false⟩

/-- The end of `validateHost`. -/
theorem validateHost_of_scan {name text : Bytes} {sc : HostScan}
    (hscan : hostScan (.init (name ++ text)) 0 (name ++ text) = some sc)
    (h : Scanned name text sc) :
    validateHost (name ++ text) =
      if dropFinalDot name = [] then none
      else some (strTolower (dropFinalDot name), sc.port) := by
  -- lower case is only asked for where the scan has seen an upper case letter
  have hlower : (if sc.needLc then strTolower (dropFinalDot name) else dropFinalDot name) =
      strTolower (dropFinalDot name) := by
    cases hupper : name.any isUpper with
    | true => simp [h.needLc, hupper]
    | false =>
      have hnone : ∀ b ∈ dropFinalDot name, toLower b = b := fun b hb =>
        toLower_of_not_isUpper (by
          simpa using List.any_eq_false.mp hupper b ((prefix_dropFinalDot name).subset hb))
      rw [h.needLc, hupper, if_neg (by simp), strTolower]
      exact ((List.map_congr_left hnone).trans (List.map_id _)).symm
  -- the last dot, by position and as the end of the name
  have hlast : (decide (0 < name.length) && (name ++ text)[name.length - 1]? == some DOT) =
      decide (name.getLast? = some DOT) := by
    cases name with
    | nil => rfl
    | cons b name =>
      rw [List.getElem?_append_left (by simp), List.getLast?_eq_getElem?]
      simp [Bool.beq_eq_decide_eq]
  have hcut : (name ++ text).take (if name.getLast? = some DOT then name.length - 1
      else name.length) = dropFinalDot name := by
    unfold dropFinalDot
    split
    · rw [List.take_append_of_le_length (by omega), List.dropLast_eq_take]
    · exact List.take_left
  have hempty : (if name.getLast? = some DOT then name.length - 1 else name.length) = 0 ↔
      dropFinalDot name = [] := by
    rw [← hcut, List.take_eq_nil_iff]
    constructor
    · exact Or.inl
    · rintro (h | h)
      · exact h
      · simp [(List.append_eq_nil_iff.mp h).1]
  rw [HostScan.init] at hscan
  unfold validateHost
  rw [hscan]
  dsimp only
  rw [if_neg h.state_ne, h.hostLen, hlast]
  simp only [decide_eq_true_eq, hcut, hempty, hlower]
  by_cases hnil : name ++ text = []
  · have hname : dropFinalDot name = [] := by rw [(List.append_eq_nil_iff.mp hnil).1]; rfl
    simp [hnil, hname]
  · rw [if_neg (by simpa using hnil)]

/-! ### Names and literals -/

/-- The tail behind a host that has been scanned. -/
theorem Scanned.of_tail {name text : Bytes} {sc sc' : HostScan}
    (hst : sc.state = .inHost ∧ (text = [] ∨ text.head? = some COLON) ∨
      sc.state = .ipLiteralEnd ∧ sc.hostLen = name.length) (hport : sc.port = 0)
    (hlen : text = [] → sc.hostLen = name.length) (hlc : sc.needLc = name.any isUpper)
    (h : hostScan sc name.length text = some sc') : Scanned name text sc' := by
  rcases (hostScan_tail_iff hst hport).mp h with ⟨rfl, rfl⟩ | ⟨digits, rfl, hdigits, hle, rfl⟩
  · refine ⟨?_, hlen rfl, hlc, hport ▸ .absent, by simp [hport]⟩
    rcases hst with ⟨hst, -⟩ | ⟨hst, -⟩ <;> simp [hst]
  · exact ⟨by simp, rfl, hlc, .present hdigits, hle⟩

/-- A port is scanned when it is not too large. -/
theorem exists_hostScan_tail {name text : Bytes} {sc : HostScan} {port : ℕ}
    (hst : sc.state = .inHost ∧ (text = [] ∨ text.head? = some COLON) ∨
      sc.state = .ipLiteralEnd ∧ sc.hostLen = name.length) (hport : sc.port = 0)
    (h : IsPort text port) (hle : port ≤ 65535) :
    ∃ sc', hostScan sc name.length text = some sc' := by
  cases h with
  | absent => exact ⟨sc, rfl⟩
  | present hdigits =>
    exact ⟨_, (hostScan_tail_iff hst hport).mpr (Or.inr ⟨_, rfl, hdigits, hle, rfl⟩)⟩

theorem hostScan_start {h : Bytes} (hhead : h.head? ≠ some LBRACKET) (hne : h ≠ []) :
    hostScan (.init h) 0 h = hostScan { HostScan.init h with state := .inHost } 0 h := by
  cases h with
  | nil => exact absurd rfl hne
  | cons b h =>
    have hb : ¬ (b == 91) = true := by simpa [LBRACKET] using hhead
    rw [hostScan, hostScan, hostStep, HostScan.init]
    dsimp only
    rw [if_neg hb]
    rfl

/-- **A value that begins with a name.** -/
theorem hostScan_name {name text : Bytes} {sc : HostScan}
    (hhead : (name ++ text).head? ≠ some LBRACKET) (hne : name ++ text ≠ []) (hcolon : COLON ∉ name)
    (htext : text = [] ∨ text.head? = some COLON)
    (h : hostScan (.init (name ++ text)) 0 (name ++ text) = some sc) :
    (∀ b ∈ name, isHostChar b = true) ∧ DotsApart name ∧ Scanned name text sc := by
  rw [hostScan_start hhead hne, hostScan_append, Option.bind_eq_some_iff] at h
  obtain ⟨sc₁, hname, htail⟩ := h
  obtain ⟨⟨hchars, hdots⟩, hstate, hlen, hport, hlc⟩ :=
    (@hostScan_run name { HostScan.init (name ++ text) with state := .inHost } sc₁ 0 (Or.inl rfl)
      hcolon (Or.inr (by simp [HostScan.init]))).mp ⟨sc₁.dotPos, hname⟩
  refine ⟨hchars, hdots, .of_tail (Or.inl ⟨hstate, htext⟩) hport ?_
    (by simpa [HostScan.init] using hlc) (by simpa using htail)⟩
  rintro rfl
  simpa [HostScan.init] using hlen

theorem exists_hostScan_name {name text : Bytes} {port : ℕ}
    (hhead : (name ++ text).head? ≠ some LBRACKET) (hne : name ++ text ≠ [])
    (hchars : ∀ b ∈ name, isHostChar b = true) (hdots : DotsApart name) (htext : IsPort text port)
    (hle : port ≤ 65535) : ∃ sc, hostScan (.init (name ++ text)) 0 (name ++ text) = some sc := by
  have hcolon : COLON ∉ name := fun hmem => by simpa [isHostChar_COLON] using hchars COLON hmem
  let sc₁ : HostScan := { HostScan.init (name ++ text) with
    state := .inHost, needLc := name.any isUpper }
  obtain ⟨dot, hname⟩ :=
    (@hostScan_run name { HostScan.init (name ++ text) with state := .inHost } sc₁ 0 (Or.inl rfl)
      hcolon (Or.inr (by simp [HostScan.init]))).mpr
        ⟨⟨hchars, hdots⟩, rfl, rfl, rfl, by simp [sc₁, HostScan.init]⟩
  obtain ⟨sc', htail⟩ := @exists_hostScan_tail name text { sc₁ with dotPos := dot } port
    (Or.inl ⟨rfl, htext.start⟩) rfl htext hle
  refine ⟨sc', ?_⟩
  rw [hostScan_start hhead hne, hostScan_append, hname]
  simpa using htail

theorem hostScan_bracket (t : Bytes) :
    hostScan (.init (LBRACKET :: t)) 0 (LBRACKET :: t) =
      hostScan { HostScan.init (LBRACKET :: t) with state := .ipLiteral } 1 t := rfl

/-- The bracket that ends a literal. -/
theorem hostStep_close {sc : HostScan} {i : ℕ} (hst : sc.state = .ipLiteral) :
    hostStep sc i RBRACKET = some { sc with hostLen := i + 1, state := .ipLiteralEnd } := by
  simp only [hostStep, hst]
  rfl

theorem takes_ipLiteral_iff (b : UInt8) :
    HostState.ipLiteral.takes b = true ↔ isHostChar b = true ∨ b = COLON := by
  simp [HostState.takes]

/-- **A value that begins with a bracket**: without the other one the scan does not leave the
literal. -/
theorem hostScan_literal {s rest : Bytes} {sc : HostScan} (hclose : RBRACKET ∉ s)
    (h : hostScan (.init (LBRACKET :: (s ++ rest))) 0 (LBRACKET :: (s ++ rest)) = some sc) :
    (∀ b ∈ s, isHostChar b = true ∨ b = COLON) ∧ DotsApart s ∧
      (rest = [] → sc.state = .ipLiteral) ∧
      ∀ text, rest = RBRACKET :: text → Scanned (LBRACKET :: s ++ [RBRACKET]) text sc := by
  rw [hostScan_bracket, hostScan_append, Option.bind_eq_some_iff] at h
  obtain ⟨sc₁, hs, hrest⟩ := h
  obtain ⟨⟨hchars, hdots⟩, hstate, -, hport, hlc⟩ :=
    (@hostScan_run s { HostScan.init (LBRACKET :: (s ++ rest)) with state := .ipLiteral } sc₁ 1
      (Or.inr rfl) hclose (Or.inr (by simp [HostScan.init]; omega))).mp ⟨sc₁.dotPos, hs⟩
  refine ⟨fun b hb => (takes_ipLiteral_iff b).mp (hchars b hb), by
    simpa [DotsBehind, HostScan.init] using hdots, ?_, ?_⟩
  · rintro rfl
    rw [hostScan, Option.some.injEq] at hrest
    exact hrest ▸ hstate
  · rintro text rfl
    rw [hostScan, hostStep_close hstate] at hrest
    have hupper : isUpper LBRACKET = false ∧ isUpper RBRACKET = false := by decide
    refine @Scanned.of_tail _ text { sc₁ with hostLen := 1 + s.length + 1, state := .ipLiteralEnd }
      sc (Or.inr ⟨rfl, ?_⟩) hport (fun _ => ?_) ?_ ?_
    · simp [Nat.add_comm]
    · simp [Nat.add_comm]
    · simpa [HostScan.init, hupper] using hlc
    · simpa [Nat.add_comm, Nat.add_assoc] using hrest

theorem RBRACKET_notMem {s : Bytes} (hchars : ∀ b ∈ s, isHostChar b = true ∨ b = COLON) :
    RBRACKET ∉ s := by
  intro hmem
  rcases hchars _ hmem with h | h
  · simp [isHostChar_RBRACKET] at h
  · exact absurd h (by decide)

theorem exists_hostScan_literal {s text : Bytes} {port : ℕ}
    (hchars : ∀ b ∈ s, isHostChar b = true ∨ b = COLON) (hdots : DotsApart s)
    (htext : IsPort text port) (hle : port ≤ 65535) :
    ∃ sc, hostScan (.init (LBRACKET :: s ++ [RBRACKET] ++ text)) 0
      (LBRACKET :: s ++ [RBRACKET] ++ text) = some sc := by
  have hclose : RBRACKET ∉ s := RBRACKET_notMem hchars
  have hassoc : LBRACKET :: s ++ [RBRACKET] ++ text = LBRACKET :: (s ++ RBRACKET :: text) := by simp
  rw [hassoc, hostScan_bracket, hostScan_append]
  let sc₁ : HostScan := { HostScan.init (LBRACKET :: (s ++ RBRACKET :: text)) with
    state := .ipLiteral, needLc := s.any isUpper }
  obtain ⟨dot, hs⟩ :=
    (@hostScan_run s { HostScan.init (LBRACKET :: (s ++ RBRACKET :: text)) with
      state := .ipLiteral } sc₁ 1 (Or.inr rfl) hclose (Or.inr (by simp [HostScan.init]; omega))).mpr
        ⟨⟨fun b hb => (takes_ipLiteral_iff b).mpr (hchars b hb), by
          simpa [DotsBehind, HostScan.init] using hdots⟩, rfl, rfl, rfl, by
            simp [sc₁, HostScan.init]⟩
  let sc₂ : HostScan := { sc₁ with
    dotPos := dot, hostLen := 1 + s.length + 1, state := .ipLiteralEnd }
  obtain ⟨sc', htail⟩ := @exists_hostScan_tail (LBRACKET :: s ++ [RBRACKET]) text sc₂ port
    (Or.inr ⟨rfl, by simp [sc₂, Nat.add_comm]⟩) rfl htext hle
  refine ⟨sc', ?_⟩
  rw [hs, Option.bind_some, hostScan, hostStep_close (by rfl)]
  simpa [sc₂, Nat.add_comm, Nat.add_assoc] using htail

/-! ### The whole value -/

/-- A string is cut in front of the first of a character. -/
theorem exists_cut (stop : UInt8) (h : Bytes) :
    ∃ s rest, h = s ++ rest ∧ stop ∉ s ∧ (rest = [] ∨ rest.head? = some stop) := by
  by_cases hmem : stop ∈ h
  · obtain ⟨s, rest, rfl, hs⟩ := List.eq_append_cons_of_mem hmem
    exact ⟨s, stop :: rest, rfl, hs, Or.inr rfl⟩
  · exact ⟨h, [], (List.append_nil h).symm, hmem, Or.inl rfl⟩

theorem dropFinalDot_literal (s : Bytes) :
    dropFinalDot (LBRACKET :: s ++ [RBRACKET]) = LBRACKET :: s ++ [RBRACKET] :=
  dropFinalDot_of_ne (by rw [List.getLast?_concat]; decide)

/-- A value is refused where the scan stops, or in a literal that is not closed. -/
theorem validateHost_eq_none {h : Bytes}
    (hscan : ∀ sc, hostScan (.init h) 0 h = some sc → sc.state = .ipLiteral) :
    validateHost h = none := by
  unfold validateHost
  split
  · rfl
  · cases hs : hostScan ⟨.start, h.length, h.length, 0, false⟩ 0 h with
    | none => rfl
    | some sc => exact if_pos (hscan sc hs)

/-- **What has been scanned** is a host, up to its final dot, and a port. -/
theorem Scanned.of_hostScan {h : Bytes} {sc : HostScan} (hne : h ≠ [])
    (hscan : hostScan (.init h) 0 h = some sc) (hopen : sc.state ≠ .ipLiteral) :
    ∃ name text, h = name ++ text ∧ Scanned name text sc ∧
      (dropFinalDot name ≠ [] → IsHost name) := by
  by_cases hhead : h.head? = some LBRACKET
  · obtain ⟨t, rfl⟩ : ∃ t, h = LBRACKET :: t := ⟨h.tail, (List.cons_head?_tail hhead).symm⟩
    obtain ⟨s, rest, rfl, hclose, hrest⟩ := exists_cut RBRACKET t
    obtain ⟨hchars, hdots, hstill, hclosed⟩ := hostScan_literal hclose hscan
    rcases hrest with rfl | hrest
    · -- the literal is not closed
      exact absurd (hstill rfl) hopen
    · obtain ⟨text, rfl⟩ : ∃ text, rest = RBRACKET :: text :=
        ⟨rest.tail, (List.cons_head?_tail hrest).symm⟩
      exact ⟨LBRACKET :: s ++ [RBRACKET], text, by simp, hclosed text rfl,
        fun _ => .literal hchars hdots⟩
  · obtain ⟨name, text, rfl, hcolon, htext⟩ := exists_cut COLON h
    obtain ⟨hchars, hdots, hdone⟩ := hostScan_name hhead hne hcolon htext hscan
    exact ⟨name, text, rfl, hdone, .name hchars hdots⟩

theorem IsHost.dropFinalDot_ne_nil {name : Bytes} (h : IsHost name) : dropFinalDot name ≠ [] := by
  cases h with
  | literal _ _ =>
    rw [dropFinalDot_literal]
    simp
  | name _ _ hne => exact hne

/-- **A host is scanned**, and the port behind it. -/
theorem IsHost.exists_scanned {name text : Bytes} {port : ℕ} (h : IsHost name)
    (htext : IsPort text port) (hle : port ≤ 65535) :
    ∃ sc, hostScan (.init (name ++ text)) 0 (name ++ text) = some sc ∧ Scanned name text sc := by
  cases h with
  | @literal s hchars hdots =>
    have hclose : RBRACKET ∉ s := RBRACKET_notMem hchars
    obtain ⟨sc, hscan⟩ := exists_hostScan_literal hchars hdots htext hle
    have hassoc : LBRACKET :: s ++ [RBRACKET] ++ text =
        LBRACKET :: (s ++ RBRACKET :: text) := by simp
    refine ⟨sc, hscan, ?_⟩
    rw [hassoc] at hscan
    exact (hostScan_literal hclose hscan).2.2.2 text rfl
  | name hchars hdots hname =>
    have hne : name ≠ [] := by
      rintro rfl
      exact hname rfl
    have hhead : (name ++ text).head? ≠ some LBRACKET := by
      obtain ⟨b, t, rfl⟩ := List.exists_cons_of_ne_nil hne
      have hb := hchars b List.mem_cons_self
      simp only [List.cons_append, List.head?_cons, ne_eq, Option.some.injEq]
      rintro rfl
      rw [isHostChar_LBRACKET] at hb
      cases hb
    have hcolon : COLON ∉ name := fun hmem => by
      simpa [isHostChar_COLON] using hchars COLON hmem
    obtain ⟨sc, hscan⟩ := exists_hostScan_name hhead (by simp [hne]) hchars hdots htext hle
    exact ⟨sc, hscan, (hostScan_name hhead (by simp [hne]) hcolon htext.start hscan).2.2⟩

/-- **What is accepted**: a host and a port, and what it is made into. -/
theorem validateHost_iff {h host : Bytes} {port : ℕ} :
    validateHost h = some (host, port) ↔
      ∃ name text, h = name ++ text ∧ IsHost name ∧ IsPort text port ∧ port ≤ 65535 ∧
        host = strTolower (dropFinalDot name) := by
  constructor
  · intro hvalid
    have hne : h ≠ [] := by
      rintro rfl
      simp [validateHost] at hvalid
    have hopen : ¬ ∀ sc, hostScan (.init h) 0 h = some sc → sc.state = .ipLiteral := by
      intro hopen
      rw [validateHost_eq_none hopen] at hvalid
      cases hvalid
    simp only [not_forall] at hopen
    obtain ⟨sc, hscan, hopen⟩ := hopen
    obtain ⟨name, text, rfl, hdone, hhost⟩ := Scanned.of_hostScan hne hscan hopen
    rw [validateHost_of_scan hscan hdone] at hvalid
    split at hvalid
    · cases hvalid
    · next hname =>
      cases hvalid
      exact ⟨name, text, rfl, hhost hname, hdone.port, hdone.port_le, rfl⟩
  · rintro ⟨name, text, rfl, hhost, htext, hle, rfl⟩
    obtain ⟨sc, hscan, hdone⟩ := hhost.exists_scanned htext hle
    rw [validateHost_of_scan hscan hdone, if_neg hhost.dropFinalDot_ne_nil,
      hdone.port.unique htext]

/-! ### Once more -/

theorem strTolower_strTolower (s : Bytes) : strTolower (strTolower s) = strTolower s := by
  simp [strTolower, toLower_toLower]

/-- The normal form of a host is a host, which has it already. -/
theorem IsHost.normal {name : Bytes} (h : IsHost name) :
    IsHost (strTolower (dropFinalDot name)) ∧
      dropFinalDot (strTolower (dropFinalDot name)) = strTolower (dropFinalDot name) := by
  cases h with
  | @literal s hchars hdots =>
    have hlower : strTolower (LBRACKET :: s ++ [RBRACKET]) =
        LBRACKET :: strTolower s ++ [RBRACKET] := by
      simp [strTolower, show toLower LBRACKET = LBRACKET by decide,
        show toLower RBRACKET = RBRACKET by decide]
    rw [dropFinalDot_literal, hlower]
    refine ⟨.literal (fun b hb => ?_) hdots.map_toLower, dropFinalDot_literal _⟩
    obtain ⟨x, hx, rfl⟩ := List.mem_map.mp hb
    rw [isHostChar_toLower, toLower_eq_COLON_iff]
    exact hchars x hx
  | name hchars hdots hne =>
    have hsub := prefix_dropFinalDot name
    have hlast : (strTolower (dropFinalDot name)).getLast? ≠ some DOT := by
      rw [strTolower, List.getLast?_map, ne_eq, Option.map_eq_some_iff]
      rintro ⟨b, hb, hdot⟩
      rw [toLower_eq_DOT_iff] at hdot
      exact getLast?_dropFinalDot hdots (hdot ▸ hb)
    have hsame := dropFinalDot_of_ne hlast
    refine ⟨.name (fun b hb => ?_) (hdots.of_infix hsub.isInfix).map_toLower ?_, hsame⟩
    · obtain ⟨x, hx, rfl⟩ := List.mem_map.mp hb
      rw [isHostChar_toLower]
      exact hchars x (hsub.subset hx)
    · rw [hsame, strTolower, ne_eq, List.map_eq_nil_iff]
      exact hne

/-- **Acceptance, normal form, and the normal form once more.** -/
theorem validateHost_spec :
    (∀ (h host : Bytes) (port : ℕ), validateHost h = some (host, port) ↔
      ∃ name text, h = name ++ text ∧ IsHost name ∧ IsPort text port ∧ port ≤ 65535 ∧
        host = strTolower (dropFinalDot name)) ∧
    ∀ (h host : Bytes) (port : ℕ), validateHost h = some (host, port) →
      validateHost host = some (host, 0) := by
  refine ⟨fun h host port => validateHost_iff, fun h host port hvalid => ?_⟩
  obtain ⟨name, text, -, hhost, -, -, rfl⟩ := validateHost_iff.mp hvalid
  obtain ⟨hnormal, hsame⟩ := hhost.normal
  refine validateHost_iff.mpr ⟨_, [], (List.append_nil _).symm, hnormal, .absent, by decide, ?_⟩
  rw [hsame, strTolower_strTolower]

theorem validateHost_again : validateHost (ascii "example.com") = some (ascii "example.com", 0) :=
  validateHost_spec.2 (ascii "Example.COM.:8080") (ascii "example.com") 8080 (by decide)

end Webserv
