import Webserv.Lib.Bytes

/-!
# The chunked transfer coding

A chunked message is a sequence of chunks, each a size line, the data and two
delimiting bytes, closed by a size line of size zero and two delimiting bytes.
`Chunks D wire payload` and `Message D wire payload` relate the bytes on the wire
to the payload they carry; `D data delim` says which data and which delimiters
behind it are let through, so that the coding proper (`Crlf`) and what a reader
accepts that only counts the two bytes (`AnyTwo`) are one definition.

## Main results

* `Message.unique` — a stream begins with at most one message.
* `chunks_encodeChunks`, `message_encode` — what the encoder writes is a message.
-/

namespace ChunkedCoding

open Bytes

/-! ### Size lines -/

/-- A byte allowed in a chunk extension: no control character but the tab. -/
def ExtByte (b : UInt8) : Prop := (0x20 ≤ b ∨ b = HTAB) ∧ b ≠ 0x7F

instance (b : UInt8) : Decidable (ExtByte b) := inferInstanceAs (Decidable (_ ∧ _))

/-- A chunk extension with its semicolon, or nothing. -/
def Extension (ext : Bytes) : Prop :=
  ext = [] ∨ ∃ e, ext = SEMICOLON :: e ∧ ∀ b ∈ e, ExtByte b

/-- `line` is a chunk-size line for the size `n`, without its line end. -/
def SizeLine (n : ℕ) (line : Bytes) : Prop :=
  ∃ digits ext, line = digits ++ ext ∧ hexValue digits = some n ∧ Extension ext

theorem SizeLine.CR_notMem {n : ℕ} {line : Bytes} (h : SizeLine n line) : CR ∉ line := by
  obtain ⟨digits, ext, rfl, hv, hext⟩ := h
  intro hmem
  rcases List.mem_append.mp hmem with hd | he
  · unfold hexValue at hv
    split at hv
    · simp at hv
    · have := isSome_hexDigit?_of_hexValueFrom digits hv CR hd
      rw [hexDigit?_CR] at this
      simp at this
  · rcases hext with rfl | ⟨e, rfl, hall⟩
    · simp at he
    · rcases List.mem_cons.mp he with h | h
      · exact absurd h (by decide)
      · exact absurd (hall CR h) (by decide)

/-- A size line begins with a digit. -/
theorem SizeLine.head {n : ℕ} {line : Bytes} (h : SizeLine n line) :
    ∃ b rest, line = b :: rest ∧ (hexDigit? b).isSome := by
  obtain ⟨digits, ext, rfl, hv, -⟩ := h
  unfold hexValue at hv
  cases digits with
  | nil => simp at hv
  | cons b digits =>
    exact ⟨b, digits ++ ext, rfl,
      isSome_hexDigit?_of_hexValueFrom (b :: digits) hv b List.mem_cons_self⟩

theorem SizeLine.ne_nil {n : ℕ} {line : Bytes} (h : SizeLine n line) : line ≠ [] := by
  obtain ⟨b, rest, rfl, -⟩ := h.head
  exact List.cons_ne_nil b rest

/-- The digits of a size line end at its first semicolon. -/
private theorem digits_unique {d₁ d₂ e₁ e₂ : Bytes} {n₁ n₂ : ℕ}
    (h₁ : hexValue d₁ = some n₁) (h₂ : hexValue d₂ = some n₂)
    (he₁ : Extension e₁) (he₂ : Extension e₂) (h : d₁ ++ e₁ = d₂ ++ e₂) : d₁ = d₂ := by
  have hsemi : ∀ {d : Bytes} {n : ℕ}, hexValue d = some n → SEMICOLON ∉ d := by
    intro d n hv hmem
    unfold hexValue at hv
    split at hv
    · simp at hv
    · have := isSome_hexDigit?_of_hexValueFrom d hv SEMICOLON hmem
      rw [hexDigit?_SEMICOLON] at this
      simp at this
  have hstart : ∀ {e : Bytes}, Extension e → e = [] ∨ ∃ t, e = SEMICOLON :: t := by
    rintro e (rfl | ⟨t, rfl, -⟩)
    · exact Or.inl rfl
    · exact Or.inr ⟨t, rfl⟩
  -- whichever of the two is longer would hold the other's semicolon
  have hcut : ∀ {a b s t : Bytes}, SEMICOLON ∉ b → (s = [] ∨ ∃ u, s = SEMICOLON :: u) →
      a ++ s = b ++ t → a.length ≤ b.length → a = b := by
    intro a b s t hb hs hab hle
    obtain ⟨c, rfl⟩ : ∃ c, b = a ++ c := by
      have hpre : a <+: b :=
        List.prefix_of_prefix_length_le (List.prefix_append a s) ⟨t, hab.symm⟩ hle
      exact ⟨_, hpre.choose_spec.symm⟩
    rw [List.append_assoc, List.append_cancel_left_eq] at hab
    rcases hs with rfl | ⟨u, rfl⟩
    · have := congrArg List.length hab
      simp only [List.length_nil, List.length_append] at this
      rw [List.length_eq_zero_iff.mp (show c.length = 0 by omega), List.append_nil]
    · cases c with
      | nil => simp
      | cons x c =>
        rw [List.cons_append, List.cons.injEq] at hab
        exact absurd (List.mem_append_right a (hab.1 ▸ List.mem_cons_self)) hb
  rcases Nat.le_total d₁.length d₂.length with hle | hle
  · exact hcut (hsemi h₂) (hstart he₁) h hle
  · exact (hcut (hsemi h₁) (hstart he₂) h.symm hle).symm

theorem SizeLine.size_unique {n m : ℕ} {line : Bytes} (h₁ : SizeLine n line)
    (h₂ : SizeLine m line) : n = m := by
  obtain ⟨d₁, e₁, rfl, hv₁, he₁⟩ := h₁
  obtain ⟨d₂, e₂, heq, hv₂, he₂⟩ := h₂
  have hd := digits_unique hv₁ hv₂ he₁ he₂ heq
  rw [hd, hv₂, Option.some.injEq] at hv₁
  exact hv₁.symm

theorem sizeLine_hexadecimal (n : ℕ) : SizeLine n (hexadecimal n) :=
  ⟨hexadecimal n, [], by simp, hexValue_hexadecimal n, Or.inl rfl⟩

/-- Lines without CR end at the first CRLF. -/
theorem line_unique {l₁ l₂ r₁ r₂ : Bytes} (h₁ : CR ∉ l₁) (h₂ : CR ∉ l₂)
    (h : l₁ ++ crlf ++ r₁ = l₂ ++ crlf ++ r₂) : l₁ = l₂ ∧ r₁ = r₂ := by
  induction l₁ generalizing l₂ with
  | nil =>
    cases l₂ with
    | nil => simpa using h
    | cons b l₂ =>
      simp only [crlf, List.nil_append, List.cons_append, List.cons.injEq] at h
      exact absurd (h.1 ▸ List.mem_cons_self) h₂
  | cons a l₁ ih =>
    cases l₂ with
    | nil =>
      simp only [crlf, List.nil_append, List.cons_append, List.cons.injEq] at h
      exact absurd (h.1.symm ▸ List.mem_cons_self) h₁
    | cons b l₂ =>
      simp only [List.cons_append, List.cons.injEq] at h
      obtain ⟨hl, hr⟩ := ih (fun hm => h₁ (List.mem_cons_of_mem _ hm))
        (fun hm => h₂ (List.mem_cons_of_mem _ hm)) h.2
      exact ⟨by rw [h.1, hl], hr⟩

/-! ### Chunks and messages -/

/-- The delimiter of the coding: CR LF. -/
def Crlf (_data delim : Bytes) : Prop := delim = crlf

/-- What a reader lets through that only counts the delimiter's two bytes. -/
def AnyTwo (_data delim : Bytes) : Prop := delim.length = 2

/-- Such a reader that also bounds the chunks. -/
def AnyTwoUpTo (n : ℕ) (data delim : Bytes) : Prop := delim.length = 2 ∧ data.length ≤ n

theorem AnyTwo.of_crlf {data delim : Bytes} (h : Crlf data delim) : AnyTwo data delim := by
  rw [h]; rfl

theorem AnyTwoUpTo.anyTwo {n : ℕ} {data delim : Bytes} (h : AnyTwoUpTo n data delim) :
    AnyTwo data delim := h.1

/-- A sequence of chunks and the payload it carries. -/
inductive Chunks (D : Bytes → Bytes → Prop) : Bytes → Bytes → Prop
  | nil : Chunks D [] []
  | cons {line data delim wire payload : Bytes} :
      SizeLine data.length line → data ≠ [] → D data delim → Chunks D wire payload →
      Chunks D (line ++ crlf ++ data ++ delim ++ wire) (data ++ payload)

/-- Chunks, then the last chunk of size zero and its delimiter. -/
def Message (D : Bytes → Bytes → Prop) (wire payload : Bytes) : Prop :=
  ∃ body line delim, wire = body ++ (line ++ crlf ++ delim) ∧ Chunks D body payload ∧
    SizeLine 0 line ∧ D [] delim

section

variable {D E : Bytes → Bytes → Prop}

theorem Chunks.mono (hDE : ∀ a d, D a d → E a d) {wire payload : Bytes}
    (h : Chunks D wire payload) : Chunks E wire payload := by
  induction h with
  | nil => exact .nil
  | cons hline hdata hdelim _ ih => exact .cons hline hdata (hDE _ _ hdelim) ih

theorem Message.mono (hDE : ∀ a d, D a d → E a d) {wire payload : Bytes}
    (h : Message D wire payload) : Message E wire payload := by
  obtain ⟨body, line, delim, hw, hbody, hline, hdelim⟩ := h
  exact ⟨body, line, delim, hw, hbody.mono hDE, hline, hDE _ _ hdelim⟩

theorem Chunks.append {w₁ p₁ w₂ p₂ : Bytes} (h₁ : Chunks D w₁ p₁)
    (h₂ : Chunks D w₂ p₂) : Chunks D (w₁ ++ w₂) (p₁ ++ p₂) := by
  induction h₁ with
  | nil => simpa using h₂
  | cons hline hdata hdelim _ ih =>
    have := Chunks.cons hline hdata hdelim ih
    simpa only [List.append_assoc] using this

theorem Message.of_chunks_append {w₁ p₁ w₂ p₂ : Bytes}
    (h₁ : Chunks D w₁ p₁) (h₂ : Message D w₂ p₂) : Message D (w₁ ++ w₂) (p₁ ++ p₂) := by
  obtain ⟨body, line, delim, rfl, hbody, hline, hdelim⟩ := h₂
  exact ⟨w₁ ++ body, line, delim, by simp only [List.append_assoc], h₁.append hbody, hline, hdelim⟩

/-- A chunk in front of a message is part of it. -/
theorem Message.cons {line data delim wire payload : Bytes} (hline : SizeLine data.length line)
    (hdata : data ≠ []) (hdelim : D data delim) (h : Message D wire payload) :
    Message D (line ++ crlf ++ data ++ delim ++ wire) (data ++ payload) := by
  have hone := Chunks.cons hline hdata hdelim (Chunks.nil (D := D))
  rw [List.append_nil, List.append_nil] at hone
  exact Message.of_chunks_append hone h

end

/-- A message of the coding proper ends with CR LF. -/
theorem Message.crlf_suffix {wire payload : Bytes} (h : Message Crlf wire payload) :
    crlf <:+ wire := by
  obtain ⟨body, line, delim, rfl, -, -, rfl⟩ := h
  rw [← List.append_assoc]
  exact List.suffix_append _ _

/-! ### A stream begins with at most one message -/

/-- Two streams whose first chunks agree up to the delimiter's length. -/
private theorem chunk_unique {l₁ l₂ a₁ a₂ d₁ d₂ r₁ r₂ : Bytes} (h₁ : SizeLine a₁.length l₁)
    (h₂ : SizeLine a₂.length l₂) (hd₁ : AnyTwo a₁ d₁)
    (hd₂ : AnyTwo a₂ d₂)
    (h : l₁ ++ crlf ++ a₁ ++ d₁ ++ r₁ = l₂ ++ crlf ++ a₂ ++ d₂ ++ r₂) :
    l₁ = l₂ ∧ a₁ = a₂ ∧ d₁ = d₂ ∧ r₁ = r₂ := by
  simp only [List.append_assoc] at h
  obtain ⟨rfl, hrest⟩ := line_unique h₁.CR_notMem h₂.CR_notMem
    (by simpa only [List.append_assoc] using h)
  obtain ⟨rfl, hrest'⟩ := List.append_inj hrest (h₁.size_unique h₂)
  obtain ⟨rfl, rfl⟩ := List.append_inj hrest' (hd₁.trans hd₂.symm)
  exact ⟨rfl, rfl, rfl, rfl⟩

/-- Chunks followed by a size line of size zero determine where they end. -/
private theorem chunks_last_unique {w₁ p₁ : Bytes} (h₁ : Chunks AnyTwo w₁ p₁) :
    ∀ {w₂ p₂ l₁ l₂ r₁ r₂ : Bytes}, Chunks AnyTwo w₂ p₂ → SizeLine 0 l₁ → SizeLine 0 l₂ →
      w₁ ++ (l₁ ++ crlf ++ r₁) = w₂ ++ (l₂ ++ crlf ++ r₂) →
      w₁ = w₂ ∧ p₁ = p₂ ∧ l₁ = l₂ ∧ r₁ = r₂ := by
  induction h₁ with
  | nil =>
    intro w₂ p₂ l₁ l₂ r₁ r₂ h₂ hl₁ hl₂ h
    cases h₂ with
    | nil =>
      obtain ⟨rfl, rfl⟩ := line_unique hl₁.CR_notMem hl₂.CR_notMem (by simpa using h)
      exact ⟨rfl, rfl, rfl, rfl⟩
    | cons hline hdata hdelim _ =>
      simp only [List.nil_append, List.append_assoc] at h
      obtain ⟨rfl, -⟩ := line_unique hl₁.CR_notMem hline.CR_notMem
        (by simpa only [List.append_assoc] using h)
      have := hl₁.size_unique hline
      exact absurd (List.length_eq_zero_iff.mp this.symm) hdata
  | @cons line data delim wire payload hline hdata hdelim _ ih =>
    intro w₂ p₂ l₁ l₂ r₁ r₂ h₂ hl₁ hl₂ h
    cases h₂ with
    | nil =>
      simp only [List.nil_append, List.append_assoc] at h
      obtain ⟨rfl, -⟩ := line_unique hline.CR_notMem hl₂.CR_notMem
        (by simpa only [List.append_assoc] using h)
      have := hline.size_unique hl₂
      exact absurd (List.length_eq_zero_iff.mp this) hdata
    | @cons line' data' delim' wire' payload' hline' hdata' hdelim' hrest' =>
      rw [List.append_assoc (line ++ crlf ++ data ++ delim),
        List.append_assoc (line' ++ crlf ++ data' ++ delim')] at h
      obtain ⟨rfl, rfl, rfl, hw⟩ := chunk_unique hline hline' hdelim hdelim' h
      obtain ⟨rfl, rfl, rfl, rfl⟩ := ih hrest' hl₁ hl₂ hw
      exact ⟨rfl, rfl, rfl, rfl⟩

/-- **A stream begins with at most one message**, whatever delimiters are let
through: both the bytes of the message and its payload are determined. -/
theorem Message.unique {w₁ p₁ w₂ p₂ r₁ r₂ : Bytes} (h₁ : Message AnyTwo w₁ p₁)
    (h₂ : Message AnyTwo w₂ p₂) (h : w₁ ++ r₁ = w₂ ++ r₂) : w₁ = w₂ ∧ p₁ = p₂ := by
  obtain ⟨b₁, l₁, d₁, rfl, hb₁, hl₁, hd₁⟩ := h₁
  obtain ⟨b₂, l₂, d₂, rfl, hb₂, hl₂, hd₂⟩ := h₂
  obtain ⟨rfl, rfl, rfl, hr⟩ := chunks_last_unique hb₁ hb₂ hl₁ hl₂
    (show b₁ ++ (l₁ ++ crlf ++ (d₁ ++ r₁)) = b₂ ++ (l₂ ++ crlf ++ (d₂ ++ r₂)) by
      simpa only [List.append_assoc] using h)
  obtain ⟨rfl, -⟩ := List.append_inj hr (hd₁.trans hd₂.symm)
  exact ⟨rfl, rfl⟩

/-- A message that begins another one is that one. -/
theorem Message.eq_of_begins {w p body payload : Bytes} (hm : Message Crlf w p)
    (hbody : Message Crlf body payload) (hw : w <+: body) : w = body ∧ p = payload := by
  obtain ⟨rest, hrest⟩ := hw
  exact (hm.mono fun _ _ => AnyTwo.of_crlf).unique (hbody.mono fun _ _ => AnyTwo.of_crlf)
    (show w ++ rest = body ++ [] by rw [hrest, List.append_nil])

/-- Bytes that begin with no size line. -/
def NoSizeLine (r : Bytes) : Prop := ∀ n line t, SizeLine n line → r ≠ line ++ t

theorem noSizeLine_nil : NoSizeLine [] := by
  intro n line t hline h
  exact hline.ne_nil (List.append_eq_nil_iff.mp h.symm).1

theorem noSizeLine_cons {b : UInt8} {r : Bytes} (hb : hexDigit? b = none) :
    NoSizeLine (b :: r) := by
  intro n line t hline h
  obtain ⟨c, rest, rfl, hc⟩ := hline.head
  rw [List.cons_append, List.cons.injEq] at h
  rw [← h.1, hb] at hc
  simp at hc

/-- A reader of chunks that comes to bytes without a size line has seen no last chunk. -/
private theorem chunks_ne_last {wire payload : Bytes} (h : Chunks AnyTwo wire payload) :
    ∀ {r w p l t : Bytes}, NoSizeLine r → Chunks AnyTwo w p → SizeLine 0 l →
      wire ++ r ≠ w ++ (l ++ crlf ++ t) := by
  induction h with
  | nil =>
    intro r w p l t hr hw hl h
    rw [List.nil_append] at h
    cases hw with
    | nil =>
      exact hr 0 l (crlf ++ t) hl (by simpa only [List.nil_append, List.append_assoc] using h)
    | @cons line data delim wire' _ hline _ _ _ =>
      exact hr _ line _ hline (by simpa only [List.append_assoc] using h)
  | @cons line data delim wire payload hline hdata hdelim _ ih =>
    intro r w p l t hr hw hl h
    cases hw with
    | nil =>
      simp only [List.nil_append, List.append_assoc] at h
      obtain ⟨rfl, -⟩ := line_unique hline.CR_notMem hl.CR_notMem
        (by simpa only [List.append_assoc] using h)
      exact hdata (List.length_eq_zero_iff.mp (hline.size_unique hl))
    | @cons line' data' delim' wire' payload' hline' hdata' hdelim' hrest' =>
      rw [List.append_assoc (line ++ crlf ++ data ++ delim),
        List.append_assoc (line' ++ crlf ++ data' ++ delim')] at h
      obtain ⟨-, -, -, hw'⟩ := chunk_unique hline hline' hdelim hdelim' h
      exact ih hr hrest' hl hw'

/-- **No message begins chunks that are followed by no size line.** -/
theorem Chunks.not_message_append {wire payload r w p : Bytes} (h : Chunks Crlf wire payload)
    (hr : NoSizeLine r) (hw : w <+: wire ++ r) : ¬ Message Crlf w p := by
  rintro ⟨b, l, d, rfl, hb, hl, -⟩
  obtain ⟨t, ht⟩ := hw
  refine chunks_ne_last (h.mono fun _ _ => AnyTwo.of_crlf) hr (hb.mono fun _ _ => AnyTwo.of_crlf)
    hl (t := d ++ t) ?_
  rw [← ht]
  simp only [List.append_assoc]

/-- No message begins a sequence of chunks, so a reader of the chunks waits for more. -/
theorem Chunks.not_message {wire payload w p : Bytes} (h : Chunks Crlf wire payload)
    (hw : w <+: wire) : ¬ Message Crlf w p :=
  h.not_message_append noSizeLine_nil (by rwa [List.append_nil])

/-! ### What a stream carries -/

/-- The chunks of a stream carry the payload, whether its last chunk has come or not. -/
def Carries (D : Bytes → Bytes → Prop) (wire payload : Bytes) : Prop :=
  Chunks D wire payload ∨ Message D wire payload

/-- A stream begins with a chunk, unless it is at its end or at its last chunk. -/
theorem Carries.cases {D : Bytes → Bytes → Prop} {wire payload : Bytes}
    (h : Carries D wire payload) :
    (∃ line data delim wire' payload', SizeLine data.length line ∧ data ≠ [] ∧ D data delim ∧
      wire = line ++ crlf ++ data ++ delim ++ wire' ∧ payload = data ++ payload' ∧
        Carries D wire' payload') ∨
    (∃ line delim, SizeLine 0 line ∧ wire = line ++ crlf ++ delim ∧ payload = []) ∨
    (wire = [] ∧ payload = []) := by
  rcases h with h | ⟨body, line, delim, rfl, hbody, hline, hdelim⟩
  · cases h with
    | nil => exact Or.inr (Or.inr ⟨rfl, rfl⟩)
    | cons hline hdata hdelim hrest =>
      exact Or.inl ⟨_, _, _, _, _, hline, hdata, hdelim, rfl, rfl, Or.inl hrest⟩
  · cases hbody with
    | nil => exact Or.inr (Or.inl ⟨line, delim, hline, rfl, rfl⟩)
    | cons hline' hdata hdelim' hrest =>
      refine Or.inl ⟨_, _, _, _, _, hline', hdata, hdelim', ?_, rfl,
        Or.inr ⟨_, line, delim, rfl, hrest, hline, hdelim⟩⟩
      simp only [List.append_assoc]

/-- **Chunks in front of a stream carry the front of its payload.** -/
theorem Chunks.carries_cancel {wire₁ payload₁ : Bytes} (h : Chunks Crlf wire₁ payload₁) :
    ∀ {wire payload : Bytes}, Carries Crlf (wire₁ ++ wire) payload →
      ∃ payload', payload = payload₁ ++ payload' ∧ Carries Crlf wire payload' := by
  induction h with
  | nil => exact fun hcarries => ⟨_, rfl, hcarries⟩
  | @cons line data delim wire' payload' hline hdata hdelim _ ih =>
    intro wire payload hcarries
    rcases hcarries.cases with ⟨line₂, data₂, delim₂, rest, payload₂, hline₂, hdata₂, hdelim₂, heq,
      rfl, hrest⟩ | ⟨line₂, delim₂, hline₂, heq, -⟩ | ⟨heq, -⟩
    · rw [List.append_assoc (line ++ crlf ++ data ++ delim)] at heq
      obtain ⟨rfl, rfl, rfl, rfl⟩ := chunk_unique hline hline₂ (.of_crlf hdelim) (.of_crlf hdelim₂)
        heq
      obtain ⟨payload₃, rfl, hbehind⟩ := ih hrest
      exact ⟨payload₃, (List.append_assoc _ _ _).symm, hbehind⟩
    · simp only [List.append_assoc] at heq
      obtain ⟨rfl, -⟩ := line_unique hline.CR_notMem hline₂.CR_notMem
        (by simpa only [List.append_assoc] using heq)
      exact absurd (List.length_eq_zero_iff.mp (hline.size_unique hline₂)) hdata
    · have hnil := hline.ne_nil
      simp only [List.append_assoc, List.append_eq_nil_iff] at heq
      exact absurd heq.1 hnil

/-- **What a stream carries is determined by its bytes.** -/
theorem Carries.unique {wire payload payload' : Bytes} (h : Carries Crlf wire payload)
    (h' : Carries Crlf wire payload') : payload = payload' := by
  have hchunks : ∀ {p p' : Bytes}, Chunks Crlf wire p → Carries Crlf wire p' → p' = p := by
    intro p p' hp hp'
    rw [← List.append_nil wire] at hp'
    obtain ⟨q, rfl, hq⟩ := hp.carries_cancel hp'
    rcases hq.cases with ⟨line, data, delim, rest, -, hline, -, -, heq, -⟩ |
      ⟨line, delim, hline, heq, -⟩ | ⟨-, rfl⟩
    · simp only [List.append_assoc, List.nil_eq, List.append_eq_nil_iff] at heq
      exact absurd heq.1 hline.ne_nil
    · simp only [List.append_assoc, List.nil_eq, List.append_eq_nil_iff] at heq
      exact absurd heq.1 hline.ne_nil
    · rw [List.append_nil]
  rcases h with h | h
  · exact (hchunks h h').symm
  · rcases h' with h' | h'
    · exact hchunks h' (Or.inr h)
    · exact (h.eq_of_begins h' List.prefix_rfl).2

/-- Behind a size line there is room for what it announces. -/
theorem Carries.length_of_sizeLine {n : ℕ} {line rest payload : Bytes} (hline : SizeLine n line)
    (h : Carries Crlf (line ++ crlf ++ rest) payload) (hne : payload ≠ []) :
    n + crlf.length ≤ rest.length := by
  rcases h.cases with ⟨line', data, delim, wire, -, hline', -, rfl, heq, -⟩ | ⟨-, -, -, -, rfl⟩ |
    ⟨-, rfl⟩
  · rw [List.append_assoc, List.append_assoc (line' ++ crlf)] at heq
    obtain ⟨rfl, rfl⟩ := line_unique hline.CR_notMem hline'.CR_notMem
      (by simpa only [List.append_assoc] using heq)
    rw [hline.size_unique hline', List.length_append, List.length_append]
    omega
  · exact absurd rfl hne
  · exact absurd rfl hne

/-! ### Encoding -/

/-- One block as a chunk; the empty block is no chunk. -/
def encodeChunk (data : Bytes) : Bytes :=
  if data = [] then [] else hexadecimal data.length ++ crlf ++ data ++ crlf

/-- The last chunk and its delimiter. -/
def lastChunk : Bytes := ascii "0\r\n\r\n"

theorem lastChunk_eq : lastChunk = ascii "0" ++ crlf ++ crlf := by decide

section

variable {D : Bytes → Bytes → Prop}

theorem chunks_encodeChunk {data : Bytes} (hD : D data crlf) :
    Chunks D (encodeChunk data) data := by
  unfold encodeChunk
  split
  · next h => subst h; exact .nil
  · next h =>
    have := Chunks.cons (sizeLine_hexadecimal data.length) h hD .nil
    simpa only [List.append_nil] using this

theorem chunks_encodeChunks : ∀ (blocks : List Bytes), (∀ b ∈ blocks, D b crlf) →
    Chunks D (blocks.map encodeChunk).flatten blocks.flatten := by
  intro blocks
  induction blocks with
  | nil => intro _; exact .nil
  | cons b blocks ih =>
    intro hD
    exact (chunks_encodeChunk (hD b List.mem_cons_self)).append
      (ih fun c hc => hD c (List.mem_cons_of_mem _ hc))

theorem message_lastChunk (hD : D [] crlf) : Message D lastChunk [] :=
  ⟨[], ascii "0", crlf, by rw [lastChunk_eq]; rfl, .nil,
    ⟨ascii "0", [], by decide, by decide, Or.inl rfl⟩, hD⟩

/-- **What the encoder writes is a message of the blocks' concatenation.** -/
theorem message_encode (blocks : List Bytes) (hD : ∀ b ∈ blocks, D b crlf) (hlast : D [] crlf) :
    Message D ((blocks.map encodeChunk).flatten ++ lastChunk) blocks.flatten := by
  have h := Message.of_chunks_append (chunks_encodeChunks blocks hD) (message_lastChunk hlast)
  rwa [List.append_nil] at h

end

end ChunkedCoding
