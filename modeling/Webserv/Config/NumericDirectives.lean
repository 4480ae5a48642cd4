import Webserv.Config.Directives

/-!
# Directives with a number

A number of a directive is read as a `long`, narrowed to an `int`, and then compared with the
bounds.  The comparison comes too late: a value from 2^32 on is accepted when its remainder lies
between the bounds.

## Main results

* `safeStrtol_eq` — what `safe_strtol` accepts, and what it returns.
* `numericDirectives_iff` — **when a directive means what it says**.
* `not_numericDirectives` — `listen 4294967297` listens on port 1.
-/

namespace Webserv

open Bytes

/-! ### Reading a number -/

theorem strtolFrom_eq {s : Bytes} (hs : s.all isDigit = true) (acc : ℕ) :
    strtolFrom acc s = Numeral.readUpTo 10 LONG_MAX acc (decimalDigits s) := by
  induction s generalizing acc with
  | nil => rfl
  | cons b s ih =>
    rw [List.all_cons, Bool.and_eq_true] at hs
    have hdigit := isDigit_toNat hs.1
    rw [strtolFrom, decimalDigits, List.map_cons, Numeral.readUpTo]
    have hguard : (LONG_MAX - (b.toNat - 48)) / 10 < acc ↔
        LONG_MAX < acc * 10 + (b.toNat - 48) := by
      rw [Nat.div_lt_iff_lt_mul (by decide), LONG_MAX]
      omega
    by_cases h : LONG_MAX < acc * 10 + (b.toNat - 48)
    · rw [if_pos (hguard.mpr h), if_pos h]
    · rw [if_neg (mt hguard.mp h), if_neg h, ih hs.2]
      rfl

/-- **What `safe_strtol` accepts**: the digit strings that are not empty and denote a `long`. -/
theorem safeStrtol_eq (s : Bytes) :
    safeStrtol s =
      if s ≠ [] ∧ s.all isDigit = true ∧ decimalValue s ≤ LONG_MAX then some (decimalValue s)
      else none := by
  unfold safeStrtol
  cases s with
  | nil => rfl
  | cons b s =>
    rw [if_neg (by simp)]
    cases hall : (b :: s).all isDigit with
    | false => simp
    | true =>
      have hread := @Numeral.readUpTo_eq 10 LONG_MAX 0 (decimalDigits (b :: s)) (by decide)
        (Nat.zero_le _)
      rw [if_neg (by simp), strtolFrom_eq hall, hread, decimalValue]
      simp

/-- An `int` between bounds that are positive `int`s. -/
theorem toInt_between {lo hi n : ℕ} (hlo : 0 < lo) (hhi : hi < 2 ^ 31) :
    ((lo : ℤ) ≤ toInt n ∧ toInt n ≤ hi ↔ lo ≤ n % 2 ^ 32 ∧ n % 2 ^ 32 ≤ hi) ∧
      (lo ≤ n % 2 ^ 32 ∧ n % 2 ^ 32 ≤ hi → toInt n = ((n % 2 ^ 32 : ℕ) : ℤ)) := by
  rw [toInt]
  split <;> omega

/-! ### One number -/

/-- A directive means the number it has: it is accepted if the number lies between the bounds, and
stores that number. -/
def Means (lo hi n : ℕ) (stored : Option ℤ) : Prop :=
  (stored.isSome = true ↔ lo ≤ n ∧ n ≤ hi) ∧ ∀ x, stored = some x → x = n

/-- A `long` whose remainder lies between the bounds: what the code accepts. -/
def Narrows (lo hi n : ℕ) : Prop := n ≤ LONG_MAX ∧ lo ≤ n % 2 ^ 32 ∧ n % 2 ^ 32 ≤ hi

instance (lo hi n : ℕ) : Decidable (Narrows lo hi n) := inferInstanceAs (Decidable (_ ∧ _ ∧ _))

/-- A number that is accepted and is not an `int`. -/
def Wraps (lo hi n : ℕ) : Prop := 2 ^ 32 ≤ n ∧ Narrows lo hi n

/-- A number between the bounds is accepted; one that is accepted lies between them or wraps. -/
theorem narrows_iff {lo hi n : ℕ} (hhi : hi < 2 ^ 31) :
    Narrows lo hi n ↔ (lo ≤ n ∧ n ≤ hi) ∨ Wraps lo hi n := by
  rw [Wraps, Narrows, LONG_MAX]
  omega

/-- **What is stored of a digit string.** -/
theorem toOption_numberIn {lo hi : ℕ} (hlo : 0 < lo) (hhi : hi < 2 ^ 31) (bad range : Report)
    {v : Bytes} (hv : v.all isDigit = true) :
    (numberIn lo hi bad range v).toOption =
      if Narrows lo hi (decimalValue v) then some ((decimalValue v % 2 ^ 32 : ℕ) : ℤ)
      else none := by
  obtain ⟨hiff, heq⟩ := toInt_between (n := decimalValue v) hlo hhi
  rw [numberIn, safeStrtol_eq]
  by_cases hlong : v ≠ [] ∧ decimalValue v ≤ LONG_MAX
  · rw [if_pos ⟨hlong.1, hv, hlong.2⟩]
    dsimp only
    rw [intInRange]
    by_cases hin : lo ≤ decimalValue v % 2 ^ 32 ∧ decimalValue v % 2 ^ 32 ≤ hi
    · have hbounds := hiff.mpr hin
      have hnarrows : Narrows lo hi (decimalValue v) := ⟨hlong.2, hin⟩
      rw [if_pos hnarrows, if_neg (by omega), heq hin]
      rfl
    · have hbounds := mt hiff.mp hin
      have hnarrows : ¬ Narrows lo hi (decimalValue v) := fun h => hin h.2
      rw [if_neg hnarrows, if_pos (by omega)]
      rfl
  · have hnarrows : ¬ Narrows lo hi (decimalValue v) := by
      rintro ⟨hle, hlow, -⟩
      refine hlong ⟨?_, hle⟩
      rintro rfl
      exact absurd hlow (Nat.not_le.mpr hlo)
    rw [if_neg hnarrows, if_neg fun h => hlong ⟨h.1, h.2.2⟩]
    rfl

/-- **When one number is meant**: unless it wraps. -/
theorem means_numberIn_iff {lo hi : ℕ} (hlo : 0 < lo) (hhi : hi < 2 ^ 31) (bad range : Report)
    {v : Bytes} (hv : v.all isDigit = true) :
    Means lo hi (decimalValue v) (numberIn lo hi bad range v).toOption ↔
      ¬ Wraps lo hi (decimalValue v) := by
  rw [toOption_numberIn hlo hhi bad range hv, Means]
  generalize decimalValue v = n
  have hcases : Narrows lo hi n ↔ _ := narrows_iff hhi
  by_cases h : Narrows lo hi n
  · rw [if_pos h]
    constructor
    · rintro ⟨hsome, -⟩ ⟨hlarge, -⟩
      have hrange := hsome.mp rfl
      omega
    · intro hwraps
      have hrange := (hcases.mp h).resolve_right hwraps
      refine ⟨iff_of_true rfl hrange, fun x hx => ?_⟩
      rw [Nat.mod_eq_of_lt (by omega), Option.some.injEq] at hx
      exact hx.symm
  · rw [if_neg h]
    refine iff_of_true ⟨iff_of_false Bool.false_ne_true fun hin => h (hcases.mpr (.inl hin)), ?_⟩
      fun hwraps => h hwraps.2
    intro x hx
    cases hx

/-! ### The directives with one number -/

variable {sz : Bytes → ℤ}

theorem isDigit_of_isValidOctet {s : Bytes} (h : isValidOctet s = true) :
    ∀ b ∈ s, isDigit b = true := by
  unfold isValidOctet at h
  split at h
  · cases h
  · split at h
    · cases h
    · split at h
      · cases h
      · next hdigits =>
        rw [Bool.not_eq_true', Bool.not_eq_false] at hdigits
        exact List.all_eq_true.mp hdigits

/-- A host has no colon. -/
theorem notMem_of_validHostFrom {s : Bytes} : ∀ {dots : ℕ} {cur : Bytes},
    validHostFrom dots cur s = true → (∀ b ∈ cur, isDigit b = true) ∧ COLON ∉ s := by
  induction s with
  | nil =>
    intro dots cur h
    rw [validHostFrom, Bool.and_eq_true] at h
    exact ⟨isDigit_of_isValidOctet h.1, by simp⟩
  | cons b s ih =>
    intro dots cur h
    rw [validHostFrom] at h
    split at h
    · next hdot =>
      cases hoctet : isValidOctet cur with
      | false =>
        rw [hoctet] at h
        cases h
      | true =>
        rw [hoctet, if_neg (by simp)] at h
        split at h
        · cases h
        · refine ⟨isDigit_of_isValidOctet hoctet, ?_⟩
          rw [beq_iff_eq.mp hdot, List.mem_cons, not_or]
          exact ⟨by decide, (ih h).2⟩
    · obtain ⟨hcur, hrest⟩ := ih h
      refine ⟨fun c hc => hcur c (List.mem_append_left _ hc), ?_⟩
      rw [List.mem_cons, not_or]
      refine ⟨?_, hrest⟩
      rintro rfl
      exact absurd (hcur COLON (List.mem_append_right cur (List.mem_singleton_self _))) (by decide)

/-- A host has dots. -/
theorem validHostFrom_of_notMem {s : Bytes} (h : DOT ∉ s) (dots : ℕ) (cur : Bytes) :
    validHostFrom dots cur s = (isValidOctet (cur ++ s) && dots == 3) := by
  induction s generalizing cur with
  | nil => rw [validHostFrom, List.append_nil]
  | cons b s ih =>
    rw [List.mem_cons, not_or] at h
    have hb : (b == DOT) = false := beq_eq_false_iff_ne.mpr (Ne.symm h.1)
    rw [validHostFrom, hb, if_neg Bool.false_ne_true, ih h.2, List.append_assoc,
      List.singleton_append]

/-- A digit string is no host, and has no colon. -/
theorem isValidHost_of_digits {v : Bytes} (hv : v.all isDigit = true) :
    isValidHost v = false ∧ v.contains COLON = false := by
  have hno : ∀ b, isDigit b = false → b ∉ v := by
    intro b hb hmem
    rw [List.all_eq_true.mp hv b hmem] at hb
    cases hb
  constructor
  · rw [isValidHost, validHostFrom_of_notMem (hno DOT rfl), Bool.and_eq_false_imp.mpr]
    · exact ite_self _
    · exact fun _ => rfl
  · rw [List.contains_eq_mem, decide_eq_false_iff_not]
    exact hno COLON rfl

/-- A host that `listen` takes in front of a colon. -/
def ListenHost (host : Bytes) : Prop :=
  host = ascii "*" ∨ host = ascii "localhost" ∨ isValidHost host = true

theorem ListenHost.colon {host : Bytes} (h : ListenHost host) : COLON ∉ host := by
  rcases h with rfl | rfl | h
  · decide
  · decide
  · unfold isValidHost at h
    split at h
    · cases h
    · exact (notMem_of_validHostFrom h).2

theorem ListenHost.listenHost {host : Bytes} (h : ListenHost host) :
    ∃ host', listenHost host = .ok host' := by
  unfold Webserv.listenHost
  split
  · exact ⟨_, rfl⟩
  · next hstar =>
    split
    · exact ⟨_, rfl⟩
    · next hlocal =>
      rw [if_pos (h.resolve_left hstar |>.resolve_left hlocal)]
      exact ⟨_, rfl⟩

theorem serverDirective_listen (s : ServerConf) (v : Bytes) :
    serverDirective sz s (ascii "listen") [v] = listenDirective s v := by
  rw [serverDirective, if_neg (by simp), if_pos rfl]
  rfl

/-- What is stored of a value that is checked first. -/
theorem toOption_stored {α τ : Type} {c : Except Report α} {f : α → τ} {get : τ → α}
    (h : ∀ a, get (f a) = a) : (c >>= fun a => .ok (f a)).toOption.map get = c.toOption := by
  cases c with
  | error r => rfl
  | ok a => exact congrArg some (h a)

/-- The port of `listen`, alone. -/
theorem toOption_listen (s : ServerConf) {v : Bytes} (hv : v.all isDigit = true) :
    (serverDirective sz s (ascii "listen") [v]).toOption.map (·.port) =
      (numberIn 1 65535 portRange portRange v).toOption := by
  obtain ⟨hhost, hcolon⟩ := isValidHost_of_digits hv
  rw [serverDirective_listen, listenDirective, hcolon, if_neg Bool.false_ne_true, numberIn, hhost]
  cases safeStrtol v with
  | none => rfl
  | some n =>
    dsimp only
    cases intInRange 1 65535 portRange n with
    | error r => rfl
    | ok port => rfl

/-- The port of `listen`, behind a host. -/
theorem toOption_listen_host (s : ServerConf) {host : Bytes} (hhost : ListenHost host)
    (v : Bytes) :
    (serverDirective sz s (ascii "listen") [host ++ COLON :: v]).toOption.map (·.port) =
      (numberIn 1 65535 (serverReport "'not valid port'") portRange v).toOption := by
  have hfront : ∀ b ∈ host, decide (b ≠ COLON) = true := by
    intro b hb
    rw [decide_eq_true_eq]
    rintro rfl
    exact hhost.colon hb
  have hcontains : (host ++ COLON :: v).contains COLON = true := by simp
  obtain ⟨host', hok⟩ := hhost.listenHost
  rw [serverDirective_listen, listenDirective, hcontains, if_pos rfl,
    List.takeWhile_append_of_pos hfront, List.dropWhile_append_of_pos hfront,
    List.takeWhile_cons_of_neg (by simp), List.dropWhile_cons_of_neg (by simp), List.append_nil,
    hok]
  exact toOption_stored fun _ => rfl

theorem toOption_timeout (s : ServerConf) (v : Bytes) :
    (serverDirective sz s (ascii "timeout") [v]).toOption.map (·.timeoutSeconds) =
      (timeoutValue v).toOption := by
  simp +decide only [serverDirective, singleValue, if_true, if_false]
  exact toOption_stored fun _ => rfl

theorem toOption_return (l : LocationConf) (v url : Bytes) :
    (locationDirective sz l (ascii "return") [v, url]).toOption.map (·.returnCode) =
      (numberIn 300 399 (locationReport "'Invalid return code'")
        (locationReport "'Invalid return code: must be 3xx'") v).toOption := by
  simp +decide only [locationDirective, returnDirective, if_true, if_false]
  cases numberIn 300 399 (locationReport "'Invalid return code'")
    (locationReport "'Invalid return code: must be 3xx'") v with
  | error r => rfl
  | ok code => rfl

/-! ### Error pages -/

/-- `error_page` means the codes it has: it is accepted if each lies between 300 and 599, and sets
the page of each. -/
def MeansPages (pages : ErrorPages) (codes : List Bytes) (path : Bytes)
    (stored : Option ErrorPages) : Prop :=
  (stored.isSome = true ↔ ∀ c ∈ codes, 300 ≤ decimalValue c ∧ decimalValue c ≤ 599) ∧
    ∀ m, stored = some m → m = codes.foldl (fun m c => m.insert (decimalValue c : ℤ) path) pages

/-- Some code wraps, and each of the others wraps or lies between the bounds. -/
def WrapsPages (codes : List Bytes) : Prop :=
  (∃ c ∈ codes, Wraps 300 599 (decimalValue c)) ∧ ∀ c ∈ codes, Narrows 300 599 (decimalValue c)

theorem numberIn_of_narrows {lo hi : ℕ} (hlo : 0 < lo) (hhi : hi < 2 ^ 31) (bad range : Report)
    {v : Bytes} (hv : v.all isDigit = true) (h : Narrows lo hi (decimalValue v)) :
    numberIn lo hi bad range v = .ok ((decimalValue v % 2 ^ 32 : ℕ) : ℤ) := by
  have hstored := toOption_numberIn hlo hhi bad range hv
  rw [if_pos h] at hstored
  cases hnumber : numberIn lo hi bad range v with
  | error r =>
    rw [hnumber] at hstored
    cases hstored
  | ok x =>
    rw [hnumber] at hstored
    rw [Option.some.inj hstored]

theorem numberIn_of_not_narrows {lo hi : ℕ} (hlo : 0 < lo) (hhi : hi < 2 ^ 31)
    (bad range : Report) {v : Bytes} (hv : v.all isDigit = true)
    (h : ¬ Narrows lo hi (decimalValue v)) : ∃ r, numberIn lo hi bad range v = .error r := by
  have hstored := toOption_numberIn hlo hhi bad range hv
  rw [if_neg h] at hstored
  cases hnumber : numberIn lo hi bad range v with
  | error r => exact ⟨r, rfl⟩
  | ok x =>
    rw [hnumber] at hstored
    cases hstored

/-- The loop over the codes: they are all accepted, or there is an error. -/
theorem foldlM_codes (bad : Report) (path : Bytes) {codes : List Bytes}
    (hcodes : ∀ c ∈ codes, c.all isDigit = true) (pages : ErrorPages) :
    ((∀ c ∈ codes, Narrows 300 599 (decimalValue c)) →
      codes.foldlM (fun m v => (numberIn 300 599 bad bad v).map (m.insert · path)) pages =
        .ok (codes.foldl (fun m c => m.insert ((decimalValue c % 2 ^ 32 : ℕ) : ℤ) path) pages)) ∧
    ((∃ c ∈ codes, ¬ Narrows 300 599 (decimalValue c)) →
      ∃ r, codes.foldlM (fun m v => (numberIn 300 599 bad bad v).map (m.insert · path)) pages =
        .error r) := by
  induction codes generalizing pages with
  | nil => exact ⟨fun _ => rfl, fun h => by simp at h⟩
  | cons c codes ih =>
    rw [List.forall_mem_cons] at hcodes
    have ih := ih hcodes.2
    rw [List.foldlM_cons]
    by_cases hc : Narrows 300 599 (decimalValue c)
    · have hone : numberIn 300 599 bad bad c = .ok ((decimalValue c % 2 ^ 32 : ℕ) : ℤ) :=
        @numberIn_of_narrows 300 599 (by decide) (by decide) bad bad c hcodes.1 hc
      rw [hone]
      constructor
      · intro h
        exact (ih _).1 (List.forall_mem_cons.mp h).2
      · rintro ⟨d, hd, hnot⟩
        rcases List.mem_cons.mp hd with rfl | hd
        · exact absurd hc hnot
        · exact (ih _).2 ⟨d, hd, hnot⟩
    · have hone : ∃ r, numberIn 300 599 bad bad c = .error r :=
        @numberIn_of_not_narrows 300 599 (by decide) (by decide) bad bad c hcodes.1 hc
      obtain ⟨r, hr⟩ := hone
      rw [hr]
      exact ⟨fun h => absurd (List.forall_mem_cons.mp h).1 hc, fun _ => ⟨r, rfl⟩⟩

/-- **When the codes of `error_page` are meant.** -/
theorem meansPages_iff (few bad : Report) (pages : ErrorPages) {codes : List Bytes} (path : Bytes)
    (hne : codes ≠ []) (hcodes : ∀ c ∈ codes, c.all isDigit = true) :
    MeansPages pages codes path
        (errorPageDirective few bad pages (codes ++ [path])).toOption ↔ ¬ WrapsPages codes := by
  have hlength : ¬ (codes ++ [path]).length < 2 := by
    have hpos := List.length_pos_of_ne_nil hne
    rw [List.length_append, List.length_singleton]
    omega
  obtain ⟨hall, hsome⟩ := foldlM_codes bad path hcodes pages
  rw [errorPageDirective, if_neg hlength, List.dropLast_concat, List.getLastD_concat]
  by_cases h : ∀ c ∈ codes, Narrows 300 599 (decimalValue c)
  · rw [hall h]
    constructor
    · rintro ⟨hiff, -⟩ ⟨⟨c, hc, hlarge, -⟩, -⟩
      have hrange := hiff.mp rfl c hc
      omega
    · intro hwraps
      have hrange : ∀ c ∈ codes, 300 ≤ decimalValue c ∧ decimalValue c ≤ 599 := fun c hc =>
        ((narrows_iff (by decide)).mp (h c hc)).resolve_right fun hw => hwraps ⟨⟨c, hc, hw⟩, h⟩
      refine ⟨iff_of_true rfl hrange, fun m hm => ?_⟩
      rw [← Option.some.inj hm]
      refine List.foldl_ext _ _ _ fun m c hc => ?_
      have hc := hrange c hc
      rw [Nat.mod_eq_of_lt (by omega)]
  · obtain ⟨r, hr⟩ := hsome (by simpa only [not_forall, exists_prop] using h)
    rw [hr]
    refine iff_of_true ⟨iff_of_false Bool.false_ne_true fun hin => h fun c hc => ?_, ?_⟩
      fun hwraps => h hwraps.2
    · exact (narrows_iff (by decide)).mpr (.inl (hin c hc))
    · intro m hm
      cases hm

theorem toOption_errorPage_server (s : ServerConf) {values : List Bytes} (h : values ≠ []) :
    (serverDirective sz s (ascii "error_page") values).toOption.map (·.errorPage) =
      (errorPageDirective (serverReport "'error_page needs at least a code and a path'")
        (serverReport "'Invalid error code'") s.errorPage values).toOption := by
  have hne : ¬ values.isEmpty = true := mt List.isEmpty_iff.mp h
  simp +decide only [serverDirective, hne, if_true, if_false]
  exact toOption_stored fun _ => rfl

theorem toOption_errorPage_location (l : LocationConf) {values : List Bytes} (h : values ≠ []) :
    (locationDirective sz l (ascii "error_page") values).toOption.map (·.errorPage) =
      (errorPageDirective (locationReport "'error_page needs at least a code and a path'")
        (locationReport "'Invalid error code'") l.errorPage values).toOption := by
  have hne : ¬ values.isEmpty = true := mt List.isEmpty_iff.mp h
  simp +decide only [locationDirective, hne, if_true, if_false]
  exact toOption_stored fun _ => rfl

theorem toOption_errorPage_http (http : HttpConf) {values : List Bytes} (h : values ≠ []) :
    (httpDirective sz http (ascii "error_page") values).toOption.map (·.errorPage) =
      (errorPageDirective
        (httpReport "'error_page needs at least a code and a path' in parseDirective of http")
        (httpReport "'Invalid error code' in parseDirective of http") http.errorPage
        values).toOption := by
  have hne : ¬ values.isEmpty = true := mt List.isEmpty_iff.mp h
  simp +decide only [httpDirective, hne, if_true, if_false]
  exact toOption_stored fun _ => rfl

/-- **When the directives with a number mean what they say**: `safe_strtol` does, and `listen`,
`timeout`, `return` and `error_page` do unless a number wraps into the range. -/
theorem numericDirectives_iff (sz : Bytes → ℤ) :
    (∀ v, safeStrtol v =
      if v ≠ [] ∧ v.all isDigit = true ∧ decimalValue v ≤ LONG_MAX then some (decimalValue v)
      else none) ∧
    (∀ v, v.all isDigit = true →
      (∀ s, Means 1 65535 (decimalValue v)
          ((serverDirective sz s (ascii "listen") [v]).toOption.map (·.port)) ↔
        ¬ Wraps 1 65535 (decimalValue v)) ∧
      (∀ s host, ListenHost host → (Means 1 65535 (decimalValue v)
          ((serverDirective sz s (ascii "listen") [host ++ COLON :: v]).toOption.map (·.port)) ↔
        ¬ Wraps 1 65535 (decimalValue v))) ∧
      (∀ s, Means 1 3600 (decimalValue v)
          ((serverDirective sz s (ascii "timeout") [v]).toOption.map (·.timeoutSeconds)) ↔
        ¬ Wraps 1 3600 (decimalValue v)) ∧
      ∀ l url, Means 300 399 (decimalValue v)
          ((locationDirective sz l (ascii "return") [v, url]).toOption.map (·.returnCode)) ↔
        ¬ Wraps 300 399 (decimalValue v)) ∧
    ∀ codes path, codes ≠ [] → (∀ c ∈ codes, c.all isDigit = true) →
      (∀ s, MeansPages s.errorPage codes path ((serverDirective sz s (ascii "error_page")
        (codes ++ [path])).toOption.map (·.errorPage)) ↔ ¬ WrapsPages codes) ∧
      (∀ l, MeansPages l.errorPage codes path ((locationDirective sz l (ascii "error_page")
        (codes ++ [path])).toOption.map (·.errorPage)) ↔ ¬ WrapsPages codes) ∧
      ∀ http, MeansPages http.errorPage codes path ((httpDirective sz http (ascii "error_page")
        (codes ++ [path])).toOption.map (·.errorPage)) ↔ ¬ WrapsPages codes := by
  refine ⟨safeStrtol_eq, fun v hv => ⟨fun s => ?_, fun s host hhost => ?_, fun s => ?_,
    fun l url => ?_⟩, fun codes path hne hcodes => ?_⟩
  · rw [toOption_listen s hv]
    exact means_numberIn_iff (by decide) (by decide) _ _ hv
  · rw [toOption_listen_host s hhost v]
    exact means_numberIn_iff (by decide) (by decide) _ _ hv
  · rw [toOption_timeout s v]
    exact means_numberIn_iff (by decide) (by decide) _ _ hv
  · rw [toOption_return l v url]
    exact means_numberIn_iff (by decide) (by decide) _ _ hv
  · have hvalues : codes ++ [path] ≠ [] := List.append_ne_nil_of_left_ne_nil hne [path]
    refine ⟨fun s => ?_, fun l => ?_, fun http => ?_⟩
    · rw [toOption_errorPage_server s hvalues]
      exact meansPages_iff _ _ _ path hne hcodes
    · rw [toOption_errorPage_location l hvalues]
      exact meansPages_iff _ _ _ path hne hcodes
    · rw [toOption_errorPage_http http hvalues]
      exact meansPages_iff _ _ _ path hne hcodes

theorem numericDirectives_listen :
    (ascii "8080").all isDigit = true ∧ Means 1 65535 (decimalValue (ascii "8080"))
      ((serverDirective (fun _ => 0) (.ofHttp ⟨0, ∅, []⟩) (ascii "listen")
        [ascii "8080"]).toOption.map (·.port)) := by
  have hdigits : (ascii "8080").all isDigit = true := by decide
  refine ⟨hdigits, (((numericDirectives_iff fun _ => 0).2.1 _ hdigits).1 _).mpr ?_⟩
  have hvalue : decimalValue (ascii "8080") = 8080 := by decide
  rw [hvalue]
  exact fun h => absurd h.1 (by decide)

/-- **A port beyond 32 bits is accepted**: `listen 4294967297` listens on port 1. -/
theorem not_numericDirectives : ¬ ∀ (sz : Bytes → ℤ) (s : ServerConf) (v : Bytes),
    v.all isDigit = true → Means 1 65535 (decimalValue v)
      ((serverDirective sz s (ascii "listen") [v]).toOption.map (·.port)) := by
  intro h
  have hmeans := (h (fun _ => 0) (.ofHttp ⟨0, ∅, []⟩) (ascii "4294967297") (by decide)).1
  have haccepted : ((serverDirective (fun _ => 0) (.ofHttp ⟨0, ∅, []⟩) (ascii "listen")
      [ascii "4294967297"]).toOption.map (·.port)).isSome = true := by decide +kernel
  have hvalue : decimalValue (ascii "4294967297") = 4294967297 := by decide
  have hrange := hmeans.mp haccepted
  rw [hvalue] at hrange
  omega

end Webserv
