import Webserv.HttpParser.Decoding
import Webserv.HttpParser.RequestLineGrammar
import Webserv.Lib.Assignments
import Webserv.ResponseHandler.Escape
import Webserv.ResponseHandler.NormalPath

/-!
# The links of a listing

A row of a listing links to an entry by the path of the directory and the name of the entry.  The
link is escaped for the page and not for a request line, so the parser reads it back where it
takes every byte of it as it stands.

## Main results

* `pctDecode_eq_self_iff` — the texts without an escape that is decoded.
* `target_of_requestLine` — what can be the target of a request with this link.
* `listing_link_iff` — **when a link leads back to its entry.**
-/

namespace Webserv

open Bytes Path Escaping Assignments

/-! ### Texts without escapes -/

/-- The byte that two digits stand for. -/
def escapedByte (hi lo : UInt8) : UInt8 :=
  (((hexDigit? hi).getD 0) * 16 + (hexDigit? lo).getD 0).toUInt8

/-- The only escapes in the text are those of the slash, which are left as they are. -/
def Unescaped (s : Bytes) : Prop :=
  ∀ hi lo, [PERCENT, hi, lo] <:+: s → isXDigit hi = true → isXDigit lo = true →
    escapedByte hi lo = SLASH

theorem Unescaped.tail {b : UInt8} {s : Bytes} (h : Unescaped (b :: s)) : Unescaped s :=
  fun hi lo hin => h hi lo (List.infix_cons hin)

/-- An escape that is decoded makes the text shorter, and no other text is changed. -/
theorem pctDecode_cases (s : Bytes) : pctDecode s = s ∧ Unescaped s ∨
    (pctDecode s).length + 2 ≤ s.length ∧ ¬ Unescaped s := by
  -- a first byte that stays
  have hcons : ∀ {b : UInt8} {s : Bytes}, (∀ hi lo rest, s = hi :: lo :: rest → b = PERCENT →
      isXDigit hi = true → isXDigit lo = true → escapedByte hi lo = SLASH) →
      (pctDecode s = s ∧ Unescaped s ∨ (pctDecode s).length + 2 ≤ s.length ∧ ¬ Unescaped s) →
        b :: pctDecode s = b :: s ∧ Unescaped (b :: s) ∨
          (b :: pctDecode s).length + 2 ≤ (b :: s).length ∧ ¬ Unescaped (b :: s) := by
    rintro b s hb (⟨hsame, hplain⟩ | ⟨hshort, hescape⟩)
    · refine Or.inl ⟨by rw [hsame], ?_⟩
      intro hi lo hin hhi hlo
      rw [List.infix_cons_iff, List.cons_prefix_cons] at hin
      rcases hin with ⟨rfl, rest, hrest⟩ | hin
      · exact hb hi lo rest hrest.symm rfl hhi hlo
      · exact hplain hi lo hin hhi hlo
    · refine Or.inr ⟨?_, fun h => hescape h.tail⟩
      simp only [List.length_cons]
      omega
  fun_induction pctDecode s with
  | case1 b hi lo rest hescape val hval ih =>
    refine hcons ?_ ih
    rintro hi' lo' rest' heq - - -
    rw [List.cons.injEq, List.cons.injEq] at heq
    rw [← heq.1, ← heq.2.1]
    exact beq_iff_eq.mp hval
  | case2 b hi lo rest hescape val hval ih =>
    simp only [Bool.and_eq_true, beq_iff_eq] at hescape
    obtain ⟨⟨rfl, hhi⟩, hlo⟩ := hescape
    refine Or.inr ⟨?_, fun h => hval ?_⟩
    · have hlength : (pctDecode rest).length ≤ rest.length := by
        rcases ih with ⟨hsame, -⟩ | ⟨hshort, -⟩
        · rw [hsame]
        · omega
      simp only [List.length_cons]
      omega
    · exact beq_iff_eq.mpr (h hi lo ⟨[], rest, rfl⟩ hhi hlo)
  | case3 b hi lo rest hescape ih =>
    refine hcons ?_ ih
    rintro hi' lo' rest' heq rfl hhi hlo
    rw [List.cons.injEq, List.cons.injEq] at heq
    obtain ⟨rfl, rfl, -⟩ := heq
    exact absurd (by simp [PERCENT, hhi, hlo]) hescape
  | case4 b rest hshort ih =>
    exact hcons (fun hi lo rest' heq => absurd heq (hshort hi lo rest')) ih
  | case5 => exact Or.inl ⟨rfl, fun hi lo hin => absurd (List.infix_nil.mp hin) (by simp)⟩

/-- **The texts that are decoded to themselves.** -/
theorem pctDecode_eq_self_iff {s : Bytes} : pctDecode s = s ↔ Unescaped s := by
  rcases pctDecode_cases s with ⟨hsame, hplain⟩ | ⟨hshort, hescape⟩
  · exact iff_of_true hsame hplain
  · refine iff_of_false (fun hsame => ?_) hescape
    rw [hsame] at hshort
    omega

theorem length_pctDecode_le (s : Bytes) : (pctDecode s).length ≤ s.length := by
  rcases pctDecode_cases s with ⟨hsame, -⟩ | ⟨hshort, -⟩
  · rw [hsame]
  · omega

theorem length_cleanPath_le (p : Bytes) : (cleanPath p).length ≤ p.length := by
  have hsqueeze : ∀ (s : Bytes) (after : Bool), (squeezeSlashes after s).length ≤ s.length := by
    intro s
    induction s with
    | nil => exact fun _ => le_rfl
    | cons b s ih =>
      intro after
      have htrue := ih true
      have hfalse := ih false
      unfold squeezeSlashes
      split_ifs <;> simp only [List.length_cons] <;> omega
  exact (length_dropTrailingSlash_le _).trans (hsqueeze p false)

/-! ### Links -/

/-- The path of a directory, as the listing has it. -/
structure DirectoryPath (dir : Bytes) : Prop where
  head : dir.head? = some SLASH
  last : dir.getLast? = some SLASH
  single : ¬ doubled <:+: dir

/-- The path that `handle` lists is one. -/
theorem directoryPath_withSlash {p : Bytes} (h : normalizePath p ≠ []) :
    DirectoryPath (withSlash (normalizePath p)) := by
  obtain ⟨kept, -, hproper, hform⟩ := normalizePath_cases h
  have hslashed : withSlash (normalizePath p) = joinSegments kept ∨
      withSlash (normalizePath p) = joinSegments kept ++ [SLASH] := by
    rcases hform with hform | ⟨-, hform⟩
    · unfold withSlash
      split
      · exact Or.inl hform
      · exact Or.inr (by rw [hform])
    · exact Or.inr (by rw [withSlash, hform, if_pos List.getLast?_concat])
  refine ⟨?_, getLast?_withSlash _, ?_⟩
  · rcases hslashed with hslashed | hslashed <;> rw [hslashed] <;> rfl
  · by_cases hkept : kept = []
    · subst hkept
      have hroot : withSlash (normalizePath p) = [SLASH] := by
        have hform' : normalizePath p = [SLASH] := by
          rcases hform with hform | ⟨hne, -⟩
          · exact hform
          · exact absurd rfl hne
        rw [hform']
        rfl
      rw [hroot]
      decide
    · have hnames : ∀ s ∈ kept, s ≠ [] ∧ SLASH ∉ s :=
        fun s hs => ⟨(hproper s hs).ne_nil, (hproper s hs).slash⟩
      rcases hslashed with hslashed | hslashed
      · rw [hslashed]
        exact not_doubled_joinSegments hproper
      · rw [hslashed]
        exact not_doubled_join hkept hnames (by decide)

variable {dir name : Bytes}

/-- No slash is doubled where a name is put behind a directory. -/
theorem DirectoryPath.not_doubled (h : DirectoryPath dir) (hne : name ≠ []) (hname : SLASH ∉ name)
    {t : Bytes} (ht : ¬ doubled <:+: t) : ¬ doubled <:+: dir ++ (name ++ t) := by
  obtain ⟨-, hlast, hsingle⟩ := h
  obtain ⟨front, rfl⟩ := List.getLast?_eq_some_iff.mp hlast
  rw [List.append_assoc]
  induction front with
  | nil =>
    change ¬ doubled <:+: SLASH :: (name ++ t)
    exact not_doubled_segment hne hname ht
  | cons b front ih =>
    rw [List.cons_append, List.infix_cons_iff, not_or] at hsingle
    rw [List.cons_append, List.infix_cons_iff, not_or]
    refine ⟨fun hpre => hsingle.1 ?_, ih (by simp) hsingle.2⟩
    -- two bytes at the front are two bytes of the directory
    cases front with
    | nil => simpa [doubled] using hpre
    | cons b' front => simpa [doubled] using hpre

/-- The link in a row, with its entities replaced: what a reader finds between the first quotes. -/
def rowLink (row : Bytes) : Bytes :=
  unescape entities ((Place.value 34).content (row.drop (ascii "<tr><td><a href=\"").length))

theorem rowLink_listingRow (fs : FileSystem) (dir fsPath name : Bytes) :
    rowLink (listingRow fs dir fsPath name) =
      dir ++ name ++ if (entryStat fs (fsPath ++ name)).isDir then [SLASH] else [] := by
  have hquote : (ascii "\">") = 34 :: ascii ">" := rfl
  have hends : (Place.value 34).next 34 ≠ .value 34 := by decide
  unfold rowLink listingRow
  simp only [List.append_assoc]
  rw [List.drop_left, hquote, List.cons_append,
    Place.ForNames.content_htmlEscape (Or.inr rfl) hends, unescape_htmlEscape]

/-! ### Targets -/

/-- A target that begins with a slash has no authority. -/
theorem stripAuthority_slash (t : Bytes) : stripAuthority (SLASH :: t) = SLASH :: t := by
  have hhttp : (ascii "http://").isPrefixOf (SLASH :: t) = false := rfl
  have hhttps : (ascii "https://").isPrefixOf (SLASH :: t) = false := rfl
  unfold stripAuthority
  rw [hhttp, hhttps]
  rfl

/-- The path and the query string of such a target without a question mark. -/
theorem target_of_notMem {t : Bytes} (h : 63 ∉ SLASH :: t) :
    requestPath (SLASH :: t) = cleanPath (pctDecode (SLASH :: t)) ∧
      (splitTarget (stripAuthority (SLASH :: t))).2 = [] := by
  have hnone : (SLASH :: t).findIdx? (· == 63) = none := by
    rw [List.findIdx?_eq_none_iff]
    intro b hb
    exact beq_eq_false_iff_ne.mpr fun heq => h (heq ▸ hb)
  have hne : (SLASH :: pctDecode t).isEmpty = false := rfl
  unfold requestPath splitTarget
  rw [stripAuthority_slash, hnone]
  dsimp only
  rw [pctDecode_cons_of_ne (by decide), hne]
  exact ⟨rfl, rfl⟩

/-- The path of one with a question mark is that of what stands in front of the first. -/
theorem requestPath_of_mem {t : Bytes} (h : 63 ∈ SLASH :: t) :
    ∃ cut back, SLASH :: t = SLASH :: cut ++ 63 :: back ∧
      requestPath (SLASH :: t) = cleanPath (pctDecode (SLASH :: cut)) := by
  obtain ⟨front, back, hsplit, hfront⟩ := List.eq_append_cons_of_mem h
  obtain ⟨cut, rfl⟩ : ∃ cut, front = SLASH :: cut := by
    cases front with
    | nil => exact absurd (List.cons.inj hsplit).1 (by decide)
    | cons b cut => exact ⟨cut, by rw [(List.cons.inj hsplit).1]⟩
  have hfound : (SLASH :: cut ++ 63 :: back).findIdx? (· == 63) = some (SLASH :: cut).length := by
    have hnone : (SLASH :: cut).findIdx? (· == 63) = none := by
      rw [List.findIdx?_eq_none_iff]
      intro b hb
      exact beq_eq_false_iff_ne.mpr fun heq => hfront (heq ▸ hb)
    rw [List.findIdx?_append, hnone]
    simp [List.findIdx?_cons]
  have hne : (SLASH :: pctDecode cut).isEmpty = false := rfl
  refine ⟨cut, back, hsplit, ?_⟩
  unfold requestPath splitTarget
  rw [stripAuthority_slash, hsplit, hfound]
  dsimp only
  rw [List.take_left, pctDecode_cons_of_ne (by decide), hne]
  rfl

theorem length_requestPath_le (t : Bytes) :
    (requestPath (SLASH :: t)).length ≤ (SLASH :: t).length := by
  by_cases h : 63 ∈ SLASH :: t
  · obtain ⟨cut, back, hsplit, hpath⟩ := requestPath_of_mem h
    have hlength := (length_cleanPath_le _).trans (length_pctDecode_le (SLASH :: cut))
    rw [hpath, hsplit, List.length_append]
    omega
  · rw [(target_of_notMem h).1]
    exact (length_cleanPath_le _).trans (length_pctDecode_le _)

/-! ### A request for a link -/

/-- A request whose target is the text, and what has arrived behind it. -/
def sentFor (method target rest : Bytes) : Bytes :=
  method ++ SP :: (target ++ SP :: (ascii "HTTP/1.1" ++ crlf ++ rest))

/-- **What can be the target of a request with this text**: all of it, or what stands in front of
a space. -/
theorem target_of_requestLine {method target rest method' uri : Bytes} {n : ℕ}
    (hmethod : ∀ b ∈ method, isTokenChar b = true) (htarget : target.head? = some SLASH)
    (h : IsRequestLine (sentFor method target rest) method' uri n) :
    uri = target ∨ ∃ back, target = uri ++ SP :: back := by
  obtain ⟨-, htoken, huri, hvisible, newlines, cr, after, i, j, k, hnewlines, -, htext, -⟩ := h
  have hspace : ∀ s : Bytes, (∀ b ∈ s, isTokenChar b = true) → SP ∉ s := by
    intro s hs hmem
    exact absurd (hs SP hmem) (by decide)
  have hfront : SP ∉ newlines ++ method' := by
    rw [List.mem_append, not_or]
    refine ⟨fun hmem => ?_, hspace method' htoken⟩
    rcases hnewlines SP hmem with heq | heq <;> exact absurd heq (by decide)
  -- both texts behind their first space
  generalize hbehind : List.replicate j SP ++ ascii "HTTP/1.1" ++ List.replicate k SP ++ cr ++
    [LF] ++ after = behind at htext
  have hentry : entry SP method (target ++ SP :: (ascii "HTTP/1.1" ++ crlf ++ rest)) =
      entry SP (newlines ++ method') (List.replicate i SP ++ (uri ++ SP :: behind)) := by
    rw [entry, entry, ← sentFor, htext, ← hbehind]
    simp [List.replicate_succ]
  have hcut := congrArg (valueOf SP) hentry
  rw [valueOf_entry (hspace method hmethod), valueOf_entry hfront] at hcut
  obtain ⟨t, rfl⟩ := eq_cons_of_head htarget
  cases i with
  | succ i => exact absurd (List.cons.inj hcut).1 (by decide)
  | zero =>
    rw [List.replicate_zero, List.nil_append, List.append_eq_append_iff] at hcut
    rcases hcut with ⟨part, rfl, hpart⟩ | ⟨part, htarget, hpart⟩
    · cases part with
      | nil => exact Or.inl (List.append_nil _)
      | cons b part =>
        -- the space behind the text is not in the target
        rw [List.cons_append, List.cons.injEq] at hpart
        have hmem := hvisible b (List.mem_append_right _ List.mem_cons_self)
        rw [← hpart.1] at hmem
        exact absurd hmem (by decide)
    · cases part with
      | nil => exact Or.inl (by rw [htarget, List.append_nil])
      | cons b part =>
        rw [List.cons_append, List.cons.injEq] at hpart
        rw [← hpart.1] at htarget
        exact Or.inr ⟨part, htarget⟩

/-- A text of visible bytes is the target of its request. -/
theorem isRequestLine_sentFor {method target : Bytes} (hne : method ≠ [])
    (hmethod : ∀ b ∈ method, isTokenChar b = true) (htarget : target ≠ [])
    (hvisible : ∀ b ∈ target, isVisible b = true) (rest : Bytes) :
    IsRequestLine (sentFor method target rest) method target
      ((sentFor method target rest).length - rest.length) where
  method_ne_nil := hne
  token := hmethod
  uri_ne_nil := htarget
  visible := hvisible
  split := by
    refine ⟨[], [CR], rest, 0, 0, 0, by simp, Or.inr rfl, ?_, ?_⟩
    · simp [sentFor, crlf]
    · have hle : rest.length ≤ (sentFor method target rest).length := by
        simp only [sentFor, List.length_append, List.length_cons]
        omega
      omega

section Parse

variable {stat : StatAnswer} {c : Connection} {method uri : Bytes} {n : ℕ}

/-- The path is left, or that of the target is stored. -/
theorem path_pastVersion : (pastVersion stat c method uri n).request.path = c.request.path ∨
    (pastVersion stat c method uri n).request.path = requestPath uri := by
  unfold pastVersion
  dsimp only
  split_ifs
  · exact Or.inl rfl
  · exact Or.inl rfl
  · right
    unfold acceptRequestLine
    dsimp only
    split <;> rfl

/-- What is stored of a target that is not too long. -/
theorem pastVersion_stores (hshort : uri.length ≤ 8192)
    (hmethod : method ∈ [ascii "GET", ascii "HEAD", ascii "POST", ascii "DELETE"]) :
    (pastVersion stat c method uri n).request.path = requestPath uri ∧
      (pastVersion stat c method uri n).request.queryString =
        (splitTarget (stripAuthority uri)).2 := by
  have hknown : ¬ (method ≠ ascii "GET" ∧ method ≠ ascii "HEAD" ∧ method ≠ ascii "POST" ∧
      method ≠ ascii "DELETE") := by
    rintro ⟨hget, hhead, hpost, hdelete⟩
    simp only [List.mem_cons, List.not_mem_nil, or_false] at hmethod
    rcases hmethod with h | h | h | h
    · exact hget h
    · exact hhead h
    · exact hpost h
    · exact hdelete h
  unfold pastVersion
  dsimp only
  rw [if_neg (Nat.not_lt.mpr hshort), if_neg hknown]
  unfold acceptRequestLine
  dsimp only
  split <;> exact ⟨rfl, rfl⟩

theorem pastVersion_long (h : 8192 < uri.length) :
    (pastVersion stat c method uri n).request.path = c.request.path := by
  unfold pastVersion
  rw [if_pos h]
  rfl

end Parse

/-! ### The way back -/

/-- A link that the parser takes as it stands: it has no space and no control byte in it, no
question mark and no escape that is decoded, and is not too long. -/
structure LinkSafe (dir name link : Bytes) : Prop where
  visible : ∀ b ∈ dir ++ name, isVisible b = true
  noQuery : 63 ∉ dir ++ name
  unescaped : Unescaped (dir ++ name)
  short : link.length ≤ 8192

/-- The link of an entry: that of a directory has a slash behind it. -/
theorem rowLink_cases (fs : FileSystem) (dir fsPath name : Bytes) :
    rowLink (listingRow fs dir fsPath name) = dir ++ name ∨
      rowLink (listingRow fs dir fsPath name) = dir ++ name ++ [SLASH] := by
  rw [rowLink_listingRow]
  split
  · exact Or.inr rfl
  · exact Or.inl (List.append_nil _)

section Back

variable {link : Bytes}

/-- What stands in front of another byte than a slash is shorter than the path. -/
theorem length_lt_of_cut (hlink : link = dir ++ name ∨ link = dir ++ name ++ [SLASH])
    {b : UInt8} (hb : b ≠ SLASH) {front back : Bytes} (hcut : link = front ++ b :: back) :
    front.length < (dir ++ name).length := by
  have hlength := congrArg List.length hcut
  rw [List.length_append, List.length_cons] at hlength
  rcases hlink with hlink | hlink
  · rw [hlink] at hlength
    omega
  · cases back with
    | nil =>
      have hlast := congrArg List.getLast? (hcut.symm.trans hlink)
      rw [List.getLast?_concat, List.getLast?_concat, Option.some.injEq] at hlast
      exact absurd hlast hb
    | cons b' back =>
      rw [hlink, List.length_append, List.length_singleton, List.length_cons] at hlength
      omega

/-- A link without escapes is cleaned to the path of the entry. -/
theorem cleanPath_link (hdir : DirectoryPath dir) (hne : name ≠ []) (hname : SLASH ∉ name)
    (hlink : link = dir ++ name ∨ link = dir ++ name ++ [SLASH]) :
    cleanPath link = dir ++ name := by
  have hfull : dir ++ name ≠ [] := by simp [hne]
  rcases hlink with rfl | rfl
  · have hplain := hdir.not_doubled hne hname (t := []) (by decide)
    rw [List.append_nil] at hplain
    have hlast : (dir ++ name).getLast? ≠ some SLASH := by
      rw [List.getLast?_append_of_ne_nil _ hne]
      exact fun h => hname (List.mem_of_getLast? h)
    rw [cleanPath, (squeezeSlashes_of_not_doubled hplain).1, dropTrailingSlash_of_getLast hlast]
  · have hplain := hdir.not_doubled hne hname (t := [SLASH]) (by decide)
    rw [← List.append_assoc] at hplain
    rw [cleanPath, (squeezeSlashes_of_not_doubled hplain).1, dropTrailingSlash_append hfull]

/-- A link has no escapes when the path has none. -/
theorem pctDecode_link (hlink : link = dir ++ name ∨ link = dir ++ name ++ [SLASH])
    (h : Unescaped (dir ++ name)) : pctDecode link = link := by
  rcases hlink with rfl | rfl
  · exact pctDecode_eq_self_iff.mpr h
  · rw [pctDecode_append_slash, pctDecode_eq_self_iff.mpr h]
    rfl

/-- The path of a link with an escape is shorter. -/
theorem length_pctDecode_link (hlink : link = dir ++ name ∨ link = dir ++ name ++ [SLASH])
    (h : ¬ Unescaped (dir ++ name)) :
    (cleanPath (pctDecode link)).length < (dir ++ name).length := by
  have hshort : (pctDecode (dir ++ name)).length + 2 ≤ (dir ++ name).length := by
    rcases pctDecode_cases (dir ++ name) with ⟨-, hplain⟩ | ⟨hshort, -⟩
    · exact absurd hplain h
    · exact hshort
  have hclean := length_cleanPath_le (pctDecode link)
  rcases hlink with rfl | rfl
  · omega
  · have hslash : (pctDecode (dir ++ name ++ [SLASH])).length =
        (pctDecode (dir ++ name)).length + 1 := by
      rw [pctDecode_append_slash, List.length_append]
      rfl
    omega

end Back

/-- What is stored of a link that is a target, when it is the path of the entry. -/
theorem LinkSafe.of_stored {link : Bytes}
    (hlink : link = dir ++ name ∨ link = dir ++ name ++ [SLASH]) (hhead : link.head? = some SLASH)
    (hvisible : ∀ b ∈ link, isVisible b = true) (hshort : link.length ≤ 8192)
    (hpath : requestPath link = dir ++ name) : LinkSafe dir name link := by
  have hsub : ∀ b ∈ dir ++ name, b ∈ link := by
    rcases hlink with rfl | rfl
    · exact fun b hb => hb
    · exact fun b hb => List.mem_append_left _ hb
  obtain ⟨t, ht⟩ := eq_cons_of_head hhead
  have hquery : 63 ∉ link := by
    intro hmem
    obtain ⟨cut, back, hsplit, hcut⟩ := requestPath_of_mem (ht ▸ hmem)
    have hlt := length_lt_of_cut hlink (by decide) (ht.trans hsplit)
    have hle := (length_cleanPath_le _).trans (length_pctDecode_le (SLASH :: cut))
    rw [← hcut, ← ht, hpath] at hle
    omega
  refine ⟨fun b hb => hvisible b (hsub b hb), fun hmem => hquery (hsub 63 hmem), ?_, hshort⟩
  by_contra hescape
  have hlt := length_pctDecode_link hlink hescape
  rw [ht] at hquery hlt
  rw [← (target_of_notMem hquery).1, ← ht, hpath] at hlt
  exact lt_irrefl _ hlt

/-- A text that is no request line stores no path. -/
theorem path_parseRequestLine_of_no_line {stat : StatAnswer} {c : Connection}
    (hnone : ∀ method uri n, ¬ IsRequestLine c.readBuffer.items method uri n) :
    (parseRequestLine stat c).request.path = c.request.path := by
  rcases @stopped_or_lineText c.readBuffer.items RLScan.init 0 rfl with hstopped | hline
  · rcases checkLine_of_stopped hstopped with h | ⟨code, -, h⟩
    · rw [parseRequestLine_of_waits h]
    · rw [parseRequestLine_of_refused h]
      rfl
  · obtain ⟨method, uri, n, h⟩ := hline.isRequestLine
    exact absurd h (hnone method uri n)

/-- A path that is stored of a request for a link is that of the entry only if the link is safe. -/
theorem LinkSafe.of_path {stat : StatAnswer} {c : Connection} {link method rest : Bytes}
    (hlink : link = dir ++ name ∨ link = dir ++ name ++ [SLASH]) (hhead : link.head? = some SLASH)
    (hne : name ≠ []) (htoken : ∀ b ∈ method, isTokenChar b = true)
    (hfresh : c.request.path = []) (hbuf : c.readBuffer.items = sentFor method link rest)
    (hpath : (parseRequestLine stat c).request.path = dir ++ name) : LinkSafe dir name link := by
  have hfull : dir ++ name ≠ [] := by simp [hne]
  by_cases hline : ∃ m uri n, IsRequestLine c.readBuffer.items m uri n
  · obtain ⟨m, uri, n, hline⟩ := hline
    have htarget := target_of_requestLine htoken hhead (hbuf ▸ hline)
    rw [hline.parseRequestLine_eq] at hpath
    have hstored : requestPath uri = dir ++ name ∧ uri.length ≤ 8192 := by
      refine ⟨?_, Nat.not_lt.mp fun hlong => ?_⟩
      · rcases @path_pastVersion stat c m uri n with hkept | hstored
        · exact absurd (hpath.symm.trans (hkept.trans hfresh)) hfull
        · exact hstored.symm.trans hpath
      · rw [pastVersion_long hlong, hfresh] at hpath
        exact hfull hpath.symm
    rcases htarget with rfl | ⟨back, hcut⟩
    · exact .of_stored hlink hhead hline.visible hstored.2 hstored.1
    · -- what stands in front of a space is too short
      obtain ⟨t, rfl⟩ : ∃ t, uri = SLASH :: t := by
        obtain ⟨b, t, rfl⟩ := List.exists_cons_of_ne_nil hline.uri_ne_nil
        rw [hcut, List.cons_append, List.head?_cons, Option.some.injEq] at hhead
        exact ⟨t, by rw [hhead]⟩
      have hlt := length_lt_of_cut hlink (by decide) hcut
      have hle := length_requestPath_le t
      rw [hstored.1] at hle
      omega
  · -- nothing is stored
    refine absurd ?_ hfull
    rw [← hpath, path_parseRequestLine_of_no_line fun m uri n h => hline ⟨m, uri, n, h⟩, hfresh]

/-- A link that is safe is stored as the path of the entry. -/
theorem LinkSafe.stored {stat : StatAnswer} {c : Connection} {link method rest : Bytes}
    (h : LinkSafe dir name link) (hlink : link = dir ++ name ∨ link = dir ++ name ++ [SLASH])
    (hhead : link.head? = some SLASH) (hdir : DirectoryPath dir) (hne : name ≠ [])
    (hname : SLASH ∉ name) (htoken : method ≠ [] ∧ ∀ b ∈ method, isTokenChar b = true)
    (hmethod : method ∈ [ascii "GET", ascii "HEAD", ascii "POST", ascii "DELETE"])
    (hbuf : c.readBuffer.items = sentFor method link rest) :
    (parseRequestLine stat c).request.path = dir ++ name ∧
      (parseRequestLine stat c).request.queryString = [] := by
  have hmem : ∀ b ∈ link, b ∈ dir ++ name ∨ b = SLASH := by
    intro b hb
    rcases hlink with rfl | rfl
    · exact .inl hb
    · exact (List.mem_append.mp hb).imp_right List.mem_singleton.mp
  have hvisible : ∀ b ∈ link, isVisible b = true := by
    intro b hb
    rcases hmem b hb with hb | rfl
    · exact h.visible b hb
    · decide
  have hquery : 63 ∉ link := by
    intro hb
    exact (hmem 63 hb).elim h.noQuery (by decide)
  obtain ⟨t, ht⟩ := eq_cons_of_head hhead
  have hline := isRequestLine_sentFor htoken.1 htoken.2 (by simp [ht]) hvisible rest
  rw [← hbuf] at hline
  rw [hline.parseRequestLine_eq]
  obtain ⟨hpath, hstring⟩ := @pastVersion_stores stat c _ _
    (c.readBuffer.items.length - rest.length) h.short hmethod
  rw [hpath, hstring]
  rw [ht] at hquery
  rw [ht, (target_of_notMem hquery).1, (target_of_notMem hquery).2, ← ht,
    pctDecode_link hlink h.unescaped, cleanPath_link hdir hne hname hlink]
  exact ⟨rfl, rfl⟩

/-- **When a link leads back to its entry.** -/
theorem listing_link_iff (hdir : DirectoryPath dir) (hne : name ≠ []) (hname : SLASH ∉ name)
    (fs : FileSystem) (fsPath : Bytes) {method : Bytes}
    (hmethod : method ∈ [ascii "GET", ascii "HEAD", ascii "POST", ascii "DELETE"])
    (stat : StatAnswer) {c : Connection} {rest : Bytes} (hfresh : c.request.path = [])
    (hbuf : c.readBuffer.items = sentFor method (rowLink (listingRow fs dir fsPath name)) rest) :
    (parseRequestLine stat c).request.path = dir ++ name ∧
        (parseRequestLine stat c).request.queryString = [] ↔
      LinkSafe dir name (rowLink (listingRow fs dir fsPath name)) := by
  have hlink := rowLink_cases fs dir fsPath name
  generalize rowLink (listingRow fs dir fsPath name) = link at hlink hbuf ⊢
  have htoken : method ≠ [] ∧ ∀ b ∈ method, isTokenChar b = true := by
    have hall : ∀ m ∈ [ascii "GET", ascii "HEAD", ascii "POST", ascii "DELETE"],
        m ≠ [] ∧ m.all isTokenChar = true := by decide +kernel
    exact ⟨(hall method hmethod).1, List.all_eq_true.mp (hall method hmethod).2⟩
  have hhead : link.head? = some SLASH := by
    obtain ⟨t, rfl⟩ := eq_cons_of_head hdir.head
    rcases hlink with rfl | rfl <;> rfl
  constructor
  · rintro ⟨hpath, -⟩
    exact .of_path hlink hhead hne htoken.2 hfresh hbuf hpath
  · intro h
    exact h.stored hlink hhead hdir hne hname htoken hmethod hbuf

/-- A request whose target is the link of an entry of the root. -/
private def askingEntry (name : Bytes) : Connection :=
  { Connection.new 5 Server.empty 0 with
    readBuffer := ⟨sentFor (ascii "GET") (rowLink (listingRow FileSystem.empty [SLASH] [] name))
      [], 8192⟩ }

theorem listing_link_plain :
    (parseRequestLine (fun _ => none) (askingEntry (ascii "a.html"))).request.path =
        [SLASH] ++ ascii "a.html" ∧
      (parseRequestLine (fun _ => none) (askingEntry (ascii "a.html"))).request.queryString =
        [] := by
  refine (@listing_link_iff [SLASH] _ ⟨rfl, rfl, by decide⟩ (by decide) (by decide)
    FileSystem.empty [] (ascii "GET") (by decide) _ _ [] rfl rfl).mpr
      ⟨List.all_eq_true.mp (by decide), by decide, ?_, by decide +kernel⟩
  intro hi lo hin
  exact absurd (hin.subset (List.mem_cons_self (a := PERCENT))) (by decide)

/-- **A question mark is not escaped**: the link of the file `a?b` leads to the file `a`. -/
theorem not_listing_link : ¬ ∀ (dir name : Bytes) (fs : FileSystem) (fsPath : Bytes)
    (stat : StatAnswer) (c : Connection) (rest : Bytes), DirectoryPath dir → name ≠ [] →
      SLASH ∉ name → 0 ∉ name → name ≠ dot → name ≠ dotDot → c.request.path = [] →
        c.readBuffer.items =
            sentFor (ascii "GET") (rowLink (listingRow fs dir fsPath name)) rest →
          (parseRequestLine stat c).request.path = dir ++ name ∧
            (parseRequestLine stat c).request.queryString = [] := by
  intro h
  have hback := h [SLASH] (ascii "a?b") FileSystem.empty [] (fun _ => none)
    (askingEntry (ascii "a?b")) [] ⟨rfl, rfl, by decide⟩ (by decide) (by decide) (by decide)
    (by decide) (by decide) rfl rfl
  exact absurd hback.1 (by decide +kernel)

end Webserv
