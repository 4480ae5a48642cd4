import Mathlib.Data.Finset.Card
import Mathlib.Data.Finset.Union
import Webserv.HttpParser.Head
import Webserv.Lib.HeaderSection

/-!
# Requests that declare a coding

The header lines of a request are accepted or refused whatever they are about: `AcceptedLines`.  A
request with a Transfer-Encoding is then refused for its Host or for a length, or read as chunks.
When the coding is any other it is forgotten, and the request is taken to have no body.

## Main results

* `headerLoop_block` — the loop on a whole block of lines.
* `getElem?_readLines_of_acceptedLines` — the headers that are stored.
* `honoured_parseHeaders_iff` — **when a declared coding is honoured or refused.**
* `not_honoured_parseHeaders` — a coding that is forgotten.
-/

namespace Webserv

open Bytes HeaderSection

/-! ### Lines that are accepted -/

/-- The names of the stored headers. -/
def names (headers : Std.TreeMap Bytes Bytes) : Finset Bytes := headers.keys.toFinset

theorem mem_names {headers : Std.TreeMap Bytes Bytes} {key : Bytes} :
    key ∈ names headers ↔ key ∈ headers := by
  rw [names, List.mem_toFinset, Std.TreeMap.mem_keys]

theorem names_insert (headers : Std.TreeMap Bytes Bytes) (key value : Bytes) :
    names (headers.insert key value) = insert key (names headers) := by
  ext key'
  rw [mem_names, Std.TreeMap.mem_insert, Finset.mem_insert, mem_names,
    Std.LawfulEqCmp.compare_eq_iff_eq, eq_comm]

theorem card_names (headers : Std.TreeMap Bytes Bytes) : (names headers).card = headers.size := by
  rw [names, List.toFinset_card_of_nodup Std.TreeMap.nodup_keys, Std.TreeMap.length_keys]

/-- Lines that are accepted when headers of these names are stored: none too long, each with a
name, the singletons once, and a hundred names at most. -/
structure AcceptedLines (stored : Finset Bytes) (lines : List Bytes) : Prop where
  short : ∀ l ∈ lines, l.length ≤ 8192
  named : ∀ l ∈ lines, ∃ name, fieldName l = some name ∧ name ≠ []
  single : ∀ name ∈ singletonHeaders,
    (lines.filter fun l => fieldName l = some name).length + (if name ∈ stored then 1 else 0) ≤ 1
  few : lines ≠ [] → (stored ∪ (lines.filterMap fieldName).toFinset).card ≤ 100

theorem acceptedLines_nil (stored : Finset Bytes) : AcceptedLines stored [] := by
  refine ⟨by simp, by simp, fun name _ => ?_, fun h => absurd rfl h⟩
  split <;> simp

/-- Lines are accepted one after another. -/
theorem acceptedLines_cons_iff {stored : Finset Bytes} {l : Bytes} {lines : List Bytes} :
    AcceptedLines stored (l :: lines) ↔ l.length ≤ 8192 ∧
      ∃ name, fieldName l = some name ∧ name ≠ [] ∧
      (name ∈ singletonHeaders → name ∉ stored) ∧ (insert name stored).card ≤ 100 ∧
        AcceptedLines (insert name stored) lines := by
  constructor
  · intro h
    obtain ⟨name, hname, hne⟩ := h.named l List.mem_cons_self
    have hfew := h.few (List.cons_ne_nil l lines)
    rw [List.filterMap_cons_some hname, List.toFinset_cons, Finset.union_insert,
      ← Finset.insert_union] at hfew
    refine ⟨h.short l List.mem_cons_self, name, hname, hne, ?_, ?_, ?_⟩
    · -- stored already, so that this line would be the second
      intro hsingle hstored
      have hone := h.single name hsingle
      simp only [List.filter_cons, hname, decide_true, if_true, List.length_cons, if_pos hstored]
        at hone
      omega
    · exact (Finset.card_le_card Finset.subset_union_left).trans hfew
    · refine ⟨fun l' hl' => h.short l' (List.mem_cons_of_mem l hl'),
        fun l' hl' => h.named l' (List.mem_cons_of_mem l hl'), ?_, fun _ => hfew⟩
      intro name' hsingle
      have hone := h.single name' hsingle
      simp only [List.filter_cons, hname, Option.some.injEq] at hone
      by_cases heq : name = name'
      · simp only [heq, decide_true, if_true, List.length_cons, Finset.mem_insert_self] at hone ⊢
        split at hone <;> omega
      · simpa [heq, Ne.symm heq] using hone
  · rintro ⟨hshort, name, hname, hne, hnew, hcard, h⟩
    refine ⟨?_, ?_, ?_, ?_⟩
    · intro l' hl'
      rcases List.mem_cons.mp hl' with rfl | hl'
      · exact hshort
      · exact h.short l' hl'
    · intro l' hl'
      rcases List.mem_cons.mp hl' with rfl | hl'
      · exact ⟨name, hname, hne⟩
      · exact h.named l' hl'
    · intro name' hsingle
      have hone := h.single name' hsingle
      simp only [List.filter_cons, hname, Option.some.injEq]
      by_cases heq : name = name'
      · subst heq
        simp only [Finset.mem_insert_self, if_true] at hone
        simp only [decide_true, if_true, List.length_cons, if_neg (hnew hsingle)]
        omega
      · simpa [heq, Ne.symm heq] using hone
    · intro _
      rw [List.filterMap_cons_some hname, List.toFinset_cons, Finset.union_insert,
        ← Finset.insert_union]
      by_cases hlines : lines = []
      · simpa [hlines] using hcard
      · exact h.few hlines

/-- **When one line is accepted.** -/
theorem headerLine_good_iff {req : HttpRequest} {l : Bytes} (hreq : req.parseState ≠ .error) :
    (headerLine req l).parseState ≠ .error ↔ ∃ name, fieldName l = some name ∧ name ≠ [] ∧
      (name ∈ singletonHeaders → name ∉ names req.headers) ∧
        (insert name (names req.headers)).card ≤ 100 := by
  unfold headerLine fieldName
  cases hcolon : l.findIdx? (· == COLON) with
  | none => simp
  | some colon =>
    simp only [Option.map_some, Option.some.injEq, exists_eq_left']
    generalize strTolower (strTrim (l.take colon)) = name
    have hstore : ∀ v : Bytes, (if (req.headers.insert name v).size > 100 then
        ({ req with headers := req.headers.insert name v } : HttpRequest).fail 431
        else { req with headers := req.headers.insert name v }).parseState ≠ .error ↔
          (insert name (names req.headers)).card ≤ 100 := by
      intro v
      rw [← card_names, names_insert]
      split
      · next hmany => exact iff_of_false (fun h => h rfl) (Nat.not_le.mpr hmany)
      · next hfew => exact iff_of_true hreq (Nat.not_lt.mp hfew)
    have hstored : name ∈ names req.headers ↔ (req.headers[name]?).isSome := by
      rw [mem_names, Std.TreeMap.mem_iff_isSome_getElem?]
    by_cases hempty : name = []
    · simp [hempty]
    · rw [if_neg (by simpa using hempty), hstored]
      cases hold : req.headers[name]? with
      | none => simpa [hempty] using hstore _
      | some old =>
        by_cases hsingle : singletonHeaders.contains name = true
        · have hmem : name ∈ singletonHeaders := by simpa using hsingle
          simp [hmem]
        · have hmem : name ∉ singletonHeaders := by simpa using hsingle
          dsimp only
          rw [if_neg hsingle]
          simpa [hempty, hmem] using hstore _

/-- A line that is accepted adds its name. -/
theorem names_headerLine {req : HttpRequest} {l name : Bytes} (hname : fieldName l = some name)
    (hgood : (headerLine req l).parseState ≠ .error) :
    names (headerLine req l).headers = insert name (names req.headers) := by
  ext key
  rw [Finset.mem_insert, mem_names, mem_names, Std.TreeMap.mem_iff_isSome_getElem?,
    Std.TreeMap.mem_iff_isSome_getElem?]
  by_cases heq : key = name
  · subst heq
    rw [getElem?_headerLine_self hname hgood]
    simp
  · rw [getElem?_headerLine (by rw [hname, ne_eq, Option.some.injEq]; exact Ne.symm heq)]
    simp [heq]

/-- A line that was read has its end where it is looked for. -/
theorem findCrlf_of_unbroken {l : Bytes} (hl : ¬ crlf <:+: l) (rest : Bytes) :
    findCrlf (l ++ crlf ++ rest) = some l.length := by
  refine FirstMatch.find_append_of_some (FirstMatch.find_eq_some_iff.mpr ⟨?_, ?_, ?_⟩)
  · rw [List.length_append]
    exact Nat.le_add_right _ _
  · rw [List.drop_left]
  · intro i hi hprefix
    rw [List.drop_append_of_le_length hi.le] at hprefix
    -- a line end that begins in the line ends in it, since CR is not LF
    by_cases hlast : i + 1 = l.length
    · have hone : (l.drop i).length = 1 := by
        rw [List.length_drop]
        omega
      obtain ⟨b, hb⟩ := List.length_eq_one_iff.mp hone
      rw [hb, crlf, List.singleton_append, List.cons_prefix_cons, List.cons_prefix_cons] at hprefix
      exact absurd hprefix.2.1 (by decide)
    · have htwo : crlf.length ≤ (l.drop i).length := by
        rw [List.length_drop]
        show 2 ≤ _
        omega
      exact hl ((List.prefix_of_prefix_length_le hprefix (List.prefix_append _ _)
        htwo).isInfix.trans
        (List.drop_suffix i l).isInfix)

/-- **The loop on a whole block of lines**: when they are accepted, it gets to the blank line. -/
theorem headerLoop_block : ∀ {lines : List Bytes} {buf : ByteQueue} {req : HttpRequest}
    {rest : Bytes},
    req.parseState ≠ .error → (∀ l ∈ lines, l ≠ [] ∧ ¬ crlf <:+: l) →
      buf.items = fieldText lines ++ (crlf ++ rest) →
        AcceptedLines (names req.headers) lines ∧ (readLines req lines).parseState ≠ .error ∧
            headerLoop (buf, req) = ((⟨rest, buf.limit⟩, readLines req lines), true) ∨
          ¬ AcceptedLines (names req.headers) lines ∧
            ∃ s, headerLoop (buf, req) = (s, false) ∧ s.2.parseState = .error := by
  intro lines
  induction lines with
  | nil =>
    intro buf req rest hreq _ hbuf
    have heq : buf = ⟨crlf ++ rest, buf.limit⟩ := Fifo.ext hbuf rfl
    left
    refine ⟨acceptedLines_nil _, hreq, ?_⟩
    rw [heq]
    exact headerLoop_blank rest buf.limit req
  | cons l lines ih =>
    intro buf req rest hreq hlines hbuf
    obtain ⟨hne, hunbroken⟩ := hlines l List.mem_cons_self
    have hlines' : ∀ l' ∈ lines, l' ≠ [] ∧ ¬ crlf <:+: l' :=
      fun l' hl' => hlines l' (List.mem_cons_of_mem l hl')
    rw [fieldText_cons, List.append_assoc] at hbuf
    have heq : buf = ⟨l ++ crlf ++ (fieldText lines ++ (crlf ++ rest)), buf.limit⟩ :=
      Fifo.ext hbuf rfl
    by_cases hshort : l.length ≤ 8192
    · have hround := @headerRound_line l (fieldText lines ++ (crlf ++ rest))
        ⟨hne, hshort, by simpa using findCrlf_of_unbroken hunbroken []⟩ buf.limit req
      rw [← heq] at hround
      by_cases herror : (headerLine req l).parseState = .error
      · -- the line is refused, and the loop stops there
        rw [if_pos herror] at hround
        refine Or.inr ⟨fun h => ?_, _, WhileLoop.loop_inr hround, herror⟩
        obtain ⟨-, name, hname, hne', hnew, hcard, -⟩ := acceptedLines_cons_iff.mp h
        exact (headerLine_good_iff hreq).mpr ⟨name, hname, hne', hnew, hcard⟩ herror
      · rw [if_neg herror] at hround
        -- the line is taken, and its name is stored for the others
        obtain ⟨name, hname, hne', hnew, hcard⟩ := (headerLine_good_iff hreq).mp herror
        have hloop : headerLoop (buf, req) =
            headerLoop (⟨fieldText lines ++ (crlf ++ rest), buf.limit⟩, headerLine req l) :=
          WhileLoop.loop_inl headerRound_decreasing hround
        have hstep : AcceptedLines (names req.headers) (l :: lines) ↔
            AcceptedLines (names (headerLine req l).headers) lines := by
          rw [acceptedLines_cons_iff, names_headerLine hname herror]
          constructor
          · rintro ⟨-, name', hname', -, -, -, h⟩
            rw [hname, Option.some.injEq] at hname'
            rwa [hname']
          · exact fun h => ⟨hshort, name, hname, hne', hnew, hcard, h⟩
        rw [hloop, hstep, readLines, if_neg herror]
        exact ih herror hlines' rfl
    · -- a line that is too long is not taken off the buffer
      have hfind : findCrlf buf.items = some l.length := by
        rw [hbuf]
        exact findCrlf_of_unbroken hunbroken _
      refine Or.inr ⟨fun h => hshort (h.short l List.mem_cons_self), (buf, req.fail 431),
        WhileLoop.loop_inr (headerRound_eq (.tooLong hfind (Nat.lt_of_not_le hshort))), rfl⟩

/-! ### Stored headers -/

/-- The value a header has when the lines have been read: the stored one, or that of the first line
that names it. -/
def declared (headers : Std.TreeMap Bytes Bytes) (lines : List Bytes) (key : Bytes) :
    Option Bytes :=
  headers[key]?.or ((lines.find? fun l => fieldName l = some key).map fieldValue)

/-- Lines that are accepted store the headers that may not be repeated as they stand. -/
theorem getElem?_readLines_of_acceptedLines {key : Bytes} (hkey : key ∈ singletonHeaders) :
    ∀ {lines : List Bytes} {req : HttpRequest}, req.parseState ≠ .error →
      AcceptedLines (names req.headers) lines →
        (readLines req lines).headers[key]? = declared req.headers lines key := by
  intro lines
  induction lines with
  | nil =>
    intro req _ _
    rw [readLines, declared, List.find?_nil, Option.map_none, Option.or_none]
  | cons l lines ih =>
    intro req hreq h
    obtain ⟨-, name, hname, hne, hnew, hcard, hlines⟩ := acceptedLines_cons_iff.mp h
    have hgood := (headerLine_good_iff hreq).mpr ⟨name, hname, hne, hnew, hcard⟩
    rw [← names_headerLine hname hgood] at hlines
    rw [readLines, if_neg hgood, ih hgood hlines, declared, declared]
    by_cases heq : name = key
    · -- the line is the only one, and there was no such header before it
      subst heq
      have hnone : req.headers[name]? = none := by
        have hstored := hnew hkey
        rw [mem_names, Std.TreeMap.mem_iff_isSome_getElem?] at hstored
        simpa using hstored
      rw [getElem?_headerLine_self hname hgood, hnone, List.find?_cons_of_pos
        (by simpa using hname)]
      rfl
    · rw [getElem?_headerLine (by rw [hname, ne_eq, Option.some.injEq]; exact heq),
        List.find?_cons_of_neg (by simpa [hname] using heq)]

/-! ### The checks on Host -/

/-- A request that is refused for its Host: it has none where one is needed, or one that is not a
host. -/
def HostRefused (version : Bytes) : Option Bytes → Prop
  | none => version = ascii "HTTP/1.1"
  | some host => validateHost host = none

/-- What the checks on Host keep of a request. -/
structure SameFraming (req req' : HttpRequest) : Prop where
  method : req'.method = req.method
  contentLength : req'.contentLength = req.contentLength
  chunked : req'.chunked = req.chunked
  headers : ∀ key, key ≠ ascii "host" → req'.headers[key]? = req.headers[key]?

theorem sameFraming_overrideHost (c : Connection) (host : Bytes) :
    (overrideHost c host).request.parseState = c.request.parseState ∧
      SameFraming c.request (overrideHost c host).request := by
  unfold overrideHost
  split
  · exact ⟨rfl, rfl, rfl, rfl, fun _ _ => rfl⟩
  · exact ⟨rfl, rfl, rfl, rfl, fun _ _ => rfl⟩

theorem hostChecks_cases {c : Connection} (hstate : c.request.parseState ≠ .error) :
    HostRefused c.request.version c.request.headers[ascii "host"]? ∧
        (hostChecks c).request.parseState = .error ∨
      ¬ HostRefused c.request.version c.request.headers[ascii "host"]? ∧
        (hostChecks c).request.parseState ≠ .error ∧
          SameFraming c.request (hostChecks c).request := by
  unfold hostChecks
  dsimp only
  cases c.request.headers[ascii "host"]? with
  | none =>
    dsimp only [HostRefused]
    split
    · next hversion => exact Or.inl ⟨hversion, rfl⟩
    · next hversion => exact Or.inr ⟨hversion, hstate, rfl, rfl, rfl, fun _ _ => rfl⟩
  | some value =>
    dsimp only [HostRefused]
    cases validateHost value with
    | none => exact Or.inl ⟨rfl, rfl⟩
    | some v =>
      obtain ⟨hover, hsame⟩ := sameFraming_overrideHost c v.1
      refine Or.inr ⟨by simp, hover ▸ hstate, hsame.method, hsame.contentLength, hsame.chunked, ?_⟩
      intro key hkey
      rw [← hsame.headers key hkey]
      show ((overrideHost c v.1).request.headers.insert (ascii "host") v.1)[key]? = _
      rw [Std.TreeMap.getElem?_insert, if_neg]
      rw [Std.LawfulEqCmp.compare_eq_iff_eq]
      exact Ne.symm hkey

/-! ### The coding -/

/-- The request is refused, or its body is read as chunks. -/
def Honoured (req : HttpRequest) : Prop :=
  req.parseState = .error ∨ req.chunked = true ∧ req.parseState = .body

instance (req : HttpRequest) : Decidable (Honoured req) := inferInstanceAs (Decidable (_ ∨ _))

/-- **When a coding is honoured or refused**: it is chunks, or there is a length beside it, or the
request looks like one that should have a body. -/
theorem honoured_framing_iff {req : HttpRequest} {coding : Bytes} (maxBody : ℕ)
    (hcoding : req.headers[ascii "transfer-encoding"]? = some coding) :
    Honoured (framing maxBody req) ↔ req.headers[ascii "content-length"]? ≠ none ∨
      strTolower coding = ascii "chunked" ∨ req.chunked = true ∨
        req.contentLength = 0 ∧ req.method = ascii "POST" := by
  unfold framing
  rw [hcoding]
  cases req.headers[ascii "content-length"]? with
  | some value => exact iff_of_true (Or.inl rfl) (Or.inl (by simp))
  | none =>
    simp only [Option.isSome_none, Bool.false_and, Bool.false_eq_true, if_false, Option.any_some,
      beq_iff_eq, ne_eq, not_true_eq_false, false_or]
    by_cases hchunks : strTolower coding = ascii "chunked"
    · simp [hchunks, Honoured]
    · rw [if_neg hchunks]
      by_cases hchunked : req.chunked = true
      · simp [hchunked, Honoured]
      · rw [Bool.not_eq_true] at hchunked
        by_cases hzero : req.contentLength = 0
        · by_cases hpost : req.method = ascii "POST"
          · simp [hchunked, hzero, hpost, Honoured, HttpRequest.fail]
          · simp [hchunks, hchunked, hzero, hpost, Honoured]
        · simp [hchunks, hchunked, hzero, Honoured]

/-- What `_parseHeaders` does with a whole block of lines. -/
theorem parseHeaders_block {c : Connection} (hstate : c.request.parseState = .headers)
    {lines : List Bytes} {rest : Bytes}
    (hblock : readSection [] c.readBuffer.items = some (lines, rest)) :
    AcceptedLines (names c.request.headers) lines ∧
      (readLines c.request lines).parseState ≠ .error ∧
        parseHeaders c = finishHeaders { c with
          readBuffer := ⟨rest, c.readBuffer.limit⟩, request := readLines c.request lines } ∨
      ¬ AcceptedLines (names c.request.headers) lines ∧
        (parseHeaders c).request.parseState = .error := by
  obtain ⟨hitems, hne⟩ := eq_of_readSection hblock
  have hunbroken := unbroken_of_readSection hblock (by simp [crlf]) (fun _ => by simp)
  have hreq : c.request.parseState ≠ .error := by simp [hstate]
  rcases headerLoop_block hreq (fun l hl => ⟨hne l hl, hunbroken l hl⟩) hitems with
    ⟨haccepted, hgood, hloop⟩ | ⟨hrefused, s, hloop, herror⟩
  · left
    refine ⟨haccepted, hgood, ?_⟩
    rw [parseHeaders, hloop]
    rfl
  · right
    refine ⟨hrefused, ?_⟩
    rw [parseHeaders, hloop]
    exact herror

/-- **When a declared coding is honoured or refused.**  A request whose lines and Host are in order,
without a length and not a POST, has its body read if the coding is `chunked` alone. -/
theorem honoured_parseHeaders_iff {c : Connection} (hstate : c.request.parseState = .headers)
    {lines : List Bytes} {rest coding : Bytes}
    (hblock : readSection [] c.readBuffer.items = some (lines, rest))
    (hcoding : declared c.request.headers lines (ascii "transfer-encoding") = some coding) :
    Honoured (parseHeaders c).request ↔ ¬ AcceptedLines (names c.request.headers) lines ∨
      HostRefused c.request.version (declared c.request.headers lines (ascii "host")) ∨
      declared c.request.headers lines (ascii "content-length") ≠ none ∨
      strTolower coding = ascii "chunked" ∨ c.request.chunked = true ∨
        c.request.contentLength = 0 ∧ c.request.method = ascii "POST" := by
  rcases parseHeaders_block hstate hblock with ⟨haccepted, hgood, heq⟩ | ⟨hrefused, herror⟩
  · have hreq : c.request.parseState ≠ .error := by simp [hstate]
    have hstored : ∀ key ∈ singletonHeaders, (readLines c.request lines).headers[key]? =
        declared c.request.headers lines key :=
      fun key hkey => getElem?_readLines_of_acceptedLines hkey hreq haccepted
    rw [← hstored _ (by decide)] at hcoding
    rw [← hstored _ (by decide), ← hstored _ (by decide), heq, finishHeaders]
    obtain ⟨hversion, hmethod, hlength, hchunked⟩ : (readLines c.request lines).version =
        c.request.version ∧ (readLines c.request lines).method = c.request.method ∧
        (readLines c.request lines).contentLength = c.request.contentLength ∧
        (readLines c.request lines).chunked = c.request.chunked := by
      obtain ⟨headers, h | ⟨code, -, h⟩⟩ := readLines_cases lines c.request hreq
      · rw [h]
        exact ⟨rfl, rfl, rfl, rfl⟩
      · rw [h]
        exact ⟨rfl, rfl, rfl, rfl⟩
    rw [← hversion, ← hmethod, ← hlength, ← hchunked]
    let c' := { c with
      readBuffer := ⟨rest, c.readBuffer.limit⟩, request := readLines c.request lines }
    have hstate' : c'.request.parseState ≠ .error := hgood
    rcases hostChecks_cases hstate' with ⟨hhost, herror⟩ | ⟨hhost, hgood', hsame⟩
    · rw [if_pos herror]
      exact iff_of_true (Or.inl herror) (Or.inr (Or.inl hhost))
    · rw [if_neg hgood', honoured_framing_iff _ ((hsame.headers _ (by decide)).trans hcoding),
        hsame.headers _ (by decide), hsame.chunked, hsame.contentLength, hsame.method]
      simp only [haccepted, not_true_eq_false, false_or]
      exact (or_iff_right hhost).symm
  · exact iff_of_true (Or.inl herror) (Or.inl hrefused)

/-- A GET whose header lines are there, with a coding. -/
private def codedRequest (coding : String) : Connection :=
  { Connection.new 5 Server.empty 0 with
    readBuffer := ⟨ascii "Host: a\r\nTransfer-Encoding: " ++ ascii coding ++ crlfcrlf, 8192⟩
    request := { HttpRequest.new 10 with
      parseState := .headers, method := ascii "GET", version := ascii "HTTP/1.1" } }

theorem honoured_chunked : Honoured (parseHeaders (codedRequest "Chunked")).request := by
  have hblock : readSection [] (codedRequest "Chunked").readBuffer.items =
      some ([ascii "Host: a", ascii "Transfer-Encoding: Chunked"], []) := by decide +kernel
  have hcoding : declared (codedRequest "Chunked").request.headers
      [ascii "Host: a", ascii "Transfer-Encoding: Chunked"] (ascii "transfer-encoding") =
        some (ascii "Chunked") := by decide +kernel
  refine (honoured_parseHeaders_iff rfl hblock hcoding).mpr ?_
  exact Or.inr (Or.inr (Or.inr (Or.inl (by decide))))

/-- **A coding that is not `chunked`** is forgotten, and the request is complete without a body. -/
theorem not_honoured_parseHeaders : ¬ ∀ (c : Connection) (lines : List Bytes) (rest coding : Bytes),
    c.request.parseState = .headers → readSection [] c.readBuffer.items = some (lines, rest) →
      declared c.request.headers lines (ascii "transfer-encoding") = some coding →
        Honoured (parseHeaders c).request := by
  intro h
  have hhonoured := h (codedRequest "gzip") [ascii "Host: a", ascii "Transfer-Encoding: gzip"] []
    (ascii "gzip") rfl (by decide +kernel) (by decide +kernel)
  exact absurd hhonoured (by decide +kernel)

end Webserv
