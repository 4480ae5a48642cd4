import Webserv.HttpParser.Selection
import Webserv.HttpParser.TransferCoding

/-!
# Header lines as a fold

The loop of `parseHeaders` takes lines off the buffer, judges them and stores them in one go.  What
it stores is a left fold over the lines, `foldHeaders`; where it stops is the first line that
`refusal` has a code for.

## Main results

* `getElem?_foldHeaders` — the fold, name by name.
* `headerLoop_unrefused`, `headerLoop_refused` — the loop, up to the first line that is refused.
* `parseHeaders_fold` — **header folding equals its reference.**
-/

namespace Webserv

open Bytes

/-- A header line, added to the headers that are stored. -/
def addHeader (headers : Std.TreeMap Bytes Bytes) (l : Bytes) : Std.TreeMap Bytes Bytes :=
  match fieldName l with
  | none => headers
  | some name =>
      headers.insert name
        ((headers[name]?).elim (fieldValue l) (· ++ ascii ", " ++ fieldValue l))

/-- Header lines, added one after another. -/
def foldHeaders (headers : Std.TreeMap Bytes Bytes) (lines : List Bytes) :
    Std.TreeMap Bytes Bytes :=
  lines.foldl addHeader headers

/-- The code with which a line is refused when headers of these names are stored. -/
def refusal (stored : Finset Bytes) (l : Bytes) : Option ℕ :=
  if 8192 < l.length then some 431
  else
    match fieldName l with
    | none => some 400
    | some name =>
        if name = [] ∨ name ∈ singletonHeaders ∧ name ∈ stored then some 400
        else if 100 < (insert name stored).card then some 431
        else none

/-- No line is refused, each behind those in front of it. -/
def Unrefused (headers : Std.TreeMap Bytes Bytes) (lines : List Bytes) : Prop :=
  ∀ done l left, lines = done ++ l :: left → refusal (names (foldHeaders headers done)) l = none

variable {headers : Std.TreeMap Bytes Bytes} {l : Bytes} {lines : List Bytes} {code : ℕ}

theorem unrefused_nil (headers : Std.TreeMap Bytes Bytes) : Unrefused headers [] := by
  intro done l left h
  simp at h

theorem unrefused_cons_iff : Unrefused headers (l :: lines) ↔
    refusal (names headers) l = none ∧ Unrefused (addHeader headers l) lines := by
  constructor
  · intro h
    refine ⟨h [] l lines rfl, fun done l' left heq => h (l :: done) l' left ?_⟩
    rw [heq, List.cons_append]
  · rintro ⟨hl, h⟩ done l' left heq
    cases done with
    | nil =>
      obtain ⟨rfl, -⟩ := List.cons.inj heq
      exact hl
    | cons x done =>
      obtain ⟨rfl, hrest⟩ := List.cons.inj heq
      exact h done l' left hrest

/-- Either no line is refused, or there is a first one. -/
theorem unrefused_or (lines : List Bytes) : ∀ headers : Std.TreeMap Bytes Bytes,
    Unrefused headers lines ∨ ∃ done l left code, lines = done ++ l :: left ∧
      Unrefused headers done ∧ refusal (names (foldHeaders headers done)) l = some code := by
  induction lines with
  | nil => exact fun headers => Or.inl (unrefused_nil headers)
  | cons l lines ih =>
    intro headers
    cases hl : refusal (names headers) l with
    | some code => exact Or.inr ⟨[], l, lines, code, rfl, unrefused_nil headers, hl⟩
    | none =>
      rcases ih (addHeader headers l) with h | ⟨done, l', left, code, rfl, hdone, hcode⟩
      · exact Or.inl (unrefused_cons_iff.mpr ⟨hl, h⟩)
      · exact Or.inr ⟨l :: done, l', left, code, rfl, unrefused_cons_iff.mpr ⟨hl, hdone⟩, hcode⟩

/-! ### The fold, name by name -/

theorem getElem?_addHeader (headers : Std.TreeMap Bytes Bytes) (l key : Bytes) :
    (addHeader headers l)[key]? =
      if fieldName l = some key then
        some ((headers[key]?).elim (fieldValue l) (· ++ ascii ", " ++ fieldValue l))
      else headers[key]? := by
  unfold addHeader
  cases hname : fieldName l with
  | none => simp
  | some name =>
    by_cases heq : name = key
    · subst heq
      simp
    · dsimp only
      rw [Std.TreeMap.getElem?_insert, if_neg (by simpa using heq), if_neg (by simpa using heq)]

/-- The values of the lines that name a header, in their order. -/
def fieldValues (key : Bytes) (lines : List Bytes) : List Bytes :=
  (lines.filter fun l => fieldName l = some key).map fieldValue

/-- **The fold, name by name**: the values of a name are joined in their order. -/
theorem getElem?_foldHeaders (key : Bytes) : ∀ (lines : List Bytes)
    (headers : Std.TreeMap Bytes Bytes), (foldHeaders headers lines)[key]? =
      if (headers[key]?).toList ++ fieldValues key lines = [] then none
      else some ((ascii ", ").intercalate ((headers[key]?).toList ++ fieldValues key lines)) := by
  intro lines
  induction lines with
  | nil =>
    intro headers
    rw [foldHeaders, List.foldl_nil, fieldValues, List.filter_nil, List.map_nil, List.append_nil]
    cases headers[key]? with
    | none => simp
    | some old => simp [List.intercalate]
  | cons l lines ih =>
    intro headers
    rw [foldHeaders, List.foldl_cons]
    refine (ih (addHeader headers l)).trans ?_
    rw [getElem?_addHeader]
    by_cases hname : fieldName l = some key
    · have hvalues : fieldValues key (l :: lines) = fieldValue l :: fieldValues key lines := by
        simp [fieldValues, hname]
      rw [if_pos hname, hvalues]
      cases headers[key]? with
      | none => simp
      | some old =>
        have hjoin : ∀ vs : List Bytes, (ascii ", ").intercalate
            ((old ++ ascii ", " ++ fieldValue l) :: vs) =
              (ascii ", ").intercalate (old :: fieldValue l :: vs) := by
          intro vs
          cases vs <;> simp [List.intercalate]
        simpa using hjoin (fieldValues key lines)
    · have hvalues : fieldValues key (l :: lines) = fieldValues key lines := by
        simp [fieldValues, hname]
      rw [if_neg hname, hvalues]

/-! ### The loop -/

/-- **One line**: it is added, or refused with its code. -/
theorem headerLine_eq {req : HttpRequest} (hshort : l.length ≤ 8192) :
    match refusal (names req.headers) l with
    | none => headerLine req l = { req with headers := addHeader req.headers l }
    | some code => ∃ m, headerLine req l = { req with headers := m }.fail code := by
  have hlong : ¬ 8192 < l.length := Nat.not_lt.mpr hshort
  unfold refusal headerLine addHeader fieldName fieldValue
  rw [if_neg hlong]
  cases hcolon : l.findIdx? (· == COLON) with
  | none => exact ⟨req.headers, rfl⟩
  | some colon =>
    dsimp only [Option.map_some, Option.elim_some]
    generalize strTolower (strTrim (l.take colon)) = name
    generalize strTrim (l.drop (colon + 1)) = value
    -- the size and the domain of the map, as the names that are kept
    have hsize : ∀ v,
        (req.headers.insert name v).size = (insert name (names req.headers)).card := by
      intro v
      rw [← card_names, names_insert]
    have hstored : name ∈ names req.headers ↔ (req.headers[name]?).isSome := by
      rw [mem_names, Std.TreeMap.mem_iff_isSome_getElem?]
    simp only [gt_iff_lt, hsize, hstored]
    by_cases hempty : name = []
    · simp only [hempty, true_or, if_true, List.isEmpty_nil]
      exact ⟨req.headers, rfl⟩
    · have hempty' : ¬ name.isEmpty = true := by simpa using hempty
      rw [if_neg hempty']
      cases hold : req.headers[name]? with
      | none =>
        simp only [hempty, Option.isSome_none, Bool.false_eq_true, and_false, or_self, if_false,
          Option.elim_none]
        by_cases hmany : 100 < (insert name (names req.headers)).card
        · simp only [hmany, if_true]
          exact ⟨_, rfl⟩
        · simp only [hmany, if_false]
      -- a name that is there: refused if it is one of the single ones, else joined
      | some old =>
        by_cases hsingle : name ∈ singletonHeaders
        · simp only [hempty, hsingle, Option.isSome_some, and_self, or_true, if_true,
            List.contains_eq_mem, decide_true]
          exact ⟨req.headers, rfl⟩
        · simp only [hempty, hsingle, false_and, or_self, if_false, List.contains_eq_mem,
            decide_false, Bool.false_eq_true, Option.elim_some]
          by_cases hmany : 100 < (insert name (names req.headers)).card
          · simp only [hmany, if_true]
            exact ⟨_, rfl⟩
          · simp only [hmany, if_false]

theorem length_le_of_refusal {stored : Finset Bytes} (h : refusal stored l = none) :
    l.length ≤ 8192 := by
  unfold refusal at h
  split at h
  · cases h
  · next hlong => exact Nat.not_lt.mp hlong

variable {req : HttpRequest} {rest : Bytes} {limit : ℕ}

/-- **Lines that are not refused** are taken off the buffer and folded into the headers. -/
theorem headerLoop_unrefused : ∀ {lines : List Bytes} {req : HttpRequest},
    (∀ l ∈ lines, l ≠ [] ∧ ¬ crlf <:+: l) → req.parseState ≠ .error →
      Unrefused req.headers lines →
        headerLoop (⟨fieldText lines ++ rest, limit⟩, req) =
          headerLoop (⟨rest, limit⟩, { req with headers := foldHeaders req.headers lines }) := by
  intro lines
  induction lines with
  | nil => exact fun _ _ _ => rfl
  | cons l lines ih =>
    intro req hlines hreq h
    obtain ⟨hl, hrest⟩ := unrefused_cons_iff.mp h
    obtain ⟨hne, hunbroken⟩ := hlines l List.mem_cons_self
    have hshort := length_le_of_refusal hl
    have hline := @headerLine_eq l req hshort
    rw [hl] at hline
    have hround := @headerRound_line l (fieldText lines ++ rest)
      ⟨hne, hshort, by simpa using findCrlf_of_unbroken hunbroken []⟩ limit req
    rw [hline, if_neg (by exact hreq), ← List.append_assoc, ← fieldText_cons] at hround
    rw [show headerLoop (⟨fieldText (l :: lines) ++ rest, limit⟩, req) = _ from
      WhileLoop.loop_inl headerRound_decreasing hround]
    exact @ih { req with headers := addHeader req.headers l }
      (fun l' hl' => hlines l' (List.mem_cons_of_mem l hl')) hreq hrest

/-- **The first line that is refused** ends the loop with its code. -/
theorem headerLoop_refused (hl : l ≠ [] ∧ ¬ crlf <:+: l)
    (h : refusal (names req.headers) l = some code) :
    ∃ buf m, headerLoop (⟨l ++ crlf ++ rest, limit⟩, req) =
      ((buf, { req with headers := m }.fail code), false) := by
  by_cases hshort : l.length ≤ 8192
  · have hline := @headerLine_eq l req hshort
    rw [h] at hline
    obtain ⟨m, hline⟩ := hline
    have hround := @headerRound_line l rest
      ⟨hl.1, hshort, by simpa using findCrlf_of_unbroken hl.2 []⟩ limit req
    rw [hline, if_pos (HttpRequest.parseState_fail _ code)] at hround
    exact ⟨_, m, WhileLoop.loop_inr hround⟩
  · -- a line that is too long is not taken off the buffer
    have hcode : code = 431 := by
      rw [refusal, if_pos (Nat.lt_of_not_le hshort), Option.some.injEq] at h
      exact h.symm
    subst hcode
    exact ⟨_, req.headers, WhileLoop.loop_inr (headerRound_eq
      (.tooLong (findCrlf_of_unbroken hl.2 rest) (Nat.lt_of_not_le hshort)))⟩

/-! ### The checks behind the lines -/

/-- What the checks on Host make of the headers of a request that passes them. -/
theorem headers_hostChecks {c : Connection} (hgood : (hostChecks c).request.parseState ≠ .error) :
    c.request.headers[ascii "host"]? = none ∧ c.request.version ≠ ascii "HTTP/1.1" ∧
        (hostChecks c).request.headers = c.request.headers ∨
      ∃ raw host port, c.request.headers[ascii "host"]? = some raw ∧
        validateHost raw = some (host, port) ∧
          (hostChecks c).request.headers = c.request.headers.insert (ascii "host") host := by
  have hover : ∀ host, (overrideHost c host).request.headers = c.request.headers := by
    intro host
    unfold overrideHost
    split
    · rfl
    · rfl
  unfold hostChecks at hgood ⊢
  dsimp only at hgood ⊢
  cases hraw : c.request.headers[ascii "host"]? with
  | none =>
    rw [hraw] at hgood
    dsimp only at hgood ⊢
    split at hgood
    · exact absurd rfl hgood
    · next hversion =>
      rw [if_neg hversion]
      exact Or.inl ⟨rfl, hversion, rfl⟩
  | some raw =>
    rw [hraw] at hgood
    dsimp only at hgood ⊢
    cases hhost : validateHost raw with
    | none =>
      rw [hhost] at hgood
      exact absurd rfl hgood
    | some v =>
      refine Or.inr ⟨raw, v.1, v.2, rfl, hhost, ?_⟩
      dsimp only
      rw [hover]

/-- A length beside a coding is refused. -/
theorem framing_single {maxBody : ℕ} {req : HttpRequest}
    (hgood : (framing maxBody req).parseState ≠ .error) :
    ¬ (ascii "content-length" ∈ req.headers ∧ ascii "transfer-encoding" ∈ req.headers) := by
  rintro ⟨hlength, hcoding⟩
  rw [Std.TreeMap.mem_iff_isSome_getElem?] at hlength hcoding
  refine hgood ?_
  simp [framing, hlength, hcoding]

/-- **What the checks behind the lines make of the headers** of a request that passes them. -/
theorem headers_finishHeaders {c : Connection}
    (hgood : (finishHeaders c).request.parseState ≠ .error) :
    (c.request.headers[ascii "host"]? = none ∧ c.request.version ≠ ascii "HTTP/1.1" ∧
        (finishHeaders c).request.headers = c.request.headers ∨
      ∃ raw host port, c.request.headers[ascii "host"]? = some raw ∧
        validateHost raw = some (host, port) ∧
          (finishHeaders c).request.headers = c.request.headers.insert (ascii "host") host) ∧
      ¬ (ascii "content-length" ∈ (finishHeaders c).request.headers ∧
        ascii "transfer-encoding" ∈ (finishHeaders c).request.headers) := by
  unfold finishHeaders at hgood ⊢
  dsimp only at hgood ⊢
  split at hgood
  · next herror => exact absurd herror hgood
  · next hhost =>
    rw [if_neg hhost]
    dsimp only
    rw [headers_framing]
    exact ⟨headers_hostChecks hhost, framing_single hgood⟩

/-! ### The whole stage -/

section Stage

variable {c : Connection} {lines : List Bytes}

/-- Lines that are not refused, and the blank one behind them. -/
theorem parseHeaders_unrefused (hstate : c.request.parseState = .headers)
    (hlines : ∀ l ∈ lines, l ≠ [] ∧ ¬ crlf <:+: l)
    (hbuf : c.readBuffer.items = fieldText lines ++ (crlf ++ rest))
    (h : Unrefused c.request.headers lines) :
    parseHeaders c = finishHeaders { c with
      readBuffer := ⟨rest, c.readBuffer.limit⟩
      request := { c.request with headers := foldHeaders c.request.headers lines } } := by
  have hreq : c.request.parseState ≠ .error := by simp [hstate]
  have hqueue : c.readBuffer = ⟨fieldText lines ++ (crlf ++ rest), c.readBuffer.limit⟩ :=
    Fifo.ext hbuf rfl
  rw [parseHeaders, hqueue, headerLoop_unrefused hlines hreq h, headerLoop_blank]
  rfl

/-- The first line that is refused. -/
theorem parseHeaders_refused (hstate : c.request.parseState = .headers) {done left : List Bytes}
    (hlines : ∀ l' ∈ done ++ l :: left, l' ≠ [] ∧ ¬ crlf <:+: l')
    (hbuf : c.readBuffer.items = fieldText (done ++ l :: left) ++ (crlf ++ rest))
    (hdone : Unrefused c.request.headers done)
    (hcode : refusal (names (foldHeaders c.request.headers done)) l = some code) :
    (parseHeaders c).request.parseState = .error ∧
      (parseHeaders c).request.errorCode = code := by
  have hreq : c.request.parseState ≠ .error := by simp [hstate]
  have hdoneLines : ∀ l' ∈ done, l' ≠ [] ∧ ¬ crlf <:+: l' :=
    fun l' hl' => hlines l' (List.mem_append_left _ hl')
  have htext : fieldText (done ++ l :: left) ++ (crlf ++ rest) =
      fieldText done ++ (l ++ crlf ++ (fieldText left ++ (crlf ++ rest))) := by
    simp [fieldText_append]
  have hqueue : c.readBuffer = ⟨_, c.readBuffer.limit⟩ := Fifo.ext (hbuf.trans htext) rfl
  obtain ⟨buf, m, hloop⟩ := @headerLoop_refused l code
    { c.request with headers := foldHeaders c.request.headers done }
    (fieldText left ++ (crlf ++ rest)) c.readBuffer.limit (hlines l (by simp)) hcode
  rw [parseHeaders, hqueue, headerLoop_unrefused hdoneLines hreq hdone, hloop]
  exact ⟨rfl, rfl⟩

end Stage

/-- **Header folding equals its reference.**  Lines that end in a blank one are folded into the
headers, or the first one that is refused gives its code.  A request of HTTP/1.1 that is accepted
has the name of its host in its Host header, and a length or a coding, not both. -/
theorem parseHeaders_fold {c : Connection} (hstate : c.request.parseState = .headers)
    {lines : List Bytes} (hlines : ∀ l ∈ lines, l ≠ [] ∧ ¬ crlf <:+: l) {rest : Bytes}
    (hbuf : c.readBuffer.items = fieldText lines ++ (crlf ++ rest)) :
    (Unrefused c.request.headers lines → parseHeaders c = finishHeaders { c with
        readBuffer := ⟨rest, c.readBuffer.limit⟩
        request := { c.request with headers := foldHeaders c.request.headers lines } }) ∧
      (∀ done l left code, lines = done ++ l :: left → Unrefused c.request.headers done →
        refusal (names (foldHeaders c.request.headers done)) l = some code →
          (parseHeaders c).request.parseState = .error ∧
            (parseHeaders c).request.errorCode = code) ∧
      (((parseHeaders c).request.parseState = .body ∨
          (parseHeaders c).request.parseState = .complete) →
        c.request.version = ascii "HTTP/1.1" →
        (∃ raw host port, (foldHeaders c.request.headers lines)[ascii "host"]? = some raw ∧
          validateHost raw = some (host, port) ∧
            (parseHeaders c).request.headers[ascii "host"]? = some host) ∧
        ¬ (ascii "content-length" ∈ (parseHeaders c).request.headers ∧
          ascii "transfer-encoding" ∈ (parseHeaders c).request.headers)) := by
  refine ⟨parseHeaders_unrefused hstate hlines hbuf, ?_, fun hend hversion => ?_⟩
  · rintro done l left code rfl hdone hcode
    exact parseHeaders_refused hstate hlines hbuf hdone hcode
  · have hpassed : (parseHeaders c).request.parseState ≠ .error := by
      rcases hend with hend | hend <;> simp [hend]
    -- a request that passes has had no line refused
    rcases unrefused_or lines c.request.headers with h | ⟨done, l, left, code, rfl, hdone, hcode⟩
    · rw [parseHeaders_unrefused hstate hlines hbuf h] at hpassed ⊢
      obtain ⟨hhost, hsingle⟩ := headers_finishHeaders hpassed
      refine ⟨?_, hsingle⟩
      rcases hhost with ⟨-, hother, -⟩ | ⟨raw, host, port, hraw, hvalid, hheaders⟩
      · exact absurd hversion hother
      · refine ⟨raw, host, port, hraw, hvalid, ?_⟩
        rw [hheaders, Std.TreeMap.getElem?_insert_self]
    · exact absurd (parseHeaders_refused hstate hlines hbuf hdone hcode).1 hpassed

/-- Three header lines, two of one name. -/
private def threeLines : List Bytes := [ascii "Host: A.b.", ascii "Accept: x ", ascii "ACCEPT:y"]

/-- A request of HTTP/1.1 whose header lines are there. -/
private def threeHeaders : Connection :=
  { Connection.new 5 Server.empty 0 with
    readBuffer := ⟨fieldText threeLines ++ (crlf ++ ascii "rest"), 8192⟩
    request := { HttpRequest.new 10 with
      parseState := .headers, method := ascii "GET", version := ascii "HTTP/1.1" } }

theorem parseHeaders_fold_three :
    (foldHeaders ∅ threeLines)[ascii "accept"]? = some (ascii "x, y") ∧
      parseHeaders threeHeaders = finishHeaders { threeHeaders with
        readBuffer := ⟨ascii "rest", 8192⟩
        request := { threeHeaders.request with headers := foldHeaders ∅ threeLines } } ∧
      ∃ raw host port, (foldHeaders ∅ threeLines)[ascii "host"]? = some raw ∧
        validateHost raw = some (host, port) ∧
          (parseHeaders threeHeaders).request.headers[ascii "host"]? = some host := by
  obtain ⟨hfold, -, hhost⟩ := @parseHeaders_fold threeHeaders rfl threeLines (by decide)
    (ascii "rest") rfl
  refine ⟨by decide +kernel, hfold ?_, (hhost (Or.inr (by decide +kernel)) rfl).1⟩
  simp only [threeLines, unrefused_cons_iff]
  exact ⟨by decide +kernel, by decide +kernel, by decide +kernel, unrefused_nil _⟩

end Webserv
