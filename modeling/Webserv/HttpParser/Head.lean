import Webserv.HttpParser.Resume

/-!
# The head of a request

A head is a request line, header lines and a blank line.  The loop over the header lines
takes off the buffer whatever is there of them; what is not a whole line yet stays behind.

## Main results

* `headerLoop_fieldText` — the loop on whole lines.
* `exists_cut_fieldText` — where a piece of the text ends among the lines.
-/

namespace Webserv

open Bytes

/-! ### Header lines -/

/-- A line that the loop takes off the buffer: not blank, not too long, and without a line end
of its own. -/
structure IsFieldLine (l : Bytes) : Prop where
  ne_nil : l ≠ []
  length_le : l.length ≤ 8192
  find_eq : findCrlf (l ++ crlf) = some l.length

/-- Header lines as they are sent. -/
def fieldText (lines : List Bytes) : Bytes := (lines.map (· ++ crlf)).flatten

@[simp] theorem fieldText_nil : fieldText [] = [] := rfl

@[simp] theorem fieldText_cons (l : Bytes) (lines : List Bytes) :
    fieldText (l :: lines) = l ++ crlf ++ fieldText lines := rfl

theorem fieldText_append (a b : List Bytes) : fieldText (a ++ b) = fieldText a ++ fieldText b := by
  simp [fieldText]

/-- Header lines one after another, up to the first that is refused. -/
def readLines (req : HttpRequest) : List Bytes → HttpRequest
  | [] => req
  | l :: lines =>
      if (headerLine req l).parseState = .error then headerLine req l
      else readLines (headerLine req l) lines

/-- The name of a header line, as it is stored. -/
def fieldName (l : Bytes) : Option Bytes :=
  (l.findIdx? (· == COLON)).map fun colon => strTolower (strTrim (l.take colon))

/-- A line touches no header but the one it names. -/
theorem getElem?_headerLine {req : HttpRequest} {l key : Bytes} (h : fieldName l ≠ some key) :
    (headerLine req l).headers[key]? = req.headers[key]? := by
  unfold fieldName at h
  unfold headerLine
  cases hcolon : l.findIdx? (· == COLON) with
  | none => rfl
  | some colon =>
    rw [hcolon, Option.map_some, ne_eq, Option.some.injEq] at h
    have hinsert : ∀ v, (req.headers.insert (strTolower (strTrim (l.take colon))) v)[key]? =
        req.headers[key]? := by
      intro v
      rw [Std.TreeMap.getElem?_insert, if_neg]
      rwa [Std.LawfulEqCmp.compare_eq_iff_eq]
    dsimp only
    split
    · rfl
    · cases req.headers[strTolower (strTrim (l.take colon))]? with
      | none =>
        dsimp only
        split
        · exact hinsert _
        · exact hinsert _
      | some old =>
        dsimp only
        split
        · rfl
        · split
          · exact hinsert _
          · exact hinsert _

/-- The value of a header line, as it is stored. -/
def fieldValue (l : Bytes) : Bytes :=
  (l.findIdx? (· == COLON)).elim [] fun colon => strTrim (l.drop (colon + 1))

/-- A line that is accepted adds its value to the header that it names. -/
theorem getElem?_headerLine_self {req : HttpRequest} {l key : Bytes}
    (hname : fieldName l = some key)
    (hgood : (headerLine req l).parseState ≠ .error) :
    (headerLine req l).headers[key]? =
      some ((req.headers[key]?).elim (fieldValue l) (· ++ ascii ", " ++ fieldValue l)) := by
  unfold fieldName at hname
  unfold headerLine at hgood ⊢
  unfold fieldValue
  cases hcolon : l.findIdx? (· == COLON) with
  | none =>
    rw [hcolon] at hname
    cases hname
  | some colon =>
    rw [hcolon] at hname hgood
    rw [Option.map_some, Option.some.injEq] at hname
    dsimp only at hgood ⊢
    rw [hname] at hgood ⊢
    by_cases hempty : key.isEmpty = true
    · rw [if_pos hempty] at hgood
      exact absurd rfl hgood
    · rw [if_neg hempty] at hgood ⊢
      cases hold : req.headers[key]? with
      | none =>
        rw [hold] at hgood
        dsimp only at hgood ⊢
        split_ifs at hgood ⊢
        · exact absurd rfl hgood
        · exact Std.TreeMap.getElem?_insert_self
      | some old =>
        rw [hold] at hgood
        dsimp only at hgood ⊢
        split_ifs at hgood ⊢
        · exact absurd rfl hgood
        · exact absurd rfl hgood
        · exact Std.TreeMap.getElem?_insert_self

/-- A header line changes the headers, and is refused with one of two codes. -/
theorem headerLine_cases (req : HttpRequest) (l : Bytes) :
    ∃ headers, headerLine req l = { req with headers := headers } ∨
      ∃ code, (code = 400 ∨ code = 431) ∧
        headerLine req l = { req with headers := headers }.fail code := by
  unfold headerLine
  cases l.findIdx? (· == COLON) with
  | none => exact ⟨req.headers, Or.inr ⟨400, Or.inl rfl, rfl⟩⟩
  | some colon =>
    dsimp only
    split
    · exact ⟨req.headers, Or.inr ⟨400, Or.inl rfl, rfl⟩⟩
    · cases req.headers[strTolower (strTrim (l.take colon))]? with
      | none =>
        dsimp only
        split
        · exact ⟨_, Or.inr ⟨431, Or.inr rfl, rfl⟩⟩
        · exact ⟨_, Or.inl rfl⟩
      | some old =>
        dsimp only
        split
        · exact ⟨req.headers, Or.inr ⟨400, Or.inl rfl, rfl⟩⟩
        · split
          · exact ⟨_, Or.inr ⟨431, Or.inr rfl, rfl⟩⟩
          · exact ⟨_, Or.inl rfl⟩

/-- Lines change the headers, and are refused with one of two codes. -/
theorem readLines_cases : ∀ (lines : List Bytes) (req : HttpRequest), req.parseState ≠ .error →
    ∃ headers, readLines req lines = { req with headers := headers } ∨
      ∃ code, (code = 400 ∨ code = 431) ∧
        readLines req lines = { req with headers := headers }.fail code := by
  intro lines
  induction lines with
  | nil => exact fun req _ => ⟨req.headers, Or.inl rfl⟩
  | cons l lines ih =>
    intro req hreq
    obtain ⟨headers, hline | ⟨code, hcode, hline⟩⟩ := headerLine_cases req l
    · rw [readLines, hline, if_neg (by exact hreq)]
      exact ih { req with headers := headers } hreq
    · rw [readLines, hline, if_pos (HttpRequest.parseState_fail _ code)]
      exact ⟨headers, Or.inr ⟨code, hcode, rfl⟩⟩

theorem getElem?_readLines {key : Bytes} : ∀ {lines : List Bytes} {req : HttpRequest},
    (∀ l ∈ lines, fieldName l ≠ some key) →
      (readLines req lines).headers[key]? = req.headers[key]? := by
  intro lines
  induction lines with
  | nil => exact fun _ => rfl
  | cons l lines ih =>
    intro req h
    have hl := h l List.mem_cons_self
    rw [readLines]
    split
    · exact getElem?_headerLine hl
    · rw [ih fun l' hl' => h l' (List.mem_cons_of_mem l hl'), getElem?_headerLine hl]

/-- Lines that are read after others. -/
theorem readLines_append : ∀ (a : List Bytes) {b : List Bytes} {req : HttpRequest},
    (readLines req a).parseState ≠ .error →
      readLines req (a ++ b) = readLines (readLines req a) b := by
  intro a
  induction a with
  | nil => exact fun _ => rfl
  | cons l a ih =>
    intro b req h
    rw [List.cons_append, readLines, readLines]
    rw [readLines] at h
    split at h
    · next herror => exact absurd herror h
    · next hgood =>
      rw [if_neg hgood, if_neg hgood]
      exact ih h

/-! ### The loop over the lines -/

/-- One whole line at the front of the buffer. -/
theorem headerRound_line {l rest : Bytes} (h : IsFieldLine l) (limit : ℕ) (req : HttpRequest) :
    headerRound (⟨l ++ crlf ++ rest, limit⟩, req) =
      if (headerLine req l).parseState = .error then .inr ((⟨rest, limit⟩, headerLine req l), false)
      else .inl (⟨rest, limit⟩, headerLine req l) := by
  have hfind : findCrlf (l ++ crlf ++ rest) = some l.length :=
    FirstMatch.find_append_of_some h.find_eq
  have htake : (l ++ crlf ++ rest).take l.length = l := by
    rw [List.append_assoc, List.take_left]
  have hdrop : (l ++ crlf ++ rest).drop (l.length + 2) = rest :=
    List.drop_left' (by simp [crlf])
  have hlong : ¬ l.length > 8192 := Nat.not_lt.mpr h.length_le
  have hblank : l.length ≠ 0 := fun h0 => h.ne_nil (List.eq_nil_of_length_eq_zero h0)
  unfold headerRound
  dsimp only
  rw [hfind]
  dsimp only
  rw [if_neg hlong, if_neg hblank, htake]
  unfold Fifo.consume
  dsimp only
  rw [hdrop]

/-- **Whole lines are taken off the buffer one by one**, up to the first that is refused. -/
theorem headerLoop_fieldText (limit : ℕ) (rest : Bytes) : ∀ {lines : List Bytes},
    (∀ l ∈ lines, IsFieldLine l) → ∀ {req : HttpRequest}, req.parseState ≠ .error →
      ((readLines req lines).parseState ≠ .error ∧
        headerLoop (⟨fieldText lines ++ rest, limit⟩, req) =
          headerLoop (⟨rest, limit⟩, readLines req lines)) ∨
      (readLines req lines).parseState = .error ∧
        ∃ buf, headerLoop (⟨fieldText lines ++ rest, limit⟩, req) =
          ((buf, readLines req lines), false) := by
  intro lines
  induction lines with
  | nil => exact fun _ _ hreq => Or.inl ⟨hreq, rfl⟩
  | cons l lines ih =>
    intro h req hreq
    have hround := @headerRound_line l (fieldText lines ++ rest)
      (h l List.mem_cons_self) limit req
    rw [← List.append_assoc] at hround
    rw [readLines, fieldText_cons]
    by_cases herror : (headerLine req l).parseState = .error
    · rw [if_pos herror] at hround
      rw [if_pos herror]
      exact Or.inr ⟨herror, _, WhileLoop.loop_inr hround⟩
    · rw [if_neg herror] at hround
      rw [if_neg herror]
      have hloop : headerLoop (⟨l ++ crlf ++ fieldText lines ++ rest, limit⟩, req) =
          headerLoop (⟨fieldText lines ++ rest, limit⟩, headerLine req l) :=
        WhileLoop.loop_inl headerRound_decreasing hround
      rw [hloop]
      exact ih (fun l' hl' => h l' (List.mem_cons_of_mem l hl')) herror

/-- The loop waits for the end of a line. -/
theorem headerLoop_wait {buf : ByteQueue} {req : HttpRequest} (h : findCrlf buf.items = none) :
    headerLoop (buf, req) = ((buf, req), false) :=
  WhileLoop.loop_inr (headerRound_eq (.wait h))

/-- The loop leaves at the blank line. -/
theorem headerLoop_blank (rest : Bytes) (limit : ℕ) (req : HttpRequest) :
    headerLoop (⟨crlf ++ rest, limit⟩, req) = ((⟨rest, limit⟩, req), true) := by
  have hfind : findCrlf (crlf ++ rest) = some 0 :=
    FirstMatch.find_append_of_some (show findCrlf crlf = some 0 by decide)
  exact WhileLoop.loop_inr (headerRound_eq
    (@HeaderStep.blank ⟨crlf ++ rest, limit⟩ req 0 hfind rfl))

/-! ### A piece of the head -/

/-- A piece of a line without its line end. -/
theorem findCrlf_of_piece {x rest l : Bytes} (h : x ++ rest = l ++ crlf)
    (hfind : findCrlf (l ++ crlf) = some l.length) (hrest : rest ≠ []) : findCrlf x = none := by
  cases hx : findCrlf x with
  | none => rfl
  | some n =>
    -- it would be the line end of the line, which the piece does not reach
    have happ := @FirstMatch.find_append_of_some _ _ _ _ rest _ hx
    have hn : some n = some l.length := by
      rw [← hfind, ← h]
      exact happ.symm
    have hle := FirstMatch.length_le_of_find hx
    have hlength := congrArg List.length h
    have hpos := List.length_pos_of_ne_nil hrest
    simp only [List.length_append, crlf, List.length_cons, List.length_nil] at hlength hle
    have hn := Option.some.inj hn
    omega

/-- What has arrived is a part of `u`, or all of it and a part of `v`. -/
theorem cut_or_behind {a b u v : Bytes} (h : a ++ b = u ++ v) :
    (∃ t, a ++ t = u ∧ t ≠ []) ∨ ∃ x, a = u ++ x ∧ x ++ b = v := by
  rcases List.append_eq_append_iff.mp h with ⟨t, ht, hb⟩ | ⟨x, hx, hv⟩
  · by_cases hnil : t = []
    · subst hnil
      exact .inr ⟨[], by simpa using ht.symm, by simpa using hb⟩
    · exact .inl ⟨t, ht.symm, hnil⟩
  · exact .inr ⟨x, hx, hv.symm⟩

/-- **Where a piece of header lines ends**: inside a line, or behind the blank line. -/
theorem exists_cut_fieldText : ∀ {lines : List Bytes}, (∀ l ∈ lines, IsFieldLine l) →
    ∀ {x rest : Bytes}, x ++ rest = fieldText lines ++ crlf →
      ∃ done left y, lines = done ++ left ∧ x = fieldText done ++ y ∧
        y ++ rest = fieldText left ++ crlf ∧
          (findCrlf y = none ∨ left = [] ∧ y = crlf ∧ rest = []) := by
  intro lines
  induction lines with
  | nil =>
    intro _ x rest hx
    refine ⟨[], [], x, rfl, rfl, hx, ?_⟩
    by_cases hrest : rest = []
    · subst hrest
      exact Or.inr ⟨rfl, by simpa using hx, rfl⟩
    · exact Or.inl (findCrlf_of_piece (l := []) hx (by decide) hrest)
  | cons l lines ih =>
    intro h x rest hx
    have hl := h l List.mem_cons_self
    rw [fieldText_cons, List.append_assoc (l ++ crlf)] at hx
    rcases cut_or_behind hx with ⟨a, ha, hne⟩ | ⟨a, rfl, hrest⟩
    · -- the piece ends in the first line
      refine ⟨[], l :: lines, x, rfl, rfl, ?_, Or.inl (findCrlf_of_piece ha hl.find_eq hne)⟩
      rw [fieldText_cons, List.append_assoc (l ++ crlf), hx]
    · obtain ⟨done, left, y, hlines, hy, hleft, hend⟩ :=
        ih (fun l' hl' => h l' (List.mem_cons_of_mem l hl')) hrest
      refine ⟨l :: done, left, y, by rw [hlines]; rfl, ?_, hleft, hend⟩
      rw [fieldText_cons, List.append_assoc (l ++ crlf), ← hy]

/-! ### The request line -/

/-- What a complete request line sets.  It is accepted, and taken off the buffer, or refused, and
never for the size of a body. -/
theorem finishRequestLine_spec (stat : StatAnswer) (bs : Bytes) (sc : RLScan) (p : ℕ)
    (c : Connection) :
    ∃ method path query version state code items,
      finishRequestLine stat bs sc p c =
        { c with
          request := { c.request with
            method := method
            path := path
            queryString := query
            version := version
            parseState := state
            errorCode := code }
          readBuffer := ⟨items, c.readBuffer.limit⟩ } ∧
      (state = .error ∧ code ≠ 413 ∨
        state = .headers ∧ path ≠ [] ∧ items = c.readBuffer.items.drop p) := by
  have hrefused : ∀ (method : Bytes) (code : ℕ), code ≠ 413 →
      ∃ method' path query version state code' items,
        ({ c with request := ({ c.request with method := method }.fail code) } : Connection) =
          { c with
            request := { c.request with
              method := method'
              path := path
              queryString := query
              version := version
              parseState := state
              errorCode := code' }
            readBuffer := ⟨items, c.readBuffer.limit⟩ } ∧
        (state = .error ∧ code' ≠ 413 ∨
          state = .headers ∧ path ≠ [] ∧ items = c.readBuffer.items.drop p) :=
    fun _ _ hcode => ⟨_, _, _, _, _, _, _, rfl, Or.inl ⟨rfl, hcode⟩⟩
  unfold finishRequestLine
  dsimp only
  split
  · split_ifs
    · exact hrefused c.request.method 400 (by decide)
    · exact hrefused c.request.method 400 (by decide)
    · exact hrefused c.request.method 505 (by decide)
    · exact hrefused c.request.method 414 (by decide)
    · exact hrefused _ 501 (by decide)
    · -- the file system has the last word
      unfold acceptRequestLine
      dsimp only
      split
      · exact ⟨_, _, _, _, _, _, _, rfl, Or.inl ⟨rfl, by decide⟩⟩
      · exact ⟨_, _, _, _, _, _, _, rfl, Or.inl ⟨rfl, by decide⟩⟩
      · exact ⟨_, _, _, _, _, _, _, rfl, Or.inr ⟨rfl, requestPath_ne_nil _, rfl⟩⟩
  · exact hrefused c.request.method 400 (by decide)

/-- A request line is not complete before its last byte. -/
theorem rlScan_take {line s rest : Bytes} {sc : RLScan}
    (hline : rlScan RLScan.init 0 line = .line sc line.length) (hs : s ++ rest = line)
    (hrest : rest ≠ []) : rlScan RLScan.init 0 s = .more := by
  have hinit : RLScan.init.Before 0 := ⟨by simp [RLScan.init], by simp [RLScan.init]⟩
  obtain ⟨happ, hin⟩ := rlScan_append (b := rest) s hinit
  by_contra hmore
  have hsame := happ hmore
  rw [hs, hline] at hsame
  have hlength := (hin sc _ hsame.symm).1
  have hpos := List.length_pos_of_ne_nil hrest
  rw [← hs, List.length_append] at hlength
  omega

/-- The request line is complete whatever follows it. -/
theorem rlScan_line {line : Bytes} {sc : RLScan}
    (hline : rlScan RLScan.init 0 line = .line sc line.length) (x : Bytes) :
    rlScan RLScan.init 0 (line ++ x) = .line sc line.length := by
  have hinit : RLScan.init.Before 0 := ⟨by simp [RLScan.init], by simp [RLScan.init]⟩
  obtain ⟨happ, -⟩ := rlScan_append (b := x) line hinit
  rw [happ (by rw [hline]; simp), hline]

section

variable {stat : StatAnswer} {c : Connection}

/-- The request line is not complete. -/
theorem feed_requestLine_more (h : AtRequestLine c) (hpath : c.request.path = [])
    (hscan : rlScan RLScan.init 0 c.readBuffer.items = .more) :
    feed stat c = .ok (intoRequestLine c) () := by
  have hparse : parseRequestLine stat (intoRequestLine c) = intoRequestLine c :=
    parseRequestLine_more hscan
  have hstage : requestLineStage stat c = intoRequestLine c := by
    have hstate : (intoRequestLine c).request.parseState = .requestLine := rfl
    rw [requestLineStage_eq h, hparse, if_pos hstate]
  have hlive : ¬ c.request.parseState.terminal = true := by
    rcases h with h | h <;> simp [h, ParseState.terminal]
  have hheaders : headerStage (intoRequestLine c) = intoRequestLine c :=
    if_neg (by simp [intoRequestLine])
  have hlimit : applyLocationBodyLimit (intoRequestLine c) = intoRequestLine c :=
    if_pos (by simp [intoRequestLine, hpath])
  rw [feed, if_neg hlive, hstage, hheaders, hlimit]
  exact if_neg (by simp [intoRequestLine])

/-- The request line is complete. -/
theorem feed_requestLine {sc : RLScan} {p : ℕ} (h : AtRequestLine c)
    (hscan : rlScan RLScan.init 0 c.readBuffer.items = .line sc p) :
    feed stat c = feedBody (applyLocationBodyLimit (headerStage (applyLocationBodyLimit
      (finishRequestLine stat c.readBuffer.items sc p (intoRequestLine c))))) := by
  have hne : ¬ (intoRequestLine c).readBuffer.items.isEmpty = true := by
    intro hnil
    have hnil' : c.readBuffer.items = [] := List.isEmpty_iff.mp hnil
    rw [hnil'] at hscan
    cases hscan
  have hparse : parseRequestLine stat (intoRequestLine c) =
      finishRequestLine stat c.readBuffer.items sc p (intoRequestLine c) := by
    have hscan' : rlScan RLScan.init 0 (intoRequestLine c).readBuffer.items = .line sc p := hscan
    unfold parseRequestLine
    dsimp only
    rw [if_neg hne, hscan']
    rfl
  have hdone : ¬ (finishRequestLine stat c.readBuffer.items sc p
      (intoRequestLine c)).request.parseState = .requestLine := by
    rcases (finishRequestLine_cases stat c.readBuffer.items sc p (intoRequestLine c)).2.2.2
      with herror | ⟨hheaders, -⟩
    · simp [herror]
    · simp [hheaders]
  have hlive : ¬ c.request.parseState.terminal = true := by
    rcases h with h | h <;> simp [h, ParseState.terminal]
  rw [feed, if_neg hlive, requestLineStage_eq h, hparse, if_neg hdone]

/-- Past the request line only the headers are looked at. -/
theorem feed_headers_eq (h : c.request.parseState = .headers) :
    feed stat c = feedBody (applyLocationBodyLimit (parseHeaders c)) := by
  have hlive : ¬ c.request.parseState.terminal = true := by simp [h, ParseState.terminal]
  have hstage : requestLineStage stat c = c :=
    requestLineStage_of_ne (by simp [h]) (by simp [h])
  rw [feed, if_neg hlive, hstage, headerStage, if_pos h]

/-- A parse that has come to its end is left alone by the stages behind. -/
theorem feedBody_of_error (h : c.request.parseState = .error) :
    feedBody (applyLocationBodyLimit (headerStage c)) = .ok (applyLocationBodyLimit c) () := by
  have hstage : headerStage c = c := if_neg (by simp [h])
  have hlimit : (applyLocationBodyLimit c).request.parseState = .error := by
    rw [(applyLocationBodyLimit_frame c).1.parseState, h]
  rw [hstage]
  exact if_neg (by simp [hlimit])

/-- **A complete request line** is refused, and not for the size of a body, or the parser goes on
with the bytes behind it, under the limit of the path. -/
theorem feed_line {line x : Bytes} {sc : RLScan} (h : AtRequestLine c)
    (hline : rlScan RLScan.init 0 line = .line sc line.length)
    (hitems : c.readBuffer.items = line ++ x) :
    ∃ method path query version state code items c₁,
      c₁ = applyLocationBodyLimit
        { c with
          request := { c.request with
            method := method
            path := path
            queryString := query
            version := version
            parseState := state
            errorCode := code }
          readBuffer := ⟨items, c.readBuffer.limit⟩ } ∧
      (state = .error ∧ code ≠ 413 ∧ feed stat c = .ok (applyLocationBodyLimit c₁) () ∨
        state = .headers ∧ path ≠ [] ∧ items = x ∧ feed stat c = feed stat c₁) := by
  have hscan : rlScan RLScan.init 0 c.readBuffer.items = .line sc line.length := by
    rw [hitems]
    exact rlScan_line hline x
  obtain ⟨method, path, query, version, state, code, items, heq, hend⟩ :=
    finishRequestLine_spec stat c.readBuffer.items sc line.length (intoRequestLine c)
  have hfeed := @feed_requestLine stat c sc line.length h hscan
  obtain ⟨c₁, hc₁⟩ : ∃ c₁, c₁ = applyLocationBodyLimit
      (finishRequestLine stat c.readBuffer.items sc line.length (intoRequestLine c)) := ⟨_, rfl⟩
  have hstate : c₁.request.parseState = state := by
    rw [hc₁, (applyLocationBodyLimit_frame _).1.parseState, heq]
  rw [← hc₁] at hfeed
  rw [heq] at hc₁
  refine ⟨method, path, query, version, state, code, items, c₁, hc₁, ?_⟩
  rcases hend with ⟨rfl, hcode⟩ | ⟨rfl, hpath, hrest⟩
  · exact Or.inl ⟨rfl, hcode, hfeed.trans (feedBody_of_error hstate)⟩
  · refine Or.inr ⟨rfl, hpath, ?_, ?_⟩
    · have hdrop : items = c.readBuffer.items.drop line.length := hrest
      rw [hdrop, hitems, List.drop_left]
    · rw [feed_headers_eq hstate, hfeed]
      exact congrArg (fun c => feedBody (applyLocationBodyLimit c)) (if_pos hstate)

end

end Webserv
