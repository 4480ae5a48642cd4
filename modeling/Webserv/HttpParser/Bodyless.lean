import Webserv.HttpParser.Head
import Webserv.HttpParser.Selection

/-!
# Requests without a body

The parser on a request that names neither a length nor a coding.  Between two pieces of the
input the read buffer holds what is there of one line: `Partway`.

## Main results

* `feed_partway` — what one more piece does.
-/

namespace Webserv

open Bytes

/-- There is no body, and no header that would announce one; nothing is queued yet. -/
structure Bodyless (c : Connection) : Prop where
  body : c.request.body.items = []
  contentLength : c.request.contentLength = 0
  chunked : c.request.chunked = false
  spooled : c.request.bodyFileWritten = 0
  opened : c.request.opened = false
  queued : c.writeBuffer = Fifo.new c.config.getMaxBody
  noLength : c.request.headers[ascii "content-length"]? = none
  noCoding : c.request.headers[ascii "transfer-encoding"]? = none

/-- A header line that says nothing about a body. -/
structure IsPlainLine (l : Bytes) : Prop extends IsFieldLine l where
  notLength : fieldName l ≠ some (ascii "content-length")
  notCoding : fieldName l ≠ some (ascii "transfer-encoding")

/-! ### The stages -/

section

variable {c : Connection}

theorem Bodyless.deliver (h : Bodyless c) (d : Bytes) : Bodyless (c.deliver d) :=
  ⟨h.body, h.contentLength, h.chunked, h.spooled, h.opened, h.queued, h.noLength, h.noCoding⟩

theorem Bodyless.applyLocationBodyLimit (h : Bodyless c) :
    Bodyless (applyLocationBodyLimit c) := by
  unfold Webserv.applyLocationBodyLimit
  split
  · exact h
  · exact ⟨h.body, h.contentLength, h.chunked, h.spooled, h.opened, h.queued,
      h.noLength, h.noCoding⟩

/-- Plain lines leave it so. -/
theorem Bodyless.readLines (h : Bodyless c) {lines : List Bytes}
    (hlines : ∀ l ∈ lines, IsPlainLine l) (hstate : c.request.parseState ≠ .error)
      (rb : ByteQueue) :
    Bodyless { c with readBuffer := rb, request := readLines c.request lines } := by
  have hlength := @getElem?_readLines _ lines c.request fun l hl => (hlines l hl).notLength
  have hcoding := @getElem?_readLines _ lines c.request fun l hl => (hlines l hl).notCoding
  rw [h.noLength] at hlength
  rw [h.noCoding] at hcoding
  obtain ⟨headers, heq | ⟨code, -, heq⟩⟩ := readLines_cases lines c.request hstate
  · rw [heq] at hlength hcoding ⊢
    exact ⟨h.body, h.contentLength, h.chunked, h.spooled, h.opened, h.queued, hlength, hcoding⟩
  · rw [heq] at hlength hcoding ⊢
    exact ⟨h.body, h.contentLength, h.chunked, h.spooled, h.opened, h.queued, hlength, hcoding⟩

/-- The server that the Host header names brings its own limit for the response. -/
theorem Bodyless.overrideHost (h : Bodyless c) (host : Bytes) : Bodyless (overrideHost c host) := by
  unfold Webserv.overrideHost
  split
  · next s hs =>
    refine ⟨h.body, h.contentLength, h.chunked, h.spooled, h.opened, ?_, h.noLength, h.noCoding⟩
    show c.writeBuffer.setLimit s.getMaxBody = Fifo.new s.getMaxBody
    rw [h.queued]
    rfl
  · exact h

theorem Bodyless.hostChecks (h : Bodyless c) : Bodyless (hostChecks c) := by
  unfold Webserv.hostChecks
  dsimp only
  split
  · split
    · exact ⟨h.body, h.contentLength, h.chunked, h.spooled, h.opened, h.queued, h.noLength,
        h.noCoding⟩
    · exact h
  · split
    · exact ⟨h.body, h.contentLength, h.chunked, h.spooled, h.opened, h.queued, h.noLength,
        h.noCoding⟩
    · next host port hhost =>
      have hover := h.overrideHost host
      have hother : ∀ key, ascii "host" ≠ key →
          ((Webserv.overrideHost c host).request.headers.insert (ascii "host") host)[key]? =
            (Webserv.overrideHost c host).request.headers[key]? := by
        intro key hkey
        rw [Std.TreeMap.getElem?_insert, if_neg]
        rwa [Std.LawfulEqCmp.compare_eq_iff_eq]
      refine ⟨hover.body, hover.contentLength, hover.chunked, hover.spooled, hover.opened,
        hover.queued, ?_, ?_⟩
      · exact (hother _ (by decide)).trans hover.noLength
      · exact (hother _ (by decide)).trans hover.noCoding

/-- The checks on Host refuse a request with one code. -/
theorem errorCode_hostChecks (hstate : c.request.parseState ≠ .error)
    (herror : (hostChecks c).request.parseState = .error) :
    (hostChecks c).request.errorCode = 400 := by
  unfold hostChecks at herror ⊢
  dsimp only at herror ⊢
  cases hhost : c.request.headers[ascii "host"]? with
  | none =>
    rw [hhost] at herror
    dsimp only at herror ⊢
    split at herror
    · next hversion => rw [if_pos hversion]; rfl
    · exact absurd herror hstate
  | some value =>
    rw [hhost] at herror
    dsimp only at herror ⊢
    cases hvalue : validateHost value with
    | none => rfl
    | some v =>
      rw [hvalue] at herror
      have hover : (overrideHost c v.1).request.parseState = c.request.parseState := by
        unfold overrideHost
        split
        · rfl
        · rfl
      exact absurd (hover.symm.trans herror) hstate

/-- Without a length and a coding there is no body: a POST is refused for that, and everything
else is complete. -/
theorem framing_of_none {req : HttpRequest} (hlength : req.headers[ascii "content-length"]? = none)
    (hcoding : req.headers[ascii "transfer-encoding"]? = none) (hzero : req.contentLength = 0)
    (hchunked : req.chunked = false) (maxBody : ℕ) :
    framing maxBody req =
      if req.method = ascii "POST" then req.fail 411
      else { req with parseState := .complete } := by
  obtain ⟨⟩ := req
  dsimp only at hzero hchunked
  subst hzero hchunked
  unfold framing
  rw [hlength, hcoding]
  rfl

/-- The connection when the blank line has been read. -/
inductive HeadEnd (c : Connection) : Prop
  | refused (hstate : c.request.parseState = .error) (hcode : c.request.errorCode ≠ 413)
  | complete (hstate : c.request.parseState = .complete) (hmethod : c.request.method ≠ ascii "POST")

theorem headEnd_finishHeaders (h : Bodyless c) (hstate : c.request.parseState = .headers) :
    Bodyless (finishHeaders c) ∧ HeadEnd (finishHeaders c) := by
  have hhost := h.hostChecks
  unfold finishHeaders
  dsimp only
  split
  · next herror =>
    have hcode := errorCode_hostChecks (by simp [hstate]) herror
    exact ⟨hhost, .refused herror (by rw [hcode]; decide)⟩
  · next hgood =>
    rw [framing_of_none hhost.noLength hhost.noCoding hhost.contentLength hhost.chunked]
    split
    · exact ⟨⟨hhost.body, hhost.contentLength, hhost.chunked, hhost.spooled, hhost.opened,
        hhost.queued, hhost.noLength, hhost.noCoding⟩, .refused rfl (by simp [HttpRequest.fail])⟩
    · next hmethod =>
      exact ⟨⟨hhost.body, hhost.contentLength, hhost.chunked, hhost.spooled, hhost.opened,
        hhost.queued, hhost.noLength, hhost.noCoding⟩, .complete rfl hmethod⟩

theorem HeadEnd.applyLocationBodyLimit (h : HeadEnd c) : HeadEnd (applyLocationBodyLimit c) := by
  obtain ⟨hverdict, -, -⟩ := applyLocationBodyLimit_frame c
  cases h with
  | refused hstate hcode =>
    exact .refused (hverdict.parseState.trans hstate) (by rwa [hverdict.errorCode])
  | complete hstate hmethod =>
    exact .complete (hverdict.parseState.trans hstate) (by rwa [hverdict.method])

theorem HeadEnd.state_ne_body (h : HeadEnd c) : c.request.parseState ≠ .body := by
  cases h with
  | refused hstate => simp [hstate]
  | complete hstate => simp [hstate]

/-- There is nothing to do for the reader of the body. -/
theorem feedBody_applyLocationBodyLimit (h : c.request.parseState ≠ .body) :
    feedBody (applyLocationBodyLimit c) = .ok (applyLocationBodyLimit c) () := by
  have hstate : (Webserv.applyLocationBodyLimit c).request.parseState ≠ .body := by
    rwa [(applyLocationBodyLimit_frame c).1.parseState]
  exact if_neg hstate

end

/-! ### A piece of the header lines -/

/-- The parser waits for the rest of a line, of which it has the bytes `y`. -/
structure WaitsForLine (c : Connection) (y : Bytes) : Prop where
  state : c.request.parseState = .headers
  path_ne : c.request.path ≠ []
  readBuffer : c.readBuffer = ⟨y, effectiveLimit c.config c.request.path⟩

/-- **The parser on a piece of the header lines**: it waits for the rest of a line, or is at its
end. -/
theorem feed_headers {stat : StatAnswer} {c : Connection} {lines : List Bytes} {x rest : Bytes}
    (h : WaitsForLine c x) (hb : Bodyless c) (hlines : ∀ l ∈ lines, IsPlainLine l)
    (hx : x ++ rest = fieldText lines ++ crlf) :
    ∃ c', feed stat c = .ok c' () ∧ Bodyless c' ∧
      ((∃ done left y, lines = done ++ left ∧ x = fieldText done ++ y ∧
        y ++ rest = fieldText left ++ crlf ∧ findCrlf y = none ∧ WaitsForLine c' y) ∨
      HeadEnd c') := by
  have hfield : ∀ l ∈ lines, IsFieldLine l := fun l hl => (hlines l hl).toIsFieldLine
  obtain ⟨done, left, y, rfl, rfl, hy, hend⟩ := exists_cut_fieldText hfield hx
  have hdone : ∀ l ∈ done, IsPlainLine l := fun l hl => hlines l (List.mem_append_left left hl)
  have hgood : c.request.parseState ≠ .error := by simp [h.state]
  have hloop := headerLoop_fieldText (effectiveLimit c.config c.request.path) y
    (fun l hl => (hdone l hl).toIsFieldLine) hgood
  have hread := hb.readLines hdone hgood
  obtain ⟨headers, hcases⟩ := readLines_cases done c.request hgood
  rw [feed_headers_eq h.state, parseHeaders, h.readBuffer]
  -- whatever the loop leaves is the verdict, when no body is to be read
  have hfed : ∀ c₂ : Connection, Bodyless c₂ → HeadEnd c₂ →
      ∃ c', feedBody (applyLocationBodyLimit c₂) = .ok c' () ∧ Bodyless c' ∧ HeadEnd c' :=
    fun c₂ hb₂ hend₂ => ⟨_, feedBody_applyLocationBodyLimit hend₂.state_ne_body,
      hb₂.applyLocationBodyLimit, hend₂.applyLocationBodyLimit⟩
  rcases hloop with ⟨hread_ok, hloop⟩ | ⟨hread_error, buf, hloop⟩
  · have hstate : (readLines c.request done).parseState = .headers := by
      rcases hcases with heq | ⟨code, -, heq⟩
      · rw [heq]; exact h.state
      · exact absurd (by rw [heq]; rfl) hread_ok
    have hpath : (readLines c.request done).path = c.request.path := by
      rcases hcases with heq | ⟨code, -, heq⟩
      · rw [heq]
      · rw [heq]
        rfl
    rcases hend with hwait | ⟨rfl, rfl, rfl⟩
    · -- the loop waits for a line end
      rw [hloop, @headerLoop_wait ⟨y, _⟩ _ hwait]
      set c₂ : Connection := { c with
        readBuffer := ⟨y, effectiveLimit c.config c.request.path⟩
        request := readLines c.request done } with hc₂
      have hpath₂ : ¬ c₂.request.path.isEmpty = true := by
        rw [List.isEmpty_iff]
        exact hpath ▸ h.path_ne
      refine ⟨_, feedBody_applyLocationBodyLimit (c := c₂) ?_, (hread _).applyLocationBodyLimit,
        Or.inl ⟨done, left, y, rfl, rfl, hy, hwait, ?_⟩⟩
      · simp [hc₂, hstate]
      · rw [applyLocationBodyLimit, if_neg hpath₂]
        exact ⟨hstate, fun hnil => hpath₂ (List.isEmpty_iff.mpr hnil), rfl⟩
    · -- all lines are there: the blank one is judged
      have hblank := headerLoop_blank [] (effectiveLimit c.config c.request.path)
        (readLines c.request done)
      rw [List.append_nil] at hblank
      rw [hloop, hblank]
      obtain ⟨hb₂, hend₂⟩ := headEnd_finishHeaders (hread ⟨[], _⟩) hstate
      obtain ⟨c', hfeed, hb', hend'⟩ := hfed _ hb₂ hend₂
      exact ⟨c', hfeed, hb', Or.inr hend'⟩
  · rw [hloop]
    -- a line is refused, for its form or for the number of lines
    have hcode : (readLines c.request done).errorCode ≠ 413 := by
      rcases hcases with heq | ⟨code, hcode, heq⟩
      · rw [heq] at hread_error
        exact absurd hread_error hgood
      · rw [heq]
        rcases hcode with rfl | rfl <;> simp [HttpRequest.fail]
    obtain ⟨c', hfeed, hb', hend'⟩ := hfed _ (hread buf) (.refused hread_error hcode)
    exact ⟨c', hfeed, hb', Or.inr hend'⟩

/-! ### A piece of the head -/

/-- The text of a request without a body: the request line, with its line end, and the other
lines. -/
structure RequestHead where
  line : Bytes
  fields : List Bytes
  scan : RLScan
  scan_eq : rlScan RLScan.init 0 line = .line scan line.length
  plain : ∀ l ∈ fields, IsPlainLine l

/-- The head as it is sent. -/
def RequestHead.text (r : RequestHead) : Bytes := r.line ++ (fieldText r.fields ++ crlf)

/-- How many of the first `k` bytes of some lines stand behind the last one that is complete. -/
def heldFields : List Bytes → ℕ → ℕ
  | [], k => k
  | l :: lines, k => if k < l.length + 2 then k else heldFields lines (k - (l.length + 2))

/-- How many of the first `k` bytes of a head the parser cannot take off the buffer yet. -/
def RequestHead.held (r : RequestHead) (k : ℕ) : ℕ :=
  if k < r.line.length then k else heldFields r.fields (k - r.line.length)

theorem heldFields_fieldText {left : List Bytes} {y rest : Bytes}
    (hleft : ∀ l ∈ left, IsPlainLine l) (hy : y ++ rest = fieldText left ++ crlf)
    (hfind : findCrlf y = none) : ∀ done : List Bytes,
    heldFields (done ++ left) ((fieldText done).length + y.length) = y.length := by
  intro done
  induction done with
  | nil =>
    rw [List.nil_append, fieldText_nil, List.length_nil, Nat.zero_add]
    cases left with
    | nil => rfl
    | cons l left =>
      have hl := (hleft l List.mem_cons_self).find_eq
      rw [heldFields]
      apply if_pos
      rw [fieldText_cons, List.append_assoc (l ++ crlf)] at hy
      -- with the whole line there, its end would be found
      rcases List.append_eq_append_iff.mp hy with ⟨a, ha, -⟩ | ⟨a, rfl, -⟩
      · have hlength := congrArg List.length ha
        simp only [List.length_append, crlf, List.length_cons, List.length_nil] at hlength
        have hne : a ≠ [] := by
          rintro rfl
          rw [List.append_nil] at ha
          rw [ha, hfind] at hl
          cases hl
        have hpos := List.length_pos_of_ne_nil hne
        omega
      · have hfound : findCrlf (l ++ crlf ++ a) = some l.length := FirstMatch.find_append_of_some hl
        rw [hfind] at hfound
        cases hfound
  | cons l done ih =>
    have hlength : (fieldText (l :: done)).length = l.length + 2 + (fieldText done).length := by
      rw [fieldText_cons]
      simp only [List.length_append, crlf, List.length_cons, List.length_nil]
    rw [List.cons_append, heldFields, if_neg (by omega), hlength,
      show l.length + 2 + (fieldText done).length + y.length - (l.length + 2) =
        (fieldText done).length + y.length by omega]
    exact ih

/-- The limit of the read buffer while the head is read: the listener's, and from the request line
on the path's. -/
def readLimit (c : Connection) : ℕ :=
  if c.request.path = [] then c.config.getMaxBody else effectiveLimit c.config c.request.path

/-- `k` bytes of the head have been parsed, and `rest` is still to come. -/
inductive Partway (r : RequestHead) : Connection → ℕ → Bytes → Prop
  | requestLine {c : Connection} {s rest : Bytes} (hb : Bodyless c) (hstate : AtRequestLine c)
      (hpath : c.request.path = []) (hs : s ++ rest = r.text) (hlt : s.length < r.line.length)
      (hbuf : c.readBuffer = ⟨s, c.config.getMaxBody⟩) : Partway r c s.length rest
  | headers {c : Connection} {done left : List Bytes} {y rest : Bytes} (hb : Bodyless c)
      (hwaits : WaitsForLine c y) (hfields : r.fields = done ++ left)
      (hy : y ++ rest = fieldText left ++ crlf) (hfind : findCrlf y = none) :
      Partway r c (r.line.length + (fieldText done).length + y.length) rest

section

variable {r : RequestHead} {c : Connection} {k : ℕ} {rest : Bytes}

theorem Partway.bodyless (h : Partway r c k rest) : Bodyless c := by
  cases h with
  | requestLine hb => exact hb
  | headers hb => exact hb

/-- The request is not there yet. -/
theorem Partway.parseState (h : Partway r c k rest) : AtRequestLine c ∨
    c.request.parseState = .headers := by
  cases h with
  | requestLine hb hstate => exact Or.inl hstate
  | headers hb hwaits => exact Or.inr hwaits.state

theorem Partway.readBuffer (h : Partway r c k rest) :
    c.readBuffer.size = r.held k ∧ c.readBuffer.limit = readLimit c := by
  cases h with
  | requestLine hb hstate hpath hs hlt hbuf =>
    rw [hbuf, RequestHead.held, if_pos hlt, readLimit, if_pos hpath]
    exact ⟨rfl, rfl⟩
  | @headers done left y _ hb hwaits hfields hy hfind =>
    have hleft : ∀ l ∈ left, IsPlainLine l := fun l hl =>
      r.plain l (hfields ▸ List.mem_append_right done hl)
    have hheld := heldFields_fieldText hleft hy hfind done
    rw [hwaits.readBuffer, RequestHead.held, if_neg (by omega), readLimit, if_neg hwaits.path_ne,
      show r.line.length + (fieldText done).length + y.length - r.line.length =
        (fieldText done).length + y.length by omega, hfields, hheld]
    exact ⟨rfl, rfl⟩

/-- Looking at the clock changes nothing. -/
theorem Partway.setLastActive (h : Partway r c k rest) (now : ℕ) :
    Partway r { c with lastActive := now } k rest := by
  cases h with
  | requestLine hb hstate hpath hs hlt hbuf =>
    exact .requestLine ⟨hb.1, hb.2, hb.3, hb.4, hb.5, hb.6, hb.7, hb.8⟩ hstate hpath hs hlt hbuf
  | headers hb hwaits hfields hy hfind =>
    exact .headers ⟨hb.1, hb.2, hb.3, hb.4, hb.5, hb.6, hb.7, hb.8⟩
      ⟨hwaits.1, hwaits.2, hwaits.3⟩ hfields hy hfind

/-- What the parser makes of header lines when it is waiting for them. -/
theorem partway_of_feed_headers {c : Connection} {done left : List Bytes} {x : Bytes} {k : ℕ}
    {stat : StatAnswer} (hwaits : WaitsForLine c x) (hb : Bodyless c)
    (hfields : r.fields = done ++ left) (hx : x ++ rest = fieldText left ++ crlf)
    (hk : k = r.line.length + (fieldText done).length + x.length) :
    ∃ c', feed stat c = .ok c' () ∧ Bodyless c' ∧ (Partway r c' k rest ∨ HeadEnd c') := by
  have hleft : ∀ l ∈ left, IsPlainLine l := fun l hl =>
    r.plain l (hfields ▸ List.mem_append_right done hl)
  obtain ⟨c', hfeed, hb', hend⟩ := @feed_headers stat c left x rest hwaits hb hleft hx
  refine ⟨c', hfeed, hb', ?_⟩
  rcases hend with ⟨done', left', y, rfl, rfl, hy, hfind, hwaits'⟩ | hend
  · left
    have hk' : k = r.line.length + (fieldText (done ++ done')).length + y.length := by
      rw [hk, fieldText_append, List.length_append, List.length_append]
      omega
    rw [hk']
    exact .headers hb' hwaits' (by rw [hfields, List.append_assoc]) hy hfind
  · exact Or.inr hend

/-- What the parser makes of the end of the request line, with the beginning `x` of the header lines
behind it. -/
theorem partway_of_feed_line {c : Connection} {x : Bytes} {k : ℕ} {stat : StatAnswer}
    (hb : Bodyless c) (hstate : AtRequestLine c) (hitems : c.readBuffer.items = r.line ++ x)
    (hx : x ++ rest = fieldText r.fields ++ crlf) (hk : k = r.line.length + x.length) :
    ∃ c', feed stat c = .ok c' () ∧ Bodyless c' ∧ (Partway r c' k rest ∨ HeadEnd c') := by
  obtain ⟨method, path, query, version, state, code, items, c₁, hc₁, hline⟩ :=
    @feed_line stat c r.line x r.scan hstate r.scan_eq hitems
  have hb₁ : Bodyless c₁ := by
    rw [hc₁]
    exact .applyLocationBodyLimit ⟨hb.1, hb.2, hb.3, hb.4, hb.5, hb.6, hb.7, hb.8⟩
  have hverdict := (applyLocationBodyLimit_frame { c with
    request := { c.request with
      method := method
      path := path
      queryString := query
      version := version
      parseState := state
      errorCode := code }
    readBuffer := ⟨items, c.readBuffer.limit⟩ }).1
  rw [← hc₁] at hverdict
  rcases hline with ⟨rfl, hcode, hfeed⟩ | ⟨rfl, hne, rfl, hfeed⟩
  · -- the line is refused
    have hend : HeadEnd c₁ := .refused hverdict.parseState (by rwa [hverdict.errorCode])
    exact ⟨_, hfeed, hb₁.applyLocationBodyLimit, Or.inr hend.applyLocationBodyLimit⟩
  · rw [hfeed]
    have hwaits : WaitsForLine c₁ items := by
      refine ⟨hverdict.parseState, fun hnil => hne (hverdict.path.symm.trans hnil), ?_⟩
      have hpath : ¬ path.isEmpty = true := by rwa [List.isEmpty_iff]
      rw [hc₁, applyLocationBodyLimit, if_neg hpath]
      rfl
    exact @partway_of_feed_headers r rest c₁ [] r.fields items _ stat hwaits hb₁ rfl hx hk

/-- **One more piece of the head**: more has to come, or the parser is at its end, and does not
refuse the request for the size of a body. -/
theorem feed_partway {stat : StatAnswer} {d : Bytes} (h : Partway r c k (d ++ rest)) :
    ∃ c', feed stat (c.deliver d) = .ok c' () ∧ Bodyless c' ∧
      (Partway r c' (k + d.length) rest ∨ HeadEnd c') := by
  cases h with
  | @requestLine s _ hb hstate hpath hs hlt hbuf =>
    have hbuf' : (c.deliver d).readBuffer = ⟨s ++ d, c.config.getMaxBody⟩ := by
      rw [readBuffer_deliver, hbuf]
      rfl
    have hb' : Bodyless (c.deliver d) := hb.deliver d
    rw [← List.append_assoc, RequestHead.text] at hs
    rcases cut_or_behind hs with ⟨t, ht, hne⟩ | ⟨x, hx, hrest⟩
    · -- the request line is not complete
      have hmore : (s ++ d).length < r.line.length := by
        have hpos := List.length_pos_of_ne_nil hne
        simp only [← ht, List.length_append]
        omega
      have hscan : rlScan RLScan.init 0 (c.deliver d).readBuffer.items = .more := by
        rw [hbuf']
        exact rlScan_take r.scan_eq ht hne
      have hb₁ : Bodyless { c.deliver d with
          request := { (c.deliver d).request with parseState := .requestLine } } :=
        ⟨hb'.1, hb'.2, hb'.3, hb'.4, hb'.5, hb'.6, hb'.7, hb'.8⟩
      refine ⟨_, feed_requestLine_more hstate hpath hscan, hb₁, Or.inl ?_⟩
      rw [← List.length_append]
      exact .requestLine hb₁ (Or.inr rfl) hpath hs hmore hbuf'
    · -- it is complete, and `x` is the beginning of the header lines
      refine partway_of_feed_line hb' hstate (by rw [hbuf', hx]) hrest ?_
      rw [← List.length_append, hx, List.length_append]
  | @headers done left y _ hb hwaits hfields hy hfind =>
    have hdelivered : WaitsForLine (c.deliver d) (y ++ d) := by
      refine ⟨hwaits.state, hwaits.path_ne, ?_⟩
      rw [readBuffer_deliver, hwaits.readBuffer]
      rfl
    rw [← List.append_assoc] at hy
    exact partway_of_feed_headers hdelivered (hb.deliver d) hfields hy
      (by rw [List.length_append]; omega)

end

end Webserv
