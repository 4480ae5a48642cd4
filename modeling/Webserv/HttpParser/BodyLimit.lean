import Webserv.HttpParser.Bodyless
import Webserv.HttpParser.ChunkedGrammar
import Webserv.HttpParser.Receiving
import Webserv.HttpParser.SizeFields

/-!
# The limit of a body and its framing

One body, sent behind one head with its length or in chunks.  Both are read under the limit of
the path; the length is also compared with the limit of the server that the Host header selects.

## Main results

* `feed_head` — the parser on a head with some bytes behind it.
* `framingBlind_iff` — when the two framings of a body come to the same verdict.
-/

namespace Webserv

open Bytes ChunkedCoding

/-! ### Numerals -/

/-- A string of digits that denotes a number. -/
structure IsNumeral (v : Bytes) (n : ℕ) : Prop where
  ne_nil : v ≠ []
  digits : ∀ d ∈ v, isDigit d = true
  value : decimalValue v = n

/-! ### One header among others -/

/-- What a line does to a header depends on that header alone. -/
theorem getElem?_headerLine_congr {req req' : HttpRequest} {l key : Bytes}
    (h : req.headers[key]? = req'.headers[key]?)
    (hgood : (headerLine req l).parseState ≠ .error)
    (hgood' : (headerLine req' l).parseState ≠ .error) :
    (headerLine req l).headers[key]? = (headerLine req' l).headers[key]? := by
  by_cases hname : fieldName l = some key
  · rw [getElem?_headerLine_self hname hgood, getElem?_headerLine_self hname hgood', h]
  · rw [getElem?_headerLine hname, getElem?_headerLine hname, h]

theorem getElem?_readLines_congr {key : Bytes} : ∀ {lines : List Bytes} {req req' : HttpRequest},
    req.headers[key]? = req'.headers[key]? → (readLines req lines).parseState ≠ .error →
      (readLines req' lines).parseState ≠ .error →
      (readLines req lines).headers[key]? = (readLines req' lines).headers[key]? := by
  intro lines
  induction lines with
  | nil => exact fun h _ _ => h
  | cons l lines ih =>
    intro req req' h hgood hgood'
    rw [readLines] at hgood hgood' ⊢
    rw [readLines]
    split at hgood
    · next herror => exact absurd herror hgood
    · next hline =>
      split at hgood'
      · next herror => exact absurd herror hgood'
      · next hline' =>
        rw [if_neg hline, if_neg hline']
        exact ih (getElem?_headerLine_congr h hline hline') hgood hgood'

/-! ### The checks on Host -/

/-- A request that passes the checks on Host has its Host header rewritten, and a limit for its
body. -/
theorem request_hostChecks {c : Connection} (hgood : (hostChecks c).request.parseState ≠ .error) :
    ∃ headers limit, (hostChecks c).request =
        { c.request with headers := headers, body := ⟨c.request.body.items, limit⟩ } ∧
      ∀ key, ascii "host" ≠ key → headers[key]? = c.request.headers[key]? := by
  unfold hostChecks at hgood ⊢
  dsimp only at hgood ⊢
  cases hhost : c.request.headers[ascii "host"]? with
  | none =>
    rw [hhost] at hgood
    dsimp only at hgood ⊢
    split at hgood
    · exact absurd rfl hgood
    · next hversion =>
      rw [if_neg hversion]
      exact ⟨c.request.headers, c.request.body.limit, rfl, fun _ _ => rfl⟩
  | some value =>
    rw [hhost] at hgood
    dsimp only at hgood ⊢
    cases hvalue : validateHost value with
    | none =>
      rw [hvalue] at hgood
      exact absurd rfl hgood
    | some v =>
      have hover : ∃ limit, (overrideHost c v.1).request =
          { c.request with body := ⟨c.request.body.items, limit⟩ } := by
        unfold overrideHost
        split
        · exact ⟨_, rfl⟩
        · exact ⟨c.request.body.limit, rfl⟩
      obtain ⟨limit, hlimit⟩ := hover
      dsimp only
      rw [hlimit]
      refine ⟨_, limit, rfl, ?_⟩
      intro key hkey
      rw [Std.TreeMap.getElem?_insert, if_neg]
      rwa [Std.LawfulEqCmp.compare_eq_iff_eq]

/-- The checks on Host take nothing off the buffer. -/
theorem items_hostChecks (c : Connection) :
    (hostChecks c).readBuffer.items = c.readBuffer.items := by
  have hover : ∀ host, (overrideHost c host).readBuffer.items = c.readBuffer.items := by
    intro host
    unfold overrideHost
    split
    · rfl
    · rfl
  unfold hostChecks
  dsimp only
  split
  · split
    · rfl
    · rfl
  · split
    · rfl
    · exact hover _

/-- The server that is chosen depends on the Host header alone. -/
theorem config_hostChecks_congr {c c' : Connection} (hconfig : c'.config = c.config)
    (hservers : c'.configuration = c.configuration)
    (hhost : c'.request.headers[ascii "host"]? = c.request.headers[ascii "host"]?) :
    (hostChecks c').config = (hostChecks c).config := by
  unfold hostChecks
  dsimp only
  rw [hhost]
  cases c.request.headers[ascii "host"]? with
  | none =>
    dsimp only
    rw [apply_ite Connection.config, apply_ite Connection.config, ite_self, ite_self, hconfig]
  | some value =>
    dsimp only
    cases validateHost value with
    | none => exact hconfig
    | some v =>
      dsimp only
      unfold overrideHost
      rw [hservers]
      cases c.configuration.find? (fun s => s.serverName == v.1) with
      | none => exact hconfig
      | some s => rfl

/-! ### A head with a body behind it -/

/-- A request but for its body: the request line, and the header lines around the one that says
how the body is framed. -/
structure PostHead where
  line : Bytes
  scan : RLScan
  scan_eq : rlScan RLScan.init 0 line = .line scan line.length
  before : List Bytes
  behind : List Bytes
  plain : ∀ l ∈ before ++ behind, IsPlainLine l

/-- A line that announces a length. -/
def lengthLine (v : Bytes) : Bytes := ascii "Content-Length: " ++ v

/-- The line that announces chunks. -/
def chunkedLine : Bytes := ascii "Transfer-Encoding: chunked"

namespace PostHead

variable (p : PostHead) (stat : StatAnswer) (c : Connection) (f : Bytes)

/-- The header lines, with `f` for the framing of the body. -/
def lines : List Bytes := p.before ++ f :: p.behind

/-- The head as it is sent. -/
def text : Bytes := p.line ++ (fieldText (p.lines f) ++ crlf)

/-- The connection when the request line has been read. -/
def lineRead : Connection :=
  applyLocationBodyLimit (parseRequestLine stat ((intoRequestLine c).deliver p.line))

/-- The connection when the header lines have been read too. -/
def fieldsRead : Connection :=
  { p.lineRead stat c with request := readLines (p.lineRead stat c).request (p.lines f) }

/-- The connection when the Host header has chosen its server. -/
def headRead : Connection := hostChecks (p.fieldsRead stat c f)

/-- The connection when the whole head has been read. -/
def framed : Connection :=
  applyLocationBodyLimit { p.headRead stat c f with
    request := framing (p.headRead stat c f).config.getMaxBody (p.headRead stat c f).request }

/-- Nothing is wrong with the head. -/
structure Accepted : Prop where
  field : IsFieldLine f
  requestLine : (p.lineRead stat c).request.parseState = .headers
  fields : (p.fieldsRead stat c f).request.parseState ≠ .error
  host : (p.headRead stat c f).request.parseState ≠ .error

variable {p stat c f}

theorem isFieldLine_of_mem (h : IsFieldLine f) : ∀ l ∈ p.lines f, IsFieldLine l := by
  intro l hl
  rcases List.mem_append.mp hl with hl | hl
  · exact (p.plain l (List.mem_append_left _ hl)).toIsFieldLine
  · rcases List.mem_cons.mp hl with rfl | hl
    · exact h
    · exact (p.plain l (List.mem_append_right _ hl)).toIsFieldLine

/-- The connection waits for a request of this head. -/
theorem parseRequestLine_line (p : PostHead) (stat : StatAnswer) (c : Connection)
    (hc : c.readBuffer.items = []) (y : Bytes) :
    parseRequestLine stat (intoRequestLine (c.deliver (p.line ++ y))) =
      (parseRequestLine stat ((intoRequestLine c).deliver p.line)).deliver y := by
  have hscan : rlScan RLScan.init 0
    ((intoRequestLine c).deliver p.line).readBuffer.items ≠ .more := by
    have hitems : ((intoRequestLine c).deliver p.line).readBuffer.items = p.line := by
      show c.readBuffer.items ++ p.line = p.line
      rw [hc, List.nil_append]
    rw [hitems, p.scan_eq]
    simp
  rw [← parseRequestLine_deliver y hscan, deliver_deliver]
  rfl

/-- What is left when the request line has been read: nothing of the input, and a request of
which only the request line is known. -/
structure LineRead (c c₁ : Connection) : Prop where
  readBuffer : c₁.readBuffer.items = []
  path_ne : c₁.request.path ≠ []
  config : c₁.config = c.config
  servers : c₁.configuration = c.configuration
  headers : c₁.request.headers = c.request.headers
  body : c₁.request.body.items = c.request.body.items
  written : c₁.request.written = c.request.written
  contentLength : c₁.request.contentLength = c.request.contentLength
  chunked : c₁.request.chunked = c.request.chunked
  chunkSize : c₁.request.chunkSize = c.request.chunkSize
  chunkTrailing : c₁.request.chunkTrailing = c.request.chunkTrailing
  chunkDone : c₁.request.chunkDone = c.request.chunkDone

theorem lineRead_spec (hc : c.readBuffer.items = [])
    (hgood : (p.lineRead stat c).request.parseState = .headers) :
      LineRead c (p.lineRead stat c) := by
  have hitems : ((intoRequestLine c).deliver p.line).readBuffer.items = p.line := by
    show c.readBuffer.items ++ p.line = p.line
    rw [hc, List.nil_append]
  have hparse : parseRequestLine stat ((intoRequestLine c).deliver p.line) =
      finishRequestLine stat p.line p.scan p.line.length ((intoRequestLine c).deliver p.line) := by
    have hne : ¬ p.line.isEmpty = true := by
      intro hnil
      have hscan := p.scan_eq
      rw [List.isEmpty_iff.mp hnil] at hscan
      cases hscan
    unfold parseRequestLine
    dsimp only
    rw [hitems, if_neg hne, p.scan_eq]
  obtain ⟨method, path, query, version, state, code, items, heq, hend⟩ :=
    finishRequestLine_spec stat p.line p.scan p.line.length ((intoRequestLine c).deliver p.line)
  have hstate : state = .headers := by
    rw [lineRead, (applyLocationBodyLimit_frame _).1.parseState, hparse, heq] at hgood
    exact hgood
  obtain ⟨hpath, hdrop⟩ : path ≠ [] ∧ items = [] := by
    rcases hend with ⟨herror, -⟩ | ⟨-, hpath, hdrop⟩
    · rw [hstate] at herror
      cases herror
    · exact ⟨hpath, by rw [hdrop, hitems, List.drop_length]⟩
  have hne : ¬ path.isEmpty = true := by rwa [List.isEmpty_iff]
  rw [lineRead, hparse, heq, applyLocationBodyLimit, if_neg hne]
  exact ⟨hdrop, hpath, rfl, rfl, rfl, rfl, rfl, rfl, rfl, rfl, rfl, rfl⟩

/-- **The parser on a head with some bytes behind it** comes to the body with them. -/
theorem feed_head (hc : c.Fresh) (h : p.Accepted stat c f) (x : Bytes) :
    feed stat (c.deliver (p.text f ++ x)) = feedBody ((p.framed stat c f).deliver x) := by
  obtain ⟨⟨limit, hnew⟩, hitems⟩ := hc
  have hidle : AtRequestLine (c.deliver (p.text f ++ x)) := by
    left
    rw [request_deliver, hnew]
    rfl
  set y : Bytes := fieldText (p.lines f) ++ (crlf ++ x) with hy
  have htext : p.text f ++ x = p.line ++ y := by
    rw [hy, text]
    simp only [List.append_assoc]
  have hspec := lineRead_spec hitems h.requestLine
  -- the request line
  have hline : requestLineStage stat (c.deliver (p.line ++ y)) = (p.lineRead stat c).deliver y := by
    have hstate := h.requestLine
    rw [lineRead, (applyLocationBodyLimit_frame _).1.parseState] at hstate
    rw [requestLineStage_eq (htext ▸ hidle), parseRequestLine_line p stat c hitems y,
      request_deliver, if_neg (by simp [hstate]), applyLocationBodyLimit_deliver]
    rfl
  -- the header lines, up to the blank line
  have hgood : (p.lineRead stat c).request.parseState ≠ .error := by simp [h.requestLine]
  have hloop : headerLoop (((p.lineRead stat c).deliver y).readBuffer,
    (p.lineRead stat c).request) =
      ((⟨x, (p.lineRead stat c).readBuffer.limit⟩, (p.fieldsRead stat c f).request), true) := by
    have hbuf : ((p.lineRead stat c).deliver y).readBuffer =
        ⟨y, (p.lineRead stat c).readBuffer.limit⟩ := by
      rw [readBuffer_deliver, Fifo.push, hspec.readBuffer, List.nil_append]
    rw [hbuf, hy]
    rcases headerLoop_fieldText (p.lineRead stat c).readBuffer.limit (crlf ++ x)
      (isFieldLine_of_mem h.field) hgood with ⟨-, hloop⟩ | ⟨herror, -⟩
    · rw [hloop]
      exact headerLoop_blank x _ _
    · exact absurd herror h.fields
  have hheaders : headerStage ((p.lineRead stat c).deliver y) =
      finishHeaders ((p.fieldsRead stat c f).deliver x) := by
    have hbuf : (⟨x, (p.lineRead stat c).readBuffer.limit⟩ : ByteQueue) =
        ((p.fieldsRead stat c f).deliver x).readBuffer := by
      show _ = (p.lineRead stat c).readBuffer.push x
      rw [Fifo.push, hspec.readBuffer, List.nil_append]
    have hstate : ((p.lineRead stat c).deliver y).request.parseState = .headers := h.requestLine
    rw [headerStage, if_pos hstate, parseHeaders, request_deliver, hloop, afterHeaderLoop]
    dsimp only
    rw [if_pos rfl, hbuf]
    rfl
  have hlive : ¬ (c.deliver (p.line ++ y)).request.parseState.terminal = true := by
    rw [request_deliver, hnew]
    exact Bool.false_ne_true
  rw [htext, feed, if_neg hlive, hline, hheaders, finishHeaders_deliver,
    applyLocationBodyLimit_deliver]
  have hfinish : finishHeaders (p.fieldsRead stat c f) = { p.headRead stat c f with
      request := framing (p.headRead stat c f).config.getMaxBody (p.headRead stat c f).request } :=
    if_neg h.host
  rw [hfinish]
  rfl

/-! ### What the head says about the body -/

/-- Lines that are accepted as a whole are accepted up to any of them. -/
theorem readLines_good_left : ∀ (a : List Bytes) {b : List Bytes} {req : HttpRequest},
    req.parseState ≠ .error → (readLines req (a ++ b)).parseState ≠ .error →
      (readLines req a).parseState ≠ .error := by
  intro a
  induction a with
  | nil => exact fun hreq _ => hreq
  | cons l a ih =>
    intro b req _ hgood
    rw [List.cons_append, readLines] at hgood
    rw [readLines]
    split at hgood
    · next herror => exact absurd herror hgood
    · next hline =>
      rw [if_neg hline]
      exact ih hline hgood

/-- A header that none of the lines names but the one for the framing. -/
theorem getElem?_lines {req : HttpRequest} {key : Bytes} (hreq : req.parseState ≠ .error)
    (hnone : req.headers[key]? = none) (hplain : ∀ l ∈ p.before ++ p.behind, fieldName l ≠ some key)
    (hgood : (readLines req (p.lines f)).parseState ≠ .error) :
    (readLines req (p.lines f)).headers[key]? =
      if fieldName f = some key then some (fieldValue f) else none := by
  have hbefore := readLines_good_left p.before hreq hgood
  have hfirst : (readLines req p.before).headers[key]? = none := by
    rw [getElem?_readLines fun l hl => hplain l (List.mem_append_left _ hl), hnone]
  have hsplit : readLines req (p.lines f) = readLines (readLines req p.before) (f :: p.behind) :=
    readLines_append p.before hbefore
  rw [hsplit, readLines] at hgood
  rw [hsplit, readLines]
  split at hgood
  · next herror => exact absurd herror hgood
  · next hline =>
    rw [if_neg hline, getElem?_readLines fun l hl => hplain l (List.mem_append_right _ hl)]
    split
    · next hname => rw [getElem?_headerLine_self hname hline, hfirst]; rfl
    · next hname => rw [getElem?_headerLine hname, hfirst]

/-- The server that is chosen does not depend on the line for the framing. -/
theorem config_headRead {f' : Bytes} (h : p.Accepted stat c f) (h' : p.Accepted stat c f')
    (hf : fieldName f ≠ some (ascii "host")) (hf' : fieldName f' ≠ some (ascii "host")) :
    (p.headRead stat c f').config = (p.headRead stat c f).config := by
  have hgood : (p.lineRead stat c).request.parseState ≠ .error := by simp [h.requestLine]
  have hbefore := readLines_good_left p.before hgood h.fields
  -- the lines behind are read with the same Host header as far as there is one
  have hsplit : ∀ {f}, p.Accepted stat c f → fieldName f ≠ some (ascii "host") →
      ∃ req, (p.fieldsRead stat c f).request = readLines req p.behind ∧
        req.headers[ascii "host"]? =
          (readLines (p.lineRead stat c).request p.before).headers[ascii "host"]? := by
    intro f h hf
    have hread : (p.fieldsRead stat c f).request =
        readLines (readLines (p.lineRead stat c).request p.before) (f :: p.behind) :=
      readLines_append p.before hbefore
    have hfields := h.fields
    rw [hread, readLines] at hfields
    rw [hread, readLines]
    split at hfields
    · next herror => exact absurd herror hfields
    · next hline =>
      rw [if_neg hline]
      exact ⟨_, rfl, getElem?_headerLine hf⟩
  obtain ⟨req, hreq, hhost⟩ := hsplit h hf
  obtain ⟨req', hreq', hhost'⟩ := hsplit h' hf'
  apply config_hostChecks_congr
  · rfl
  · rfl
  · have hfields := h.fields
    have hfields' := h'.fields
    rw [hreq] at hfields ⊢
    rw [hreq'] at hfields' ⊢
    exact getElem?_readLines_congr (hhost'.trans hhost.symm) hfields' hfields

/-- The request when the head has been read, before the framing is looked at. -/
structure HeadRead (c c₁ : Connection) : Prop where
  readBuffer : c₁.readBuffer.items = []
  path_ne : c₁.request.path ≠ []
  state : c₁.request.parseState = .headers
  body : c₁.request.body.items = []
  written : c₁.request.written = 0
  contentLength : c₁.request.contentLength = 0
  chunked : c₁.request.chunked = false
  chunkSize : c₁.request.chunkSize = 0
  chunkTrailing : c₁.request.chunkTrailing = false

theorem headRead_spec (hc : c.Fresh) (h : p.Accepted stat c f) :
    HeadRead c (p.headRead stat c f) ∧ (p.headRead stat c f).request.path =
        (p.lineRead stat c).request.path ∧
      ∀ key, ascii "host" ≠ key → (∀ l ∈ p.before ++ p.behind, fieldName l ≠ some key) →
        (p.headRead stat c f).request.headers[key]? =
          if fieldName f = some key then some (fieldValue f) else none := by
  obtain ⟨⟨limit, hnew⟩, hitems⟩ := hc
  have hline := lineRead_spec hitems h.requestLine
  have hgood : (p.lineRead stat c).request.parseState ≠ .error := by simp [h.requestLine]
  obtain ⟨headers, limit', hrequest, hothers⟩ := request_hostChecks h.host
  have hrequest' : (p.headRead stat c f).request =
      { (p.fieldsRead stat c f).request with
        headers := headers, body := ⟨(p.fieldsRead stat c f).request.body.items,
          limit'⟩ } := hrequest
  have hbuffer : (p.headRead stat c f).readBuffer.items = [] :=
    (items_hostChecks _).trans hline.readBuffer
  -- the lines change the headers and nothing else, since none is refused
  obtain ⟨headers', hfields⟩ : ∃ headers', (p.fieldsRead stat c f).request =
      { (p.lineRead stat c).request with headers := headers' } := by
    obtain ⟨headers', hfields | ⟨code, -, hfields⟩⟩ := readLines_cases (p.lines f) _ hgood
    · exact ⟨headers', hfields⟩
    · have hfieldsRead := h.fields
      rw [fieldsRead, hfields] at hfieldsRead
      exact absurd rfl hfieldsRead
  refine ⟨?_, ?_, ?_⟩
  · rw [hfields] at hrequest'
    refine ⟨hbuffer, ?_, ?_, ?_, ?_, ?_, ?_, ?_, ?_⟩
    all_goals rw [hrequest']
    · exact hline.path_ne
    · exact h.requestLine
    · exact hline.body.trans (by rw [hnew]; rfl)
    · exact hline.written.trans (by rw [hnew]; rfl)
    · exact hline.contentLength.trans (by rw [hnew]; rfl)
    · exact hline.chunked.trans (by rw [hnew]; rfl)
    · exact hline.chunkSize.trans (by rw [hnew]; rfl)
    · exact hline.chunkTrailing.trans (by rw [hnew]; rfl)
  · rw [hrequest', hfields]
  · intro key hkey hplain
    have hnone : (p.lineRead stat c).request.headers[key]? = none := by
      rw [hline.headers, hnew]
      exact Std.TreeMap.getElem?_emptyc
    rw [hrequest']
    exact (hothers key hkey).trans (getElem?_lines hgood hnone hplain h.fields)

end PostHead

/-! ### The framing -/

theorem fieldName_lengthLine (v : Bytes) :
    fieldName (lengthLine v) = some (ascii "content-length") := rfl

theorem fieldName_chunkedLine : fieldName chunkedLine = some (ascii "transfer-encoding") := by
  decide +kernel

theorem strTrim_of_notBlank {v : Bytes} (h : ∀ d ∈ v, isBlank d = false) :
    strTrim (SP :: v) = v := by
  have hdrop : ∀ {w : Bytes}, (∀ d ∈ w, isBlank d = false) → w.dropWhile isBlank = w := by
    intro w hw
    cases w with
    | nil => rfl
    | cons d w => rw [List.dropWhile_cons, hw d List.mem_cons_self]; rfl
  have hfirst : (SP :: v).dropWhile isBlank = v := by
    rw [List.dropWhile_cons]
    exact hdrop h
  unfold strTrim
  rw [hfirst, hdrop fun d hd => h d (List.mem_reverse.mp hd), List.reverse_reverse]

theorem fieldValue_lengthLine {v : Bytes} {n : ℕ} (h : IsNumeral v n) :
    fieldValue (lengthLine v) = v := by
  have hvalue : fieldValue (lengthLine v) = strTrim (SP :: v) := rfl
  rw [hvalue]
  apply strTrim_of_notBlank
  intro d hd
  have hdigit := h.digits d hd
  unfold isDigit at hdigit
  unfold isBlank
  by_contra hblank
  rw [Bool.not_eq_false, Bool.or_eq_true, beq_iff_eq, beq_iff_eq] at hblank
  rcases hblank with rfl | rfl
  · exact absurd hdigit (by decide)
  · exact absurd hdigit (by decide)

/-- A length that the server allows. -/
theorem framing_length {req : HttpRequest} {v : Bytes} {n maxBody : ℕ} (hv : IsNumeral v n)
    (hn : n ≠ 0) (hmax : maxBody ≤ 2147483647)
    (hlength : req.headers[ascii "content-length"]? = some v)
    (hcoding : req.headers[ascii "transfer-encoding"]? = none) :
    framing maxBody req =
      if n ≤ maxBody then { req with contentLength := n, parseState := .body }
      else req.fail 413 := by
  have hne : ¬ v.isEmpty = true := by
    rw [List.isEmpty_iff]
    exact hv.ne_nil
  have hloop := (contentLengthLoop_digits hmax hv.digits).1
  rw [hv.value] at hloop
  unfold framing
  rw [hlength, hcoding]
  dsimp only
  rw [if_neg (by simp), if_neg hne, hloop]
  by_cases hle : n ≤ maxBody
  · rw [if_pos hle, if_pos hle]
    dsimp only
    have hsome : ¬ (!req.chunked && n == 0) = true := by
      rw [Bool.and_eq_true, beq_iff_eq]
      exact fun h => hn h.2
    exact if_neg hsome
  · rw [if_neg hle, if_neg hle]

theorem framing_chunked {req : HttpRequest} {t : Bytes} (maxBody : ℕ)
    (hlength : req.headers[ascii "content-length"]? = none)
    (hcoding : req.headers[ascii "transfer-encoding"]? = some t)
    (ht : strTolower t = ascii "chunked") :
    framing maxBody req =
      { req with chunked := true, contentLength := 0, parseState := .body } := by
  have hany : (some t).any (fun v => strTolower v == ascii "chunked") = true := by simp [ht]
  unfold framing
  rw [hlength, hcoding]
  simp only [Option.isSome_none, Bool.false_and, Bool.false_eq_true, if_false, hany, if_true,
    Bool.not_true]

/-! ### The verdict on a body -/

/-- The verdict on a body `b` under the limit `n`: it is there as a whole, or refused with 413. -/
def VerdictOn (n : ℕ) (b : Bytes) (req : HttpRequest) : Prop :=
  if b.length ≤ n then req.parseState = .complete ∧ req.body.items = b
  else req.parseState = .error ∧ req.errorCode = 413

/-- The verdict is the same at every cut of the input. -/
theorem verdictOn_foldl {stat : StatAnswer} {c : Connection} {n : ℕ} {b s : Bytes}
    {pieces : List Bytes} (hc : c.Fresh) (hs : s ≠ []) (hp : ∀ q ∈ pieces, q ≠ [])
    (hcut : pieces.flatten = s) :
    VerdictOn n b (pieces.foldl (feedPiece stat) c).request ↔
      VerdictOn n b (feed stat (c.deliver s)).state.request := by
  have hlive : ¬ c.request.parseState.terminal = true := by
    obtain ⟨⟨limit, hnew⟩, -⟩ := hc
    rw [hnew]
    exact Bool.false_ne_true
  have hne : pieces ≠ [] := by
    rintro rfl
    exact hs hcut.symm
  have hagree := (feedPiece_law stat).foldl_flatten pieces c hc.resumable hne hp
  have hsame := hagree.sameParse
  rw [hcut, feedPiece, if_neg hlive] at hsame
  unfold VerdictOn
  rw [hsame.verdict.parseState, hsame.verdict.errorCode]
  by_cases hle : b.length ≤ n
  · rw [if_pos hle, if_pos hle]
    constructor
    · rintro ⟨hstate, hbody⟩
      have hne : (pieces.foldl (feedPiece stat) c).request.parseState ≠ .error := by
        rw [hsame.verdict.parseState, hstate]
        decide
      exact ⟨hstate, (hsame.body hne).1.symm.trans hbody⟩
    · rintro ⟨hstate, hbody⟩
      have hne : (pieces.foldl (feedPiece stat) c).request.parseState ≠ .error := by
        rw [hsame.verdict.parseState, hstate]
        decide
      exact ⟨hstate, (hsame.body hne).1.trans hbody⟩
  · rw [if_neg hle, if_neg hle]

/-- What a reading comes to for a body `b` under the limit `n`: the parser says so, or there is an
exception, which is answered with 413 too. -/
def Judged (n : ℕ) (b : Bytes) : Outcome Connection Unit → Prop
  | .ok c _ => VerdictOn n b c.request
  | .bodyLimit _ => n < b.length

/-- Every cut that finds room comes to the verdict on the whole input. -/
theorem judged_receive {stat : StatAnswer} {c : Connection} {n : ℕ} {b s : Bytes}
    {pieces : List (Bytes × ℕ)} (hc : c.Fresh) (hs : s ≠ []) (hp : ∀ q ∈ pieces, q.1 ≠ [])
    (hcut : (pieces.map (·.1)).flatten = s) :
    Judged n b (receive stat c pieces) ↔
      if Run.Meets (feedPiece stat) Connection.TakesIn c (pieces.map (·.1)) then
        VerdictOn n b (feed stat (c.deliver s)).state.request
      else n < b.length := by
  have hp' : ∀ q ∈ pieces.map (·.1), q ≠ [] := by
    intro q hq
    obtain ⟨q', hq', rfl⟩ := List.mem_map.mp hq
    exact hp q' hq'
  by_cases hroom : Run.Meets (feedPiece stat) Connection.TakesIn c (pieces.map (·.1))
  · obtain ⟨c', hreceive, heq⟩ := receive_of_room hc.resumable rfl hroom
    rw [if_pos hroom, hreceive, ← verdictOn_foldl hc hs hp' hcut, heq]
    exact Iff.rfl
  · obtain ⟨c', hreceive⟩ := receive_of_full hc.resumable rfl hp hroom
    rw [if_neg hroom, hreceive]
    exact Iff.rfl

namespace PostHead

variable {p : PostHead} {stat : StatAnswer} {c : Connection} {f : Bytes}

/-- The limit of the server that the Host header selects. -/
def serverLimit (p : PostHead) (stat : StatAnswer) (c : Connection) (f : Bytes) : ℕ :=
  (p.headRead stat c f).config.getMaxBody

/-- The effective limit of the path there. -/
def bodyLimit (p : PostHead) (stat : StatAnswer) (c : Connection) (f : Bytes) : ℕ :=
  effectiveLimit (p.headRead stat c f).config (p.headRead stat c f).request.path

/-- The limits are in force when the head has been read. -/
theorem framed_eq {req : HttpRequest} (hc : c.Fresh) (h : p.Accepted stat c f)
    (hframing : framing (p.serverLimit stat c f) (p.headRead stat c f).request = req)
    (hpath : req.path = (p.headRead stat c f).request.path) :
    p.framed stat c f = { p.headRead stat c f with
      request := { req with
        maxBodySize := p.bodyLimit stat c f
        body := ⟨req.body.items, p.bodyLimit stat c f⟩ }
      readBuffer := ⟨[], p.bodyLimit stat c f⟩ } := by
  obtain ⟨hhead, -⟩ := headRead_spec hc h
  have hne : ¬ req.path.isEmpty = true := by
    rw [List.isEmpty_iff, hpath]
    exact hhead.path_ne
  have hbuffer : (p.headRead stat c f).readBuffer.setLimit (p.bodyLimit stat c f) =
      ⟨[], p.bodyLimit stat c f⟩ := Fifo.ext hhead.readBuffer rfl
  unfold framed
  rw [show (p.headRead stat c f).config.getMaxBody = p.serverLimit stat c f from rfl, hframing,
    applyLocationBodyLimit, if_neg hne]
  dsimp only
  rw [hpath, ← hbuffer]
  rfl

/-- A body with its length: the server's limit comes first. -/
theorem verdict_length {v b : Bytes} (hc : c.Fresh) (h : p.Accepted stat c (lengthLine v))
    (hv : IsNumeral v b.length) (hb : b ≠ [])
    (hmax : p.serverLimit stat c (lengthLine v) ≤ 2147483647) :
    let req := (feed stat (c.deliver (p.text (lengthLine v) ++ b))).state.request
    if b.length ≤ p.serverLimit stat c (lengthLine v) then
      VerdictOn (p.bodyLimit stat c (lengthLine v)) b req
    else req.parseState = .error ∧ req.errorCode = 413 := by
  have hn : b.length ≠ 0 := by simpa using hb
  obtain ⟨hhead, -, hheaders⟩ := headRead_spec hc h
  have hlength := hheaders (ascii "content-length") (by decide) fun l hl => (p.plain l hl).notLength
  have hcoding := hheaders (ascii "transfer-encoding") (by decide) fun l hl =>
    (p.plain l hl).notCoding
  rw [fieldName_lengthLine, if_pos rfl, fieldValue_lengthLine hv] at hlength
  rw [fieldName_lengthLine, if_neg (by decide)] at hcoding
  have hframing := framing_length hv hn hmax hlength hcoding
  intro req
  dsimp only [req]
  rw [feed_head hc h]
  by_cases hle : b.length ≤ p.serverLimit stat c (lengthLine v)
  · rw [if_pos hle] at hframing ⊢
    rw [framed_eq hc h hframing rfl, state_feedBody rfl]
    -- the body is read under the limit of the path
    set n := p.bodyLimit stat c (lengthLine v)
    set req₁ : HttpRequest := { (p.headRead stat c (lengthLine v)).request with
      contentLength := b.length
      parseState := .body
      maxBodySize := n
      body := ⟨(p.headRead stat c (lengthLine v)).request.body.items, n⟩ } with hreq₁
    have hwf : BodyWf req₁ := by
      refine ⟨?_, Nat.le_refl _⟩
      rw [Fifo.size_eq, hreq₁]
      dsimp only
      rw [hhead.body, hhead.written]
      rfl
    have hread : readBody (⟨b, n⟩ : ByteQueue) req₁ = (parseBody ⟨b, n⟩ req₁).state :=
      congrArg Outcome.state (if_neg (by simp [hreq₁, hhead.chunked]))
    have hwritten : req₁.written = 0 := hhead.written
    have hbody : req₁.body.items = [] := hhead.body
    have hneed : req₁.contentLength - req₁.written = b.length := by rw [hwritten]; rfl
    have hsize : (⟨b, n⟩ : ByteQueue).size = b.length := rfl
    have hverdict : ∀ {s}, FixedStep ⟨b, n⟩ req₁ s → readBody (⟨b, n⟩ : ByteQueue) req₁ = s :=
      fun hstep => hread.trans ((fixedStep_iff hwf hn
        (by rw [hwritten]; exact Nat.zero_le _)).mpr hstep)
    show VerdictOn n b (readBody (⟨b, n⟩ : ByteQueue) req₁).2
    unfold VerdictOn
    by_cases hfits : b.length ≤ n
    · rw [if_pos hfits, hverdict (.complete hn (by omega) (by rw [hneed, hwritten, Nat.zero_add]
                                                              exact hfits)), hneed]
      refine ⟨rfl, ?_⟩
      show req₁.body.items ++ b.take b.length = b
      rw [hbody, List.nil_append, List.take_length]
    · have hover : req₁.maxBodySize <
          req₁.written + min (req₁.contentLength - req₁.written) (⟨b, n⟩ : ByteQueue).size := by
        rw [hneed, hsize, Nat.min_self, hwritten, Nat.zero_add]
        exact Nat.lt_of_not_le hfits
      rw [if_neg hfits, hverdict (.tooLarge hn hover)]
      exact ⟨rfl, rfl⟩
  · rw [if_neg hle] at hframing ⊢
    rw [framed_eq hc h hframing rfl, feedBody_of_ne
      (by simp [Connection.deliver, HttpRequest.fail])]
    exact ⟨rfl, rfl⟩

/-- A body in chunks: the limit of the path is all that counts. -/
theorem verdict_chunked {wire b : Bytes} (hc : c.Fresh) (h : p.Accepted stat c chunkedLine)
    (hwire : Message (AnyTwoUpTo maxAllowedChunk) wire b) :
    VerdictOn (p.bodyLimit stat c chunkedLine) b
      (feed stat (c.deliver (p.text chunkedLine ++ wire))).state.request := by
  obtain ⟨hhead, -, hheaders⟩ := headRead_spec hc h
  have hlength := hheaders (ascii "content-length") (by decide) fun l hl => (p.plain l hl).notLength
  have hcoding := hheaders (ascii "transfer-encoding") (by decide) fun l hl =>
    (p.plain l hl).notCoding
  rw [fieldName_chunkedLine, if_neg (by decide)] at hlength
  rw [fieldName_chunkedLine, if_pos rfl] at hcoding
  have hframing := framing_chunked (p.serverLimit stat c chunkedLine) hlength hcoding
    (by decide +kernel)
  rw [feed_head hc h, framed_eq hc h hframing rfl, state_feedBody rfl]
  -- the body is read as chunks, under the limit of its path
  set n := p.bodyLimit stat c chunkedLine
  set req₁ : HttpRequest := { (p.headRead stat c chunkedLine).request with
    chunked := true
    contentLength := 0
    parseState := .body
    maxBodySize := n
    body := ⟨(p.headRead stat c chunkedLine).request.body.items, n⟩ } with hreq₁
  have hwritten : req₁.written = 0 := hhead.written
  have hbody : req₁.body.items = [] := hhead.body
  have hline : AtLine req₁ := by
    refine ⟨hhead.chunkTrailing, hhead.chunkSize, ?_, Nat.le_refl _⟩
    rw [Fifo.size_eq, hbody, hwritten]
    rfl
  have hread : readBody (⟨wire, n⟩ : ByteQueue) req₁ = decode ⟨wire, n⟩ req₁ :=
    congrArg Outcome.state (if_pos rfl)
  show VerdictOn n b (readBody (⟨wire, n⟩ : ByteQueue) req₁).2
  unfold VerdictOn
  rw [hread]
  by_cases hfits : b.length ≤ n
  · have hlim : req₁.written + b.length ≤ req₁.maxBodySize := by
      rw [hwritten, Nat.zero_add]
      exact hfits
    rw [if_pos hfits, @decode_message ⟨wire, n⟩ req₁ wire b [] hline hwire hlim (by simp)]
    refine ⟨rfl, ?_⟩
    show req₁.body.items ++ b = b
    rw [hbody, List.nil_append]
  · -- a chunk goes over the limit, whatever comes behind it
    obtain ⟨body, line, delim, rfl, hchunks, -, -⟩ := hwire
    rw [if_neg hfits]
    have hover : req₁.maxBodySize < req₁.written + b.length := by
      rw [hwritten, Nat.zero_add]
      exact Nat.lt_of_not_le hfits
    exact decode_chunks_tooLarge hchunks hline (by rw [hwritten]; exact Nat.zero_le _) hover rfl

/-- The verdict on the body `b` is that of the limit of its path, whether it comes in the pieces of
a request that tells its length, `v`, or of one with chunks. -/
structure FramingBlind (p : PostHead) (stat : StatAnswer) (c : Connection) (v b : Bytes)
    (pieces chunks : List (Bytes × ℕ)) : Prop where
  length : Judged (p.bodyLimit stat c (lengthLine v)) b (receive stat c pieces)
  chunked : Judged (p.bodyLimit stat c (lengthLine v)) b (receive stat c chunks)

theorem text_ne_nil (p : PostHead) (f x : Bytes) : p.text f ++ x ≠ [] := by
  simp [text, crlf]

/-- Both framings are read under one limit. -/
theorem bodyLimit_eq {f' : Bytes} (hc : c.Fresh) (h : p.Accepted stat c f)
    (h' : p.Accepted stat c f') (hf : fieldName f ≠ some (ascii "host"))
    (hf' : fieldName f' ≠ some (ascii "host")) : p.bodyLimit stat c f' = p.bodyLimit stat c f := by
  obtain ⟨-, hpath, -⟩ := headRead_spec hc h
  obtain ⟨-, hpath', -⟩ := headRead_spec hc h'
  unfold bodyLimit
  rw [config_headRead h h' hf hf', hpath, hpath']

/-- With its length, a body is also held against the limit of the server. -/
theorem judged_length {v b : Bytes} {pieces : List (Bytes × ℕ)} (hc : c.Fresh)
    (h : p.Accepted stat c (lengthLine v)) (hv : IsNumeral v b.length) (hb : b ≠ [])
    (hmax : p.serverLimit stat c (lengthLine v) ≤ 2147483647) (hp : ∀ q ∈ pieces, q.1 ≠ [])
    (hcut : (pieces.map (·.1)).flatten = p.text (lengthLine v) ++ b) :
    Judged (p.bodyLimit stat c (lengthLine v)) b (receive stat c pieces) ↔
      p.bodyLimit stat c (lengthLine v) < b.length ∨
        b.length ≤ p.serverLimit stat c (lengthLine v) ∧
          Run.Meets (feedPiece stat) Connection.TakesIn c (pieces.map (·.1)) := by
  have hverdict := verdict_length hc h hv hb hmax
  dsimp only at hverdict
  rw [judged_receive hc (text_ne_nil p _ b) hp hcut]
  by_cases hroom : Run.Meets (feedPiece stat) Connection.TakesIn c (pieces.map (·.1))
  · rw [if_pos hroom, and_iff_left hroom]
    by_cases hserver : b.length ≤ p.serverLimit stat c (lengthLine v)
    · rw [if_pos hserver] at hverdict
      exact iff_of_true hverdict (Or.inr hserver)
    · rw [if_neg hserver] at hverdict
      by_cases hover : p.bodyLimit stat c (lengthLine v) < b.length
      · rw [VerdictOn, if_neg (Nat.not_le.mpr hover)]
        exact iff_of_true hverdict (Or.inl hover)
      · rw [VerdictOn, if_pos (Nat.not_lt.mp hover), hverdict.1]
        exact iff_of_false (fun hdone => nomatch hdone.1) (not_or.mpr ⟨hover, hserver⟩)
  · rw [if_neg hroom]
    exact ⟨Or.inl, fun h => h.resolve_right fun hboth => hroom hboth.2⟩

/-- In chunks, the limit of the path is all that it is held against. -/
theorem judged_chunked {wire b : Bytes} {chunks : List (Bytes × ℕ)} (hc : c.Fresh)
    (h : p.Accepted stat c chunkedLine) (hwire : Message (AnyTwoUpTo maxAllowedChunk) wire b)
    (hp : ∀ q ∈ chunks, q.1 ≠ [])
    (hcut : (chunks.map (·.1)).flatten = p.text chunkedLine ++ wire) :
    Judged (p.bodyLimit stat c chunkedLine) b (receive stat c chunks) ↔
      p.bodyLimit stat c chunkedLine < b.length ∨
        Run.Meets (feedPiece stat) Connection.TakesIn c (chunks.map (·.1)) := by
  have hverdict := verdict_chunked hc h hwire
  rw [judged_receive hc (text_ne_nil p _ wire) hp hcut]
  by_cases hroom : Run.Meets (feedPiece stat) Connection.TakesIn c (chunks.map (·.1))
  · rw [if_pos hroom]
    exact iff_of_true hverdict (Or.inr hroom)
  · rw [if_neg hroom]
    exact ⟨Or.inl, fun h => h.resolve_right hroom⟩

/-- **When the verdict on a body does not depend on its framing**: the body is over the limit of
its path, or it is within the limit of the server too and every piece finds room, whichever way it
is sent. -/
theorem framingBlind_iff {v b wire : Bytes} {pieces chunks : List (Bytes × ℕ)} (hc : c.Fresh)
    (hlength : p.Accepted stat c (lengthLine v)) (hchunked : p.Accepted stat c chunkedLine)
    (hv : IsNumeral v b.length) (hb : b ≠ [])
    (hmax : p.serverLimit stat c (lengthLine v) ≤ 2147483647)
    (hwire : Message (AnyTwoUpTo maxAllowedChunk) wire b)
    (hpieces : ∀ q ∈ pieces, q.1 ≠ [])
    (hcut : (pieces.map (·.1)).flatten = p.text (lengthLine v) ++ b)
    (hchunks : ∀ q ∈ chunks, q.1 ≠ [])
    (hcut' : (chunks.map (·.1)).flatten = p.text chunkedLine ++ wire) :
    p.FramingBlind stat c v b pieces chunks ↔
      p.bodyLimit stat c (lengthLine v) < b.length ∨
        b.length ≤ p.serverLimit stat c (lengthLine v) ∧
          Run.Meets (feedPiece stat) Connection.TakesIn c (pieces.map (·.1)) ∧
            Run.Meets (feedPiece stat) Connection.TakesIn c (chunks.map (·.1)) := by
  have hone := judged_length hc hlength hv hb hmax hpieces hcut
  have htwo := judged_chunked hc hchunked hwire hchunks hcut'
  rw [bodyLimit_eq hc hlength hchunked (by rw [fieldName_lengthLine]; decide)
    (by rw [fieldName_chunkedLine]; decide)] at htwo
  constructor
  · intro h
    rcases hone.mp h.length with hover | ⟨hserver, hroom⟩
    · exact Or.inl hover
    · exact (htwo.mp h.chunked).imp_right fun hroom' => ⟨hserver, hroom, hroom'⟩
  · rintro (hover | ⟨hserver, hroom, hroom'⟩)
    · exact ⟨hone.mpr (Or.inl hover), htwo.mpr (Or.inl hover)⟩
    · exact ⟨hone.mpr (Or.inr ⟨hserver, hroom⟩), htwo.mpr (Or.inr hroom')⟩

end PostHead

/-! ### A location that takes more than its server -/

/-- The server takes bodies of 1000 bytes, and 2000 below `/up`. -/
private def uploadServer : Server :=
  { Server.empty with
    root := ascii "/srv"
    clientMaxBodySize := 1000
    locations := [{ Location.empty with path := ascii "/up", clientMaxBodySize := 2000 }] }

/-- The head of an upload. -/
private def uploadHead : PostHead where
  line := ascii "POST /up HTTP/1.1\r\n"
  scan := ⟨.almostDone, some 0, some 4, some 5, some 8, 1, 1⟩
  scan_eq := by decide +kernel
  before := [ascii "Host: x"]
  behind := []
  plain := fun l hl => by
    rw [List.mem_singleton.mp hl]
    exact ⟨⟨by decide +kernel, by decide +kernel, by decide +kernel⟩, by decide +kernel,
      by decide +kernel⟩

/-- A client of the server of that upload. -/
private def uploadClient : Connection :=
  { Connection.new 5 uploadServer 0 with configuration := [uploadServer] }

private theorem accepted_length (v : Bytes) (h : v = ascii "3" ∨ v = ascii "1500") :
    uploadHead.Accepted (fun _ => none) uploadClient (lengthLine v) := by
  rcases h with rfl | rfl
  · exact ⟨⟨by decide +kernel, by decide +kernel, by decide +kernel⟩, by decide +kernel,
      by decide +kernel, by decide +kernel⟩
  · exact ⟨⟨by decide +kernel, by decide +kernel, by decide +kernel⟩, by decide +kernel,
      by decide +kernel, by decide +kernel⟩

private theorem accepted_chunked :
    uploadHead.Accepted (fun _ => none) uploadClient chunkedLine :=
  ⟨⟨by decide +kernel, by decide +kernel, by decide +kernel⟩, by decide +kernel, by decide +kernel,
    by decide +kernel⟩

/-- Three bytes behind their length. -/
private def threePieces : List (Bytes × ℕ) :=
  [(uploadHead.text (lengthLine (ascii "3")), 0), (ascii "abc", 1)]

/-- The same three bytes as a chunk. -/
private def threeChunks : List (Bytes × ℕ) :=
  [(uploadHead.text chunkedLine, 0), (encodeChunk (ascii "abc") ++ lastChunk, 1)]

private theorem message_threeChunks : Message (AnyTwoUpTo maxAllowedChunk)
    (encodeChunk (ascii "abc") ++ lastChunk) (ascii "abc") := by
  have hmessage := @message_encode (AnyTwoUpTo maxAllowedChunk) [ascii "abc"]
    (fun b hb => by rw [List.mem_singleton.mp hb]; exact ⟨rfl, by decide⟩) ⟨rfl, Nat.zero_le _⟩
  exact hmessage

/-- A body of three bytes is within both limits. -/
theorem framingBlind_three : uploadHead.FramingBlind (fun _ => none) uploadClient (ascii "3")
    (ascii "abc") threePieces threeChunks :=
  (@PostHead.framingBlind_iff uploadHead (fun _ => none) uploadClient (ascii "3") (ascii "abc")
    _ threePieces threeChunks (Connection.fresh_new 5 uploadServer 0)
    (accepted_length _ (Or.inl rfl)) accepted_chunked
    ⟨by decide +kernel, by decide +kernel, by decide +kernel⟩ (by decide) (by decide +kernel)
    message_threeChunks (by decide +kernel) (by decide +kernel) (by decide +kernel)
    (by decide +kernel)).mpr (by decide +kernel)

/-- A body between the two limits. -/
@[irreducible] private def largeBody : Bytes := List.replicate 1500 97

/-- The request line, the header lines, and the body. -/
private def largePieces : List (Bytes × ℕ) :=
  [(uploadHead.line, 0), ((uploadHead.text (lengthLine (ascii "1500"))).drop 19, 1),
    (largeBody, 2)]

/-- **A body within the limit of its location may be refused**, when it is sent with its length and
the server takes less. -/
theorem not_framingBlind_large : ∃ (p : PostHead) (stat : StatAnswer) (c : Connection) (v b : Bytes)
    (pieces : List (Bytes × ℕ)), c.Fresh ∧ p.Accepted stat c (lengthLine v) ∧
      p.Accepted stat c chunkedLine ∧ IsNumeral v b.length ∧ b ≠ [] ∧
      b.length ≤ p.bodyLimit stat c (lengthLine v) ∧ (∀ q ∈ pieces, q.1 ≠ []) ∧
      (pieces.map (·.1)).flatten = p.text (lengthLine v) ++ b ∧
      Run.Meets (feedPiece stat) Connection.TakesIn c (pieces.map (·.1)) ∧
      ∀ chunks, ¬ p.FramingBlind stat c v b pieces chunks := by
  have hfresh : uploadClient.Fresh := Connection.fresh_new 5 uploadServer 0
  have haccepted := accepted_length _ (Or.inr rfl)
  have hnumeral : IsNumeral (ascii "1500") largeBody.length :=
    ⟨by decide +kernel, by decide +kernel, by decide +kernel⟩
  have hne : largeBody ≠ [] := by decide +kernel
  have hpieces : ∀ q ∈ largePieces, q.1 ≠ [] := by decide +kernel
  have hcut : (largePieces.map (·.1)).flatten =
      uploadHead.text (lengthLine (ascii "1500")) ++ largeBody := by decide +kernel
  refine ⟨uploadHead, fun _ => none, uploadClient, ascii "1500", largeBody,
    largePieces, hfresh, haccepted, accepted_chunked, hnumeral, hne, by decide +kernel, hpieces,
    hcut, ⟨by decide +kernel, by decide +kernel, by decide +kernel, trivial⟩, ?_⟩
  have hserver : ¬ largeBody.length ≤
      uploadHead.serverLimit (fun _ => none) uploadClient (lengthLine (ascii "1500")) := by
    decide +kernel
  have hjudged := @PostHead.judged_length uploadHead (fun _ => none) uploadClient (ascii "1500")
    largeBody largePieces hfresh haccepted hnumeral hne (by decide +kernel) hpieces hcut
  rintro chunks ⟨hlength, -⟩
  rcases hjudged.mp hlength with hover | ⟨hserver', -⟩
  · exact absurd hover (by decide +kernel)
  · exact hserver hserver'

end Webserv
