import Webserv.HttpParser.BodyLimit
import Webserv.HttpParser.HeaderFold
import Webserv.HttpParser.RequestLineGrammar

/-!
# The grammar of a request

A request on the wire is a request line, header lines up to a blank one, and a body that is told by
its length, is sent in chunks, or is not there.  The parser reads its input stage by stage, from
whatever pieces it comes in; what it accepts in the end is this grammar, which knows of no stages.

## Main definitions

* `BodyText` — the bytes behind a head, and the body that they carry.
* `RequestParts` — a request in its parts, its text, and what is to be read of it.
* `RequestParts.Accepted` — the conditions on each part.

## Main results

* `RequestParts.Accepted.feed` — **what is of the grammar is read.**
* `exists_parts` — **what is read is of the grammar.**
* `received_iff` — both, at every cut of the input.
-/

namespace Webserv

open Bytes ChunkedCoding

/-! ### The grammar -/

/-- What is read of a request. -/
structure Received where
  method : Bytes
  path : Bytes
  queryString : Bytes
  version : Bytes
  headers : Std.TreeMap Bytes Bytes
  body : Bytes

/-- What the request holds of it. -/
def HttpRequest.received (req : HttpRequest) : Received :=
  ⟨req.method, req.path, req.queryString, req.version, req.headers, req.body.items⟩

/-- Nothing is announced behind the head. -/
def NothingAnnounced (method : Bytes) (length coding : Option Bytes) : Prop :=
  method ≠ ascii "POST" ∧
    (length = none ∧ (∀ t ∈ coding, strTolower t ≠ ascii "chunked") ∨
      ∃ v, length = some v ∧ IsNumeral v 0 ∧ coding = none)

/-- A length is announced, which the server allows. -/
def LengthAnnounced (maxBody n : ℕ) (length coding : Option Bytes) : Prop :=
  (∃ v, length = some v ∧ IsNumeral v n) ∧ coding = none ∧ n ≠ 0 ∧ n ≤ maxBody

/-- Chunks are announced. -/
def ChunksAnnounced (length coding : Option Bytes) : Prop :=
  length = none ∧ ∃ t, coding = some t ∧ strTolower t = ascii "chunked"

/-- The bytes behind a head that belong to the request, and the body that they carry. -/
inductive BodyText (maxBody limit : ℕ) (method : Bytes) (length coding : Option Bytes) :
    Bytes → Bytes → Prop
  | none (h : NothingAnnounced method length coding) :
      BodyText maxBody limit method length coding [] []
  | length {body : Bytes} (h : LengthAnnounced maxBody body.length length coding)
      (hlimit : body.length ≤ limit) : BodyText maxBody limit method length coding body body
  | chunked {wire body : Bytes} (h : ChunksAnnounced length coding)
      (hwire : Message (AnyTwoUpTo maxAllowedChunk) wire body) (hlimit : body.length ≤ limit) :
      BodyText maxBody limit method length coding wire body

/-- The methods that the parser knows. -/
def methods : List Bytes := ["GET", "HEAD", "POST", "DELETE"].map ascii

/-- A request line that is accepted by the listener of the connection. -/
structure LineAccepted (stat : StatAnswer) (listener : Server) (method uri : Bytes) : Prop where
  known : method ∈ methods
  short : uri.length ≤ 8192
  /-- The file system has the path. -/
  there : stat (cStr (pathUnderRoot listener (listener.matchLocation (requestPath uri))
    (requestPath uri))) = none

/-- A request on the wire, in its parts. -/
structure RequestParts where
  line : Bytes
  method : Bytes
  uri : Bytes
  lines : List Bytes
  /-- The name in the Host header. -/
  host : Bytes
  wire : Bytes
  body : Bytes

namespace RequestParts

variable (p : RequestParts) (stat : StatAnswer) (c : Connection)

/-- The request as it is sent. -/
def text : Bytes := p.line ++ (fieldText p.lines ++ (crlf ++ p.wire))

/-- The headers that its lines fold to. -/
def headers : Std.TreeMap Bytes Bytes := foldHeaders ∅ p.lines

/-- The server that the request is for. -/
def server : Server := hostServer c.config c.configuration (some p.host)

/-- The limit of the body. -/
def limit : ℕ := effectiveLimit (p.server c) (requestPath p.uri)

/-- The conditions on the parts of a request. -/
structure Accepted : Prop where
  requestLine : IsRequestLine p.line p.method p.uri p.line.length
  line : LineAccepted stat c.config p.method p.uri
  unbroken : ∀ l ∈ p.lines, l ≠ [] ∧ ¬ crlf <:+: l
  lines : AcceptedLines ∅ p.lines
  host : ∃ raw port, p.headers[ascii "host"]? = some raw ∧ validateHost raw = some (p.host, port)
  body : BodyText (p.server c).getMaxBody (p.limit c) p.method
    p.headers[ascii "content-length"]? p.headers[ascii "transfer-encoding"]? p.wire p.body

/-- What is to be read of the request. -/
def received : Received where
  method := p.method
  path := requestPath p.uri
  queryString := (splitTarget (stripAuthority p.uri)).2
  version := ascii "HTTP/1.1"
  headers := p.headers.insert (ascii "host") p.host
  body := p.body

end RequestParts

/-! ### The request line -/

/-- A request line at the front of a text is one by itself. -/
theorem IsRequestLine.exists_line {text method uri : Bytes} {n : ℕ}
    (h : IsRequestLine text method uri n) :
    ∃ line rest, text = line ++ rest ∧ n = line.length ∧
      IsRequestLine line method uri line.length := by
  obtain ⟨hmethod, htoken, huri, hvisible, newlines, cr, rest, i, j, k, hnewlines, hcr,
    htext, hn⟩ := h
  refine ⟨_, rest, htext, ?_, hmethod, htoken, huri, hvisible, newlines, cr, [], i, j, k,
    hnewlines, hcr, by rw [List.append_nil], by simp⟩
  rw [htext, List.length_append] at hn
  omega

/-- A request line is one with anything behind it. -/
theorem IsRequestLine.append {line method uri : Bytes}
    (h : IsRequestLine line method uri line.length) (rest : Bytes) :
    IsRequestLine (line ++ rest) method uri line.length := by
  obtain ⟨hmethod, htoken, huri, hvisible, newlines, cr, tail, i, j, k, hnewlines, hcr,
    htext, hn⟩ := h
  refine ⟨hmethod, htoken, huri, hvisible, newlines, cr, tail ++ rest, i, j, k, hnewlines, hcr,
    ?_, ?_⟩
  · rw [htext]
    simp only [List.append_assoc]
  · simp only [List.length_append]
    omega

/-- A request when its request line has been read. -/
def lineRequest (limit : ℕ) (method uri : Bytes) : HttpRequest :=
  { HttpRequest.new limit with
    method := method
    path := requestPath uri
    queryString := (splitTarget (stripAuthority uri)).2
    version := ascii "HTTP/1.1"
    parseState := .headers
    maxBodySize := limit }

section RequestLine

variable {stat : StatAnswer} {c : Connection} {s method uri : Bytes} {n : ℕ}

theorem Connection.Fresh.atRequestLine (hc : c.Fresh) (s : Bytes) :
    AtRequestLine (c.deliver s) := by
  obtain ⟨⟨limit, hnew⟩, -⟩ := hc
  left
  rw [request_deliver, hnew]
  rfl

theorem mem_methods : method ∈ methods ↔ ¬ (method ≠ ascii "GET" ∧ method ≠ ascii "HEAD" ∧
    method ≠ ascii "POST" ∧ method ≠ ascii "DELETE") := by
  simp only [methods, List.map_cons, List.map_nil, List.mem_cons, List.not_mem_nil, or_false]
  tauto

/-- The early `stat`. -/
theorem acceptRequestLine_unfold (stat : StatAnswer) (c : Connection) (req : HttpRequest)
    (uri : Bytes) (n : ℕ) :
    match stat (cStr (pathUnderRoot c.config (c.config.matchLocation (requestPath uri))
        (requestPath uri))) with
    | none => acceptRequestLine stat c req uri 1 1 n = { c with
        readBuffer := c.readBuffer.consume n
        request := { req with
          version := ascii "HTTP/1.1"
          path := requestPath uri
          queryString := (splitTarget (stripAuthority uri)).2
          parseState := .headers } }
    | some _ => (acceptRequestLine stat c req uri 1 1 n).request.parseState = .error := by
  have hversion : ascii "HTTP/" ++ [(48 + (1 : ℤ).toNat).toUInt8, DOT,
      (48 + (1 : ℤ).toNat).toUInt8] = ascii "HTTP/1.1" := by decide
  unfold acceptRequestLine validatePath
  dsimp only
  rw [hversion]
  cases stat (cStr (pathUnderRoot c.config (c.config.matchLocation (requestPath uri))
    (requestPath uri))) with
  | none => rfl
  | some e => cases e <;> rfl

/-- **The stage of the request line** on a line that is accepted. -/
theorem requestLineStage_accepted (hc : c.Fresh) (hline : IsRequestLine s method uri n)
    (h : LineAccepted stat c.config method uri) :
    requestLineStage stat (c.deliver s) =
      { c with
        readBuffer := ⟨s.drop n, effectiveLimit c.config (requestPath uri)⟩
        request := lineRequest (effectiveLimit c.config (requestPath uri)) method uri } := by
  have hstart := hc.atRequestLine s
  obtain ⟨⟨limit, hnew⟩, hitems⟩ := hc
  have hbuf : (intoRequestLine (c.deliver s)).readBuffer.items = s := by
    show c.readBuffer.items ++ s = s
    rw [hitems, List.nil_append]
  have hparse := @IsRequestLine.parseRequestLine_eq stat (intoRequestLine (c.deliver s)) method uri
    n (hbuf.symm ▸ hline)
  have haccept := acceptRequestLine_unfold stat (intoRequestLine (c.deliver s))
    { (intoRequestLine (c.deliver s)).request with method := method } uri n
  rw [show (intoRequestLine (c.deliver s)).config = c.config from rfl, h.there] at haccept
  dsimp only at haccept
  rw [pastVersion, if_neg (Nat.not_lt.mpr h.short), if_neg (mem_methods.mp h.known),
    haccept] at hparse
  have hpath : ¬ (requestPath uri).isEmpty = true := by
    rw [List.isEmpty_iff]
    exact requestPath_ne_nil uri
  rw [requestLineStage_eq hstart, hparse, if_neg (by simp), applyLocationBodyLimit, if_neg hpath]
  have hconsume : ((intoRequestLine (c.deliver s)).readBuffer.consume n).items = s.drop n := by
    rw [Fifo.items_consume, hbuf]
  have hqueue : ((intoRequestLine (c.deliver s)).readBuffer.consume n).setLimit
      (effectiveLimit c.config (requestPath uri)) =
        ⟨s.drop n, effectiveLimit c.config (requestPath uri)⟩ := Fifo.ext hconsume rfl
  have hrequest : (intoRequestLine (c.deliver s)).request =
      { HttpRequest.new limit with parseState := .requestLine } := by
    show ({ c.request with parseState := .requestLine } : HttpRequest) = _
    rw [hnew]
  dsimp only
  rw [hrequest, ← hqueue]
  rfl

/-- Any other line is waited for or refused. -/
theorem requestLineStage_refused (hc : c.Fresh)
    (h : ∀ method uri n, IsRequestLine s method uri n → ¬ LineAccepted stat c.config method uri) :
    (requestLineStage stat (c.deliver s)).request.parseState = .requestLine ∨
      (requestLineStage stat (c.deliver s)).request.parseState = .error := by
  have hparse : (parseRequestLine stat (intoRequestLine (c.deliver s))).request.parseState =
      .requestLine ∨ (parseRequestLine stat (intoRequestLine (c.deliver s))).request.parseState =
        .error := by
    set c₁ := intoRequestLine (c.deliver s)
    have hbuf : c₁.readBuffer.items = s := by
      show c.readBuffer.items ++ s = s
      rw [hc.2, List.nil_append]
    -- the scan waits or stops, or there is a line and it is the method, version or path
    rcases @stopped_or_lineText s RLScan.init 0 rfl with hstop | hline
    · rw [← hbuf] at hstop
      rcases checkLine_of_stopped hstop with hwaits | ⟨code, -, hrefused⟩
      · rw [parseRequestLine_of_waits hwaits]
        exact Or.inl rfl
      · rw [parseRequestLine_of_refused hrefused]
        exact Or.inr rfl
    · obtain ⟨method, uri, n, hline⟩ := hline.isRequestLine
      right
      have hparse := @IsRequestLine.parseRequestLine_eq stat c₁ method uri n (hbuf.symm ▸ hline)
      rw [hparse, pastVersion]
      split
      · rfl
      · next hshort =>
        dsimp only
        split
        · rfl
        · next hknown =>
          have haccept :=
            acceptRequestLine_unfold stat c₁ { c₁.request with method := method } uri n
          split at haccept
          · next hthere =>
            exact absurd ⟨mem_methods.mpr hknown, Nat.not_lt.mp hshort, hthere⟩
              (h method uri n hline)
          · exact haccept
  rw [requestLineStage_eq (hc.atRequestLine s)]
  rcases hparse with hparse | hparse
  · rw [if_pos hparse]
    exact Or.inl hparse
  · rw [if_neg (by simp [hparse]), (applyLocationBodyLimit_frame _).1.parseState]
    exact Or.inr hparse

end RequestLine

/-! ### The header lines -/

theorem refusal_eq_none_iff {stored : Finset Bytes} {l : Bytes} :
    refusal stored l = none ↔ l.length ≤ 8192 ∧ ∃ name, fieldName l = some name ∧ name ≠ [] ∧
      (name ∈ singletonHeaders → name ∉ stored) ∧ (insert name stored).card ≤ 100 := by
  unfold refusal
  by_cases hlong : 8192 < l.length
  · simp [hlong]
  · rw [if_neg hlong]
    cases fieldName l with
    | none => simp
    | some name =>
      have hshort : l.length ≤ 8192 := Nat.not_lt.mp hlong
      dsimp only
      by_cases hbad : name = [] ∨ name ∈ singletonHeaders ∧ name ∈ stored
      · rw [if_pos hbad]
        refine iff_of_false (by simp) ?_
        rintro ⟨-, name', hname, hne, hnew, -⟩
        obtain rfl := Option.some.inj hname
        rcases hbad with hempty | ⟨hsingle, hstored⟩
        · exact hne hempty
        · exact hnew hsingle hstored
      · rw [if_neg hbad]
        rw [not_or, not_and] at hbad
        by_cases hmany : 100 < (insert name stored).card
        · simp [hmany]
        · rw [if_neg hmany]
          exact iff_of_true rfl ⟨hshort, name, rfl, hbad.1, hbad.2, Nat.not_lt.mp hmany⟩

/-- Lines are refused or not by what they say. -/
theorem unrefused_iff : ∀ {lines : List Bytes} {headers : Std.TreeMap Bytes Bytes},
    Unrefused headers lines ↔ AcceptedLines (names headers) lines := by
  intro lines
  induction lines with
  | nil => exact fun {headers} => iff_of_true (unrefused_nil headers) (acceptedLines_nil _)
  | cons l lines ih =>
    intro headers
    have hnames : ∀ {name}, fieldName l = some name →
        names (addHeader headers l) = insert name (names headers) := by
      intro name hname
      unfold addHeader
      rw [hname]
      exact names_insert _ _ _
    rw [unrefused_cons_iff, refusal_eq_none_iff, acceptedLines_cons_iff, ih]
    constructor
    · rintro ⟨⟨hshort, name, hname, hne, hnew, hfew⟩, hlines⟩
      rw [hnames hname] at hlines
      exact ⟨hshort, name, hname, hne, hnew, hfew, hlines⟩
    · rintro ⟨hshort, name, hname, hne, hnew, hfew, hlines⟩
      rw [hnames hname]
      exact ⟨⟨hshort, name, hname, hne, hnew, hfew⟩, hlines⟩

theorem unrefused_empty_iff {lines : List Bytes} :
    Unrefused ∅ lines ↔ AcceptedLines ∅ lines := by
  have hempty : names ∅ = ∅ := by
    rw [← Finset.card_eq_zero, card_names]
    exact Std.TreeMap.size_emptyc
  rw [unrefused_iff, hempty]

/-- A line that is found in front of the readable bytes. -/
theorem line_of_findCrlf {bs : Bytes} {n : ℕ} (h : findCrlf bs = some n) :
    bs = bs.take n ++ (crlf ++ bs.drop (n + 2)) ∧ (bs.take n).length = n ∧
      ¬ crlf <:+: bs.take n := by
  have hlength : n + 2 ≤ bs.length := FirstMatch.length_le_of_find h
  refine ⟨?_, by rw [List.length_take]; omega, FirstMatch.not_infix_take h (by decide) le_rfl⟩
  rw [← List.append_assoc]
  exact FirstMatch.eq_append_of_find h

/-- **The loop comes to a blank line** behind lines that are not refused. -/
theorem unrefused_of_headerLoop : ∀ s : ByteQueue × HttpRequest, s.2.parseState ≠ .error →
    (headerLoop s).2 = true → ∃ lines rest, s.1.items = fieldText lines ++ (crlf ++ rest) ∧
      (∀ l ∈ lines, l ≠ [] ∧ ¬ crlf <:+: l) ∧ Unrefused s.2.headers lines := by
  -- the induction is on the rounds of the loop, each of which takes a line off the buffer
  refine WhileLoop.loop_induction headerRound_decreasing
    (P := fun s r => s.2.parseState ≠ .error → r.2 = true →
      ∃ lines rest, s.1.items = fieldText lines ++ (crlf ++ rest) ∧
        (∀ l ∈ lines, l ≠ [] ∧ ¬ crlf <:+: l) ∧ Unrefused s.2.headers lines) ?leave ?round
  case leave =>
    rintro ⟨buf, req⟩ r hr _ hblank
    have hstep := headerStep_headerRound buf req
    rw [hr] at hstep
    cases hstep with
    | wait _ => cases hblank
    | tooLong _ _ => cases hblank
    | bad _ _ _ _ => cases hblank
    | blank hfind hzero =>
      subst hzero
      obtain ⟨hitems, -, -⟩ := line_of_findCrlf hfind
      exact ⟨[], buf.items.drop 2, hitems, by simp, unrefused_nil _⟩
  case round =>
    rintro ⟨buf, req⟩ ⟨buf', req'⟩ hr ih hreq hblank
    have hstep := headerStep_headerRound buf req
    rw [hr] at hstep
    cases hstep with
    | @line pos hfind hshort hne hgood =>
      obtain ⟨hitems, hlength, hunbroken⟩ := line_of_findCrlf hfind
      have hline := @headerLine_eq (buf.items.take pos) req (by omega)
      cases hrefusal : refusal (names req.headers) (buf.items.take pos) with
      | some code =>
        rw [hrefusal] at hline
        obtain ⟨m, hfail⟩ := hline
        rw [hfail] at hgood
        exact absurd rfl hgood
      | none =>
        rw [hrefusal] at hline
        dsimp only at hline
        obtain ⟨lines, rest, hrest, hlines, hunrefused⟩ := ih hgood hblank
        rw [hline] at hunrefused
        refine ⟨buf.items.take pos :: lines, rest, ?_, ?_, unrefused_cons_iff.mpr
          ⟨hrefusal, hunrefused⟩⟩
        · calc buf.items = buf.items.take pos ++ (crlf ++ buf.items.drop (pos + 2)) := hitems
            _ = buf.items.take pos ++ (crlf ++ (fieldText lines ++ (crlf ++ rest))) := by
                rw [← hrest]
                rfl
            _ = fieldText (buf.items.take pos :: lines) ++ (crlf ++ rest) := by
                simp only [fieldText_cons, List.append_assoc]
        · intro l hl
          rcases List.mem_cons.mp hl with rfl | hl
          · exact ⟨List.ne_nil_of_length_pos (by omega), hunbroken⟩
          · exact hlines l hl

/-- The stage of the headers, which may also wait or refuse. -/
theorem parseHeaders_cases {c : Connection} (hstate : c.request.parseState = .headers) :
    (∃ lines rest, c.readBuffer.items = fieldText lines ++ (crlf ++ rest) ∧
      (∀ l ∈ lines, l ≠ [] ∧ ¬ crlf <:+: l) ∧ Unrefused c.request.headers lines) ∨
      (parseHeaders c).request.parseState = .headers ∨
      (parseHeaders c).request.parseState = .error := by
  cases hblank : (headerLoop (c.readBuffer, c.request)).2 with
  | true => exact Or.inl (unrefused_of_headerLoop _ (by simp [hstate]) hblank)
  | false =>
    obtain ⟨-, headers, state, code, heq, hend⟩ := headerLoop_frame (c.readBuffer, c.request)
    have hparse : (parseHeaders c).request.parseState = state := by
      rw [parseHeaders, afterHeaderLoop, hblank, if_neg (by decide)]
      dsimp only
      rw [heq]
    rw [hparse]
    rcases hend with rfl | rfl
    · exact Or.inr (Or.inr rfl)
    · exact Or.inr (Or.inl hstate)

/-! ### The checks behind the lines -/

/-- A request when its headers have been read, but for its framing. -/
def headRequest (limit : ℕ) (method uri : Bytes) (headers : Std.TreeMap Bytes Bytes) :
    HttpRequest :=
  { lineRequest limit method uri with headers := headers }

section Checks

variable {c : Connection} {limit maxBody : ℕ} {method uri host : Bytes}
  {headers : Std.TreeMap Bytes Bytes}

/-- The framing looks at the headers and the method. -/
theorem framing_limits (maxBody : ℕ) (req : HttpRequest) (limit : ℕ) (body : ByteQueue) :
    framing maxBody { req with maxBodySize := limit, body := body } =
      { framing maxBody req with maxBodySize := limit, body := body } := by
  unfold framing
  dsimp only
  split
  · rfl
  · split
    · rfl
    · split_ifs
      all_goals rfl

theorem hostServer_mem (listener : Server) (servers : List Server) (host : Option Bytes) :
    hostServer listener servers host ∈ listener :: servers := by
  unfold hostServer
  cases h : host.bind fun name => servers.find? fun s => s.serverName == name with
  | none => exact List.mem_cons_self
  | some s =>
    obtain ⟨name, -, hfind⟩ := Option.bind_eq_some_iff.mp h
    exact List.mem_cons_of_mem _ (List.mem_of_find?_eq_some hfind)

/-- The server that a name selects. -/
theorem overrideHost_spec (c : Connection) (host : Bytes) :
    (overrideHost c host).config = hostServer c.config c.configuration (some host) ∧
      (overrideHost c host).readBuffer.items = c.readBuffer.items ∧
      ∃ limit, (overrideHost c host).request =
        { c.request with body := ⟨c.request.body.items, limit⟩ } := by
  unfold overrideHost hostServer
  dsimp only [Option.bind_some]
  cases c.configuration.find? fun s => s.serverName == host with
  | none => exact ⟨rfl, rfl, c.request.body.limit, rfl⟩
  | some s => exact ⟨rfl, rfl, s.getMaxBody, rfl⟩

/-- **The checks behind the lines**, for a request whose host has a name. -/
theorem finishHeaders_named {raw : Bytes} {port : ℕ}
    (hrequest : c.request = headRequest limit method uri headers)
    (hraw : headers[ascii "host"]? = some raw) (hvalid : validateHost raw = some (host, port)) :
    (finishHeaders c).config = hostServer c.config c.configuration (some host) ∧
      (finishHeaders c).readBuffer.items = c.readBuffer.items ∧
      ∃ k, (finishHeaders c).request = { framing (hostServer c.config c.configuration
        (some host)).getMaxBody (headRequest limit method uri (headers.insert (ascii "host") host))
          with maxBodySize := limit, body := ⟨[], k⟩ } := by
  obtain ⟨hconfig, hitems, k, hover⟩ := overrideHost_spec c host
  have hchecks : hostChecks c = { overrideHost c host with request :=
      { (overrideHost c host).request with
        headers := (overrideHost c host).request.headers.insert (ascii "host") host } } := by
    have hheader : c.request.headers[ascii "host"]? = some raw := by
      rw [hrequest]
      exact hraw
    unfold hostChecks
    dsimp only
    rw [hheader]
    dsimp only
    rw [hvalid]
  have hgood : (hostChecks c).request.parseState ≠ .error := by
    rw [hchecks, hover, hrequest]
    simp [headRequest, lineRequest]
  unfold finishHeaders
  dsimp only
  rw [if_neg hgood, hchecks]
  refine ⟨hconfig, hitems, k, ?_⟩
  dsimp only
  rw [hconfig, ← framing_limits, hover, hrequest]
  rfl

/-- A request whose host has no name is refused. -/
theorem finishHeaders_unnamed (hrequest : c.request = headRequest limit method uri headers)
    (h : ∀ raw host port, headers[ascii "host"]? = some raw →
      validateHost raw ≠ some (host, port)) : (finishHeaders c).request.parseState = .error := by
  have hversion : c.request.version = ascii "HTTP/1.1" := by
    rw [hrequest]
    rfl
  have hheaders : c.request.headers = headers := by
    rw [hrequest]
    rfl
  have hchecks : (hostChecks c).request.parseState = .error := by
    unfold hostChecks
    dsimp only
    rw [hheaders]
    cases hraw : headers[ascii "host"]? with
    | none =>
      dsimp only
      rw [if_pos hversion]
      rfl
    | some raw =>
      dsimp only
      cases hvalid : validateHost raw with
      | none => rfl
      | some v => exact absurd hvalid (h raw v.1 v.2 hraw)
  unfold finishHeaders
  dsimp only
  rw [if_pos hchecks]
  exact hchecks

end Checks

/-! ### The framing -/

section Framing

variable {req : HttpRequest} {maxBody n : ℕ}

/-- The loop takes digits only. -/
theorem digits_of_contentLengthLoop : ∀ {v : Bytes} {acc : ℕ},
    contentLengthLoop maxBody acc v = .ok n → ∀ d ∈ v, isDigit d = true := by
  intro v
  induction v with
  | nil => simp
  | cons d v ih =>
    intro acc h
    rw [contentLengthLoop] at h
    split at h
    · cases h
    · next hd =>
      dsimp only at h
      split at h
      · cases h
      · intro d' hd'
        rcases List.mem_cons.mp hd' with rfl | hd'
        · simpa using hd
        · exact ih h d' hd'

theorem framing_of_noLength (maxBody : ℕ) (hzero : req.contentLength = 0)
    (hchunked : req.chunked = false) (hlength : req.headers[ascii "content-length"]? = none) :
    framing maxBody req =
      if ∃ t ∈ req.headers[ascii "transfer-encoding"]?, strTolower t = ascii "chunked" then
        { req with chunked := true, contentLength := 0, parseState := .body }
      else if req.method = ascii "POST" then req.fail 411
      else { req with parseState := .complete } := by
  by_cases hcoding : ∃ t ∈ req.headers[ascii "transfer-encoding"]?, strTolower t = ascii "chunked"
  · rw [if_pos hcoding]
    obtain ⟨t, ht, hlower⟩ := hcoding
    exact framing_chunked maxBody hlength ht hlower
  · have hany : (req.headers[ascii "transfer-encoding"]?).any
        (fun t => strTolower t == ascii "chunked") = false := by
      rw [Bool.eq_false_iff]
      intro h
      obtain ⟨t, ht, hlower⟩ := (Option.any_eq_true _ _).mp h
      exact hcoding ⟨t, ht, beq_iff_eq.mp hlower⟩
    rw [if_neg hcoding]
    obtain ⟨⟩ := req
    dsimp only at hzero hchunked hlength hany ⊢
    subst hzero hchunked
    unfold framing
    rw [hlength]
    dsimp only
    rw [hany]
    rfl

theorem framing_of_coded (maxBody : ℕ) {v t : Bytes}
    (hlength : req.headers[ascii "content-length"]? = some v)
    (hcoding : req.headers[ascii "transfer-encoding"]? = some t) :
    framing maxBody req = req.fail 400 := by
  unfold framing
  rw [hlength, hcoding]
  rfl

theorem framing_of_numeral {v : Bytes} (hmax : maxBody ≤ 2147483647)
    (hchunked : req.chunked = false) (hlength : req.headers[ascii "content-length"]? = some v)
    (hcoding : req.headers[ascii "transfer-encoding"]? = none) (hv : IsNumeral v n) :
    framing maxBody req =
      if maxBody < n then req.fail 413
      else if n = 0 then
        if req.method = ascii "POST" then { req with contentLength := 0 }.fail 411
        else { req with contentLength := 0, parseState := .complete }
      else { req with contentLength := n, parseState := .body } := by
  have hne : ¬ v.isEmpty = true := by
    rw [List.isEmpty_iff]
    exact hv.ne_nil
  have hloop := (contentLengthLoop_digits hmax hv.digits).1
  rw [hv.value] at hloop
  unfold framing
  rw [hlength, hcoding]
  dsimp only
  rw [if_neg (by simp), if_neg hne, hloop, hchunked]
  by_cases hle : n ≤ maxBody
  · rw [if_pos hle, if_neg (Nat.not_lt.mpr hle)]
    dsimp only
    by_cases hn : n = 0
    · subst hn
      rfl
    · rw [if_neg hn]
      simp [hn]
  · rw [if_neg hle, if_pos (Nat.lt_of_not_le hle)]

/-- A length that is accepted is a numeral. -/
theorem isNumeral_of_framing {v : Bytes}
    (hlength : req.headers[ascii "content-length"]? = some v)
    (hcoding : req.headers[ascii "transfer-encoding"]? = none)
    (hgood : (framing maxBody req).parseState ≠ .error) :
    IsNumeral v (decimalValue v) := by
  unfold framing at hgood
  rw [hlength, hcoding] at hgood
  dsimp only at hgood
  rw [if_neg (by simp)] at hgood
  by_cases hempty : v.isEmpty = true
  · rw [if_pos hempty] at hgood
    exact absurd rfl hgood
  · rw [if_neg hempty] at hgood
    cases hloop : contentLengthLoop maxBody 0 v with
    | error code =>
      rw [hloop] at hgood
      exact absurd rfl hgood
    | ok n => exact ⟨by simpa using hempty, digits_of_contentLengthLoop hloop, rfl⟩

/-- **What a request announces** that is not refused, and where that leaves it. -/
theorem announced_of_framing (hmax : maxBody ≤ 2147483647) (hzero : req.contentLength = 0)
    (hchunked : req.chunked = false) (hgood : (framing maxBody req).parseState ≠ .error) :
    NothingAnnounced req.method req.headers[ascii "content-length"]?
        req.headers[ascii "transfer-encoding"]? ∨
      (∃ n, LengthAnnounced maxBody n req.headers[ascii "content-length"]?
        req.headers[ascii "transfer-encoding"]?) ∨
      ChunksAnnounced req.headers[ascii "content-length"]?
        req.headers[ascii "transfer-encoding"]? := by
  cases hlength : req.headers[ascii "content-length"]? with
  | none =>
    rw [framing_of_noLength maxBody hzero hchunked hlength] at hgood
    split at hgood
    · next hcoding =>
      obtain ⟨t, ht, hlower⟩ := hcoding
      exact Or.inr (Or.inr ⟨rfl, t, ht, hlower⟩)
    · next hcoding =>
      split at hgood
      · exact absurd rfl hgood
      · next hmethod => exact Or.inl ⟨hmethod, Or.inl ⟨rfl, fun t ht h => hcoding ⟨t, ht, h⟩⟩⟩
  | some v =>
    cases hcoding : req.headers[ascii "transfer-encoding"]? with
    | some t =>
      rw [framing_of_coded maxBody hlength hcoding] at hgood
      exact absurd rfl hgood
    | none =>
      have hv := isNumeral_of_framing hlength hcoding hgood
      rw [framing_of_numeral hmax hchunked hlength hcoding hv] at hgood
      split at hgood
      · exact absurd rfl hgood
      · next hle =>
        split at hgood
        · next hn =>
          split at hgood
          · exact absurd rfl hgood
          · next hmethod => exact Or.inl ⟨hmethod, Or.inr ⟨v, rfl, hn ▸ hv, rfl⟩⟩
        · next hn => exact Or.inr (Or.inl ⟨_, ⟨v, rfl, hv⟩, rfl, hn, Nat.not_lt.mp hle⟩)

theorem NothingAnnounced.framing_eq (hmax : maxBody ≤ 2147483647)
    (hzero : req.contentLength = 0) (hchunked : req.chunked = false)
    (h : NothingAnnounced req.method req.headers[ascii "content-length"]?
      req.headers[ascii "transfer-encoding"]?) :
    framing maxBody req = { req with parseState := .complete } := by
  obtain ⟨hmethod, ⟨hlength, hcoding⟩ | ⟨v, hlength, hv, hcoding⟩⟩ := h
  · rw [framing_of_noLength maxBody hzero hchunked hlength, if_neg, if_neg hmethod]
    rintro ⟨t, ht, hlower⟩
    exact hcoding t ht hlower
  · rw [framing_of_numeral hmax hchunked hlength hcoding hv, if_neg (Nat.not_lt_zero _),
      if_pos rfl, if_neg hmethod, ← hzero]

theorem LengthAnnounced.framing_eq (hmax : maxBody ≤ 2147483647)
    (hchunked : req.chunked = false) (h : LengthAnnounced maxBody n
      req.headers[ascii "content-length"]? req.headers[ascii "transfer-encoding"]?) :
    framing maxBody req = { req with contentLength := n, parseState := .body } := by
  obtain ⟨⟨v, hlength, hv⟩, hcoding, hn, hle⟩ := h
  rw [framing_of_numeral hmax hchunked hlength hcoding hv, if_neg (Nat.not_lt.mpr hle), if_neg hn]

theorem ChunksAnnounced.framing_eq (maxBody : ℕ) (h : ChunksAnnounced
      req.headers[ascii "content-length"]? req.headers[ascii "transfer-encoding"]?) :
    framing maxBody req =
      { req with chunked := true, contentLength := 0, parseState := .body } := by
  obtain ⟨hlength, t, hcoding, ht⟩ := h
  exact framing_chunked maxBody hlength hcoding ht

end Framing

/-! ### The body -/

section Bodies

variable {req : HttpRequest} {buf : ByteQueue}

/-- **A body of announced length** is there when its bytes are, within the limit. -/
theorem readBody_length (hwf : BodyWf req) (hchunked : req.chunked = false)
    (hstate : req.parseState = .body) (hlength : req.contentLength ≠ 0)
    (hwritten : req.written = 0) :
    if req.contentLength ≤ buf.size ∧ req.contentLength ≤ req.maxBodySize then
      (readBody buf req).2 =
        { req.grow (buf.items.take req.contentLength) with parseState := .complete }
    else (readBody buf req).2.parseState ≠ .complete := by
  have hread : readBody buf req = (parseBody buf req).state :=
    congrArg Outcome.state (if_neg (by simp [hchunked]))
  have hle : req.written ≤ req.contentLength := by omega
  have hstep : FixedStep buf req (parseBody buf req).state :=
    (fixedStep_iff hwf hlength hle).mp rfl
  rw [hread]
  generalize (parseBody buf req).state = s at hstep ⊢
  cases hstep with
  | wait hsize =>
    rw [if_neg (by omega), hstate]
    decide
  | tooLarge hsize hover =>
    rw [if_neg (by omega)]
    simp
  | complete hsize hthere hlimit =>
    rw [if_pos (by omega), hwritten]
    rfl
  | more hsize hless hlimit =>
    rw [if_neg (by omega)]
    show req.parseState ≠ .complete
    rw [hstate]
    decide

/-- **A body in chunks** is there when a message of the coding is, within the limit. -/
theorem readBody_chunked (hline : AtLine req) (hchunked : req.chunked = true)
    (hstate : req.parseState = .body) (hwritten : req.written = 0) :
    (∀ wire payload rest, buf.items = wire ++ rest →
        Message (AnyTwoUpTo maxAllowedChunk) wire payload → payload.length ≤ req.maxBodySize →
          (readBody buf req).2 =
            { (req.grow payload).setChunk 0 false true with parseState := .complete }) ∧
      ((readBody buf req).2.parseState = .complete → ∃ wire payload rest,
        buf.items = wire ++ rest ∧ Message (AnyTwoUpTo maxAllowedChunk) wire payload ∧
          payload.length ≤ req.maxBodySize) := by
  have hread : readBody buf req = decode buf req :=
    congrArg Outcome.state (if_pos hchunked)
  rw [hread]
  constructor
  · intro wire payload rest hbuf hwire hlimit
    rw [decode_message hline hwire (by omega) hbuf]
  · intro hend
    obtain ⟨wire, payload, hwire, hbuf, -, -, hlimit⟩ :=
      message_of_decode hline.2.2 hstate (by omega) hend
    exact ⟨wire, payload, _, hbuf, hline.rest_iff.mp hwire, by omega⟩

variable {c : Connection} {limit maxBody : ℕ} {method uri : Bytes}
  {headers : Std.TreeMap Bytes Bytes}

theorem state_feedBody_request (h : c.request.parseState = .body) :
    (feedBody c).state.request = (readBody c.readBuffer c.request).2 := by
  rw [state_feedBody h]

/-- **A body of the grammar is read.** -/
theorem BodyText.feedBody {wire body rest : Bytes} (hmax : maxBody ≤ 2147483647)
    (hbuf : c.readBuffer.items = wire ++ rest)
    (hreq : c.request = framing maxBody (headRequest limit method uri headers))
    (h : BodyText maxBody limit method headers[ascii "content-length"]?
      headers[ascii "transfer-encoding"]? wire body) :
    (feedBody c).state.request.parseState = .complete ∧
      (feedBody c).state.request.received =
        ⟨method, requestPath uri, (splitTarget (stripAuthority uri)).2, ascii "HTTP/1.1", headers,
          body⟩ := by
  cases h with
  | none h =>
    rw [NothingAnnounced.framing_eq hmax rfl rfl h] at hreq
    rw [feedBody_of_ne (by simp [hreq]), Outcome.state_ok, hreq]
    exact ⟨rfl, rfl⟩
  | length h hlimit =>
    rw [LengthAnnounced.framing_eq hmax rfl h] at hreq
    have hwf : BodyWf c.request := by
      rw [hreq]
      exact ⟨rfl, Nat.le_refl _⟩
    have hread := @readBody_length c.request c.readBuffer hwf (by rw [hreq]; rfl) (by rw [hreq])
      (by rw [hreq]; exact h.2.2.1) (by rw [hreq]; rfl)
    -- the body is there as a whole, within its limit
    have hthere : c.request.contentLength ≤ c.readBuffer.size ∧
        c.request.contentLength ≤ c.request.maxBodySize := by
      rw [hreq, Fifo.size_eq, hbuf, List.length_append]
      exact ⟨Nat.le_add_right _ _, hlimit⟩
    rw [if_pos hthere] at hread
    rw [state_feedBody_request (by rw [hreq]), hread, hbuf, hreq]
    have hbody : [] ++ (wire ++ rest).take wire.length = wire := by
      rw [List.nil_append, List.take_left]
    exact ⟨rfl, congrArg (Received.mk method (requestPath uri) (splitTarget (stripAuthority uri)).2
      (ascii "HTTP/1.1") headers) hbody⟩
  | chunked h hwire hlimit =>
    rw [ChunksAnnounced.framing_eq maxBody h] at hreq
    have hline : AtLine c.request := by
      rw [hreq]
      exact ⟨rfl, rfl, rfl, Nat.le_refl _⟩
    have hread := (@readBody_chunked c.request c.readBuffer hline (by rw [hreq]) (by rw [hreq])
      (by rw [hreq]; rfl)).1 wire body rest hbuf hwire (by rw [hreq]; exact hlimit)
    rw [state_feedBody_request (by rw [hreq]), hread, hreq]
    exact ⟨rfl, rfl⟩

/-- **A body that is read is of the grammar.** -/
theorem exists_bodyText (hmax : maxBody ≤ 2147483647)
    (hreq : c.request = framing maxBody (headRequest limit method uri headers))
    (hend : (feedBody c).state.request.parseState = .complete) :
    ∃ wire body rest, c.readBuffer.items = wire ++ rest ∧
      BodyText maxBody limit method headers[ascii "content-length"]?
        headers[ascii "transfer-encoding"]? wire body := by
  -- a head that is refused leads to no body
  have hgood : (framing maxBody (headRequest limit method uri headers)).parseState ≠ .error := by
    intro herror
    rw [feedBody_of_ne (by rw [hreq, herror]; decide), Outcome.state_ok, hreq, herror] at hend
    cases hend
  rcases announced_of_framing hmax rfl rfl hgood with h | ⟨n, h⟩ | h
  · exact ⟨[], [], c.readBuffer.items, rfl, .none h⟩
  · rw [LengthAnnounced.framing_eq hmax rfl h] at hreq
    have hwf : BodyWf c.request := by
      rw [hreq]
      exact ⟨rfl, Nat.le_refl _⟩
    have hread := @readBody_length c.request c.readBuffer hwf (by rw [hreq]; rfl) (by rw [hreq])
      (by rw [hreq]; exact h.2.2.1) (by rw [hreq]; rfl)
    rw [state_feedBody_request (by rw [hreq])] at hend
    split at hread
    · next hthere =>
      rw [hreq] at hthere
      obtain ⟨hthere, hlimit⟩ := hthere
      have hlength : (c.readBuffer.items.take n).length = n := Fifo.length_take _ hthere
      refine ⟨c.readBuffer.items.take n, c.readBuffer.items.take n, c.readBuffer.items.drop n,
        (List.take_append_drop n _).symm, .length ?_ ?_⟩
      · rwa [hlength]
      · rw [hlength]
        exact hlimit
    · exact absurd hend hread
  · rw [ChunksAnnounced.framing_eq maxBody h] at hreq
    have hline : AtLine c.request := by
      rw [hreq]
      exact ⟨rfl, rfl, rfl, Nat.le_refl _⟩
    rw [state_feedBody_request (by rw [hreq])] at hend
    obtain ⟨wire, body, rest, hbuf, hwire, hlimit⟩ := (@readBody_chunked c.request c.readBuffer
      hline (by rw [hreq]) (by rw [hreq]) (by rw [hreq]; rfl)).2 hend
    rw [hreq] at hlimit
    exact ⟨wire, body, rest, hbuf, .chunked h hwire hlimit⟩

end Bodies

/-! ### A whole request -/

section Whole

variable {stat : StatAnswer} {c : Connection} {s : Bytes}

/-- The limit that the framing is compared with is that of one of the servers. -/
theorem maxBody_server {host : Option Bytes}
    (hlimits : ∀ s ∈ c.config :: c.configuration, s.getMaxBody ≤ 2147483647) :
    (hostServer c.config c.configuration host).getMaxBody ≤ 2147483647 :=
  hlimits _ (hostServer_mem c.config c.configuration host)

/-- The connection when the parser comes to the body. -/
def Connection.behindHead (stat : StatAnswer) (c : Connection) (s : Bytes) : Connection :=
  applyLocationBodyLimit (headerStage (requestLineStage stat (c.deliver s)))

theorem feed_deliver (hc : c.Fresh) (s : Bytes) :
    feed stat (c.deliver s) = feedBody (c.behindHead stat s) := by
  apply feed_of_not_terminal
  obtain ⟨⟨limit, hnew⟩, -⟩ := hc
  rw [request_deliver, hnew]
  rfl

/-- **The parser behind a head of the grammar.** -/
theorem behindHead_spec {method uri host raw rest : Bytes} {n port : ℕ} {lines : List Bytes}
    (hc : c.Fresh) (hline : IsRequestLine s method uri n)
    (haccept : LineAccepted stat c.config method uri)
    (hitems : s.drop n = fieldText lines ++ (crlf ++ rest))
    (hlines : ∀ l ∈ lines, l ≠ [] ∧ ¬ crlf <:+: l) (hunrefused : Unrefused ∅ lines)
    (hraw : (foldHeaders ∅ lines)[ascii "host"]? = some raw)
    (hvalid : validateHost raw = some (host, port)) :
    (c.behindHead stat s).readBuffer.items = rest ∧
      (c.behindHead stat s).request =
        framing (hostServer c.config c.configuration (some host)).getMaxBody
          (headRequest (effectiveLimit (hostServer c.config c.configuration (some host))
            (requestPath uri)) method uri ((foldHeaders ∅ lines).insert (ascii "host") host)) := by
  unfold Connection.behindHead
  rw [requestLineStage_accepted hc hline haccept]
  -- the connection behind the line, and then behind the header lines
  set limit := effectiveLimit c.config (requestPath uri)
  set c₁ : Connection := { c with
    readBuffer := ⟨s.drop n, limit⟩
    request := lineRequest limit method uri }
  set c₂ : Connection := { c₁ with
    readBuffer := ⟨rest, limit⟩
    request := headRequest limit method uri (foldHeaders ∅ lines) }
  have hheaders : headerStage c₁ = finishHeaders c₂ := by
    have hstage : headerStage c₁ = parseHeaders c₁ := if_pos rfl
    rw [hstage]
    exact parseHeaders_unrefused rfl hlines hitems hunrefused
  obtain ⟨hconfig, hrest, k, hrequest⟩ := @finishHeaders_named c₂ limit method uri host
    (foldHeaders ∅ lines) raw port rfl hraw hvalid
  have hpath : (finishHeaders c₂).request.path = requestPath uri := by
    rw [hrequest]
    exact (framing_cases _ _).1
  -- the limit is set anew, for the server that the host selects
  have hne : ¬ (finishHeaders c₂).request.path.isEmpty = true := by
    rw [hpath, List.isEmpty_iff]
    exact requestPath_ne_nil uri
  have hlimit : effectiveLimit (finishHeaders c₂).config (finishHeaders c₂).request.path =
      effectiveLimit (hostServer c.config c.configuration (some host)) (requestPath uri) := by
    rw [hconfig, hpath]
  rw [hheaders, applyLocationBodyLimit, if_neg hne]
  dsimp only
  rw [hlimit]
  refine ⟨hrest, ?_⟩
  rw [hrequest]
  exact (framing_limits _ (headRequest limit method uri _) _ ⟨[], _⟩).symm

theorem getElem?_insert_host {headers : Std.TreeMap Bytes Bytes} {host key : Bytes}
    (h : ascii "host" ≠ key) : (headers.insert (ascii "host") host)[key]? = headers[key]? := by
  rw [Std.TreeMap.getElem?_insert, if_neg]
  rwa [Std.LawfulEqCmp.compare_eq_iff_eq]

/-- The parser behind the head of a request of the grammar. -/
theorem RequestParts.Accepted.behindHead {p : RequestParts} (hc : c.Fresh)
    (h : p.Accepted stat c) (rest : Bytes) :
    (c.behindHead stat (p.text ++ rest)).readBuffer.items = p.wire ++ rest ∧
      (c.behindHead stat (p.text ++ rest)).request = framing (p.server c).getMaxBody
        (headRequest (p.limit c) p.method p.uri (p.headers.insert (ascii "host") p.host)) := by
  obtain ⟨raw, port, hraw, hvalid⟩ := h.host
  have hitems : (p.text ++ rest).drop p.line.length =
      fieldText p.lines ++ (crlf ++ (p.wire ++ rest)) := by
    rw [text, List.append_assoc, List.drop_left]
    simp only [List.append_assoc]
  have hline : IsRequestLine (p.text ++ rest) p.method p.uri p.line.length := by
    rw [text, List.append_assoc]
    exact h.requestLine.append _
  exact behindHead_spec hc hline h.line hitems h.unbroken (unrefused_empty_iff.mpr h.lines) hraw
    hvalid

/-- The body, as the headers that the parser keeps announce it. -/
theorem RequestParts.Accepted.bodyText {p : RequestParts} (h : p.Accepted stat c) :
    BodyText (p.server c).getMaxBody (p.limit c) p.method
      (p.headers.insert (ascii "host") p.host)[ascii "content-length"]?
      (p.headers.insert (ascii "host") p.host)[ascii "transfer-encoding"]? p.wire p.body := by
  rw [getElem?_insert_host (by decide), getElem?_insert_host (by decide)]
  exact h.body

/-- **What is of the grammar is read**, whatever stands behind it. -/
theorem RequestParts.Accepted.feed {p : RequestParts} (hc : c.Fresh)
    (hlimits : ∀ s ∈ c.config :: c.configuration, s.getMaxBody ≤ 2147483647)
    (h : p.Accepted stat c) (rest : Bytes) :
    (Webserv.feed stat (c.deliver (p.text ++ rest))).state.request.parseState = .complete ∧
      (Webserv.feed stat (c.deliver (p.text ++ rest))).state.request.received = p.received := by
  obtain ⟨hbuf, hrequest⟩ := h.behindHead hc rest
  rw [feed_deliver hc]
  exact h.bodyText.feedBody (maxBody_server hlimits) hbuf hrequest

/-- A request that does not come to its body is not complete. -/
theorem feedBody_ne_complete {c : Connection} (hbody : c.request.parseState ≠ .body)
    (hcomplete : c.request.parseState ≠ .complete) :
    (feedBody (applyLocationBodyLimit c)).state.request.parseState ≠ .complete := by
  have hstate := (applyLocationBodyLimit_frame c).1.parseState
  rw [feedBody_of_ne (by rwa [hstate]), Outcome.state_ok, hstate]
  exact hcomplete

/-- A request that is complete has a request line. -/
theorem line_of_complete (hc : c.Fresh)
    (hend : (feed stat (c.deliver s)).state.request.parseState = .complete) :
    ∃ method uri n, IsRequestLine s method uri n ∧ LineAccepted stat c.config method uri := by
  by_contra hnone
  rw [feed_deliver hc, Connection.behindHead] at hend
  have hrefused : (headerStage (requestLineStage stat (c.deliver s))).request.parseState =
      .requestLine ∨
        (headerStage (requestLineStage stat (c.deliver s))).request.parseState = .error := by
    rcases @requestLineStage_refused stat c s hc fun method uri n hline haccept =>
      hnone ⟨method, uri, n, hline, haccept⟩ with h | h
    · rw [headerStage_of_ne (by simp [h])]
      exact Or.inl h
    · rw [headerStage_of_ne (by simp [h])]
      exact Or.inr h
  rcases hrefused with h | h
  · exact feedBody_ne_complete (by simp [h]) (by simp [h]) hend
  · exact feedBody_ne_complete (by simp [h]) (by simp [h]) hend

/-- A request that is complete has a header section, and a name of its host there. -/
theorem head_of_complete {method uri : Bytes} {n : ℕ} (hc : c.Fresh)
    (hline : IsRequestLine s method uri n) (haccept : LineAccepted stat c.config method uri)
    (hend : (feed stat (c.deliver s)).state.request.parseState = .complete) :
    ∃ lines rest raw host port, s.drop n = fieldText lines ++ (crlf ++ rest) ∧
      (∀ l ∈ lines, l ≠ [] ∧ ¬ crlf <:+: l) ∧ Unrefused ∅ lines ∧
        (foldHeaders ∅ lines)[ascii "host"]? = some raw ∧ validateHost raw = some (host, port) := by
  rw [feed_deliver hc, Connection.behindHead, requestLineStage_accepted hc hline haccept] at hend
  set limit := effectiveLimit c.config (requestPath uri)
  set c₁ : Connection := { c with
    readBuffer := ⟨s.drop n, limit⟩
    request := lineRequest limit method uri } with hc₁
  have hstage : headerStage c₁ = parseHeaders c₁ := if_pos rfl
  rw [hstage] at hend
  have hstate : c₁.request.parseState = .headers := rfl
  rcases parseHeaders_cases hstate with ⟨lines, rest, hitems, hlines, hunrefused⟩ | h | h
  · by_cases hnamed : ∃ raw host port, (foldHeaders ∅ lines)[ascii "host"]? = some raw ∧
      validateHost raw = some (host, port)
    · obtain ⟨raw, host, port, hraw, hvalid⟩ := hnamed
      exact ⟨lines, rest, raw, host, port, hitems, hlines, hunrefused, hraw, hvalid⟩
    · exfalso
      rw [parseHeaders_unrefused hstate hlines hitems hunrefused] at hend
      have herror := @finishHeaders_unnamed { c₁ with
          readBuffer := ⟨rest, limit⟩
          request := { c₁.request with headers := foldHeaders c₁.request.headers lines } }
        limit method uri (foldHeaders ∅ lines) rfl fun raw host port hraw hvalid =>
          hnamed ⟨raw, host, port, hraw, hvalid⟩
      exact feedBody_ne_complete (by rw [herror]; decide) (by rw [herror]; decide) hend
  · exact absurd hend (feedBody_ne_complete (by simp [h]) (by simp [h]))
  · exact absurd hend (feedBody_ne_complete (by simp [h]) (by simp [h]))

/-- **What is read is of the grammar.** -/
theorem exists_parts (hc : c.Fresh)
    (hlimits : ∀ s ∈ c.config :: c.configuration, s.getMaxBody ≤ 2147483647)
    (hend : (feed stat (c.deliver s)).state.request.parseState = .complete) :
    ∃ (p : RequestParts) (rest : Bytes), s = p.text ++ rest ∧ p.Accepted stat c := by
  obtain ⟨method, uri, n, hline, haccept⟩ := line_of_complete hc hend
  obtain ⟨lines, rest, raw, host, port, hitems, hlines, hunrefused, hraw, hvalid⟩ :=
    head_of_complete hc hline haccept hend
  obtain ⟨hbuf, hrequest⟩ := behindHead_spec hc hline haccept hitems hlines hunrefused hraw hvalid
  rw [feed_deliver hc] at hend
  obtain ⟨wire, body, behind, hrest, hbody⟩ :=
    exists_bodyText (maxBody_server hlimits) hrequest hend
  rw [getElem?_insert_host (by decide), getElem?_insert_host (by decide)] at hbody
  obtain ⟨line, tail, rfl, rfl, hrequestLine⟩ := hline.exists_line
  rw [List.drop_left] at hitems
  refine ⟨⟨line, method, uri, lines, host, wire, body⟩, behind, ?_, hrequestLine, haccept, hlines,
    unrefused_empty_iff.mp hunrefused, ⟨raw, port, hraw, hvalid⟩, hbody⟩
  rw [RequestParts.text, hitems, ← hbuf, hrest]
  simp only [List.append_assoc]

theorem SameParse.received {c c' : Connection} (h : SameParse c c')
    (hgood : c.request.parseState ≠ .error) : c.request.received = c'.request.received := by
  unfold HttpRequest.received
  rw [h.verdict.method, h.verdict.path, h.verdict.queryString, h.verdict.version, h.verdict.headers,
    (h.body hgood).1]

/-- **The parser accepts exactly the requests of the grammar**, and reads of them what they say,
however its input is cut. -/
theorem received_iff (hc : c.Fresh)
    (hlimits : ∀ s ∈ c.config :: c.configuration, s.getMaxBody ≤ 2147483647)
    {pieces : List Bytes} (hp : ∀ q ∈ pieces, q ≠ []) (r : Received) :
    (pieces.foldl (feedPiece stat) c).request.parseState = .complete ∧
        (pieces.foldl (feedPiece stat) c).request.received = r ↔
      ∃ (p : RequestParts) (rest : Bytes),
        pieces.flatten = p.text ++ rest ∧ p.Accepted stat c ∧ p.received = r := by
  have hidle : c.request.parseState = .idle := by
    obtain ⟨⟨limit, hnew⟩, -⟩ := hc
    rw [hnew]
    rfl
  by_cases hnil : pieces = []
  · subst hnil
    constructor
    · rintro ⟨hend, -⟩
      rw [List.foldl_nil, hidle] at hend
      cases hend
    · rintro ⟨p, rest, htext, -, -⟩
      simp [RequestParts.text, crlf] at htext
  · -- the pieces do what the whole input does
    have hsame := ((feedPiece_law stat).foldl_flatten pieces c hc.resumable hnil hp).sameParse
    rw [feedPiece, if_neg (by rw [hidle]; decide)] at hsame
    have hstate := hsame.verdict.parseState
    constructor
    · rintro ⟨hend, rfl⟩
      obtain ⟨p, rest, htext, haccept⟩ := exists_parts hc hlimits (hstate.symm.trans hend)
      obtain ⟨-, hreceived⟩ := haccept.feed hc hlimits rest
      rw [← htext] at hreceived
      exact ⟨p, rest, htext, haccept, by rw [← hreceived, hsame.received (by simp [hend])]⟩
    · rintro ⟨p, rest, htext, haccept, rfl⟩
      obtain ⟨hend, hreceived⟩ := haccept.feed hc hlimits rest
      rw [← htext] at hend hreceived
      have hcomplete := hstate.trans hend
      exact ⟨hcomplete, by rw [hsame.received (by simp [hcomplete]), hreceived]⟩

end Whole

/-- A request with a body of three bytes, in two pieces, and the start of another. -/
private def postInPieces : List Bytes :=
  [ascii "POST /a%20b?q HTTP/1.1\r\nHost: X\r\nContent-Length: 3\r\n\r",
    ascii "\nabcGET"]

theorem received_iff_post :
    ∃ (p : RequestParts) (rest : Bytes), postInPieces.flatten = p.text ++ rest ∧
      p.Accepted (fun _ => none) (Connection.new 5 plainServer 0) ∧
        p.received = (postInPieces.foldl (feedPiece fun _ => none)
          (Connection.new 5 plainServer 0)).request.received :=
  (received_iff (Connection.fresh_new 5 plainServer 0) (by decide) (by decide) _).mp
    ⟨by decide +kernel, rfl⟩

end Webserv
