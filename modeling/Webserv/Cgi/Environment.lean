import Webserv.Cgi.Request
import Webserv.HttpParser.HeaderFold
import Webserv.HttpParser.HostGrammar
import Webserv.Lib.Assignments

/-!
# The environment of a script

`buildCgiEnvironment` hands a request to a script as variables.  A header is a variable of its own,
whose name is the header's in capitals with underscores for hyphens.

## Main results

* `lowerNames_parseHeaders` — the parser stores names in lower case.
* `faithful_iff` — **when the headers can be read back from the environment.**
-/

namespace Webserv

open Bytes Assignments

/-! ### The variables -/

/-- A byte of a header's name, in the name of its variable. -/
def variableByte (b : UInt8) : UInt8 := if b = 45 then 95 else toUpper b

/-- The variable of a header. -/
def httpVariable (key : Bytes) : Bytes := ascii "HTTP_" ++ key.map variableByte

/-- The name of the server: the host without what stands from its last colon on. -/
def cgiServerName (req : HttpRequest) (server : Server) : Bytes :=
  let host := req.header (ascii "host")
  let name := if host.isEmpty then server.host else host
  match findLast COLON name with
  | some i => name.take i
  | none => name

/-- The size of the body that the script can read. -/
def payloadSize (req : HttpRequest) : ℕ :=
  if req.bodyFileWritten ≠ 0 then req.bodyFileWritten
  else if req.written ≠ 0 then req.written
  else req.body.size

/-- The variables about the body. -/
def bodyVariables (req : HttpRequest) : List (Bytes × Bytes) :=
  let contentType := req.header (ascii "content-type")
  if 0 < payloadSize req || req.expectsBody then
    [(ascii "CONTENT_TYPE", contentType), (ascii "CONTENT_LENGTH", decimal (payloadSize req))]
  else if contentType.isEmpty then []
  else [(ascii "CONTENT_TYPE", contentType)]

/-- The variables that are not headers. -/
def metaVariables (req : HttpRequest) (server : Server) (scriptPath clientIp : Bytes) :
    List (Bytes × Bytes) :=
  [(ascii "REQUEST_METHOD", req.method),
    (ascii "QUERY_STRING", req.queryString),
    (ascii "SCRIPT_FILENAME", scriptPath),
    (ascii "SCRIPT_NAME", req.path),
    (ascii "PATH_INFO", req.path)] ++
  (if (server.root ++ req.path).isEmpty then []
    else [(ascii "PATH_TRANSLATED", server.root ++ req.path)]) ++
  [(ascii "SERVER_NAME", cgiServerName req server),
    (ascii "SERVER_PORT", decimalInt server.port),
    (ascii "SERVER_PROTOCOL", req.version),
    (ascii "GATEWAY_INTERFACE", ascii "CGI/1.1"),
    (ascii "SERVER_SOFTWARE", ascii "webserv/1.0"),
    (ascii "REMOTE_ADDR", clientIp),
    (ascii "REQUEST_URI",
      req.path ++ if req.queryString.isEmpty then [] else ascii "?" ++ req.queryString),
    (ascii "DOCUMENT_ROOT", server.root)] ++
  bodyVariables req

/-- The headers that have no variable of their own. -/
def bodyHeaders : List Bytes := [ascii "content-type", ascii "content-length"]

/-- The headers with a variable of their own, in the order of the map. -/
def ownHeaders (req : HttpRequest) : List (Bytes × Bytes) :=
  req.headers.toList.filter fun header => header.1 ∉ bodyHeaders

/-- `buildCgiEnvironment`. -/
def buildCgiEnvironment (req : HttpRequest) (server : Server) (scriptPath clientIp : Bytes) :
    List Bytes :=
  (metaVariables req server scriptPath clientIp ++
    (ownHeaders req).map fun header => (httpVariable header.1, header.2)).map
      fun p => entry 61 p.1 p.2

/-! ### Names -/

/-- The names of the variables that are not headers. -/
def metaNames : List Bytes :=
  ["REQUEST_METHOD", "QUERY_STRING", "SCRIPT_FILENAME", "SCRIPT_NAME", "PATH_INFO",
    "PATH_TRANSLATED", "SERVER_NAME", "SERVER_PORT", "SERVER_PROTOCOL", "GATEWAY_INTERFACE",
    "SERVER_SOFTWARE", "REMOTE_ADDR", "REQUEST_URI", "DOCUMENT_ROOT", "CONTENT_TYPE",
    "CONTENT_LENGTH"].map ascii

theorem metaVariables_sublist (req : HttpRequest) (server : Server) (scriptPath clientIp : Bytes) :
    ((metaVariables req server scriptPath clientIp).map Prod.fst).Sublist metaNames := by
  have hbody : ((bodyVariables req).map Prod.fst).Sublist
      [ascii "CONTENT_TYPE", ascii "CONTENT_LENGTH"] := by
    unfold bodyVariables
    dsimp only
    split_ifs
    · exact List.Sublist.refl _
    · exact List.nil_sublist _
    · exact List.singleton_sublist.mpr List.mem_cons_self
  have htranslated : ((if (server.root ++ req.path).isEmpty then []
      else [(ascii "PATH_TRANSLATED", server.root ++ req.path)]).map Prod.fst).Sublist
        [ascii "PATH_TRANSLATED"] := by
    split
    · exact List.nil_sublist _
    · exact List.Sublist.refl _
  unfold metaVariables
  simp only [List.map_append]
  exact (((List.Sublist.refl _).append htranslated).append (List.Sublist.refl _)).append hbody

theorem metaNames_spec : metaNames.Nodup ∧ ∀ n ∈ metaNames, 61 ∉ n ∧ ¬ ascii "HTTP_" <+: n := by
  decide

theorem variableByte_eq_iff (b : UInt8) : variableByte b = 61 ↔ b = 61 :=
  forall_byte (P := fun b => variableByte b = 61 ↔ b = 61) (by decide +kernel) b

/-- The name of a variable has an equals sign where the header's name has one. -/
theorem mem_httpVariable_iff (key : Bytes) : 61 ∈ httpVariable key ↔ 61 ∈ key := by
  have hconst : 61 ∉ ascii "HTTP_" := by decide
  simp only [httpVariable, List.mem_append, hconst, false_or, List.mem_map, variableByte_eq_iff,
    exists_eq_right]

/-- A name with its hyphens turned into underscores. -/
def underscored (key : Bytes) : Bytes := key.map fun b => if b = 45 then 95 else b

/-- Names in lower case have one variable when they are the same but for hyphens and
underscores. -/
theorem httpVariable_eq_iff {key key' : Bytes} (hkey : strTolower key = key)
    (hkey' : strTolower key' = key') :
    httpVariable key = httpVariable key' ↔ underscored key = underscored key' := by
  have hbyte : ∀ b, toLower b = b → toLower (variableByte b) = if b = 45 then 95 else b :=
    forall_byte (P := fun b => toLower b = b → toLower (variableByte b) = if b = 45 then 95 else b)
      (by decide +kernel)
  have hback : ∀ k, strTolower k = k → strTolower (k.map variableByte) = underscored k := by
    intro k hk
    rw [strTolower, List.map_map]
    refine List.map_congr_left fun b hb => hbyte b ?_
    exact List.map_inj_left.mp (hk.trans (List.map_id k).symm) b hb
  have hforth : ∀ k : Bytes, k.map variableByte = (underscored k).map toUpper := by
    intro k
    rw [underscored, List.map_map]
    refine List.map_congr_left fun b _ => ?_
    simp only [variableByte, Function.comp]
    split
    · decide
    · rfl
  rw [httpVariable, httpVariable, List.append_cancel_left_eq]
  constructor
  · intro h
    rw [← hback key hkey, ← hback key' hkey', h]
  · intro h
    rw [hforth, hforth, h]

/-! ### Names in lower case -/

/-- The names that are stored are in lower case. -/
def LowerNames (headers : Std.TreeMap Bytes Bytes) : Prop := ∀ key ∈ headers, strTolower key = key

theorem lowerNames_insert {headers : Std.TreeMap Bytes Bytes} (h : LowerNames headers)
    {key : Bytes} (hkey : strTolower key = key) (value : Bytes) :
    LowerNames (headers.insert key value) := by
  intro key' hmem
  rw [Std.TreeMap.mem_insert, Std.LawfulEqCmp.compare_eq_iff_eq] at hmem
  rcases hmem with rfl | hmem
  · exact hkey
  · exact h key' hmem

theorem lowerNames_headerLine {req : HttpRequest} (h : LowerNames req.headers) (l : Bytes) :
    LowerNames (headerLine req l).headers := by
  intro key hmem
  by_cases hname : fieldName l = some key
  · obtain ⟨colon, -, rfl⟩ := Option.map_eq_some_iff.mp hname
    exact strTolower_strTolower _
  · refine h key ?_
    rw [Std.TreeMap.mem_iff_isSome_getElem?] at hmem ⊢
    rwa [getElem?_headerLine hname] at hmem

/-- The loop over the lines keeps this. -/
theorem lowerNames_headerLoop : ∀ s : ByteQueue × HttpRequest, LowerNames s.2.headers →
    LowerNames (headerLoop s).1.2.headers := by
  refine WhileLoop.loop_induction (P := fun s t => LowerNames s.2.headers →
    LowerNames t.1.2.headers) headerRound_decreasing ?_ ?_
  · rintro ⟨buf, req⟩ t hround h
    have hstep := headerStep_headerRound buf req
    rw [hround] at hstep
    cases hstep with
    | wait => exact h
    | tooLong => exact h
    | blank => exact h
    | bad => exact lowerNames_headerLine h _
  · rintro ⟨buf, req⟩ s' hround ih h
    have hstep := headerStep_headerRound buf req
    rw [hround] at hstep
    cases hstep with
    | line => exact ih (lowerNames_headerLine h _)

/-- **The parser stores names in lower case.** -/
theorem lowerNames_parseHeaders {c : Connection} (h : LowerNames c.request.headers)
    (hgood : (parseHeaders c).request.parseState ≠ .error) :
    LowerNames (parseHeaders c).request.headers := by
  have hloop := lowerNames_headerLoop (c.readBuffer, c.request) h
  unfold parseHeaders afterHeaderLoop at hgood ⊢
  dsimp only at hgood ⊢
  split at hgood
  · next hblank =>
    rw [if_pos hblank]
    rcases (headers_finishHeaders hgood).1 with ⟨-, -, hsame⟩ | ⟨_, host, _, -, -, hhost⟩
    · rw [hsame]
      exact hloop
    · rw [hhost]
      exact lowerNames_insert hloop (by decide) host
  · next hreturn =>
    rw [if_neg hreturn]
    exact hloop

/-- A request whose headers are being read: nothing is stored yet, or `_parseHeaders` has stored
lines and waits for more. -/
inductive ReadingHeaders : Connection → Prop
  | fresh {c : Connection} (hnone : c.request.headers = ∅) : ReadingHeaders c
  | more {c c' : Connection} (h : ReadingHeaders c)
      (hwait : (parseHeaders c).request.parseState = .headers)
      (hrequest : c'.request = (parseHeaders c).request) : ReadingHeaders c'

theorem ReadingHeaders.lowerNames {c : Connection} (h : ReadingHeaders c) :
    LowerNames c.request.headers := by
  induction h with
  | fresh hnone =>
    rw [hnone]
    exact fun key hmem => absurd hmem Std.TreeMap.not_mem_emptyc
  | more _ hwait hrequest ih =>
    rw [hrequest]
    exact lowerNames_parseHeaders ih (by simp [hwait])

/-! ### Reading the environment -/

/-- The variables have names of their own, and every header but those about the body is found under
one name, with its value. -/
def Faithful (req : HttpRequest) (server : Server) (scriptPath clientIp : Bytes) : Prop :=
  ((buildCgiEnvironment req server scriptPath clientIp).map (nameOf 61)).Nodup ∧
    ∀ key value, req.headers[key]? = some value → key ∉ bodyHeaders →
      lookup 61 (buildCgiEnvironment req server scriptPath clientIp) (httpVariable key) = [value]

/-- No header has an equals sign in its name, and no two have the same name but for hyphens and
underscores. -/
structure PlainNames (headers : Std.TreeMap Bytes Bytes) : Prop where
  noEquals : ∀ key ∈ headers, key ∉ bodyHeaders → 61 ∉ key
  apart : ∀ key ∈ headers, ∀ key' ∈ headers, key ∉ bodyHeaders → key' ∉ bodyHeaders →
    underscored key = underscored key' → key = key'

theorem mem_ownHeaders_iff {req : HttpRequest} {key value : Bytes} :
    (key, value) ∈ ownHeaders req ↔ req.headers[key]? = some value ∧ key ∉ bodyHeaders := by
  simp [ownHeaders, Std.TreeMap.mem_toList_iff_getElem?_eq_some]

theorem mem_ownNames_iff {req : HttpRequest} {key : Bytes} :
    key ∈ (ownHeaders req).map Prod.fst ↔ key ∈ req.headers ∧ key ∉ bodyHeaders := by
  rw [Std.TreeMap.mem_iff_isSome_getElem?, Option.isSome_iff_exists, List.mem_map]
  constructor
  · rintro ⟨⟨key', value⟩, hmem, rfl⟩
    obtain ⟨hget, hbody⟩ := mem_ownHeaders_iff.mp hmem
    exact ⟨⟨value, hget⟩, hbody⟩
  · rintro ⟨⟨value, hget⟩, hbody⟩
    exact ⟨(key, value), mem_ownHeaders_iff.mpr ⟨hget, hbody⟩, rfl⟩

theorem nodup_ownNames (req : HttpRequest) : ((ownHeaders req).map Prod.fst).Nodup := by
  have hkeys : (req.headers.toList.map Prod.fst).Nodup := by
    rw [Std.TreeMap.map_fst_toList_eq_keys]
    exact Std.TreeMap.nodup_keys
  exact hkeys.sublist (List.filter_sublist.map Prod.fst)

/-- The names of the variables are told apart when those of the headers are. -/
theorem nodup_names_iff (req : HttpRequest) (server : Server) (scriptPath clientIp : Bytes) :
    ((metaVariables req server scriptPath clientIp ++
        (ownHeaders req).map fun header => (httpVariable header.1, header.2)).map Prod.fst).Nodup ↔
      ∀ key ∈ req.headers, ∀ key' ∈ req.headers, key ∉ bodyHeaders → key' ∉ bodyHeaders →
        httpVariable key = httpVariable key' → key = key' := by
  have hsublist := metaVariables_sublist req server scriptPath clientIp
  have hown : ((ownHeaders req).map fun header => (httpVariable header.1, header.2)).map Prod.fst =
      ((ownHeaders req).map Prod.fst).map httpVariable := by
    rw [List.map_map, List.map_map]
    rfl
  -- no other variable begins like that of a header
  have hother : ∀ n ∈ (metaVariables req server scriptPath clientIp).map Prod.fst,
      ∀ n' ∈ ((ownHeaders req).map Prod.fst).map httpVariable, n ≠ n' := by
    rintro n hn n' hn' rfl
    obtain ⟨key, -, hkey⟩ := List.mem_map.mp hn'
    exact (metaNames_spec.2 n (hsublist.subset hn)).2 ⟨_, hkey⟩
  rw [List.map_append, List.nodup_append, hown, List.nodup_map_iff_inj_on (nodup_ownNames req)]
  simp only [mem_ownNames_iff]
  constructor
  · rintro ⟨-, h, -⟩ key hkey key' hkey' hbody hbody'
    exact h key ⟨hkey, hbody⟩ key' ⟨hkey', hbody'⟩
  · intro h
    exact ⟨metaNames_spec.1.sublist hsublist,
      fun key hkey key' hkey' => h key hkey.1 key' hkey'.1 hkey.2 hkey'.2, hother⟩

/-- **When the headers can be read back from the environment.** -/
theorem faithful_iff {c : Connection} (hread : ReadingHeaders c)
    (hend : (parseHeaders c).request.parseState = .body ∨
      (parseHeaders c).request.parseState = .complete)
    {req : HttpRequest} (hreq : req.headers = (parseHeaders c).request.headers) (server : Server)
    (scriptPath clientIp : Bytes) :
    Faithful req server scriptPath clientIp ↔ PlainNames req.headers := by
  -- the parser has put the names in lower case
  have hlower : LowerNames req.headers := by
    rw [hreq]
    refine lowerNames_parseHeaders hread.lowerNames ?_
    rcases hend with hend | hend <;> simp [hend]
  -- no variable of the server's own has an equals sign in its name
  have hmeta : ∀ p ∈ metaVariables req server scriptPath clientIp, 61 ∉ p.1 := by
    intro p hp
    have hname := (metaVariables_sublist req server scriptPath clientIp).subset
      (List.mem_map_of_mem hp)
    exact (metaNames_spec.2 p.1 hname).1
  have hfound : (∀ key value, req.headers[key]? = some value → key ∉ bodyHeaders →
        lookup 61 (buildCgiEnvironment req server scriptPath clientIp) (httpVariable key) =
          [value]) ↔
      ∀ p ∈ (ownHeaders req).map fun header => (httpVariable header.1, header.2),
        lookup 61 (buildCgiEnvironment req server scriptPath clientIp) p.1 = [p.2] := by
    simp only [List.forall_mem_map, Prod.forall, mem_ownHeaders_iff, and_imp]
  unfold Faithful
  rw [hfound]
  unfold buildCgiEnvironment
  rw [readable_append_iff hmeta, nodup_names_iff]
  constructor
  · rintro ⟨hnames, hapart⟩
    refine ⟨fun key hkey hbody hmem => ?_, fun key hkey key' hkey' hbody hbody' hsame => ?_⟩
    · obtain ⟨value, hvalue⟩ := Option.isSome_iff_exists.mp
        (Std.TreeMap.mem_iff_isSome_getElem?.mp hkey)
      refine hnames (httpVariable key, value) ?_ ((mem_httpVariable_iff key).mpr hmem)
      exact List.mem_map.mpr ⟨(key, value), mem_ownHeaders_iff.mpr ⟨hvalue, hbody⟩, rfl⟩
    · exact hapart key hkey key' hkey' hbody hbody'
        ((httpVariable_eq_iff (hlower key hkey) (hlower key' hkey')).mpr hsame)
  · intro h
    refine ⟨?_, fun key hkey key' hkey' hbody hbody' hsame => ?_⟩
    · intro p hp hmem
      obtain ⟨⟨key, value⟩, hheader, rfl⟩ := List.mem_map.mp hp
      obtain ⟨hkey, hbody⟩ := mem_ownNames_iff.mp (List.mem_map_of_mem hheader)
      exact h.noEquals key hkey hbody ((mem_httpVariable_iff key).mp hmem)
    · exact h.apart key hkey key' hkey' hbody hbody'
        ((httpVariable_eq_iff (hlower key hkey) (hlower key' hkey')).mp hsame)

/-- A request whose header lines are there. -/
private def askingWith (lines : List String) : Connection :=
  { Connection.new 5 Server.empty 0 with
    readBuffer := ⟨fieldText (lines.map ascii) ++ crlf, 8192⟩
    request := { HttpRequest.new 10 with
      parseState := .headers, method := ascii "GET", version := ascii "HTTP/1.1" } }

theorem faithful_hyphens :
    Faithful (parseHeaders (askingWith ["Host: a", "X-A: 1", "X_B: 2"])).request Server.empty
      (ascii "/cgi/a.py") (ascii "10.0.0.1") := by
  refine (@faithful_iff (askingWith ["Host: a", "X-A: 1", "X_B: 2"]) (.fresh rfl) (Or.inr ?_) _
    rfl _ _ _).mpr ?_
  · decide +kernel
  · have hkeys : (parseHeaders (askingWith ["Host: a", "X-A: 1", "X_B: 2"])).request.headers.keys =
        [ascii "host", ascii "x-a", ascii "x_b"] := by decide +kernel
    have hnames : ∀ key ∈ [ascii "host", ascii "x-a", ascii "x_b"], 61 ∉ key ∧
        ∀ key' ∈ [ascii "host", ascii "x-a", ascii "x_b"],
          underscored key = underscored key' → key = key' := by decide +kernel
    rw [← hkeys] at hnames
    simp only [Std.TreeMap.mem_keys] at hnames
    exact ⟨fun key hkey _ => (hnames key hkey).1, fun key hkey key' hkey' _ _ =>
      (hnames key hkey).2 key' hkey'⟩

/-- **Two names of one variable**: the headers `x-a` and `x_a` are both handed over as
`HTTP_X_A`. -/
theorem not_faithful : ¬ ∀ (c : Connection) (server : Server) (scriptPath clientIp : Bytes),
    ReadingHeaders c → ((parseHeaders c).request.parseState = .body ∨
      (parseHeaders c).request.parseState = .complete) →
        Faithful (parseHeaders c).request server scriptPath clientIp := by
  intro h
  have hnames := (h (askingWith ["Host: a", "X-A: 1", "X_A: 2"]) Server.empty (ascii "/cgi/a.py")
    (ascii "10.0.0.1") (.fresh rfl) (Or.inr (by decide +kernel))).1
  exact absurd hnames (by decide +kernel)

end Webserv
