import Webserv.Config.Directives

/-!
# The parser of a configuration

`parsing_lexems` and the functions for the blocks, on the vector of tokens and the index that they
share.
-/

namespace Webserv

open Bytes Cursor

variable {σ τ : Type}

/-- The directives of a block that may be there once; `seen` are those that have been there. -/
def seenOnce (unique : List Bytes) (msg : String) (seen : List Bytes) (directive : Bytes) :
    Except Report (List Bytes) :=
  if unique.contains directive then
    if seen.contains directive then .error ⟨ascii msg, directive⟩ else .ok (directive :: seen)
  else .ok seen

/-! ### `location` -/

/-- A byte that the path of a location may have. -/
def isLocationByte (b : UInt8) : Bool :=
  isDigit b || isUpper b || isLower b || b == SLASH || b == 45 || b == 95 || b == DOT || b == 126

/-- A report of the parser of blocks. -/
def parserReport (place : String) : Report := .of "Syntax Error: " place

/-- The checks of the path of a location. -/
def checkLocationPath (path : Bytes) : Except Report Unit :=
  if path.isEmpty then .error (parserReport "'location path cannot be empty' in parsLocation")
  else if path.head? ≠ some SLASH then
    .error (parserReport "'location path must start with /' in parsLocation")
  else if !path.all isLocationByte then
    .error (parserReport "'location path contains invalid character' in parsLocation")
  else .ok ()

/-- The part of `parsLocation` that reads the path. -/
def locationPath (stream : List Lexer) (i : ℕ) : Except ParseStop (Bytes × ℕ) := do
  let isValue ← test stream (·.type = .value) i
  if isValue then do
    let t ← tokenAt stream i
    reported stream i (checkLocationPath t.value)
    .ok (t.value, i + 1)
  else do
    let isContext ← test stream (·.type = .context) i
    if isContext then
      reportParseError stream i (.of "Configuration Error: "
        ("'location path cannot be a reserved keyword (server, location, http, events)'" ++
          " in parsLocation"))
    else reportParseError stream i (parserReport "'Expected path after location' in parsLocation")

/-- The directives that a location may have once. -/
def locationUnique : List Bytes :=
  ["allowed_methods", "root", "index", "autoindex", "cgi_path", "cgi_ext", "upload_path",
    "client_max_body_size", "return"].map ascii

/-- One token of a location, and what belongs to it. -/
def locationItem (sz : Bytes → ℤ) (stream : List Lexer) (t : Lexer)
    (x : LocationConf × List Bytes) (i : ℕ) :
    Except ParseStop ((LocationConf × List Bytes) × ℕ) :=
  if t.type = .directive then do
    let seen ← reported stream i
      (seenOnce locationUnique "Duplicate directive in location" x.2 t.value)
    let (values, i) ← consumeValues stream i
    let l ← reported stream i (locationDirective sz x.1 t.value values)
    .ok ((l, seen), i)
  else reportParseError stream i (parserReport "'Expected a directive' in parsLocation")

/-- `parsLocation`. -/
def parsLocation (sz : Bytes → ℤ) (l : LocationConf) (stream : List Lexer) (i : ℕ) :
    Except ParseStop (LocationConf × ℕ) := do
  let skips ← test stream (·.value = ascii "location") i
  let i := if skips then i + 1 else i
  let (path, i) ← locationPath stream i
  requireType stream i .lbrace
    (parserReport "'Expected '\x7b' after location path' in parsLocation")
  let (x, i) ← whileReading (·.type = .rbrace) (locationItem sz stream) stream
    (({ l with path }, []), i + 1)
  requireType stream i .rbrace
    (parserReport "'Expected '\x7d' at end of location block' in parsLocation")
  .ok (x.1, i + 1)

/-! ### `server` -/

/-- The directives that a server may have once. -/
def serverUnique : List Bytes :=
  ["listen", "root", "client_max_body_size", "timeout", "index"].map ascii

/-- One token of a server, and what belongs to it. -/
def serverItem (sz : Bytes → ℤ) (stream : List Lexer) (t : Lexer) (x : ServerConf × List Bytes)
    (i : ℕ) : Except ParseStop ((ServerConf × List Bytes) × ℕ) :=
  if t.type = .context ∧ t.value = ascii "location" then do
    let (l, i) ← parsLocation sz (.ofServer x.1) stream i
    .ok (({ x.1 with locations := x.1.locations ++ [l.checkForAllowedMethods] }, x.2), i)
  else if t.type = .directive then do
    let seen ← reported stream i
      (seenOnce serverUnique "Duplicate directive in server" x.2 t.value)
    let (values, i) ← consumeValues stream i
    let s ← reported stream i (serverDirective sz x.1 t.value values)
    .ok ((s, seen), i)
  else
    reportParseError stream i (parserReport "'unexpected token in server block' in parsServer")

/-- `name.rfind('.')`. -/
def lastDot (name : Bytes) : Option ℕ :=
  let behind := (name.reverse.takeWhile (· ≠ DOT)).length
  if behind < name.length then some (name.length - 1 - behind) else none

/-- A name that `validate_index_filenames` lets pass. -/
def isIndexFilename (name : Bytes) : Bool :=
  match lastDot name with
  | none => false
  | some dotPos => dotPos ≠ 0 && dotPos ≠ name.length - 1

/-- The check of the values of `index`. -/
def validateIndexFilenames (place : Bytes) : List Bytes → Except Report Unit
  | [] => .ok ()
  | name :: names =>
    if isIndexFilename name then validateIndexFilenames place names
    else .error ⟨ascii "Invalid index filename '" ++ name ++
      ascii "': must have a non-empty file extension (e.g. index.html)", place⟩

/-- The directives that a server needs. -/
def requireDirectives (s : ServerConf) : Except Report Unit :=
  if s.port = -1 then .error (.of "Missing required directive: listen" "parsServer")
  else if s.root.isEmpty then .error (.of "Missing required directive: root" "parsServer")
  else if s.indexFiles.isEmpty then .error (.of "Missing required directive: index" "parsServer")
  else do
    validateIndexFilenames (ascii "parsServer/index") s.indexFiles
    if s.timeoutSeconds ≤ 0 then .error (.of "Missing required directive: timeout" "parsServer")
    else .ok ()

/-- The second pass over the locations: what looks unset is the server's. -/
def LocationConf.inherit (s : ServerConf) (l : LocationConf) : LocationConf :=
  { l with
    root := if l.root.isEmpty then s.root else l.root
    indexFiles := if l.indexFiles.isEmpty then [s.indexFiles.headD []] else l.indexFiles
    clientMaxBodySize :=
      if l.clientMaxBodySize = 0 then s.clientMaxBodySize else l.clientMaxBodySize
    errorPage :=
      if l.errorPage.isEmpty then s.errorPage.foldl (fun m c page => m.insert c page) l.errorPage
      else l.errorPage }

/-- The index files of the locations that answer with files. -/
def validateLocations : List LocationConf → Except Report Unit
  | [] => .ok ()
  | l :: ls =>
    if l.returnCode ≠ -1 ∨ !l.cgiMap.isEmpty then validateLocations ls
    else do
      validateIndexFilenames (ascii "parsServer/location[" ++ l.path ++ ascii "]/index")
        l.indexFiles
      validateLocations ls

/-- `verifying_path_in_locations_inside_server`; `unique` are the paths that have been there. -/
def verifyingPaths (unique : List Bytes) : List LocationConf → Except Report Unit
  | [] => .ok ()
  | l :: ls =>
    let path := dropTrailingSlash l.path
    if unique.contains path then .error ⟨ascii "[fatal] duplicate pathin location : " ++ l.path, []⟩
    else verifyingPaths (path :: unique) ls

/-- The end of `parsServer`, at the closing brace. -/
def closeServer (s : ServerConf) (stream : List Lexer) (i : ℕ) :
    Except ParseStop (ServerConf × ℕ) := do
  reported stream i (requireDirectives s)
  let closed := { s with locations := s.locations.map (LocationConf.inherit s) }
  reported stream i (validateLocations closed.locations)
  thrown (verifyingPaths [] closed.locations)
  .ok (closed, i + 1)

/-- `parsServer`. -/
def parsServer (sz : Bytes → ℤ) (s : ServerConf) (stream : List Lexer) (i : ℕ) :
    Except ParseStop (ServerConf × ℕ) := do
  requireType stream (i + 1) .lbrace (parserReport "'Expected '\x7b' after server' in parsServer")
  let (x, i) ← whileReading (·.type = .rbrace) (serverItem sz stream) stream ((s, []), i + 2)
  requireType stream i .rbrace (parserReport "'Unclosed server block' in parsServer")
  closeServer x.1 stream i

/-! ### `http`, `events` and the top level -/

/-- `ParserConf`. -/
structure ParserConf where
  http : HttpConf
  events : EventsConf
  existHttp : Bool
  existServer : Bool

/-- `ParserConf()`. -/
def ParserConf.empty : ParserConf where
  http := ⟨0, ∅, []⟩
  events := ⟨0, []⟩
  existHttp := false
  existServer := false

/-- One token of the http block, and what belongs to it. -/
def httpItem (sz : Bytes → ℤ) (stream : List Lexer) (t : Lexer) (p : ParserConf) (i : ℕ) :
    Except ParseStop (ParserConf × ℕ) :=
  if t.type = .context ∧ t.value = ascii "server" then do
    let (s, i) ← parsServer sz (.ofHttp p.http) stream i
    .ok ({ p with http.servers := p.http.servers ++ [s], existServer := true }, i)
  else if t.type = .directive then do
    let (values, i) ← consumeValues stream i
    let http ← reported stream i (httpDirective sz p.http t.value values)
    .ok ({ p with http := http }, i)
  else
    reportParseError stream i
      (parserReport "'unexpected token during parsing context of http block' in parsHTTP")

/-- `parsHTTP`. -/
def parsHttp (sz : Bytes → ℤ) (p : ParserConf) (stream : List Lexer) (i : ℕ) :
    Except ParseStop (ParserConf × ℕ) := do
  requireType stream (i + 1) .lbrace (parserReport "'Expected '\x7b' after http' in parsHTTP")
  let (p, i) ← whileReading (·.type = .rbrace) (httpItem sz stream) stream (p, i + 2)
  requireType stream i .rbrace (parserReport "'Unclosed http block' in parsHTTP")
  .ok (p, i + 1)

/-- One token of the events, which is skipped when it is not expected. -/
def eventsItem (stream : List Lexer) (t : Lexer) (events : EventsConf) (i : ℕ) :
    Except ParseStop (EventsConf × ℕ) :=
  if t.type = .lbrace then
    reportParseError stream i (.of "Syntax Error: cant have nested context" "parseEvents")
  else if t.type = .directive then do
    let (values, i) ← consumeValuesLenient stream i
    .ok (eventsDirective events t.value values, i)
  else .ok (events, i + 1)

/-- `parseEvents`. -/
def parseEvents (events : EventsConf) (stream : List Lexer) (i : ℕ) :
    Except ParseStop (EventsConf × ℕ) := do
  requireType stream (i + 1) .lbrace (.of "Expected '\x7b' after events" "parseEvents")
  let (events, i) ← whileReading (·.type = .rbrace) (eventsItem stream) stream (events, i + 2)
  requireType stream i .rbrace (.of "Syntax Error: Unclosed events block" "parseEvents")
  .ok (events, i + 1)

/-- One block of the top level. -/
def topItem (sz : Bytes → ℤ) (stream : List Lexer) (t : Lexer) (p : ParserConf) (i : ℕ) :
    Except ParseStop (ParserConf × ℕ) :=
  if t.type = .context ∧ t.value = ascii "events" then do
    let (events, i) ← parseEvents ⟨0, []⟩ stream i
    .ok ({ p with events }, i)
  else if t.type = .context ∧ t.value = ascii "http" then
    if p.existHttp then reportParseError stream i (.of "Duplicate block: http" "parsing_lexems")
    else parsHttp sz { p with existHttp := true } stream i
  else
    reportParseError stream i
      (.of "Syntax Error: unexpected token at top level" "parsing_lexems")

/-- `parsing_lexems` up to its call of `check_for_blocks`. -/
def parsingLexems (sz : Bytes → ℤ) (p : ParserConf) (stream : List Lexer) :
    Except ParseStop (ParserConf × ℕ) :=
  whileReading (·.type = .«end») (topItem sz stream) stream (p, 0)

end Webserv
