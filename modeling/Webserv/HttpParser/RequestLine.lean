import Webserv.Connection
import Webserv.HttpParser.Text

/-!
# The request line

`parseRequestLine` scans the readable bytes from the start each time it is called
and consumes them only when the line is complete.  The scan is a fold of `rlStep`
over the bytes; it marks where the method and the target stand, and `finishRequestLine`
cuts them out, decodes the path and asks the file system for it.
-/

namespace Webserv

open Bytes

/-! ### The scan -/

/-- `RLState`. -/
inductive RLState where
  | start
  | method
  | spaceBeforeUri
  | uri
  | http11
  | httpH
  | httpHT
  | httpHTT
  | httpHTTP
  | firstMajor
  | major
  | firstMinor
  | minor
  | spaceAfterVersion
  | almostDone
  deriving DecidableEq, Repr

/-- The variables of the scan; a null pointer is `none`. -/
structure RLScan where
  state : RLState
  methodStart : Option ℕ
  methodEnd : Option ℕ
  uriStart : Option ℕ
  uriEnd : Option ℕ
  httpMajor : ℤ
  httpMinor : ℤ
  deriving DecidableEq, Repr

/-- The scan before the first character. -/
def RLScan.init : RLScan := ⟨.start, none, none, none, none, -1, -1⟩

/-- What one character leads to. -/
inductive RLNext where
  | goOn (sc : RLScan)
  /-- `done = true`: the character was the last one of the line. -/
  | done (sc : RLScan)
  | error (code : ℕ)
  deriving DecidableEq, Repr

/-- The cases that wait for one character of `HTTP/`. -/
def rlExpect (sc : RLScan) (ch want : UInt8) (next : RLState) : RLNext :=
  if ch == want then .goOn { sc with state := next } else .error 400

/-- One pass of the `switch`, for the character `ch` at offset `p`. -/
def rlStep (sc : RLScan) (p : ℕ) (ch : UInt8) : RLNext :=
  match sc.state with
  | .start =>
      if ch == CR || ch == LF then .goOn sc
      else if !isTokenChar ch then .error 400
      else .goOn { sc with methodStart := some p, state := .method }
  | .method =>
      if ch == SP then .goOn { sc with methodEnd := some p, state := .spaceBeforeUri }
      else if !isTokenChar ch then .error 400
      else .goOn sc
  | .spaceBeforeUri =>
      if ch == SP then .goOn sc
      else if isUriChar ch then .goOn { sc with uriStart := some p, state := .uri }
      else .error 400
  | .uri =>
      if ch == SP then .goOn { sc with uriEnd := some p, state := .http11 }
      else if ch == CR || ch == LF then .error 400
      else if !isUriChar ch then .error 400
      else .goOn sc
  | .http11 =>
      if ch == SP then .goOn sc
      else if ch == CR || ch == LF then .error 400
      else rlExpect sc ch 72 .httpH
  | .httpH => rlExpect sc ch 84 .httpHT
  | .httpHT => rlExpect sc ch 84 .httpHTT
  | .httpHTT => rlExpect sc ch 80 .httpHTTP
  | .httpHTTP => rlExpect sc ch SLASH .firstMajor
  | .firstMajor =>
      if !isDigit ch then .error 400
      else if ch != 49 then .error 505
      else .goOn { sc with httpMajor := (ch.toNat : ℤ) - 48, state := .major }
  | .major =>
      if ch == DOT then .goOn { sc with state := .firstMinor }
      else if isDigit ch then
        if sc.httpMajor > 9 then .error 400
        else .goOn { sc with httpMajor := sc.httpMajor * 10 + ((ch.toNat : ℤ) - 48) }
      else .error 400
  | .firstMinor =>
      if !isDigit ch then .error 400
      else if ch != 49 then .error 505
      else .goOn { sc with httpMinor := (ch.toNat : ℤ) - 48, state := .minor }
  | .minor =>
      if isDigit ch then
        if sc.httpMinor > 9 then .error 400
        else .goOn { sc with httpMinor := sc.httpMinor * 10 + ((ch.toNat : ℤ) - 48) }
      else if ch == CR then .goOn { sc with state := .almostDone }
      else if ch == LF then .done sc
      else if ch == SP then .goOn { sc with state := .spaceAfterVersion }
      else .error 400
  | .spaceAfterVersion =>
      if ch == SP then .goOn sc
      else if ch == CR then .goOn { sc with state := .almostDone }
      else if ch == LF then .done sc
      else .error 400
  | .almostDone => if ch == LF then .done sc else .error 400

/-- How the scan of the readable bytes ends. -/
inductive RLEnd where
  /-- The bytes ran out. -/
  | more
  /-- The line is complete; it ends before the given offset. -/
  | line (sc : RLScan) (p : ℕ)
  | error (code : ℕ)
  deriving DecidableEq, Repr

/-- The `while` loop of `_parseRequestLine`. -/
def rlScan (sc : RLScan) (p : ℕ) : Bytes → RLEnd
  | [] => .more
  | ch :: rest =>
      match rlStep sc p ch with
      | .goOn sc' => rlScan sc' (p + 1) rest
      | .done sc' => .line sc' (p + 1)
      | .error code => .error code

/-! ### The file system as the parser sees it -/

/-- The values of `errno` that the early `stat` tells apart. -/
inductive Errno where
  | eacces
  | enoent
  | eperm
  | other
  deriving DecidableEq, Repr

/-- A string as `c_str()` hands it to the kernel: up to its first NUL. -/
def cStr (s : Bytes) : Bytes := s.takeWhile (· ≠ 0)

/-- Whether `stat` succeeds on a path. -/
abbrev StatAnswer := Bytes → Option Errno

/-! ### The path -/

/-- The part of `_validatePath` and of `_resolveFsPath` that is one text in both:
the file-system path of `uri`, given the location it matched. -/
def pathUnderRoot (cfg : Server) (loc : Option Location) (uri : Bytes) : Bytes :=
  let locRoot := loc.elim [] (·.root)
  let locPath := loc.elim [] (·.path)
  let root := if locRoot.isEmpty then cfg.root else locRoot
  let uri :=
    if !locRoot.isEmpty && locPath.isPrefixOf uri then
      let stripped := uri.drop locPath.length
      if stripped.isEmpty then uri
      else if stripped.head? != some SLASH then locPath ++ stripped
      else stripped
    else uri
  let root := (root.reverse.dropWhile (· == SLASH)).reverse
  let uri :=
    if !locRoot.isEmpty && uri == locPath then
      -- from the last slash on
      match uri.reverse.findIdx? (· == SLASH) with
      | some back => uri.drop (uri.length - 1 - back)
      | none => uri
    else uri
  root ++ uri

/-- `_validatePath`. -/
def validatePath (c : Connection) : Bytes :=
  pathUnderRoot c.config (c.config.matchLocation c.request.path) c.request.path

/-! ### The complete line -/

/-- `substr(start, end - start)` between two offsets of the readable bytes. -/
def slice (bs : Bytes) (s e : ℕ) : Bytes := (bs.drop s).take (e - s)

/-- The target without scheme and authority. -/
def stripAuthority (rawUri : Bytes) : Bytes :=
  if (ascii "http://").isPrefixOf rawUri || (ascii "https://").isPrefixOf rawUri then
    let scheme := (FirstMatch.find (ascii "://") rawUri).getD 0
    match (rawUri.drop (scheme + 3)).findIdx? (· == SLASH) with
    | none => [SLASH]
    | some i => rawUri.drop (scheme + 3 + i)
  else rawUri

/-- Path and query string of a target. -/
def splitTarget (rawUri : Bytes) : Bytes × Bytes :=
  match rawUri.findIdx? (· == 63) with
  | some q => (pctDecode (rawUri.take q), rawUri.drop (q + 1))
  | none => (pctDecode rawUri, [])

/-- `req.path` as the request line sets it. -/
def requestPath (rawUri : Bytes) : Bytes :=
  let path := (splitTarget (stripAuthority rawUri)).1
  cleanPath (if path.isEmpty then [SLASH] else path)

/-- The fields of an accepted line, the early `stat`, and the line consumed. -/
def acceptRequestLine (stat : StatAnswer) (c : Connection) (req : HttpRequest) (rawUri : Bytes)
    (major minor : ℤ) (p : ℕ) : Connection :=
  let c := { c with request := { req with
    version := ascii "HTTP/" ++ [(48 + major.toNat).toUInt8, DOT, (48 + minor.toNat).toUInt8]
    path := requestPath rawUri
    queryString := (splitTarget (stripAuthority rawUri)).2 } }
  let req :=
    match stat (cStr (validatePath c)) with
    | some .eacces => c.request.fail 403
    | some _ => c.request.fail 404
    | none => { c.request with parseState := .headers }
  { c with request := req, readBuffer := c.readBuffer.consume p }

/-- The part of `_parseRequestLine` after the scan: `bs` are the readable bytes,
of which the line takes the first `p`. -/
def finishRequestLine (stat : StatAnswer) (bs : Bytes) (sc : RLScan) (p : ℕ) (c : Connection) :
    Connection :=
  let fail := fun (req : HttpRequest) (code : ℕ) => { c with request := req.fail code }
  match sc.methodStart, sc.methodEnd, sc.uriStart with
  | some methodStart, some methodEnd, some uriStart =>
      let uriEnd := sc.uriEnd.getD p
      if uriEnd < uriStart then fail c.request 400
      else if sc.httpMajor < 0 || sc.httpMinor < 0 then fail c.request 400
      else if !(sc.httpMajor == 1 && (sc.httpMinor == 0 || sc.httpMinor == 1)) then
        fail c.request 505
      else if uriEnd - uriStart > 8192 then fail c.request 414
      else
        let req : HttpRequest := { c.request with method := slice bs methodStart methodEnd }
        if req.method ≠ ascii "GET" ∧ req.method ≠ ascii "HEAD" ∧ req.method ≠ ascii "POST" ∧
            req.method ≠ ascii "DELETE" then fail req 501
        else
          acceptRequestLine stat c req (slice bs uriStart uriEnd) sc.httpMajor sc.httpMinor p
  | _, _, _ => fail c.request 400

/-- `_parseRequestLine`. -/
def parseRequestLine (stat : StatAnswer) (c : Connection) : Connection :=
  let bs := c.readBuffer.items
  if bs.isEmpty then c
  else
    match rlScan RLScan.init 0 bs with
    | .more => c
    | .error code => { c with request := c.request.fail code }
    | .line sc p => finishRequestLine stat bs sc p c

end Webserv
