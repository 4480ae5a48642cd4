import Webserv.Config
import Webserv.Lib.FirstMatch

/-!
# Text helpers of the parser

Percent-decoding, path cleaning, trimming, the search for CRLF, and the validation
of a Host value.
-/

namespace Webserv

open Bytes

/-- `is_token_char`. -/
def isTokenChar (ch : UInt8) : Bool :=
  isUpper ch || isLower ch || isDigit ch || ch == 95 || ch == 45

/-- `is_uri_char`. -/
def isUriChar (ch : UInt8) : Bool := 0x20 ≤ ch && ch != 0x7f

/-- The characters of a host besides letters and digits: `-._~!$&'()*+,;=%`. -/
def isHostChar (ch : UInt8) : Bool :=
  isLower ch || isUpper ch || isDigit ch ||
    [45, 46, 95, 126, 33, 36, 38, 39, 40, 41, 42, 43, 44, 59, 61, 37].contains ch

/-- `std::isxdigit`. -/
def isXDigit (ch : UInt8) : Bool := (hexDigit? ch).isSome

/-- `pctDecode`: a percent sign and two hexadecimal digits stand for a byte, unless
that byte is the slash. -/
def pctDecode : Bytes → Bytes
  | b :: hi :: lo :: rest =>
      if b == 37 && isXDigit hi && isXDigit lo then
        let val := (((hexDigit? hi).getD 0) * 16 + (hexDigit? lo).getD 0).toUInt8
        if val == SLASH then b :: pctDecode (hi :: lo :: rest)
        else val :: pctDecode rest
      else b :: pctDecode (hi :: lo :: rest)
  | b :: rest => b :: pctDecode rest
  | [] => []

/-- `str_tolower`. -/
def strTolower (s : Bytes) : Bytes := s.map toLower

/-- Spaces and tabs, the characters `str_trim` removes. -/
def isBlank (ch : UInt8) : Bool := ch == SP || ch == HTAB

/-- `str_trim`. -/
def strTrim (s : Bytes) : Bytes :=
  ((s.dropWhile isBlank).reverse.dropWhile isBlank).reverse

/-- `find_crlf`: the position of the first CR LF. -/
def findCrlf (data : Bytes) : Option ℕ := FirstMatch.find crlf data

/-- The loop of `cleanPath`: runs of slashes become one slash. -/
def squeezeSlashes (lastWasSlash : Bool) : Bytes → Bytes
  | [] => []
  | ch :: rest =>
      if ch == SLASH then
        if lastWasSlash then squeezeSlashes true rest else ch :: squeezeSlashes true rest
      else ch :: squeezeSlashes false rest

/-- `cleanPath`: no run of slashes, no trailing slash. -/
def cleanPath (path : Bytes) : Bytes := dropTrailingSlash (squeezeSlashes false path)

/-! ### The Host value -/

/-- `HostState`. -/
inductive HostState where
  | start
  | inHost
  | ipLiteral
  | ipLiteralEnd
  | port
  deriving DecidableEq, Repr

/-- What `validate_host` keeps while it walks over the value. -/
structure HostScan where
  state : HostState
  hostLen : ℕ
  dotPos : ℕ
  port : ℕ
  needLc : Bool

/-- The cases `HOST_IN_HOST` and, by falling through, `HOST_START`. -/
def hostInHost (sc : HostScan) (i : ℕ) (ch : UInt8) : Option HostScan :=
  let sc := { sc with state := .inHost }
  if isUpper ch then some { sc with needLc := true }
  else if isLower ch || isDigit ch then some sc
  else if ch == COLON then some { sc with hostLen := i, state := .port }
  else if ch == 45 then some sc
  else if ch == DOT then if sc.dotPos + 1 = i then none else some { sc with dotPos := i }
  else if isHostChar ch then some sc
  else none

/-- One character of `validate_host`; `none` is its `return false`. -/
def hostStep (sc : HostScan) (i : ℕ) (ch : UInt8) : Option HostScan :=
  match sc.state with
  | .start => if ch == 91 then some { sc with state := .ipLiteral } else hostInHost sc i ch
  | .inHost => hostInHost sc i ch
  | .ipLiteral =>
      if isUpper ch then some { sc with needLc := true }
      else if isLower ch || isDigit ch then some sc
      else if ch == COLON || ch == 45 then some sc
      else if ch == DOT then if sc.dotPos + 1 = i then none else some { sc with dotPos := i }
      else if ch == 93 then some { sc with hostLen := i + 1, state := .ipLiteralEnd }
      else if isHostChar ch then some sc
      else none
  | .ipLiteralEnd => if ch == COLON then some { sc with state := .port } else none
  | .port =>
      if isDigit ch then
        let d := ch.toNat - 48
        if sc.port > 6553 || (sc.port = 6553 && d > 5) then none
        else some { sc with port := sc.port * 10 + d }
      else none

/-- The loop of `validate_host`. -/
def hostScan (sc : HostScan) (i : ℕ) : Bytes → Option HostScan
  | [] => some sc
  | ch :: rest =>
      match hostStep sc i ch with
      | none => none
      | some sc' => hostScan sc' (i + 1) rest

/-- `validate_host`: the normalized host and the port, or `none` for a value that
is not a host. -/
def validateHost (hostValue : Bytes) : Option (Bytes × ℕ) :=
  if hostValue.isEmpty then none
  else
    match hostScan ⟨.start, hostValue.length, hostValue.length, 0, false⟩ 0 hostValue with
    | none => none
    | some sc =>
        if sc.state = .ipLiteral then none
        else
          let hostLen :=
            if 0 < sc.hostLen && hostValue[sc.hostLen - 1]? == some DOT then sc.hostLen - 1
            else sc.hostLen
          if hostLen = 0 then none
          else
            let normalized := hostValue.take hostLen
            some (if sc.needLc then strTolower normalized else normalized, sc.port)

example : (validateHost (ascii "Example.COM.:8080")).map Prod.fst = some (ascii "example.com") := by
  decide

end Webserv
