import Std.Data.ExtTreeMap
import Webserv.Config.Interpreters
import Webserv.Config.Syntax
import Webserv.Lib.Numeral

/-!
# The directives of a configuration

What a directive of the blocks `http`, `server` and `location` makes of its values, and the
records that it sets.  A check that fails is a `Report`.
-/

namespace Webserv

open Bytes

/-! ### Numbers -/

/-- The largest `long`. -/
def LONG_MAX : ℕ := 2 ^ 63 - 1

/-- The largest `int`. -/
def INT_MAX : ℤ := 2 ^ 31 - 1

/-- The accumulator of `safe_strtol`. -/
def strtolFrom (result : ℕ) : Bytes → Option ℕ
  | [] => some result
  | b :: s =>
    let digit := b.toNat - 48
    if (LONG_MAX - digit) / 10 < result then none else strtolFrom (result * 10 + digit) s

/-- `safe_strtol`. -/
def safeStrtol (s : Bytes) : Option ℕ :=
  if s.isEmpty then none else if !s.all isDigit then none else strtolFrom 0 s

/-- A `long` as an `int`. -/
def toInt (n : ℕ) : ℤ :=
  if n % 2 ^ 32 < 2 ^ 31 then ((n % 2 ^ 32 : ℕ) : ℤ) else ((n % 2 ^ 32 : ℕ) : ℤ) - 2 ^ 32

/-- A number that is narrowed to an `int` and compared with two bounds. -/
def intInRange (lo hi : ℤ) (r : Report) (n : ℕ) : Except Report ℤ :=
  if toInt n < lo ∨ hi < toInt n then .error r else .ok (toInt n)

/-- A string that is read, narrowed and compared. -/
def numberIn (lo hi : ℤ) (bad range : Report) (s : Bytes) : Except Report ℤ :=
  match safeStrtol s with
  | none => .error bad
  | some n => intInRange lo hi range n

/-! ### Hosts -/

/-- `is_valid_octet`. -/
def isValidOctet (s : Bytes) : Bool :=
  if s.isEmpty || 3 < s.length then false
  else if s.head? == some 48 && 1 < s.length then false
  else if !s.all isDigit then false
  else
    match safeStrtol s with
    | none => false
    | some n => n ≤ 255

/-- The loop of `is_valid_host`; `cur` is the part behind the last dot. -/
def validHostFrom (dots : ℕ) (cur : Bytes) : Bytes → Bool
  | [] => isValidOctet cur && dots == 3
  | b :: s =>
    if b == DOT then
      if !isValidOctet cur then false
      else if 3 < dots + 1 then false
      else validHostFrom (dots + 1) [] s
    else validHostFrom dots (cur ++ [b]) s

/-- `is_valid_host`. -/
def isValidHost (host : Bytes) : Bool := if host.isEmpty then false else validHostFrom 0 [] host

/-! ### The records -/

/-- The pages of `error_page` by code. -/
abbrev ErrorPages := Std.ExtTreeMap ℤ Bytes

/-- A `location` as its block is read. -/
structure LocationConf extends Location where
  cgiPaths : List Bytes
  cgiExtensions : List Bytes
  errorPage : ErrorPages

/-- A `server` as its block is read. -/
structure ServerConf where
  host : Bytes
  port : ℤ
  timeoutSeconds : ℤ
  root : Bytes
  clientMaxBodySize : ℤ
  indexFiles : List Bytes
  serverName : Bytes
  errorPage : ErrorPages
  locations : List LocationConf

/-- `httpConfig`. -/
structure HttpConf where
  clientMaxBodySize : ℤ
  errorPage : ErrorPages
  servers : List ServerConf

/-- `eventsConfig`. -/
structure EventsConf where
  workerConnections : ℤ
  eventModel : Bytes

/-- `Server(const httpConfig&)`. -/
def ServerConf.ofHttp (http : HttpConf) : ServerConf where
  host := []
  port := -1
  timeoutSeconds := 0
  root := []
  clientMaxBodySize := http.clientMaxBodySize
  indexFiles := []
  serverName := []
  errorPage := http.errorPage
  locations := []

/-- `Location(const Server&)`; the limit goes through `size_t` and comes back as it was. -/
def LocationConf.ofServer (s : ServerConf) : LocationConf where
  path := []
  root := s.root
  indexFiles := s.indexFiles
  autoindex := false
  allowedMethods := []
  cgiMap := ∅
  upload := []
  returnCode := -1
  returnValue := []
  clientMaxBodySize := s.clientMaxBodySize
  redirectEnabled := false
  cgiPaths := []
  cgiExtensions := []
  errorPage := s.errorPage

/-- `setCGI_paths`. -/
def LocationConf.setCgiPaths (l : LocationConf) (paths : List Bytes) : LocationConf :=
  { l with cgiPaths := paths, cgiMap := CgiConfig.mapOf paths l.cgiExtensions }

/-- `setCGI_extensions`. -/
def LocationConf.setCgiExtensions (l : LocationConf) (extensions : List Bytes) : LocationConf :=
  { l with cgiExtensions := extensions, cgiMap := CgiConfig.mapOf l.cgiPaths extensions }

/-- `setReturnRedirection`. -/
def LocationConf.setReturnRedirection (l : LocationConf) (code : ℤ) (path : Bytes) :
    LocationConf :=
  { l with returnCode := code, returnValue := path, redirectEnabled := code ≠ -1 }

/-- `check_for_allowed_methods`. -/
def LocationConf.checkForAllowedMethods (l : LocationConf) : LocationConf :=
  if l.allowedMethods.isEmpty then { l with allowedMethods := [ascii "GET"] } else l

/-! ### Directives that several blocks have -/

/-- The value of a directive that takes one. -/
def singleValue (r : Report) : List Bytes → Except Report Bytes
  | [v] => .ok v
  | _ => .error r

/-- A limit that `parse_cl_mx_bd_sz` reads, here `sz`. -/
def bodySize (sz : Bytes → ℤ) (r : Report) (v : Bytes) : Except Report ℤ :=
  if sz v = -1 ∨ INT_MAX < sz v then .error r else .ok (sz v)

/-- `error_page`: codes and the page behind them. -/
def errorPageDirective (few bad : Report) (pages : ErrorPages) (values : List Bytes) :
    Except Report ErrorPages :=
  if values.length < 2 then .error few
  else
    values.dropLast.foldlM
      (fun pages v => (numberIn 300 599 bad bad v).map (pages.insert · (values.getLastD []))) pages

/-! ### The server -/

/-- What is printed of an error in a `server` block. -/
def serverReport (place : String) : Report :=
  .of "Syntax Error: directive " (place ++ " in parseDirective of server")

/-- What is printed of an error in a `location` block. -/
def locationReport (place : String) : Report :=
  .of "Syntax Error: directive" (place ++ " in parseDirective of Location")

/-- The place of a host that is refused, with its long dash. -/
def hostReport : Report where
  msg := ascii "Syntax Error: directive "
  place := ascii "'invalid host in listen directive " ++ [0xE2, 0x80, 0x94] ++
    ascii " expected IPv4, localhost, or *' in parseDirective of server"

/-- The report about a port that is out of range. -/
def portRange : Report := serverReport "'not valid range for port (1-65535)'"

/-- The host in front of the colon of `listen`. -/
def listenHost (host : Bytes) : Except Report Bytes :=
  if host = ascii "*" then .ok (ascii "0.0.0.0")
  else if host = ascii "localhost" then .ok host
  else if isValidHost host then .ok host
  else .error hostReport

/-- `listen`. -/
def listenDirective (s : ServerConf) (val : Bytes) : Except Report ServerConf :=
  if val.contains COLON then do
    let host ← listenHost (val.takeWhile (· ≠ COLON))
    let port ← numberIn 1 65535 (serverReport "'not valid port'") portRange
      ((val.dropWhile (· ≠ COLON)).drop 1)
    .ok { s with host, port }
  else
    match safeStrtol val with
    | some n => (intInRange 1 65535 portRange n).map ({ s with host := ascii "0.0.0.0", port := · })
    | none =>
      if isValidHost val then .ok { s with host := val, port := 9090 }
      else .error (serverReport "'listen value must be a port, an IPv4 address, or host:port'")

/-- `index` of a server, which reports as a location does. -/
def serverIndex (files : List Bytes) (values : List Bytes) : Except Report (List Bytes) :=
  values.foldlM
    (fun files v =>
      if v.isEmpty then .error (locationReport "'index value cannot be empty'")
      else .ok (files ++ [v])) files

/-- `timeout`. -/
def timeoutValue (v : Bytes) : Except Report ℤ :=
  numberIn 1 3600 (serverReport "'Invalid value of timeout'")
    (serverReport "'Invalid range of value of timeout'") v

/-- `parseDirective` of a server, on the values. -/
def serverDirective (sz : Bytes → ℤ) (s : ServerConf) (directive : Bytes) (values : List Bytes) :
    Except Report ServerConf :=
  if values.isEmpty then .error (serverReport "'has no value'")
  else if directive = ascii "listen" then do
    listenDirective s (← singleValue (serverReport "'listen expects a single value'") values)
  else if directive = ascii "root" then do
    let v ← singleValue (serverReport "'root expects a single value'") values
    .ok { s with root := v }
  else if directive = ascii "index" then do
    let files ← serverIndex s.indexFiles values
    .ok { s with indexFiles := files }
  else if directive = ascii "server_name" then .ok { s with serverName := values.headD [] }
  else if directive = ascii "client_max_body_size" then do
    let v ← singleValue (serverReport "'client_max_body_size expects a single value'") values
    let size ← bodySize sz (.of "Syntax Error" "Invalid client_max_body_size") v
    .ok { s with clientMaxBodySize := size }
  else if directive = ascii "timeout" then do
    let v ← singleValue (serverReport "'timeout expects a single value'") values
    let seconds ← timeoutValue v
    .ok { s with timeoutSeconds := seconds }
  else if directive = ascii "error_page" then do
    let pages ← errorPageDirective (serverReport "'error_page needs at least a code and a path'")
      (serverReport "'Invalid error code'") s.errorPage values
    .ok { s with errorPage := pages }
  else if directive = ascii "allowed_methods" then
    .error (.of "Syntax Error: directive " "'allowed_methods is only allowed in location context'")
  else .error (serverReport "'unknown server directive'")

/-! ### The locations -/

/-- `allowed_methods`; `seen` are the methods that have been there. -/
def allowedMethodsFrom (seen methods : List Bytes) : List Bytes → Except Report (List Bytes)
  | [] => .ok methods
  | v :: vs =>
    if v = ascii "GET" ∨ v = ascii "POST" ∨ v = ascii "DELETE" then
      if seen.contains v then .error (locationReport "'duplicate method'")
      else allowedMethodsFrom (v :: seen) (methods ++ [v]) vs
    else .error (locationReport "'not a valid method'")

/-- `return`. -/
def returnDirective (l : LocationConf) : List Bytes → Except Report LocationConf
  | [code, url] =>
    (numberIn 300 399 (locationReport "'Invalid return code'")
      (locationReport "'Invalid return code: must be 3xx'") code).map
        (l.setReturnRedirection · url)
  | _ => .error (locationReport "'return expects exactly a code and a URL'")

/-- `parseDirective` of a location, on the values. -/
def locationDirective (sz : Bytes → ℤ) (l : LocationConf) (directive : Bytes)
    (values : List Bytes) : Except Report LocationConf :=
  if values.isEmpty then
    .error ⟨ascii "Directive '" ++ directive ++ ascii "' must have at least one value.",
      ascii "parseDirective"⟩
  else if directive = ascii "root" then do
    let v ← singleValue (locationReport "'root expects a single value'") values
    .ok { l with root := v }
  else if directive = ascii "index" then .ok { l with indexFiles := values }
  else if directive = ascii "allowed_methods" then do
    let methods ← allowedMethodsFrom [] l.allowedMethods values
    .ok { l with allowedMethods := methods }
  else if directive = ascii "autoindex" then do
    let v ← singleValue (locationReport "'autoindex expects a single value'") values
    if v = ascii "on" then .ok { l with autoindex := true }
    else if v = ascii "off" then .ok { l with autoindex := false }
    else .error (locationReport "'NOT a valid option for autoindex'")
  else if directive = ascii "cgi_path" then .ok (l.setCgiPaths values)
  else if directive = ascii "cgi_ext" then .ok (l.setCgiExtensions values)
  else if directive = ascii "upload_path" then do
    let v ← singleValue (locationReport "upload_path expects a single value'") values
    .ok { l with upload := v }
  else if directive = ascii "client_max_body_size" then do
    let v ← singleValue (locationReport "'client_max_body_size expects a single value'") values
    let size ← bodySize sz (locationReport "'NOT a valid client max body size'") v
    .ok { l with clientMaxBodySize := size }
  else if directive = ascii "error_page" then do
    let pages ← errorPageDirective (locationReport "'error_page needs at least a code and a path'")
      (locationReport "'Invalid error code'") l.errorPage values
    .ok { l with errorPage := pages }
  else if directive = ascii "return" then returnDirective l values
  else .error (locationReport "'UNKNOWN location directive'")

/-! ### `http` and `events` -/

/-- What is printed of an error in the `http` block. -/
def httpReport (place : String) : Report := .of "Syntax Error: directive " place

/-- `parseDirective` of the http block, on the values. -/
def httpDirective (sz : Bytes → ℤ) (http : HttpConf) (directive : Bytes) (values : List Bytes) :
    Except Report HttpConf :=
  if values.isEmpty then .error (httpReport " 'has no value' parseDirective for http")
  else if directive = ascii "client_max_body_size" then do
    let v ← singleValue
      (httpReport "'client_max_body_size expects a single value' in parseDirective of http") values
    let size ← bodySize sz (.of "Syntax Error" "Invalid client_max_body_size") v
    .ok { http with clientMaxBodySize := size }
  else if directive = ascii "error_page" then do
    let pages ← errorPageDirective
      (httpReport "'error_page needs at least a code and a path' in parseDirective of http")
      (httpReport "'Invalid error code' in parseDirective of http") http.errorPage values
    .ok { http with errorPage := pages }
  else .error (httpReport " 'NOT SUPPORTED in http' parseDirective for http")

/-- `parseDirective` of the events, on the values: what is wrong with them is a warning. -/
def eventsDirective (events : EventsConf) (directive : Bytes) (values : List Bytes) : EventsConf :=
  if directive = ascii "worker_connections" then
    match values with
    | [v] =>
      match safeStrtol v with
      | some n => if n = 0 then events else { events with workerConnections := toInt n }
      | none => events
    | _ => events
  else if directive = ascii "event_model" then
    match values with
    | [v] =>
      if (["select", "poll", "epoll", "kqueue"].map ascii).contains v then
        { events with eventModel := v }
      else events
    | _ => events
  else events

end Webserv
