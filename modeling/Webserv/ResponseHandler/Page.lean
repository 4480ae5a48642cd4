import Webserv.Connection
import Webserv.FileSystem

/-!
# Response heads and error pages

The texts `ResponseHandler` puts together whatever the request was: the reason
phrases, the date, the header section of a response and the error pages.
`sendError` is the one response that says `Connection: close` whoever asks.
-/

namespace Webserv

open Bytes

/-! ### Phrases and dates -/

/-- `_reasonPhrase`. -/
def reasonPhrase (code : ℤ) : Bytes :=
  if code = 200 then ascii "OK"
  else if code = 201 then ascii "Created"
  else if code = 204 then ascii "No Content"
  else if code = 301 then ascii "Moved Permanently"
  else if code = 302 then ascii "Found"
  else if code = 303 then ascii "See Other"
  else if code = 304 then ascii "Not Modified"
  else if code = 307 then ascii "Temporary Redirect"
  else if code = 308 then ascii "Permanent Redirect"
  else if code = 400 then ascii "Bad Request"
  else if code = 401 then ascii "Unauthorized"
  else if code = 403 then ascii "Forbidden"
  else if code = 404 then ascii "Not Found"
  else if code = 405 then ascii "Method Not Allowed"
  else if code = 408 then ascii "Request Timeout"
  else if code = 409 then ascii "Conflict"
  else if code = 410 then ascii "Gone"
  else if code = 413 then ascii "Payload Too Large"
  else if code = 414 then ascii "URI Too Long"
  else if code = 411 then ascii "Length Required"
  else if code = 431 then ascii "Request Header Fields Too Large"
  else if code = 500 then ascii "Internal Server Error"
  else if code = 501 then ascii "Not Implemented"
  else if code = 502 then ascii "Bad Gateway"
  else if code = 503 then ascii "Service Unavailable"
  else if code = 504 then ascii "Gateway Timeout"
  else if code = 505 then ascii "HTTP Version Not Supported"
  else ascii "Unknown"

/-- A number of two digits. -/
def twoDigits (n : ℕ) : Bytes := if n < 10 then 48 :: decimal n else decimal n

/-- The names of the days of a date. -/
def weekdayNames : List Bytes := ["Sun", "Mon", "Tue", "Wed", "Thu", "Fri", "Sat"].map ascii

/-- The names of the months of a date. -/
def monthNames : List Bytes :=
  ["Jan", "Feb", "Mar", "Apr", "May", "Jun", "Jul", "Aug", "Sep", "Oct", "Nov", "Dec"].map ascii

/-- Year, month (1 to 12) and day of a day count from 1970-01-01, as `gmtime` has
them.  The count is moved to a year that begins in March, so that the leap day is
the last day of the year. -/
def civilOfDays (days : ℕ) : ℕ × ℕ × ℕ :=
  let z := days + 719468
  let era := z / 146097
  let doe := z % 146097
  let yoe := (doe - doe / 1460 + doe / 36524 - doe / 146096) / 365
  let doy := doe - (365 * yoe + yoe / 4 - yoe / 100)
  let mp := (5 * doy + 2) / 153
  let day := doy - (153 * mp + 2) / 5 + 1
  let month := if mp < 10 then mp + 3 else mp - 9
  (yoe + era * 400 + (if month ≤ 2 then 1 else 0), month, day)

/-- `_httpDate`. -/
def httpDate (now : ℕ) : Bytes :=
  let (year, month, day) := civilOfDays (now / 86400)
  let sec := now % 86400
  (weekdayNames.getD ((now / 86400 + 4) % 7) []) ++ ascii ", " ++ twoDigits day ++ [SP] ++
    (monthNames.getD (month - 1) []) ++ [SP] ++ decimal year ++ [SP] ++
    twoDigits (sec / 3600) ++ [COLON] ++ twoDigits (sec / 60 % 60) ++ [COLON] ++
    twoDigits (sec % 60) ++ ascii " GMT"

example : httpDate 1709210096 = ascii "Thu, 29 Feb 2024 12:34:56 GMT" := by decide +kernel

/-! ### Header sections -/

/-- `_connectionHeader`. -/
def connectionHeader (req : HttpRequest) : Bytes :=
  ascii (if req.keepAlive then "keep-alive" else "close")

/-- `_writeHeaders`: the header section it appends. -/
def writeHeaders (env : Env) (code : ℤ) (ct : Bytes) (cl : ℕ) (extra : Bytes)
    (req : HttpRequest) : Bytes :=
  ascii "HTTP/1.1 " ++ decimalInt code ++ [SP] ++ reasonPhrase code ++ crlf ++
    ascii "Server: webserv/1.1\r\n" ++
    ascii "Date: " ++ httpDate env.now ++ crlf ++
    ascii "Content-Type: " ++ ct ++ crlf ++
    ascii "Content-Length: " ++ decimal cl ++ crlf ++
    extra ++
    ascii "Connection: " ++ connectionHeader req ++ crlf ++ crlf

/-! ### Error pages -/

/-- `_builtinErrorBody`. -/
def builtinErrorBody (code : ℕ) : Bytes :=
  let title := decimal code ++ [SP] ++ reasonPhrase code
  ascii "<!DOCTYPE html>\n<html>\n" ++
    ascii "<head><title>" ++ title ++ ascii "</title></head>\n" ++
    ascii "<body>\n" ++
    ascii "<h1>" ++ title ++ ascii "</h1>\n" ++
    ascii "<hr><p>webserv/1.0</p>\n" ++
    ascii "</body>\n</html>\n"

/-- `_loadErrorPage`: the configured page if it can be read and is not empty. -/
def loadErrorPage (fs : FileSystem) (code : ℕ) (cfg : Server) : Bytes :=
  match cfg.errorPage[code]? with
  | none => builtinErrorBody code
  | some file =>
      if file.isEmpty then builtinErrorBody code
      else
        match fs.openRead (cStr file) with
        | .error _ => builtinErrorBody code
        | .ok content => if content.isEmpty then builtinErrorBody code else content

/-- The header section of an error response, with a body of `cl` bytes. -/
def errorHeaders (env : Env) (code : ℕ) (cl : ℕ) (connection : Bytes) : Bytes :=
  ascii "HTTP/1.1 " ++ decimal code ++ [SP] ++ reasonPhrase code ++ crlf ++
    ascii "Server: webserv/1.0\r\n" ++
    ascii "Date: " ++ httpDate env.now ++ crlf ++
    ascii "Content-Type: text/html\r\n" ++
    ascii "Content-Length: " ++ decimal cl ++ crlf ++
    ascii "Connection: " ++ connection ++ crlf ++ crlf

/-- `_sendErrorInternal`: the one block it appends. -/
def sendErrorInternal (env : Env) (code : ℕ) (req : HttpRequest) (cfg : Server) : Bytes :=
  let body := loadErrorPage env.fs code cfg
  errorHeaders env code body.length (connectionHeader req) ++
    if req.method = ascii "HEAD" then [] else body

/-- The one block that `sendError` appends. -/
def errorResponse (env : Env) (code : ℕ) (cfg : Server) : Bytes :=
  let body := loadErrorPage env.fs code cfg
  errorHeaders env code body.length (ascii "close") ++ body

/-- `sendError`, to a connection and under its configuration. -/
def sendError (env : Env) (code : ℕ) (c : Connection) : Outcome Connection Unit :=
  (c.queue [errorResponse env code c.config]).andThen fun c _ =>
    .ok { c with closeAnnounced := true } ()

/-- A status line is at the head of every error response. -/
theorem errorResponse_ne_nil (env : Env) (code : ℕ) (cfg : Server) :
    errorResponse env code cfg ≠ [] := by
  intro h
  simp only [errorResponse, errorHeaders, List.append_eq_nil_iff, ascii_eq_nil, String.reduceEq,
    false_and] at h

/-- An error page that finds room. -/
theorem sendError_ok {env : Env} {code : ℕ} {c : Connection}
    (h : c.writeBuffer.size + (errorResponse env code c.config).length ≤ c.writeBuffer.limit) :
    sendError env code c = .ok { c with
      writeBuffer := c.writeBuffer.push (errorResponse env code c.config)
      closeAnnounced := true } () := by
  have hall := c.writeBuffer.appendAll_of_fits [errorResponse env code c.config]
    (by rwa [List.flatten_singleton])
  rw [sendError, queue_ok (by rw [hall]), List.flatten_singleton]
  rfl

/-- An error page that does not. -/
theorem sendError_refused {env : Env} {code : ℕ} {c : Connection}
    (h : c.writeBuffer.limit < c.writeBuffer.size + (errorResponse env code c.config).length) :
    sendError env code c = .bodyLimit c := by
  have hall := Fifo.appendAll_singleton_of_none
    (Fifo.append_eq_none_iff.mpr ⟨errorResponse_ne_nil env code c.config, h⟩)
  rw [sendError, queue_refused (by rw [hall]), hall]
  rfl

/-- What is there when `sendError` returns. -/
theorem eq_of_sendError_ok {env : Env} {code : ℕ} {c c' : Connection} {u : Unit}
    (h : sendError env code c = .ok c' u) :
    c' = { c with
      writeBuffer := c.writeBuffer.push (errorResponse env code c.config)
      closeAnnounced := true } := by
  rcases Nat.lt_or_ge c.writeBuffer.limit
      (c.writeBuffer.size + (errorResponse env code c.config).length) with hroom | hroom
  · rw [sendError_refused hroom] at h
    cases h
  · rw [sendError_ok hroom] at h
    cases h
    rfl

/-! ### Status codes -/

/-- The text between the first two spaces of a response. -/
def statusCode (bs : Bytes) : Bytes := (bs.drop 9).takeWhile (· != SP)

theorem statusCode_append {code : Bytes} (hcode : SP ∉ code) (rest : Bytes) :
    statusCode (ascii "HTTP/1.1 " ++ (code ++ ([SP] ++ rest))) = code := by
  unfold statusCode
  rw [List.drop_left' (by decide), List.takeWhile_append_of_pos]
  · simp
  · intro b hb
    rw [bne_iff_ne]
    rintro rfl
    exact hcode hb

theorem statusCode_sendErrorInternal (env : Env) (code : ℕ) (req : HttpRequest) (cfg : Server) :
    statusCode (sendErrorInternal env code req cfg) = decimal code := by
  unfold sendErrorInternal errorHeaders
  simp only [List.append_assoc]
  exact statusCode_append (notMem_decimal (by decide) code) _

theorem statusCode_writeHeaders (env : Env) (code : ℤ) (ct : Bytes) (cl : ℕ) (extra : Bytes)
    (req : HttpRequest) (body : Bytes) :
    statusCode (writeHeaders env code ct cl extra req ++ body) = decimalInt code := by
  unfold writeHeaders
  simp only [List.append_assoc]
  exact statusCode_append (notMem_decimalInt (by decide) (by decide) code) _

end Webserv
