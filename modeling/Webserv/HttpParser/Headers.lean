import Webserv.HttpParser.RequestLine
import Webserv.Lib.WhileLoop

/-!
# Header lines

`parseHeaders` takes complete lines off the read buffer and folds them into the
header map.  The blank line brings the checks that look at several headers, the
choice of the server by its name, and the framing of the body.
-/

namespace Webserv

open Bytes

/-- The headers that may not be repeated. -/
def singletonHeaders : List Bytes :=
  ["host", "content-length", "transfer-encoding", "content-type", "content-location",
    "authorization", "date", "location", "retry-after", "max-forwards", "if-modified-since",
    "if-unmodified-since", "if-range"].map ascii

/-- One header line, without its CRLF. -/
def headerLine (req : HttpRequest) (line : Bytes) : HttpRequest :=
  match line.findIdx? (· == COLON) with
  | none => req.fail 400
  | some colon =>
      let name := strTolower (strTrim (line.take colon))
      let value := strTrim (line.drop (colon + 1))
      let store := fun (v : Bytes) =>
        let req := { req with headers := req.headers.insert name v }
        if req.headers.size > 100 then req.fail 431 else req
      if name.isEmpty then req.fail 400
      else
        match req.headers[name]? with
        | some old =>
            if singletonHeaders.contains name then req.fail 400
            else store (old ++ ascii ", " ++ value)
        | none => store value

/-- One round of the loop over the lines.  It leaves with the flag set when the
blank line has been taken, and without it when the function returns. -/
def headerRound (s : ByteQueue × HttpRequest) :
    ByteQueue × HttpRequest ⊕ (ByteQueue × HttpRequest) × Bool :=
  let (buf, req) := s
  match findCrlf buf.items with
  | none => .inr ((buf, req), false)
  | some pos =>
      if pos > 8192 then .inr ((buf, req.fail 431), false)
      else if pos = 0 then .inr ((buf.consume 2, req), true)
      else
        let buf' := buf.consume (pos + 2)
        let req' := headerLine req (buf.items.take pos)
        if req'.parseState = .error then .inr ((buf', req'), false)
        else .inl (buf', req')

/-- The `while (true)` of `_parseHeaders`. -/
def headerLoop (s : ByteQueue × HttpRequest) : (ByteQueue × HttpRequest) × Bool :=
  WhileLoop.loop (fun s => s.1.size) headerRound (fun s => (s, false)) s

/-- `override_host`: the first server block with that name takes over. -/
def overrideHost (c : Connection) (host : Bytes) : Connection :=
  match c.configuration.find? (fun s => s.serverName == host) with
  | some s => (c.overideConf s).resizeBuffers
  | none => c

/-- The loop over the digits of Content-Length: the value as a `size_t`, or the
code of the error. -/
def contentLengthLoop (maxBody cl : ℕ) : Bytes → Except ℕ ℕ
  | [] => .ok cl
  | ch :: rest =>
      if !isDigit ch then .error 400
      else
        let cl := (cl * 10 + (ch.toNat - 48)) % 2 ^ 64
        if cl > maxBody then .error 413 else contentLengthLoop maxBody cl rest

/-- The checks on Host, and the server it selects. -/
def hostChecks (c : Connection) : Connection :=
  let req := c.request
  match req.headers[ascii "host"]? with
  | none =>
      if req.version = ascii "HTTP/1.1" then { c with request := req.fail 400 } else c
  | some hostVal =>
      match validateHost hostVal with
      | none => { c with request := req.fail 400 }
      | some (host, _) =>
          let c := overrideHost c host
          { c with request := { c.request with
              headers := c.request.headers.insert (ascii "host") host } }

/-- The framing of the body, from Content-Length and Transfer-Encoding. -/
def framing (maxBody : ℕ) (req : HttpRequest) : HttpRequest :=
  let cl := req.headers[ascii "content-length"]?
  let te := req.headers[ascii "transfer-encoding"]?
  if cl.isSome && te.isSome then req.fail 400
  else
    let parsed : Except ℕ ℕ :=
      match cl with
      | none => .ok req.contentLength
      | some v => if v.isEmpty then .error 400 else contentLengthLoop maxBody 0 v
    match parsed with
    | .error code => req.fail code
    | .ok n =>
        let req := { req with contentLength := n }
        let req :=
          if te.any (fun v => strTolower v == ascii "chunked") then
            { req with chunked := true, contentLength := 0 }
          else req
        if !req.chunked && req.contentLength == 0 then
          if req.method = ascii "POST" then req.fail 411
          else { req with parseState := .complete }
        else { req with parseState := .body }

/-- The part of `_parseHeaders` after the blank line. -/
def finishHeaders (c : Connection) : Connection :=
  let c := hostChecks c
  if c.request.parseState = .error then c
  else { c with request := framing c.config.getMaxBody c.request }

/-- What follows the loop: nothing, when the function has returned from it. -/
def afterHeaderLoop (c : Connection) (r : (ByteQueue × HttpRequest) × Bool) : Connection :=
  let c := { c with readBuffer := r.1.1, request := r.1.2 }
  if r.2 then finishHeaders c else c

/-- `_parseHeaders`. -/
def parseHeaders (c : Connection) : Connection :=
  afterHeaderLoop c (headerLoop (c.readBuffer, c.request))

end Webserv
