import Webserv.HttpParser.Headers
import Webserv.HttpParser.Body

/-!
# Feeding the parser

`feed` runs the stages of the parser on what is readable, after `recv` has put a
piece of input into the read buffer.
-/

namespace Webserv

open Bytes

/-- The limit of a body: the location's if it has one, else the server's. -/
def effectiveLimit (cfg : Server) (path : Bytes) : ℕ :=
  let limit :=
    match cfg.matchLocation path with
    | some l => if l.getClientMaxBodySize > 0 then l.getClientMaxBodySize else cfg.getMaxBody
    | none => cfg.getMaxBody
  if limit = 0 then 1048576 else limit

/-- `_applyLocationBodyLimit`. -/
def applyLocationBodyLimit (c : Connection) : Connection :=
  if c.request.path.isEmpty then c
  else
    let limit := effectiveLimit c.config c.request.path
    { c with
      request := { c.request with
        maxBodySize := limit
        body := c.request.body.setLimit limit }
      readBuffer := c.readBuffer.setLimit limit }

/-- The stage of `feed` that reads the body. -/
def feedBody (c : Connection) : Outcome Connection Unit :=
  if c.request.parseState = .body then
    let read := if c.request.chunked then parseChunked else parseBody
    (read c.readBuffer c.request).mapState fun (buf, req) =>
      { c with readBuffer := buf, request := req }
  else .ok c ()

/-- The parser has come to an end, good or bad. -/
def ParseState.terminal (s : ParseState) : Bool := s = .complete || s = .error

/-- The stage of `feed` that reads the request line. -/
def requestLineStage (stat : StatAnswer) (c : Connection) : Connection :=
  let c := if c.request.parseState = .idle then
      { c with request := { c.request with parseState := .requestLine } } else c
  if c.request.parseState = .requestLine then
    let c := parseRequestLine stat c
    if c.request.parseState = .requestLine then c else applyLocationBodyLimit c
  else c

/-- The stage of `feed` that reads the headers. -/
def headerStage (c : Connection) : Connection :=
  if c.request.parseState = .headers then parseHeaders c else c

/-- `HttpParser::feed`. -/
def feed (stat : StatAnswer) (c : Connection) : Outcome Connection Unit :=
  if c.request.parseState.terminal then .ok c ()
  else feedBody (applyLocationBodyLimit (headerStage (requestLineStage stat c)))

end Webserv
