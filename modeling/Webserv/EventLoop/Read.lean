import Webserv.Buffer
import Webserv.HttpParser.Feed
import Webserv.ResponseHandler.Handle

/-!
# Reading a request

What `_handleRead` does with one client: it receives, feeds the parser, spools the
body of a request for a script into a file, and dispatches the request when it is
complete.  The event loop is told by a `ReadFate` what is left to do with the
client.
-/

namespace Webserv

open Bytes

/-! ### The spool file -/

/-- What the kernel answers while a body is spooled; `none` and negative numbers are
failures. -/
structure SpoolAnswers where
  openFd : Option ℕ
  writes : List ℤ
  reopenFd : Option ℕ
  /-- The counter in the name of the file. -/
  counter : ℕ
  /-- No answer of the kernel's: the offset `_head` of the read buffer, which the queue of its
  bytes does not have.  It counts only where `earase` has given the storage away. -/
  head : ℕ

/-- Nothing can be spooled. -/
def SpoolAnswers.none : SpoolAnswers := ⟨.none, [], .none, 0, 0⟩

/-- The file is opened, once for a request. -/
def openSpoolFile (env : Env) (a : SpoolAnswers) (connNum : ℕ) (req : HttpRequest) : HttpRequest :=
  if req.opened then req
  else
    match a.openFd with
    | some fd => { req with
        opened := true
        openedFile := fd
        tmpBodyPath := ascii "/tmp/webserv_" ++ decimal a.counter ++ ascii "_" ++
          decimal connNum ++ ascii "_" ++ decimal env.now }
    | none => { req.fail 503 with opened := true, openedFile := -1, tmpBodyPath := [] }

/-- The `write` loop: how much of `left` bytes it writes, or its failure. -/
def spoolWrites (written : ℕ) : List ℤ → ℕ → Option ℕ
  | _, 0 => some written
  | [], _ + 1 => some written
  | n :: ns, left + 1 =>
      if n < 0 then none
      else if n = 0 then some written
      else spoolWrites (written + n.toNat) ns (left + 1 - n.toNat)

/-- `flushRequestBodyToTmpFile`. -/
def flushRequestBodyToTmpFile (env : Env) (a : SpoolAnswers) (c : Connection) : Connection :=
  let req := c.request
  if req.body.isEmpty then c
  else if 0 < req.maxBodySize ∧ req.bodyFileWritten + req.body.size > req.maxBodySize then
    { c with request := req.fail 413 }
  else
    let req := openSpoolFile env a c.connNum req
    match if req.openedFile < 0 then none else spoolWrites 0 a.writes req.body.size with
    | none => { c with request := req.fail 503 }
    | some offset => { c with request := { req with
        bodyFileWritten := req.bodyFileWritten + offset
        body := req.body.clear } }

/-- `cleanupBodyTmpFile`. -/
def cleanupBodyTmpFile (req : HttpRequest) : HttpRequest :=
  { req with openedFile := -1, tmpBodyPath := [], opened := false }

/-- `finalizeBodyTmpFile`: the file is opened again for reading. -/
def finalizeBodyTmpFile (a : SpoolAnswers) (req : HttpRequest) : HttpRequest :=
  if !req.opened || req.openedFile < 0 || req.bodyFileWritten = 0 then req
  else
    match a.reopenFd with
    | some fd => { req with openedFile := fd }
    | none => { req.fail 500 with openedFile := -1 }

/-! ### Is the body there? -/

/-- `isBodyFullySpooled`. -/
def isBodyFullySpooled (c : Connection) : Bool :=
  let req := c.request
  if !req.expectsBody then true
  else if pathRequiresCgiBodySpool req c.config then
    req.body.isEmpty && req.parseState = .complete && 0 < req.bodyFileWritten &&
      req.bodyFileWritten = req.written && req.contentLength ≤ req.bodyFileWritten
  else if req.chunked then req.parseState = .complete
  else if 0 < req.contentLength then req.contentLength ≤ req.written
  else if req.method = ascii "POST" then req.parseState = .complete && 0 < req.written
  else true

/-- `resumeBodyIfNeeded`. -/
def resumeBodyIfNeeded (c : Connection) : Connection :=
  let req := c.request
  if req.parseState ≠ .complete then c
  else if 0 < req.contentLength ∧ req.bodyFileWritten < req.contentLength then
    { c with request := { req with parseState := .body } }
  else if !req.chunked ∧ req.contentLength = 0 ∧ req.method = ascii "POST" ∧
      ¬ c.readBuffer.isEmpty then
    { c with request := { req with parseState := .body } }
  else c

/-- `maybeCompletePostWithoutLength`. -/
def maybeCompletePostWithoutLength (c : Connection) : Connection :=
  let req := c.request
  if req.parseState = .body ∧ !req.chunked ∧ req.contentLength = 0 ∧ req.method = ascii "POST" ∧
      req.written ≠ 0 ∧ c.readBuffer.isEmpty then
    { c with request := { req with parseState := .complete } }
  else c

/-! ### Dispatch -/

/-- What the event loop does with the client when the reading ends. -/
inductive ReadFate where
  /-- Nothing: more has to come. -/
  | nothing
  /-- The client is closed. -/
  | close
  /-- A response is queued; the client is rearmed. -/
  | answered
  /-- A script is to be started. -/
  | script (info : CgiRequestInfo)
  /-- The call does not return. -/
  | stuck

/-- A response is queued, and the client writes. -/
def answer (o : Outcome Connection Unit) : Outcome Connection ReadFate :=
  o.andThen fun c _ => .ok c.setWriting .answered

/-- The response to a request that is not for a script. -/
def respond (env : Env) (c : Connection) : Outcome Connection ReadFate :=
  let reply := handle env (cleanupBodyTmpFile c.request) c.config
  answer (({ c with request := reply.request } : Connection).queue reply.blocks)

/-- `_tryDispatchComplete`; its `false` is `nothing`, and a script is left to the caller
to start. -/
def tryDispatchComplete (env : Env) (a : SpoolAnswers) (c : Connection) :
    Outcome Connection ReadFate :=
  if c.request.parseState ≠ .complete ∨ isBodyFullySpooled c = false then .ok c .nothing
  else
    let c := c.setProcessing
    let c := if pathRequiresCgiBodySpool c.request c.config then
        { c with request := finalizeBodyTmpFile a c.request } else c
    match resolveCgiRequest c.request c.config with
    | some info =>
        if 0 < c.request.bodyFileWritten ∧ c.request.openedFile < 0 then
          answer (sendError env c.request.errorCode c)
        else .ok c (.script info)
    | none => respond env c

/-! ### The loop -/

/-- What `recv` returns, and what the kernel answers when the body is spooled then. -/
inductive RecvAnswer where
  | data (d : Bytes) (a : SpoolAnswers)
  | eof (a : SpoolAnswers)
  | again (a : SpoolAnswers)

/-- The end of file: a body without a length is complete, everything else is lost. -/
def readEof (env : Env) (a : SpoolAnswers) (c : Connection) : Outcome Connection ReadFate :=
  let req := c.request
  if req.parseState = .body ∧ !req.chunked ∧ req.contentLength = 0 ∧ 0 < req.written ∧
      pathRequiresCgiBodySpool req c.config then
    let c := flushRequestBodyToTmpFile env a c
    let c := { c with request := { c.request with parseState := .complete } }
    (tryDispatchComplete env a c).andThen fun c fate =>
      match fate with
      | .nothing => .ok c .close
      | fate => .ok c fate
  else .ok c .close

/-- Nothing more has come. -/
def readAgain (env : Env) (a : SpoolAnswers) (c : Connection) : Outcome Connection ReadFate :=
  let c := maybeCompletePostWithoutLength c
  let c := if pathRequiresCgiBodySpool c.request c.config then
      flushRequestBodyToTmpFile env a c else c
  tryDispatchComplete env a c

/-- A piece has come, and the parser has been fed. -/
def readFed (env : Env) (a : SpoolAnswers) (c : Connection) : Outcome Connection ReadFate :=
  if c.request.parseState = .error then answer (sendError env c.request.errorCode c)
  else
    let c := if (c.request.parseState = .body ∨ c.request.parseState = .complete) ∧
        pathRequiresCgiBodySpool c.request c.config then
        flushRequestBodyToTmpFile env a c else c
    tryDispatchComplete env a (maybeCompletePostWithoutLength c)

/-- `append` to a read buffer whose storage has been given away: `Buffer.append_earase`. -/
def Connection.recvErased (c : Connection) (data : Bytes) (head : ℕ) :
    Outcome Connection ReadFate :=
  if c.readBuffer.limit < sizeT (data.length - head) then .bodyLimit c else .ok c .stuck

/-- The loop of `_handleRead`; when the answers run out, `recv` would block. -/
def readLoop (env : Env) (c : Connection) : List RecvAnswer → Outcome Connection ReadFate
  | [] => readAgain env .none c
  | .eof a :: _ => readEof env a c
  | .again a :: _ => readAgain env a c
  | .data d a :: rest =>
      if c.request.erased then c.recvErased d a.head
      else (c.recv d env.now).andThen fun c _ =>
        (feed env.fs.statAnswer (resumeBodyIfNeeded c)).andThen fun c _ =>
          (readFed env a c).andThen fun c fate =>
            match fate with
            | .nothing => readLoop env c rest
            | fate => .ok c fate

/-- The handler of the `try` block: a 413 page. -/
def catchRead (env : Env) : Outcome Connection ReadFate → Outcome Connection ReadFate
  | .ok c fate => .ok c fate
  | .bodyLimit c =>
      let req := { c.request with
        headers := c.request.headers.insert (ascii "connection") (ascii "close") }
      answer (sendError env 413 { c with request := req })

end Webserv
