import Webserv.Cgi.Output
import Webserv.ResponseHandler.Page

/-!
# A script's job and its client

What the event loop does to a job and to the connection it works for: relaying
what was read from the pipe, ending the job at the end of the output, and ending
it early.  The functions here take the two and leave the bookkeeping of
descriptors to the event loop: the fate that a call returns says whether the
client has to be rearmed and whether the job is to be closed.
-/

namespace Webserv

open Bytes

/-- `CgiJob`. -/
structure CgiJob where
  clientFd : ℕ
  resultFd : ℕ
  resultBuffer : ByteQueue
  startTime : ℕ
  timeoutSeconds : ℤ
  headersSent : Bool
  bodyWritten : ℕ
  parentRequest : ℕ

/-- `CgiJob(cfd, rfd, max_size, timeout)`. -/
def CgiJob.new (clientFd resultFd maxSize : ℕ) (timeout : ℤ) (now : ℕ) : CgiJob where
  clientFd := clientFd
  resultFd := resultFd
  resultBuffer := Fifo.new maxSize
  startTime := now
  timeoutSeconds := timeout
  headersSent := false
  bodyWritten := 0
  parentRequest := 0

/-- `CGI_HEADER_BUF_LIMIT`. -/
def cgiHeaderBufLimit : ℕ := 64 * 1024

/-- `CGI_STREAM_HWM`. -/
def cgiStreamHwm : ℕ := 256 * 1024

/-- `CGI_STREAM_LWM`. -/
def cgiStreamLwm : ℕ := 64 * 1024

/-- `FHLS`: how long a header block may be. -/
def fhls : ℕ := 8 * 1024

/-- `LimitInternalRecursion`: how often the pipe of one job may be read. -/
def limitInternalRecursion : ℕ := 8000

/-- `LimitRequestBody`. -/
def limitRequestBody : ℕ := 20971520

/-- `Buffer::append_result`: `append` under a limit of its own. -/
def appendResult (buf : ByteQueue) (data : Bytes) : Option ByteQueue :=
  if data = [] then some buf
  else if buf.size + data.length > limitRequestBody then none
  else some (buf.push data)

/-- What `read` on the pipe returns. -/
inductive ReadAnswer where
  | data (d : Bytes)
  | eof
  /-- A negative result: nothing there yet. -/
  | again
  deriving DecidableEq, Repr

/-- What the event loop does with the job and its client when a call returns. -/
inductive CgiFate where
  /-- Nothing: the job waits for more output. -/
  | wait
  /-- The client, now writing, is rearmed. -/
  | streamed
  /-- The client is rearmed and the job closed. -/
  | ended
  deriving DecidableEq, Repr

/-! ### The end of a job -/

/-- `_failCgiJob`: an error response, or behind a head the end of the chunks. -/
def failCgiJob (env : Env) (code : ℕ) (c : Connection) (job : CgiJob) :
    Outcome (Connection × CgiJob) CgiFate :=
  if job.headersSent then
    match c.queue [zeroChunk] with
    | .bodyLimit c => .bodyLimit (c, job)
    | .ok c _ =>
        let req := { c.request with
          headers := c.request.headers.insert (ascii "connection") (ascii "close") }
        .ok ({ c with request := req }.setWriting, job) .ended
  else
    match sendError env code c with
    | .bodyLimit c => .bodyLimit (c, job)
    | .ok c _ => .ok (c.setWriting, job) .ended

/-- `_finishCgiJob`. -/
def finishCgiJob (env : Env) (c : Connection) (job : CgiJob) :
    Outcome (Connection × CgiJob) CgiFate :=
  if job.headersSent then
    match c.queue (if c.request.method = ascii "HEAD" then [] else [zeroChunk]) with
    | .bodyLimit c => .bodyLimit (c, job)
    | .ok c _ => .ok (c.setWriting, job) .ended
  else
    match sendError env 502 c with
    | .bodyLimit c => .bodyLimit (c, job)
    | .ok c _ => .ok (c.setWriting, job) .ended

/-! ### Output of the script -/

/-- A block of the body is queued. -/
def relayBody (c : Connection) (job : CgiJob) (data : Bytes) :
    Outcome (Connection × CgiJob) CgiFate :=
  match c.queue (chunkBlocks data) with
  | .bodyLimit c => .bodyLimit (c, job)
  | .ok c _ => .ok (c.setWriting,
    { job with bodyWritten := job.bodyWritten + data.length }) .streamed

/-- What was read behind the header block is relayed, and the buffer emptied. -/
def relayLeftover (c : Connection) (job : CgiJob) (bodyStart : ℕ) :
    Outcome (Connection × CgiJob) CgiFate :=
  match relayBody c job (job.resultBuffer.items.drop bodyStart) with
  | .bodyLimit s => .bodyLimit s
  | .ok s fate => .ok (s.1, { s.2 with resultBuffer := s.2.resultBuffer.clear }) fate

/-- The response head is queued, and then what was read behind the header block. -/
def relayHead (c : Connection) (job : CgiJob) (bodyStart : ℕ) :
    Outcome (Connection × CgiJob) CgiFate :=
  match flushCgiHeaders job.resultBuffer.items bodyStart c.request c.writeBuffer with
  | .bodyLimit wb => .bodyLimit (c.setWriteBuffer wb, job)
  | .ok wb _ => relayLeftover (c.setWriteBuffer wb) { job with headersSent := true } bodyStart

/-- `_handleCgiEvent` for `data` read from the pipe. -/
def cgiData (env : Env) (c : Connection) (job : CgiJob) (data : Bytes) :
    Outcome (Connection × CgiJob) CgiFate :=
  let job := { job with parentRequest := job.parentRequest + 1 }
  if job.headersSent then relayBody c job data
  else
    match appendResult job.resultBuffer data with
    | none => .bodyLimit (c, job)
    | some buf =>
        let job := { job with resultBuffer := buf }
        match findHeaderEnd buf.items with
        | none => if buf.size > fhls then failCgiJob env 502 c job else .ok (c, job) .wait
        | some bodyStart => relayHead c job bodyStart

/-- The `try` block of `_handleCgiEvent`. -/
def cgiTry (env : Env) (c : Connection) (job : CgiJob) :
    ReadAnswer → Outcome (Connection × CgiJob) CgiFate
  | .data d => cgiData env c job d
  | .eof => finishCgiJob env c { job with parentRequest := 0 }
  | .again => .ok (c, job) .wait

/-- The handler of the `try` block. -/
def catchBodyLimit (env : Env) :
    Outcome (Connection × CgiJob) CgiFate → Outcome (Connection × CgiJob) CgiFate
  | .bodyLimit s => failCgiJob env 413 s.1 s.2
  | .ok s fate => .ok s fate

/-- Does `_handleCgiEvent` come to its `read`? -/
def readsPipe (c : Connection) (job : CgiJob) : Bool :=
  job.parentRequest ≤ limitInternalRecursion &&
    !(job.headersSent && cgiStreamHwm ≤ c.writeBuffer.size)

/-- `_handleCgiEvent` for a job whose client is connected; `a` is what `read`
returns if it is called. -/
def cgiEvent (env : Env) (c : Connection) (job : CgiJob) (a : ReadAnswer) :
    Outcome (Connection × CgiJob) CgiFate :=
  if job.parentRequest > limitInternalRecursion then failCgiJob env 502 c job
  else if job.headersSent && cgiStreamHwm ≤ c.writeBuffer.size then .ok (c, job) .wait
  else catchBodyLimit env (cgiTry env c job a)

/-- Is the job too old for `_closeTimedOutCgiJobs`? -/
def CgiJob.isTimedOut (job : CgiJob) (now : ℕ) : Bool :=
  (now : ℤ) - job.startTime > job.timeoutSeconds

end Webserv
