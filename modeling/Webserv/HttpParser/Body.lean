import Webserv.HttpRequest
import Webserv.HttpParser.Text
import Webserv.Lib.WhileLoop
import Webserv.Lib.ChunkedCoding

/-!
# Request bodies

`parseBody` reads a body of known length, `parseChunked` one in chunks.  Both take
what is readable and are called again when more has arrived; between two calls the
request record says where they are: `written`, and for chunks `chunkSize` (bytes
of the chunk still to come, or none), `chunkTrailing` (the two bytes behind the
data are due) and `chunkDone` (the last chunk was read).
-/

namespace Webserv

open Bytes

/-- Take `n` readable bytes into the body. -/
def takeBody (buf : ByteQueue) (req : HttpRequest) (n : ℕ) :
    Outcome (ByteQueue × HttpRequest) Unit :=
  match req.body.append (buf.items.take n) with
  | none => .bodyLimit (buf, req)
  | some body => .ok (buf.consume n, { req with body := body, written := req.written + n }) ()

/-- The end of `_parseBody`: a body that is complete, or not yet.  `earase` gives the storage
of the buffer away: no byte is readable then, and what the next `append` does is not what it
does with a buffer that is empty; see `HttpRequest.erased`. -/
def endOfBody (buf : ByteQueue) (req : HttpRequest) : ByteQueue × HttpRequest :=
  if req.written = req.contentLength then (buf.clear, { req with parseState := .complete })
  else (buf, req)

/-- `_parseBody` has come to the end of this request, and `earase` has given the storage of
the read buffer away.  Until `reset` makes the buffer anew with the request nothing does. -/
def HttpRequest.erased (req : HttpRequest) : Bool :=
  0 < req.contentLength && !req.chunked && req.written = req.contentLength

/-- `_parseBody`. -/
def parseBody (buf : ByteQueue) (req : HttpRequest) : Outcome (ByteQueue × HttpRequest) Unit :=
  if buf.size = 0 then .ok (buf, req) ()
  else if req.contentLength = 0 ∧ req.chunked = false then
    let toRead := buf.size
    if req.written + toRead > req.maxBodySize then .ok (buf, req.fail 413) ()
    else takeBody buf req toRead
  else
    let needed := req.contentLength - req.written
    let toRead := min needed buf.size
    if req.written + toRead > req.maxBodySize then .ok (buf, req.fail 413) ()
    else
      (takeBody buf req toRead).andThen fun s _ => .ok (endOfBody s.1 s.2) ()

/-! ### Chunks -/

/-- The largest size a chunk may have. -/
def maxAllowedChunk : ℕ := 1073741824

/-- The loop over a size line: the size and whether there was a digit, and the
extension behind the digits, or the code of the error. -/
def chunkSizeLoop (chunkSz : ℕ) (valid : Bool) : Bytes → Except ℕ (ℕ × Bool × Bytes)
  | [] => .ok (chunkSz, valid, [])
  | c :: rest =>
      if c == SEMICOLON then .ok (chunkSz, valid, c :: rest)
      else
        match hexDigit? c with
        | none => .error 400
        | some d =>
            if chunkSz > maxAllowedChunk / 16 then .error 413
            else if chunkSz * 16 + d > maxAllowedChunk then .error 413
            else chunkSizeLoop (chunkSz * 16 + d) true rest

/-- A byte the extension loop lets pass. -/
def isExtChar (uc : UInt8) : Bool := !(uc < 0x20 && uc != HTAB) && uc != 0x7F

/-- The size a size line announces, or the code of the error. -/
def parseChunkSize (hexLine : Bytes) : Except ℕ ℕ :=
  if hexLine.isEmpty then .error 400
  else
    match chunkSizeLoop 0 false hexLine with
    | .error code => .error code
    | .ok (chunkSz, valid, ext) =>
        if !valid then .error 400
        else if ext.all isExtChar then .ok chunkSz
        else .error 400

/-- One stage of the `while (true)` of `_parseChunked`: the two trailing bytes, a
size line, or data, whichever the flags say is due.  The code falls from one stage
into the next where the model goes round again, under the same flags. -/
def chunkRound (s : ByteQueue × HttpRequest) :
    ByteQueue × HttpRequest ⊕ Outcome (ByteQueue × HttpRequest) Unit :=
  let (buf, req) := s
  if req.chunkTrailing then
    if buf.size < 2 then .inr (.ok (buf, req) ())
    else
      let buf := buf.consume 2
      let req := { req with chunkTrailing := false }
      if req.chunkDone then .inr (.ok (buf, { req with parseState := .complete }) ())
      else .inl (buf, { req with chunkSize := 0 })
  else if req.chunkSize = 0 then
    match findCrlf buf.items with
    | none => .inr (.ok (buf, req) ())
    | some pos =>
        let hexLine := buf.items.take pos
        let buf := buf.consume (pos + 2)
        match parseChunkSize hexLine with
        | .error code => .inr (.ok (buf, req.fail code) ())
        | .ok 0 => .inl (buf, { req with chunkDone := true, chunkTrailing := true })
        | .ok n => .inl (buf, { req with chunkSize := n })
  else if buf.size = 0 then .inr (.ok (buf, req) ())
  else
    let toRead := min req.chunkSize buf.size
    if req.written + toRead > req.maxBodySize then .inr (.ok (buf, req.fail 413) ())
    else
      match takeBody buf req toRead with
      | .bodyLimit s => .inr (.bodyLimit s)
      | .ok (buf, req) _ =>
          let req := { req with chunkSize := req.chunkSize - toRead }
          if req.chunkSize = 0 then
            .inl (buf, { req with chunkTrailing := true, chunkDone := false })
          else .inl (buf, req)

/-- `_parseChunked`. -/
def parseChunked (buf : ByteQueue) (req : HttpRequest) : Outcome (ByteQueue × HttpRequest) Unit :=
  WhileLoop.loop (fun s => s.1.size) chunkRound (fun s => .ok s ()) (buf, req)

end Webserv
