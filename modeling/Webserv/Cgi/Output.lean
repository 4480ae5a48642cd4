import Webserv.Connection
import Webserv.HttpParser.Text
import Webserv.Lib.ChunkedCoding

/-!
# What is written of a script's output

The three functions of the CGI path that look at bytes: `findHeaderEnd` splits the
output of the script, `flushCgiHeaders` turns its header block into a response
head, and `writeChunk` queues a block of its body.
-/

namespace Webserv

open Bytes

/-! ### The header block -/

/-- A line end and an empty line, with bare LF. -/
def lflf : Bytes := [LF, LF]

/-- `findHeaderEnd`: where the body begins; `none` is `npos`. -/
def findHeaderEnd (d : Bytes) : Option ℕ :=
  match FirstMatch.find crlfcrlf d with
  | some i => some (i + 4)
  | none => (FirstMatch.find lflf d).map (· + 2)

/-- The lines of a block, each ended by LF and without it; what is behind the last
LF is no line. -/
def linesOf (line : Bytes) : Bytes → List Bytes
  | [] => []
  | b :: rest => if b == LF then line :: linesOf [] rest else linesOf (line ++ [b]) rest

/-- A line without the CR of its line end. -/
def dropCr (line : Bytes) : Bytes := if line.getLast? = some CR then line.dropLast else line

/-- `std::isspace`. -/
def isSpace (b : UInt8) : Bool := b == SP || (9 ≤ b && b ≤ 13)

/-- `istringstream(val) >> n` for an `int`: no change at the end of the string, 0
where there is no number, and the nearest `int` for one out of range. -/
def readInt (old : ℤ) (val : Bytes) : ℤ :=
  let s := val.dropWhile isSpace
  if s.isEmpty then old
  else
    let neg := s.head? == some 45
    let digits := (if neg || s.head? == some 43 then s.drop 1 else s).takeWhile isDigit
    if digits.isEmpty then 0
    else
      let n : ℕ := digits.foldl (fun n d => n * 10 + (d.toNat - 48)) 0
      if neg then max (-(n : ℤ)) (-2 ^ 31) else min (n : ℤ) (2 ^ 31 - 1)

/-- What `flushCgiHeaders` gathers from the lines. -/
structure CgiHead where
  statusCode : ℤ
  contentType : Bytes
  extra : Bytes

/-- One line of the header block. -/
def cgiHeaderLine (h : CgiHead) (line : Bytes) : CgiHead :=
  match line.findIdx? (· == COLON) with
  | none => h
  | some colon =>
      let key := line.take colon
      let val := line.drop (colon + 1)
      let trimmed := val.dropWhile isBlank
      let val := if trimmed.isEmpty then val else trimmed
      let lkey := key.map toLower
      if lkey = ascii "status" then { h with statusCode := readInt h.statusCode val }
      else if lkey = ascii "content-type" then { h with contentType := val }
      else { h with extra := h.extra ++ key ++ ascii ": " ++ val ++ crlf }

/-- The reason phrases `flushCgiHeaders` knows. -/
def cgiReason (code : ℤ) : Bytes :=
  if code = 201 then ascii "Created"
  else if code = 204 then ascii "No Content"
  else if code = 301 then ascii "Moved Permanently"
  else if code = 302 then ascii "Found"
  else if code = 400 then ascii "Bad Request"
  else if code = 403 then ascii "Forbidden"
  else if code = 404 then ascii "Not Found"
  else if code = 500 then ascii "Internal Server Error"
  else if code = 502 then ascii "Bad Gateway"
  else if code = 504 then ascii "Gateway Timeout"
  else ascii "OK"

/-- The response head for the header block `block`. -/
def cgiResponseHead (block : Bytes) (req : HttpRequest) : Bytes :=
  let h := (linesOf [] block).foldl (fun h line => cgiHeaderLine h (dropCr line))
    ⟨200, ascii "text/html", []⟩
  ascii "HTTP/1.1 " ++ decimalInt h.statusCode ++ [SP] ++ cgiReason h.statusCode ++ crlf ++
    ascii "Server: webserv/1.0\r\n" ++
    ascii "Content-Type: " ++ h.contentType ++ crlf ++
    ascii "Transfer-Encoding: chunked\r\n" ++
    ascii "Connection: " ++ ascii (if req.keepAlive then "keep-alive" else "close") ++ crlf ++
    h.extra ++ crlf

/-- `flushCgiHeaders`. -/
def flushCgiHeaders (data : Bytes) (sep : ℕ) (req : HttpRequest) (wb : ByteQueue) :
    Outcome ByteQueue Unit :=
  appendBlocks wb [cgiResponseHead (data.take sep) req]

/-! ### The body -/

/-- The blocks that `writeChunk` appends one after another. -/
def chunkBlocks (data : Bytes) : List Bytes :=
  if data.isEmpty then [] else [hexadecimal data.length ++ crlf, data, crlf]

/-- `writeChunk`. -/
def writeChunk (wb : ByteQueue) (data : Bytes) : Outcome ByteQueue Unit :=
  appendBlocks wb (chunkBlocks data)

/-- What ends the chunks. -/
def zeroChunk : Bytes := ascii "0\r\n\r\n"

/-- A chunk's blocks make up the chunk. -/
theorem flatten_chunkBlocks (data : Bytes) :
    (chunkBlocks data).flatten = ChunkedCoding.encodeChunk data := by
  unfold chunkBlocks ChunkedCoding.encodeChunk
  cases data with
  | nil => rfl
  | cons b data => simp

/-- Appends that all succeed queue the blocks. -/
theorem appendBlocks_ok {wb wb' : ByteQueue} {blocks : List Bytes} {u : Unit}
    (h : appendBlocks wb blocks = .ok wb' u) : wb' = wb.push blocks.flatten := by
  obtain ⟨done, rest, rfl, hq, htrue, -⟩ := wb.appendAll_spec blocks
  unfold appendBlocks at h
  split at h
  · next q he =>
    simp only [Outcome.ok.injEq] at h
    rw [he] at hq htrue
    rw [htrue rfl, List.append_nil, ← h.1]
    exact hq
  · simp at h

theorem writeChunk_ok {wb wb' : ByteQueue} {data : Bytes} {u : Unit}
    (h : writeChunk wb data = .ok wb' u) : wb' = wb.push (ChunkedCoding.encodeChunk data) := by
  rw [appendBlocks_ok h, flatten_chunkBlocks]

end Webserv
