import Webserv.ResponseHandler.Page
import Webserv.ResponseHandler.Path

/-!
# Uploads

`_handlePost` stores the body of a request, or the first file of a form, under the
location's upload directory.
-/

namespace Webserv

open Bytes

/-! ### Replies -/

/-- The calls a handler makes on paths it has from the request. -/
inductive FsCall where
  | stat (path : Bytes)
  | openRead (path : Bytes)
  | opendir (path : Bytes)
  | create (path : Bytes)
  | remove (path : Bytes)
  deriving DecidableEq, Repr

/-- What a handler does: the request as it leaves it, the calls it makes, and the blocks
it appends to the write buffer one after another. -/
structure Reply where
  request : HttpRequest
  calls : List FsCall
  /-- The value of the Location header, if there is one. -/
  location : Option Bytes
  blocks : List Bytes

/-- `_sendErrorInternal` as the reply. -/
def Reply.error (env : Env) (code : ℕ) (req : HttpRequest) (cfg : Server)
    (calls : List FsCall) : Reply :=
  ⟨req, calls, none, [sendErrorInternal env code req cfg]⟩

/-- The code for a call that has failed. -/
def errnoCode : Errno → ℕ
  | .enoent => 404
  | .eacces => 403
  | .eperm => 403
  | .other => 500

/-- A header section and, but for HEAD, a body. -/
def page (env : Env) (code : ℤ) (extra : Bytes) (body : Bytes) (req : HttpRequest) : List Bytes :=
  writeHeaders env code (ascii "text/html") body.length extra req ::
    if req.method = ascii "HEAD" then [] else [body]

/-! ### Multipart forms -/

/-- `MultipartFile`. -/
structure MultipartFile where
  filename : Bytes
  contentType : Bytes
  data : Bytes

/-- `trimToken`.  Where nothing but blanks and CR is left, `find_last_not_of` fails, and
the length that is computed from its `npos` keeps all that is behind the blanks, or
nothing when there were none. -/
def trimToken (s : Bytes) : Bytes :=
  let behind := s.dropWhile isBlank
  if behind.all fun b => isBlank b || b == CR then
    if behind.length = s.length then [] else behind
  else (behind.reverse.dropWhile fun b => isBlank b || b == CR).reverse

/-- `extractBoundary`; `none` is its `false`. -/
def extractBoundary (req : HttpRequest) : Option Bytes := do
  let ct := req.header (ascii "content-type")
  guard (FirstMatch.find (ascii "multipart/form-data") ct).isSome
  let pos ← FirstMatch.find (ascii "boundary=") ct
  let boundary := (ct.drop (pos + 9)).takeWhile (· != SEMICOLON)
  let boundary := trimToken boundary
  let boundary :=
    if 2 ≤ boundary.length && boundary.head? == some 34 && boundary.getLast? == some 34 then
      (boundary.drop 1).dropLast
    else boundary
  guard (!boundary.isEmpty)
  return boundary

/-- The file name of a part; what is behind an unclosed quote is none. -/
def partFilename (headers : Bytes) : Bytes :=
  match FirstMatch.find (ascii "filename=\"") headers with
  | none => []
  | some i =>
      let value := headers.drop (i + 10)
      if value.contains 34 then value.takeWhile (· != 34) else []

/-- The content type of a part. -/
def partContentType (headers : Bytes) : Bytes :=
  match (FirstMatch.find (ascii "Content-Type:") headers).or
      (FirstMatch.find (ascii "content-type:") headers) with
  | none => []
  | some i =>
      let value := headers.drop (i + 13)
      trimToken (value.take ((FirstMatch.find crlf value).getD value.length))

/-- `parseMultipartFirstFile`; `none` is its `false`. -/
def parseMultipartFirstFile (body boundary : Bytes) : Option MultipartFile := do
  let delim := ascii "--" ++ boundary
  let first ← FirstMatch.find delim body
  let part := body.drop (first + delim.length)
  guard (!(ascii "--").isPrefixOf part)
  let part := if crlf.isPrefixOf part then part.drop 2 else part
  let hdrEnd ← FirstMatch.find crlfcrlf part
  let headers := part.take hdrEnd
  let data := part.drop (hdrEnd + 4)
  let next ← FirstMatch.find delim data
  let data := data.take next
  return {
    filename := partFilename headers
    contentType := partContentType headers
    data := if crlf.isSuffixOf data then data.dropLast.dropLast else data }

/-- `sanitizeFilename`. -/
def sanitizeFilename (raw : Bytes) : Bytes :=
  let name := (raw.reverse.takeWhile fun b => b != SLASH && b != 92).reverse
  if name = dot ∨ name = Path.dotDot then [] else name

/-! ### The handler -/

/-- The file of the form that `_handlePost` stores, if the body is a form. -/
def formFile (req : HttpRequest) : Option MultipartFile :=
  (extractBoundary req).bind (parseMultipartFirstFile req.body.items)

/-- The name an upload is stored under. -/
def uploadName (env : Env) (req : HttpRequest) : Bytes :=
  let filename := (formFile req).elim [] fun file => sanitizeFilename file.filename
  if filename.isEmpty then
    ascii "upload_" ++ decimal env.now ++ ascii "_" ++ decimal env.uploadCounter
  else filename

/-- What is stored. -/
def uploadData (req : HttpRequest) : Bytes := (formFile req).elim req.body.items (·.data)

/-- The `write` loop: does it write `left` bytes, when the calls take so many? -/
def writesAll : List ℕ → ℕ → Bool
  | _, 0 => true
  | [], _ + 1 => false
  | n :: takes, left + 1 => if n = 0 then false else writesAll takes (left + 1 - n)

/-- The body of the response to an upload. -/
def uploadedBody : Bytes :=
  ascii "<!DOCTYPE html><html><body><p>File uploaded successfully.</p></body></html>"

/-- `_handlePost`. -/
def handlePost (env : Env) (req : HttpRequest) (loc : Location) (cfg : Server)
    (calls : List FsCall) : Reply :=
  if loc.upload.isEmpty then .error env 405 req cfg calls
  else
    let filepath := withSlash loc.upload ++ uploadName env req
    let calls := calls ++ [.create filepath]
    match env.fs.create (cStr filepath) with
    | .error _ => .error env 500 req cfg calls
    | .ok _ =>
        if !writesAll env.fs.writes (uploadData req).length then .error env 500 req cfg calls
        else
          let url := withSlash req.path ++ uploadName env req
          ⟨req, calls, some url,
            page env 201 (ascii "Location: " ++ url ++ crlf) uploadedBody req⟩

end Webserv
