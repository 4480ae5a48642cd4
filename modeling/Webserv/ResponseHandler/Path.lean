import Webserv.Cgi.Request
import Webserv.Lib.Path

/-!
# Request paths and file names

What the handler does to names before it looks anything up: `normalizePath` removes
`.` and `..` from the path of a request, `getMimeType` tells a content type from a
file name, `htmlEscape` makes a name fit to stand in a page.
-/

namespace Webserv

open Bytes

/-! ### Normal paths -/

/-- The segment `.`. -/
def dot : Bytes := [DOT]

/-- What `normalizePath` does with a segment; `none` when it leads out of the root. -/
def pushSegment (segments : List Bytes) (seg : Bytes) : Option (List Bytes) :=
  if seg.isEmpty then some segments
  else if seg = Path.dotDot then if segments.isEmpty then none else some segments.dropLast
  else if seg ≠ dot then some (segments ++ [seg])
  else some segments

/-- One character: the segments so far, and the one that is being read. -/
def normalizeStep (st : List Bytes × Bytes) (b : UInt8) : Option (List Bytes × Bytes) :=
  if b == SLASH then (pushSegment st.1 st.2).map (·, [])
  else some (st.1, st.2 ++ [b])

/-- Segments with slashes between them, behind a slash. -/
def joinSegments (segments : List Bytes) : Bytes :=
  SLASH :: [SLASH].intercalate segments

/-- `normalizePath`; the empty string for a path that leads out of the root. -/
def normalizePath (path : Bytes) : Bytes :=
  match path.foldlM normalizeStep ([], []) with
  | none => []
  | some (segments, seg) =>
      match pushSegment segments seg with
      | none => []
      | some segments =>
          let result := joinSegments segments
          if 1 < path.length && path.getLast? == some SLASH && result.getLast? != some SLASH then
            result ++ [SLASH]
          else result

example : normalizePath (ascii "/a/./b/../c/") = ascii "/a/c/" := by decide
example : normalizePath (ascii "/../x") = [] := by decide

/-! ### Content types -/

/-- The table of the constructor. -/
def mimeTypes : List (Bytes × Bytes) :=
  [(".html", "text/html"), (".htm", "text/html"), (".css", "text/css"),
    (".js", "application/javascript"), (".json", "application/json"),
    (".xml", "application/xml"), (".txt", "text/plain"), (".pdf", "application/pdf"),
    (".zip", "application/zip"), (".tar", "application/x-tar"), (".png", "image/png"),
    (".jpg", "image/jpeg"), (".jpeg", "image/jpeg"), (".gif", "image/gif"),
    (".ico", "image/x-icon"), (".svg", "image/svg+xml"), (".webp", "image/webp"),
    (".mp4", "video/mp4"), (".webm", "video/webm"), (".mp3", "audio/mpeg"),
    (".wav", "audio/wav"), (".ogg", "audio/ogg"), (".woff", "font/woff"),
    (".woff2", "font/woff2"), (".ttf", "font/ttf")].map fun e => (ascii e.1, ascii e.2)

/-- The type of what is not known. -/
def octetStream : Bytes := ascii "application/octet-stream"

/-- `_getMimeType`. -/
def getMimeType (path : Bytes) : Bytes :=
  match findLast DOT path with
  | none => octetStream
  | some i => (mimeTypes.lookup ((path.drop i).map toLower)).getD octetStream

example : getMimeType (ascii "/a.b/c.HTML") = ascii "text/html" := by decide

/-! ### Text in a page -/

/-- One character of `htmlEscape`. -/
def escapeByte (b : UInt8) : Bytes :=
  if b == 38 then ascii "&amp;"
  else if b == 60 then ascii "&lt;"
  else if b == 62 then ascii "&gt;"
  else if b == 34 then ascii "&quot;"
  else if b == 39 then ascii "&#39;"
  else [b]

/-- `htmlEscape`. -/
def htmlEscape (s : Bytes) : Bytes := s.flatMap escapeByte

end Webserv
