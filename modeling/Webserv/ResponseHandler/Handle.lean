import Webserv.ResponseHandler.Upload

/-!
# Handling a request

`handle` answers a request for a file: it chooses the location, checks the method,
follows a configured redirect, and serves, lists, stores or removes.  A `Reply` has
what it appends to the write buffer, block by block.
-/

namespace Webserv

open Bytes

/-- `ALLOWEDSIZE`: no longer file is served. -/
def allowedSize : ℕ := 524288000

/-! ### Files -/

/-- The blocks of a file as `read` returns them into a buffer of 8192 bytes. -/
def readBlocks : ℕ → Bytes → List Bytes
  | 0, _ => []
  | fuel + 1, content =>
      if content.isEmpty then [] else content.take 8192 :: readBlocks fuel (content.drop 8192)

/-- `_serveStaticFile`. -/
def serveStaticFile (env : Env) (req : HttpRequest) (fsPath : Bytes) (cfg : Server)
    (calls : List FsCall) : Reply :=
  let calls := calls ++ [.openRead fsPath]
  match env.fs.openRead (cStr fsPath) with
  | .error e => .error env (errnoCode e) req cfg calls
  | .ok content =>
      let calls := calls ++ [.stat fsPath]
      match env.fs.stat (cStr fsPath) with
      | .error _ => .error env 500 req cfg calls
      | .ok st =>
          if st.size > allowedSize then .error env 400 req cfg calls
          else
            ⟨req, calls, none, writeHeaders env 200 (getMimeType fsPath) st.size [] req ::
              if req.method = ascii "HEAD" then [] else readBlocks content.length content⟩

/-! ### Listings -/

/-- What `stat` says about an entry of a directory. -/
def entryStat (fs : FileSystem) (full : Bytes) : Stat :=
  match fs.stat (cStr full) with
  | .ok st => st
  | .error _ => ⟨false, false, 0⟩

/-- The row of an entry. -/
def listingRow (fs : FileSystem) (reqPath fsPath name : Bytes) : Bytes :=
  let st := entryStat fs (fsPath ++ name)
  let slash := if st.isDir then [SLASH] else []
  ascii "<tr><td><a href=\"" ++ htmlEscape (reqPath ++ name ++ slash) ++ ascii "\">" ++
    htmlEscape (name ++ slash) ++ ascii "</a></td><td>" ++
    (if st.isDir then ascii "-" else decimal st.size) ++ ascii "</td></tr>\n"

/-- The page for a directory. -/
def listingBody (fs : FileSystem) (reqPath fsPath : Bytes) (names : List Bytes) : Bytes :=
  ascii "<!DOCTYPE html>\n<html>\n<head><meta charset=\"UTF-8\"><title>Index of " ++
    htmlEscape reqPath ++ ascii "</title>\n" ++
    ascii ("<style>body\x7bfont-family:monospace;padding:1em\x7d" ++
      "table\x7bborder-collapse:collapse;width:100%\x7d" ++
      "th,td\x7btext-align:left;padding:4px 12px\x7d" ++
      "tr:nth-child(even)\x7bbackground:#f2f2f2\x7d" ++
      "a\x7btext-decoration:none\x7da:hover\x7btext-decoration:underline\x7d" ++
      "</style></head>\n<body>\n<h1>Index of ") ++
    htmlEscape reqPath ++ ascii "</h1>\n<hr>\n<table>\n<tr><th>Name</th><th>Size</th></tr>\n" ++
    (if reqPath ≠ [SLASH] then ascii "<tr><td><a href=\"../\">../</a></td><td>-</td></tr>\n"
      else []) ++
    ((names.filter fun name => name ≠ dot ∧ name ≠ Path.dotDot).map
      (listingRow fs reqPath fsPath)).flatten ++
    ascii "</table>\n<hr>\n</body>\n</html>\n"

/-- `_sendDirectoryListing`. -/
def sendDirectoryListing (env : Env) (req : HttpRequest) (fsPath : Bytes) (cfg : Server)
    (calls : List FsCall) : Reply :=
  let calls := calls ++ [.opendir fsPath]
  match env.fs.opendir (cStr fsPath) with
  | .error e => .error env (errnoCode e) req cfg calls
  | .ok names =>
      let shown := names.filter fun name => name ≠ dot ∧ name ≠ Path.dotDot
      ⟨req, calls ++ shown.map fun name => .stat (fsPath ++ name), none,
        page env 200 [] (listingBody env.fs req.path fsPath names) req⟩

/-! ### Redirects and removal -/

/-- The page of a redirect. -/
def redirectBody (code : ℤ) (url : Bytes) : Bytes :=
  ascii "<!DOCTYPE html><html><head><title>" ++ decimalInt code ++ [SP] ++ reasonPhrase code ++
    ascii "</title></head><body><p>Redirecting to <a href=\"" ++ htmlEscape url ++ ascii "\">" ++
    htmlEscape url ++ ascii "</a></p></body></html>"

/-- `_sendRedirect`. -/
def sendRedirect (env : Env) (code : ℤ) (url : Bytes) (req : HttpRequest) : Reply :=
  ⟨req, [], some url,
    page env code (ascii "Location: " ++ url ++ crlf) (redirectBody code url) req⟩

/-- The response to a removal, which has no body. -/
def deletedResponse (env : Env) (req : HttpRequest) : Bytes :=
  ascii "HTTP/1.1 204 No Content\r\nServer: webserv/1.1\r\n" ++
    ascii "Date: " ++ httpDate env.now ++ crlf ++
    ascii "Connection: " ++ connectionHeader req ++ crlf ++ crlf

/-- `_handleDelete`. -/
def handleDelete (env : Env) (fsPath : Bytes) (req : HttpRequest) (cfg : Server)
    (calls : List FsCall) : Reply :=
  let calls := calls ++ [.remove fsPath]
  match env.fs.remove (cStr fsPath) with
  | .error e => .error env (errnoCode e) req cfg calls
  | .ok _ => ⟨req, calls, none, [deletedResponse env req]⟩

/-! ### The entry point -/

theorem getLast?_withSlash (p : Bytes) : (withSlash p).getLast? = some SLASH := by
  unfold withSlash
  split
  · next h => exact h
  · exact List.getLast?_concat

/-- The index file of a directory: the location's first, else the server's first. -/
def indexFile (loc : Option Location) (cfg : Server) : Bytes :=
  let files := match loc with
    | some l => if l.indexFiles.isEmpty then cfg.indexFiles else l.indexFiles
    | none => cfg.indexFiles
  files.head?.getD (ascii "index.html")

/-- An upload, where the location has a directory for it. -/
def postTo (env : Env) (req : HttpRequest) (loc : Option Location) (cfg : Server)
    (calls : List FsCall) : Reply :=
  match loc with
  | some l =>
      if l.upload.isEmpty then .error env 405 req cfg calls else handlePost env req l cfg calls
  | none => .error env 405 req cfg calls

/-- `handle` for a path that ends with a slash. -/
def handleSlash (env : Env) (req : HttpRequest) (loc : Option Location) (fsPath : Bytes)
    (cfg : Server) : Reply :=
  let calls := [FsCall.stat fsPath]
  match env.fs.stat (cStr fsPath) with
  | .error _ => .error env 404 req cfg calls
  | .ok st =>
      if !st.isDir then .error env 404 req cfg calls
      else if req.method = ascii "POST" then postTo env req loc cfg calls
      else if req.method ≠ ascii "GET" then .error env 405 req cfg calls
      else
        let idxPath := fsPath ++ indexFile loc cfg
        let calls := calls ++ [.stat idxPath]
        if env.fs.isReg idxPath then serveStaticFile env req idxPath cfg calls
        else if loc.any (·.autoindex) then
          -- the directory is asked for once more
          sendDirectoryListing env req fsPath cfg (calls ++ [.stat fsPath])
        else .error env 403 req cfg calls

/-- `handle` for a directory whose path has come without a slash. -/
def handleDirectory (env : Env) (req : HttpRequest) (fsPath : Bytes) (cfg : Server) : Reply :=
  let calls := [FsCall.stat fsPath]
  let req := { req with path := withSlash req.path }
  let loc := cfg.matchLocation req.path
  if req.method = ascii "POST" then postTo env req loc cfg calls
  else if req.method ≠ ascii "GET" then .error env 405 req cfg calls
  else
    let idxPath := fsPath ++ [SLASH] ++ indexFile loc cfg
    let calls := calls ++ [.stat idxPath]
    if env.fs.isReg idxPath then serveStaticFile env req idxPath cfg calls
    else if loc.any (·.autoindex) then sendDirectoryListing env req (withSlash fsPath) cfg calls
    else .error env 404 req cfg calls

/-- `handle` for a path without a slash at its end. -/
def handlePlain (env : Env) (req : HttpRequest) (loc : Option Location) (fsPath : Bytes)
    (cfg : Server) : Reply :=
  let calls := [FsCall.stat fsPath]
  match env.fs.stat (cStr fsPath) with
  | .error _ => .error env 404 req cfg calls
  | .ok st =>
      if st.isDir then handleDirectory env req fsPath cfg
      else if req.method = ascii "GET" then serveStaticFile env req fsPath cfg calls
      else if req.method = ascii "POST" then postTo env req loc cfg calls
      else if req.method = ascii "DELETE" then handleDelete env fsPath req cfg calls
      else .error env 405 req cfg calls

/-- `handle`, once the method is allowed and no redirect is configured. -/
def handleFile (env : Env) (req : HttpRequest) (loc : Option Location) (cfg : Server) : Reply :=
  let fsPath := resolveFsPath req loc cfg
  if req.path.getLast? = some SLASH then handleSlash env req loc fsPath cfg
  else handlePlain env req loc fsPath cfg

/-- `handle`. -/
def handle (env : Env) (req : HttpRequest) (cfg : Server) : Reply :=
  let safePath := normalizePath req.path
  if safePath.isEmpty then .error env 400 req cfg []
  else
    let req := { req with path := safePath }
    if req.method = ascii "HEAD" then .error env 405 req cfg []
    else
      match cfg.matchLocation req.path with
      | some loc =>
          if !loc.allowedMethods.isEmpty && !loc.allowedMethods.contains req.method then
            .error env 405 req cfg []
          else if loc.redirectEnabled then sendRedirect env loc.returnCode loc.returnValue req
          else handleFile env req (some loc) cfg
      | none =>
          if req.method ≠ ascii "GET" then .error env 405 req cfg []
          else handleFile env req none cfg

/-! ### What becomes of the request -/

section

variable (env : Env) (req : HttpRequest) (loc : Option Location) (fsPath : Bytes) (cfg : Server)
  (calls : List FsCall)

theorem request_serveStaticFile : (serveStaticFile env req fsPath cfg calls).request = req := by
  unfold serveStaticFile
  dsimp only
  split
  · rfl
  · split
    · rfl
    · split <;> rfl

theorem request_sendDirectoryListing :
    (sendDirectoryListing env req fsPath cfg calls).request = req := by
  unfold sendDirectoryListing
  dsimp only
  split <;> rfl

theorem request_handleDelete : (handleDelete env fsPath req cfg calls).request = req := by
  unfold handleDelete
  dsimp only
  split <;> rfl

theorem request_postTo : (postTo env req loc cfg calls).request = req := by
  unfold postTo handlePost
  dsimp only
  split
  · split
    · rfl
    · split
      · rfl
      · split <;> rfl
  · rfl

theorem request_handleSlash : (handleSlash env req loc fsPath cfg).request = req := by
  unfold handleSlash
  dsimp only
  split
  · rfl
  · split_ifs
    · rfl
    · exact request_postTo env req loc cfg _
    · rfl
    · exact request_serveStaticFile env req _ cfg _
    · exact request_sendDirectoryListing env req fsPath cfg _
    · rfl

theorem request_handleDirectory :
    (handleDirectory env req fsPath cfg).request = { req with path := withSlash req.path } := by
  unfold handleDirectory
  dsimp only
  split_ifs
  · exact request_postTo env _ _ cfg _
  · rfl
  · exact request_serveStaticFile env _ _ cfg _
  · exact request_sendDirectoryListing env _ _ cfg _
  · rfl

theorem request_handleFile :
    ∃ path, (handleFile env req loc cfg).request = { req with path := path } := by
  unfold handleFile
  dsimp only
  split
  · exact ⟨req.path, request_handleSlash env req loc _ cfg⟩
  · unfold handlePlain
    dsimp only
    split
    · exact ⟨req.path, rfl⟩
    · split_ifs
      · exact ⟨_, request_handleDirectory env req _ cfg⟩
      · exact ⟨req.path, request_serveStaticFile env req _ cfg _⟩
      · exact ⟨req.path, request_postTo env req loc cfg _⟩
      · exact ⟨req.path, request_handleDelete env req _ cfg _⟩
      · exact ⟨req.path, rfl⟩

/-- The request is left as it was, but for its path. -/
theorem request_handle : ∃ path, (handle env req cfg).request = { req with path := path } := by
  unfold handle
  dsimp only
  split
  · exact ⟨req.path, rfl⟩
  · split
    · exact ⟨_, rfl⟩
    · split
      · split_ifs
        · exact ⟨_, rfl⟩
        · exact ⟨_, rfl⟩
        · exact request_handleFile env _ _ cfg
      · split
        · exact ⟨_, rfl⟩
        · exact request_handleFile env _ _ cfg

end

/-! ### What the handler may do -/

section

variable {env : Env} {req : HttpRequest} {cfg : Server} {P : Reply → Prop}
  (error : ∀ code path calls, P (.error env code { req with path := path } cfg calls))
  (serve : ∀ path fsPath calls, P (serveStaticFile env { req with path := path } fsPath cfg calls))
  (list : ∀ path fsPath calls,
    P (sendDirectoryListing env { req with path := path } fsPath cfg calls))
  (post : ∀ path loc calls, P (handlePost env { req with path := path } loc cfg calls))
  (delete : ∀ path fsPath calls, P (handleDelete env fsPath { req with path := path } cfg calls))

include error post in
theorem postTo_cases (path : Bytes) (loc : Option Location) (calls : List FsCall) :
    P (postTo env { req with path := path } loc cfg calls) := by
  unfold postTo
  split
  · split
    · exact error ..
    · exact post ..
  · exact error ..

include error serve list post delete in
theorem handleFile_cases (path : Bytes) (loc : Option Location) :
    P (handleFile env { req with path := path } loc cfg) := by
  unfold handleFile
  dsimp only
  split
  · unfold handleSlash
    dsimp only
    split
    · exact error ..
    · split_ifs
      · exact error ..
      · exact postTo_cases error post ..
      · exact error ..
      · exact serve ..
      · exact list ..
      · exact error ..
  · unfold handlePlain
    dsimp only
    split
    · exact error ..
    · split_ifs
      · unfold handleDirectory
        dsimp only
        split_ifs
        · exact postTo_cases error post ..
        · exact error ..
        · exact serve ..
        · exact list ..
        · exact error ..
      · exact serve ..
      · exact postTo_cases error post ..
      · exact delete ..
      · exact error ..

end

/-- **What the handler may do**: answer with an error page, and unless the method is HEAD redirect,
serve a file, list a directory, store an upload, or remove a file. -/
theorem handle_cases {env : Env} {req : HttpRequest} {cfg : Server} {P : Reply → Prop}
    (error : ∀ code path calls, P (.error env code { req with path := path } cfg calls))
    (redirect : req.method ≠ ascii "HEAD" → ∀ path, ∀ loc ∈ cfg.locations,
      P (sendRedirect env loc.returnCode loc.returnValue { req with path := path }))
    (serve : req.method ≠ ascii "HEAD" → ∀ path fsPath calls,
      P (serveStaticFile env { req with path := path } fsPath cfg calls))
    (list : req.method ≠ ascii "HEAD" → ∀ path fsPath calls,
      P (sendDirectoryListing env { req with path := path } fsPath cfg calls))
    (post : req.method ≠ ascii "HEAD" → ∀ path loc calls,
      P (handlePost env { req with path := path } loc cfg calls))
    (delete : req.method ≠ ascii "HEAD" → ∀ path fsPath calls,
      P (handleDelete env fsPath { req with path := path } cfg calls)) :
    P (handle env req cfg) := by
  unfold handle
  dsimp only
  split
  · exact error 400 req.path []
  · split
    · exact error ..
    · next hhead =>
      have file := handleFile_cases error (serve hhead) (list hhead) (post hhead) (delete hhead)
      split
      · next loc hloc =>
        split_ifs
        · exact error ..
        · exact redirect hhead _ loc (Server.mem_of_matchLocation hloc).1
        · exact file ..
      · split_ifs
        · exact error ..
        · exact file ..

end Webserv
