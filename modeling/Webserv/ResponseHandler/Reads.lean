import Webserv.HttpParser.WholeRequest
import Webserv.ResponseHandler.Handle

/-!
# What of a request its response depends on

The parser leaves in a request also how it has read it: limits, counters, the state it ended in.
The handlers look at none of that.  A request is `bare` when it has nothing but what has been
read of it, and `handle` does with a request what it does with the bare one.

## Main results

* `handle_bare` — **the handler sees the bare request.**
* `blocks_handle` — requests of which the same is read are answered in the same way.
-/

namespace Webserv

open Bytes

/-- A request of which this is read, and nothing else is to be known. -/
def Received.request (r : Received) : HttpRequest :=
  { HttpRequest.new 0 with
    method := r.method
    path := r.path
    queryString := r.queryString
    version := r.version
    headers := r.headers
    body := ⟨r.body, 0⟩ }

/-- The request without the records of the parser. -/
def HttpRequest.bare (req : HttpRequest) : HttpRequest := req.received.request

/-- The reply to a bare request. -/
def Reply.bare (r : Reply) : Reply := { r with request := r.request.bare }

section

variable (env : Env) (req : HttpRequest) (loc : Option Location) (fsPath : Bytes) (cfg : Server)
  (calls : List FsCall)

theorem serveStaticFile_bare : serveStaticFile env req.bare fsPath cfg calls =
    (serveStaticFile env req fsPath cfg calls).bare := by
  unfold serveStaticFile
  dsimp only
  split
  · rfl
  · split
    · rfl
    · split <;> rfl

theorem sendDirectoryListing_bare : sendDirectoryListing env req.bare fsPath cfg calls =
    (sendDirectoryListing env req fsPath cfg calls).bare := by
  unfold sendDirectoryListing
  dsimp only
  split <;> rfl

theorem handleDelete_bare : handleDelete env fsPath req.bare cfg calls =
    (handleDelete env fsPath req cfg calls).bare := by
  unfold handleDelete
  dsimp only
  split <;> rfl

theorem handlePost_bare (l : Location) :
    handlePost env req.bare l cfg calls = (handlePost env req l cfg calls).bare := by
  have hname : uploadName env req.bare = uploadName env req := rfl
  have hdata : uploadData req.bare = uploadData req := rfl
  unfold handlePost
  rw [hname, hdata]
  dsimp only
  split
  · rfl
  · split
    · rfl
    · split <;> rfl

theorem postTo_bare :
    postTo env req.bare loc cfg calls = (postTo env req loc cfg calls).bare := by
  cases loc with
  | none => rfl
  | some l =>
    unfold postTo
    dsimp only
    split
    · rfl
    · exact handlePost_bare env req cfg calls l

theorem handleSlash_bare :
    handleSlash env req.bare loc fsPath cfg = (handleSlash env req loc fsPath cfg).bare := by
  have hmethod : req.bare.method = req.method := rfl
  unfold handleSlash
  rw [hmethod]
  dsimp only
  split
  · rfl
  · split_ifs
    · rfl
    · exact postTo_bare env req loc cfg _
    · rfl
    · exact serveStaticFile_bare env req _ cfg _
    · exact sendDirectoryListing_bare env req fsPath cfg _
    · rfl

theorem handleDirectory_bare :
    handleDirectory env req.bare fsPath cfg = (handleDirectory env req fsPath cfg).bare := by
  have hmethod : req.bare.method = req.method := rfl
  have hpath : req.bare.path = req.path := rfl
  unfold handleDirectory
  rw [hmethod, hpath]
  dsimp only
  split_ifs
  · exact postTo_bare env { req with path := withSlash req.path } _ cfg _
  · rfl
  · exact serveStaticFile_bare env { req with path := withSlash req.path } _ cfg _
  · exact sendDirectoryListing_bare env { req with path := withSlash req.path } _ cfg _
  · rfl

theorem handlePlain_bare :
    handlePlain env req.bare loc fsPath cfg = (handlePlain env req loc fsPath cfg).bare := by
  have hmethod : req.bare.method = req.method := rfl
  unfold handlePlain
  rw [hmethod]
  dsimp only
  split
  · rfl
  · split_ifs
    · exact handleDirectory_bare env req fsPath cfg
    · exact serveStaticFile_bare env req fsPath cfg _
    · exact postTo_bare env req loc cfg _
    · exact handleDelete_bare env req fsPath cfg _
    · rfl

theorem handleFile_bare :
    handleFile env req.bare loc cfg = (handleFile env req loc cfg).bare := by
  have hpath : resolveFsPath req.bare loc cfg = resolveFsPath req loc cfg := rfl
  unfold handleFile
  rw [hpath]
  dsimp only
  split
  · next hslash =>
    rw [if_pos (show req.path.getLast? = some SLASH from hslash)]
    exact handleSlash_bare env req loc _ cfg
  · next hslash =>
    rw [if_neg (show ¬ req.path.getLast? = some SLASH from hslash)]
    exact handlePlain_bare env req loc _ cfg

/-- **The handler sees the bare request.** -/
theorem handle_bare : handle env req.bare cfg = (handle env req cfg).bare := by
  have hmethod : req.bare.method = req.method := rfl
  have hpath : req.bare.path = req.path := rfl
  unfold handle
  rw [hpath, hmethod]
  dsimp only
  split
  · rfl
  · split
    · rfl
    · cases cfg.matchLocation (normalizePath req.path) with
      | none =>
        dsimp only
        split
        · rfl
        · exact handleFile_bare env { req with path := normalizePath req.path } none cfg
      | some l =>
        dsimp only
        split_ifs
        · rfl
        · rfl
        · exact handleFile_bare env { req with path := normalizePath req.path } (some l) cfg

end

/-- **Requests of which the same is read are answered in the same way.** -/
theorem blocks_handle {req : HttpRequest} {r : Received} (h : req.received = r) (env : Env)
    (cfg : Server) : (handle env req cfg).blocks = (handle env r.request cfg).blocks := by
  subst h
  exact (congrArg Reply.blocks (handle_bare env req cfg)).symm

end Webserv
