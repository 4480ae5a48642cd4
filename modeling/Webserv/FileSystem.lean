import Webserv.HttpParser.RequestLine

/-!
# The world outside

What the kernel answers while the server handles one event: the file system, as
the functions the handlers ask, and the clock.  An answer is a function of the
path, so files do not change while one response is made.
-/

namespace Webserv

open Bytes

/-- What `stat` tells about a file. -/
structure Stat where
  isDir : Bool
  isReg : Bool
  size : ℕ
  deriving DecidableEq, Repr

/-- The file system while one event is handled. -/
structure FileSystem where
  stat : Bytes → Except Errno Stat
  /-- `open` for reading, with the bytes that `read` yields up to the end of the file. -/
  openRead : Bytes → Except Errno Bytes
  /-- `opendir`, with the names that `readdir` yields. -/
  opendir : Bytes → Except Errno (List Bytes)
  /-- `open` of an upload for writing. -/
  create : Bytes → Except Errno Unit
  /-- How many bytes each `write` of an upload takes; 0 or no entry is a failure. -/
  writes : List ℕ
  remove : Bytes → Except Errno Unit

/-- The file system without files. -/
def FileSystem.empty : FileSystem where
  stat := fun _ => .error .enoent
  openRead := fun _ => .error .enoent
  opendir := fun _ => .error .enoent
  create := fun _ => .error .enoent
  writes := []
  remove := fun _ => .error .enoent

/-- Whether `stat` succeeds, which is all the parser asks. -/
def FileSystem.statAnswer (fs : FileSystem) : StatAnswer := fun path =>
  match fs.stat path with
  | .ok _ => none
  | .error e => some e

/-- A file is as long as `stat` says. -/
def FileSystem.Unchanging (fs : FileSystem) : Prop :=
  ∀ path content st, fs.openRead path = .ok content → fs.stat path = .ok st →
    st.size = content.length

/-- The environment of one event. -/
structure Env where
  fs : FileSystem
  /-- `time(NULL)`. -/
  now : ℕ
  /-- The counter that `_handlePost` puts into generated file names. -/
  uploadCounter : ℕ

end Webserv
