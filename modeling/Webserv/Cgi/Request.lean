import Webserv.FileSystem

/-!
# Choosing and starting a script

`resolveCgiRequest` decides whether a request is for a script, and which one;
`startCgi` looks for the script and its interpreter and runs them.  What the child
process does before it becomes the interpreter is told by `CgiExec`: where it goes,
and what it is called with.
-/

namespace Webserv

open Bytes

/-- `CgiRequestInfo`. -/
structure CgiRequestInfo where
  location : Location
  scriptPath : Bytes

/-- The test that `resolveCgiRequest` and `pathRequiresCgiBodySpool` share: is one of
the location's extensions at the end of the path? -/
def Location.runsCgi (l : Location) (path : Bytes) : Bool :=
  !l.cgiMap.isEmpty && l.cgiMap.keys.any (·.isSuffixOf path)

/-- `_resolveFsPath`; its text is that of `_validatePath`. -/
def resolveFsPath (req : HttpRequest) (loc : Option Location) (cfg : Server) : Bytes :=
  pathUnderRoot cfg loc req.path

/-- `resolveCgiRequest`. -/
def resolveCgiRequest (req : HttpRequest) (cfg : Server) : Option CgiRequestInfo :=
  match cfg.matchLocation req.path with
  | none => none
  | some loc =>
      if loc.runsCgi req.path then some ⟨loc, resolveFsPath req (some loc) cfg⟩ else none

/-- `pathRequiresCgiBodySpool`. -/
def pathRequiresCgiBodySpool (req : HttpRequest) (cfg : Server) : Bool :=
  (cfg.matchLocation req.path).any (·.runsCgi req.path)

/-- The two agree. -/
theorem isSome_resolveCgiRequest (req : HttpRequest) (cfg : Server) :
    (resolveCgiRequest req cfg).isSome = pathRequiresCgiBodySpool req cfg := by
  unfold resolveCgiRequest pathRequiresCgiBodySpool
  cases cfg.matchLocation req.path with
  | none => rfl
  | some loc =>
    dsimp only [Option.any_some]
    split
    · next h => simp [h]
    · next h => simp [h]

/-! ### Starting the script -/

/-- What the process learns from the kernel besides `stat`. -/
structure ProcessWorld where
  executable : Bytes → Bool
  readable : Bytes → Bool
  /-- `getenv("PWD")`. -/
  pwd : Option Bytes
  /-- Does `fork` succeed? -/
  forks : Bool

/-- The path is that of a regular file. -/
def FileSystem.isReg (fs : FileSystem) (path : Bytes) : Bool :=
  match fs.stat (cStr path) with
  | .ok st => st.isReg
  | .error _ => false

/-- A directory with a slash at its end. -/
def withSlash (dir : Bytes) : Bytes := if dir.getLast? = some SLASH then dir else dir ++ [SLASH]

/-- `resolve_path`: where an interpreter that is named by `path` stands. -/
def resolvePath (fs : FileSystem) (path locationRoot serverRoot : Bytes) : Option Bytes :=
  let under := fun (root : Bytes) =>
    let candidate := withSlash root ++ path.drop 2
    if !root.isEmpty && fs.isReg candidate then some candidate else none
  if path.head? = some SLASH then if fs.isReg path then some path else none
  else if [DOT, SLASH].isPrefixOf path then
    if fs.isReg path then some path else (under locationRoot).or (under serverRoot)
  else none

/-- Where the last byte `b` of a string stands. -/
def findLast (b : UInt8) (s : Bytes) : Option ℕ :=
  (s.reverse.findIdx? (· == b)).map fun back => s.length - 1 - back

theorem findLast_eq_none_iff {b : UInt8} {s : Bytes} : findLast b s = none ↔ b ∉ s := by
  simp only [findLast, Option.map_eq_none_iff, List.findIdx?_eq_none_iff, List.mem_reverse,
    beq_eq_false_iff_ne]
  exact ⟨fun h hb => h b hb rfl, fun h x hx heq => h (heq ▸ hx)⟩

theorem findLast_append {b : UInt8} {front t : Bytes} (ht : b ∉ t) :
    findLast b (front ++ b :: t) = some front.length := by
  have hnone : t.reverse.findIdx? (· == b) = none :=
    Option.map_eq_none_iff.mp (findLast_eq_none_iff.mpr ht)
  unfold findLast
  rw [List.reverse_append, List.reverse_cons, List.append_assoc, List.findIdx?_append, hnone]
  simp [List.findIdx?_cons]

/-- **Where the last byte of a kind stands.** -/
theorem findLast_eq_some_iff {b : UInt8} {s : Bytes} {i : ℕ} :
    findLast b s = some i ↔ ∃ front t, s = front ++ b :: t ∧ b ∉ t ∧ front.length = i := by
  constructor
  · intro h
    by_cases hmem : b ∈ s
    · obtain ⟨t, front, hrev, ht⟩ := List.eq_append_cons_of_mem (List.mem_reverse.mpr hmem)
      have hs : s = front.reverse ++ b :: t.reverse := by
        rw [← List.reverse_reverse s, hrev]
        simp
      have ht' : b ∉ t.reverse := fun h => ht (List.mem_reverse.mp h)
      rw [hs, findLast_append ht', Option.some.injEq] at h
      exact ⟨front.reverse, t.reverse, hs, ht', h⟩
    · rw [findLast_eq_none_iff.mpr hmem] at h
      cases h
  · rintro ⟨front, t, rfl, ht, rfl⟩
    exact findLast_append ht

/-- The words of a query string between its plus signs. -/
def plusWords (s : Bytes) : List Bytes := s.splitOn 43

/-- `buildCgiArgs`: a query string without an equals sign is handed over word by word. -/
def buildCgiArgs (cgiPath scriptFile queryString : Bytes) : List Bytes :=
  cgiPath :: scriptFile ::
    (if queryString.isEmpty || queryString.contains 61 then [] else plusWords queryString)

/-- What the child process does: it goes to a directory and becomes the interpreter. -/
structure CgiExec where
  chdir : Option Bytes
  interpreter : Bytes
  scriptFile : Bytes
  argv : List Bytes

/-- The script that is run: a script that is called `./name` stands in the directory the
process has gone to. -/
def CgiExec.script (e : CgiExec) : Bytes :=
  match e.chdir with
  | some dir => dir ++ e.scriptFile.drop 1
  | none => e.scriptFile

/-- An interpreter with a relative path, from the directory the server was started in. -/
def absoluteInterpreter (pwd : Option Bytes) (cgiPath : Bytes) : Bytes :=
  match pwd with
  | some dir =>
      if cgiPath.head? ≠ some SLASH ∧ dir.head? = some SLASH then
        dir ++ [SLASH] ++ (if [DOT, SLASH].isPrefixOf cgiPath then cgiPath.drop 2 else cgiPath)
      else cgiPath
  | none => cgiPath

/-- The child of `startCgi`, up to `execve`. -/
def cgiChild (scriptPath interpreter queryString : Bytes) : CgiExec :=
  match findLast SLASH scriptPath with
  | some i =>
      let scriptFile := DOT :: scriptPath.drop i
      ⟨some (scriptPath.take i), interpreter, scriptFile,
        buildCgiArgs interpreter scriptFile queryString⟩
  | none => ⟨none, interpreter, scriptPath, buildCgiArgs interpreter scriptPath queryString⟩

/-- `startCgi`: the child it leaves behind, if it starts one. -/
def startCgi (fs : FileSystem) (w : ProcessWorld) (req : HttpRequest) (cfg : Server)
    (info : CgiRequestInfo) : Option CgiExec := do
  let dot ← findLast DOT info.scriptPath
  let cgiPath ← info.location.cgiMap[info.scriptPath.drop dot]?
  let cgiPath ← resolvePath fs cgiPath info.location.root cfg.root
  guard (fs.isReg cgiPath && w.executable (cStr cgiPath))
  guard (!info.scriptPath.isEmpty)
  guard (fs.isReg info.scriptPath && w.readable (cStr info.scriptPath))
  guard w.forks
  return cgiChild info.scriptPath (absoluteInterpreter w.pwd cgiPath) req.queryString

/-- The child runs the script that was asked for. -/
theorem script_cgiChild (scriptPath interpreter queryString : Bytes) :
    (cgiChild scriptPath interpreter queryString).script = scriptPath := by
  unfold cgiChild
  cases findLast SLASH scriptPath with
  | none => rfl
  | some i => exact List.take_append_drop i scriptPath

/-- **`startCgi` runs the script it was given**, or none. -/
theorem script_startCgi {fs : FileSystem} {w : ProcessWorld} {req : HttpRequest} {cfg : Server}
    {info : CgiRequestInfo} {e : CgiExec} (h : startCgi fs w req cfg info = some e) :
    e.script = info.scriptPath := by
  simp only [startCgi, Option.bind_eq_bind, Option.bind_eq_some_iff, Option.pure_def,
    Option.some.injEq] at h
  obtain ⟨dot, -, cgiPath, -, resolved, -, -, -, -, -, -, -, -, -, rfl⟩ := h
  exact script_cgiChild _ _ _

end Webserv
