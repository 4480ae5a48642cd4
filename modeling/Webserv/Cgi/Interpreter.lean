import Webserv.Cgi.Extension
import Webserv.Config.Interpreters

/-!
# The interpreter of a script

`resolveCgiRequest` takes a request for a script when any extension is at the end of its path, and
`startCgi` looks the interpreter up by the text from the last dot of the script on.  The two agree
about extensions that are a dot and no further dot.

## Main results

* `startCgi_eq` — what `startCgi` looks up.
* `interpretersAgree_iff` — **when the interpreter is that of an extension of the path.**
-/

namespace Webserv

open Bytes Path

/-! ### The last dot -/

/-- A dot and no further dot. -/
def IsDotted (ext : Bytes) : Prop := ∃ t, ext = DOT :: t ∧ DOT ∉ t

/-- The text from the last dot on. -/
theorem drop_findLast_iff {s ext : Bytes} :
    (∃ dot, findLast DOT s = some dot ∧ s.drop dot = ext) ↔ IsDotted ext ∧ ext <:+ s := by
  constructor
  · rintro ⟨dot, hdot, rfl⟩
    obtain ⟨front, t, rfl, ht, rfl⟩ := findLast_eq_some_iff.mp hdot
    rw [List.drop_left]
    exact ⟨⟨t, rfl, ht⟩, List.suffix_append _ _⟩
  · rintro ⟨⟨t, rfl, ht⟩, front, rfl⟩
    exact ⟨front.length, findLast_append ht, List.drop_left⟩

/-! ### The interpreter -/

/-- The interpreter that `startCgi` finds in the map. -/
def Location.interpreterOf (l : Location) (script : Bytes) : Option Bytes := do
  let dot ← findLast DOT script
  l.cgiMap[script.drop dot]?

theorem Location.interpreterOf_eq_some_iff {l : Location} {script interp : Bytes} :
    l.interpreterOf script = some interp ↔
      ∃ ext, IsDotted ext ∧ ext <:+ script ∧ l.cgiMap[ext]? = some interp := by
  unfold Location.interpreterOf
  rw [Option.bind_eq_bind, Option.bind_eq_some_iff]
  constructor
  · rintro ⟨dot, hdot, hget⟩
    obtain ⟨hdotted, hsuffix⟩ := drop_findLast_iff.mp ⟨dot, hdot, rfl⟩
    exact ⟨_, hdotted, hsuffix, hget⟩
  · rintro ⟨ext, hdotted, hsuffix, hget⟩
    obtain ⟨dot, hdot, rfl⟩ := drop_findLast_iff.mpr ⟨hdotted, hsuffix⟩
    exact ⟨dot, hdot, hget⟩

/-- **What `startCgi` looks up** is the interpreter of the script; without one it starts nothing. -/
theorem startCgi_eq (fs : FileSystem) (w : ProcessWorld) (req : HttpRequest) (cfg : Server)
    (info : CgiRequestInfo) :
    startCgi fs w req cfg info =
      (info.location.interpreterOf info.scriptPath).bind fun cgiPath => do
        let cgiPath ← resolvePath fs cgiPath info.location.root cfg.root
        guard (fs.isReg cgiPath && w.executable (cStr cgiPath))
        guard (!info.scriptPath.isEmpty)
        guard (fs.isReg info.scriptPath && w.readable (cStr info.scriptPath))
        guard w.forks
        return cgiChild info.scriptPath (absoluteInterpreter w.pwd cgiPath) req.queryString := by
  unfold startCgi Location.interpreterOf
  simp only [Option.bind_eq_bind, Option.bind_assoc]

/-- The interpreter that is looked up is the one of an extension that the path ends with. -/
def InterpretersAgree (c : CgiConfig) (info : CgiRequestInfo) (path : Bytes) : Prop :=
  ∃ interp, info.location.interpreterOf info.scriptPath = some interp ∧
    ∃ ext, ext <:+ path ∧ (ext, interp) ∈ c.extensions.zip c.paths

/-- **When the interpreter is that of an extension of the path**: an extension that is a dot and no
further dot ends the script, and this or another one of its interpreter ends the path. -/
theorem interpretersAgree_iff {executable : Bytes → Bool} {c : CgiConfig}
    (hc : c.Accepted executable) {req : HttpRequest} {cfg : Server} {info : CgiRequestInfo}
    (hinfo : resolveCgiRequest req cfg = some info) (hmap : info.location.cgiMap = c.map) :
    InterpretersAgree c info req.path ↔ ∃ interp,
      (∃ ext, IsDotted ext ∧
        ext <:+ rootOf cfg req.path ++ sought (some info.location) req.path ∧
          (ext, interp) ∈ c.extensions.zip c.paths) ∧
      ∃ ext, ext <:+ req.path ∧ (ext, interp) ∈ c.extensions.zip c.paths := by
  have hscript : info.scriptPath =
      rootOf cfg req.path ++ sought (some info.location) req.path := by
    unfold resolveCgiRequest at hinfo
    split at hinfo
    · cases hinfo
    · next l hl =>
      split at hinfo
      · cases hinfo
        show pathUnderRoot cfg (some l) req.path = _
        rw [← hl, pathUnderRoot_eq]
      · cases hinfo
  unfold InterpretersAgree
  rw [← hscript]
  refine exists_congr fun interp => and_congr_left' ?_
  rw [Location.interpreterOf_eq_some_iff, hmap]
  simp only [hc.getElem?_map_iff]

/-- The scripts of a location with one interpreter. -/
private def pythonScripts (ext : String) : CgiConfig :=
  ⟨[ascii "/usr/bin/python3"], [ascii ext], CgiConfig.mapOf [ascii "/usr/bin/python3"] [ascii ext]⟩

/-- A location that maps an extension to an interpreter. -/
private def pythonLocation (ext : String) : Location :=
  { Location.empty with path := ascii "/cgi", cgiMap := (pythonScripts ext).map }

/-- A server with that location. -/
private def serverOf (ext : String) : Server :=
  { Server.empty with root := ascii "/www", locations := [pythonLocation ext] }

/-- A request for a script. -/
private def pythonRequest : HttpRequest :=
  { HttpRequest.new 1000 with path := ascii "/cgi/a.py" }

theorem interpretersAgree_dotted :
    InterpretersAgree (pythonScripts ".py") ⟨pythonLocation ".py", ascii "/www/cgi/a.py"⟩
      pythonRequest.path := by
  have hc : (pythonScripts ".py").Accepted fun _ => true :=
    ⟨⟨[.cgiPath [ascii "/usr/bin/python3"], .cgiExt [ascii ".py"]], rfl⟩, by decide +kernel⟩
  have hinfo : resolveCgiRequest pythonRequest (serverOf ".py") =
      some ⟨pythonLocation ".py", ascii "/www/cgi/a.py"⟩ := rfl
  have hends : ascii ".py" <:+ ascii "/cgi/a.py" := by decide
  refine (interpretersAgree_iff hc hinfo rfl).mpr ⟨ascii "/usr/bin/python3",
    ⟨ascii ".py", ⟨ascii "py", rfl, by decide⟩, ?_, List.mem_singleton_self _⟩,
    ascii ".py", hends, List.mem_singleton_self _⟩
  decide +kernel

/-- **An extension without a dot** chooses the script, and its interpreter is not found. -/
theorem not_interpretersAgree : ¬ ∀ (executable : Bytes → Bool) (c : CgiConfig) (req : HttpRequest)
    (cfg : Server) (info : CgiRequestInfo), c.Accepted executable →
      resolveCgiRequest req cfg = some info → info.location.cgiMap = c.map →
        InterpretersAgree c info req.path := by
  intro h
  have hc : (pythonScripts "py").Accepted fun _ => true :=
    ⟨⟨[.cgiPath [ascii "/usr/bin/python3"], .cgiExt [ascii "py"]], rfl⟩, by decide +kernel⟩
  have hinfo : resolveCgiRequest pythonRequest (serverOf "py") =
      some ⟨pythonLocation "py", ascii "/www/cgi/a.py"⟩ := rfl
  obtain ⟨interp, hlookup, -⟩ := h _ _ _ _ _ hc hinfo rfl
  have hnone : (pythonLocation "py").interpreterOf (ascii "/www/cgi/a.py") = none := by
    decide +kernel
  exact absurd (hlookup.symm.trans hnone) (by simp)

end Webserv
