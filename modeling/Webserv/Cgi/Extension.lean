import Webserv.Cgi.Confinement

/-!
# The extension of a script

`resolveCgiRequest` looks for a configured extension at the end of the request's path.  The script
has another path, below the root, and the kernel sees that path up to its first NUL.

## Main results

* `EndsInExtension` — what is left of the path in the script ends in a configured extension.
* `runsConfigured_iff` — **when the script that is run has a configured extension.**
-/

namespace Webserv

open Bytes Path

/-! ### The script's path -/

/-- The end of a text in two parts. -/
theorem suffix_append_iff {s a b : Bytes} :
    s <:+ a ++ b ↔ s <:+ b ∨ ∃ front, front <:+ a ∧ s = front ++ b := by
  constructor
  · rintro ⟨before, h⟩
    rcases List.append_eq_append_iff.mp h with ⟨front, rfl, rfl⟩ | ⟨front, rfl, hb⟩
    · exact Or.inr ⟨front, List.suffix_append _ _, rfl⟩
    · exact Or.inl ⟨front, hb.symm⟩
  · rintro (h | ⟨front, ⟨before, rfl⟩, rfl⟩)
    · exact h.trans (List.suffix_append _ _)
    · exact ⟨before, by simp⟩

/-- What is looked for below the root is an end of the path. -/
theorem sought_suffix (loc : Option Location) (path : Bytes) : sought loc path <:+ path := by
  have hlast : ∀ p, lastComponent p <:+ p := by
    intro p
    unfold lastComponent
    split
    · exact List.drop_suffix _ _
    · exact List.suffix_rfl
  unfold sought
  split
  · exact List.suffix_rfl
  · next l _ =>
    split
    · next hl =>
      rcases hl with rfl | ⟨rfl, -⟩
      · exact hlast _
      · exact (hlast _).trans (List.suffix_append _ _)
    · split
      · exact List.drop_suffix _ _
      · exact List.suffix_rfl

/-- What the script has of the request's path ends in one of the location's extensions: the text in
front of a NUL, or else the path itself as far as it is below the root.  An extension may go on into
the root. -/
def EndsInExtension (l : Location) (root rest path : Bytes) : Prop :=
  if 0 ∈ root then ∃ ext ∈ l.cgiMap.keys, ext <:+ cStr root
  else ∃ ext ∈ l.cgiMap.keys,
    (if 0 ∈ rest then ext <:+ cStr rest else ext <:+ path ∧ ext.length ≤ rest.length) ∨
      ∃ front, front <:+ root ∧ ext = front ++ cStr rest

theorem suffix_cStr_iff {l : Location} {cfg : Server} {path : Bytes}
    (hl : cfg.matchLocation path = some l) :
    (∃ ext ∈ l.cgiMap.keys, ext <:+ cStr (pathUnderRoot cfg (some l) path)) ↔
      EndsInExtension l (rootOf cfg path) (sought (some l) path) path := by
  rw [← hl, pathUnderRoot_eq, hl]
  unfold EndsInExtension
  by_cases hroot : 0 ∈ rootOf cfg path
  · rw [if_pos hroot, cStr_append_of_mem hroot]
  · rw [if_neg hroot, cStr_append hroot]
    refine exists_congr fun ext => and_congr_right fun _ => ?_
    rw [suffix_append_iff]
    refine or_congr_left ?_
    by_cases hrest : 0 ∈ sought (some l) path
    · rw [if_pos hrest]
    · rw [if_neg hrest, cStr_of_notMem hrest]
      -- both are ends of the path
      have hsought := sought_suffix (some l) path
      constructor
      · exact fun h => ⟨h.trans hsought, h.length_le⟩
      · rintro ⟨hext, hle⟩
        exact List.suffix_of_suffix_length_le hext hsought hle

/-! ### Both -/

/-- The script that is chosen for a request, and the one that is run, end in one of the location's
extensions where the kernel sees their end. -/
def RunsConfigured (req : HttpRequest) (cfg : Server) : Prop :=
  ∀ info, resolveCgiRequest req cfg = some info →
    (∃ ext ∈ info.location.cgiMap.keys, ext <:+ cStr info.scriptPath) ∧
      ∀ fs w e, startCgi fs w req cfg info = some e →
        ∃ ext ∈ info.location.cgiMap.keys, ext <:+ cStr e.script

/-- **When the script that is run has a configured extension.** -/
theorem runsConfigured_iff (req : HttpRequest) (cfg : Server) :
    RunsConfigured req cfg ↔ ∀ l, cfg.matchLocation req.path = some l → l.runsCgi req.path →
      EndsInExtension l (rootOf cfg req.path) (sought (some l) req.path) req.path := by
  unfold RunsConfigured resolveCgiRequest
  cases hl : cfg.matchLocation req.path with
  | none => simp
  | some l =>
    dsimp only
    simp only [Option.some.injEq, forall_eq']
    by_cases hruns : l.runsCgi req.path = true
    · rw [if_pos hruns, ← suffix_cStr_iff hl]
      simp only [Option.some.injEq, forall_eq', hruns, forall_const]
      constructor
      · exact fun h => h.1
      · refine fun h => ⟨h, fun fs w e he => ?_⟩
        rw [script_startCgi he]
        exact h
    · simp [hruns]

/-- A server that runs `.py` files. -/
private def pythonServer : Server :=
  { Server.empty with
    root := ascii "/www"
    locations := [{ Location.empty with
      path := ascii "/cgi"
      cgiMap := Std.TreeMap.ofList [(ascii ".py", ascii "/usr/bin/python3")] }] }

/-- **A NUL in front of the extension**: the script that the kernel sees is another file. -/
theorem not_runsConfigured : ¬ ∀ (target : Bytes) (cfg : Server),
    RunsConfigured { HttpRequest.new 1000 with path := requestPath target } cfg := by
  intro h
  obtain ⟨info, hinfo, hno⟩ : ∃ info,
      resolveCgiRequest { HttpRequest.new 1000 with path := requestPath (ascii "/cgi/a.sh%00.py") }
        pythonServer = some info ∧
      ¬ ∃ ext ∈ info.location.cgiMap.keys, ext <:+ cStr info.scriptPath :=
    ⟨_, rfl, by decide +kernel⟩
  exact hno (h (ascii "/cgi/a.sh%00.py") pythonServer info hinfo).1

end Webserv
