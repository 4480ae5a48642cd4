import Mathlib.Data.Finset.Card
import Webserv.Config

/-!
# The interpreters of a location

`cgi_path` and `cgi_ext` list the interpreters of a location and their extensions.  Each of the two
puts the map of the location together anew, and `validate_final_config` looks at what came out.

## Main results

* `built_parsCgi` — the map is that of the two lists, whichever came first.
* `getElem?_map_iff` — **what the map of a valid location holds.**
-/

namespace Webserv

open Bytes

/-- What a `Location` has of its scripts. -/
structure CgiConfig where
  paths : List Bytes
  extensions : List Bytes
  map : Std.TreeMap Bytes Bytes

namespace CgiConfig

/-- A location without scripts. -/
def empty : CgiConfig := ⟨[], [], ∅⟩

/-- The map that the two lists make when they have one length. -/
def mapOf (paths extensions : List Bytes) : Std.TreeMap Bytes Bytes :=
  if paths.length = extensions.length then Std.TreeMap.ofList (extensions.zip paths) else ∅

/-- `setCGI_extensions`. -/
def setCgiExtensions (c : CgiConfig) (extensions : List Bytes) : CgiConfig :=
  { c with extensions := extensions, map := mapOf c.paths extensions }

/-- `setCGI_paths`. -/
def setCgiPaths (c : CgiConfig) (paths : List Bytes) : CgiConfig :=
  { c with paths := paths, map := mapOf paths c.extensions }

/-- `hasPartialCGIConfig`. -/
def hasPartialCgiConfig (c : CgiConfig) : Bool :=
  if c.paths.isEmpty && c.extensions.isEmpty then false
  else c.paths.length != c.extensions.length || c.map.size != c.paths.length

/-- The checks of `validate_final_config`; `executable` is `is_executable`. -/
def valid (executable : Bytes → Bool) (c : CgiConfig) : Bool :=
  !c.hasPartialCgiConfig &&
    c.map.toList.all fun (ext, path) => !ext.isEmpty && !path.isEmpty && executable path

end CgiConfig

/-! ### The directives -/

/-- A directive about scripts, with its values. -/
inductive CgiDirective where
  | cgiPath (values : List Bytes)
  | cgiExt (values : List Bytes)

namespace CgiDirective

/-- The name of the directive. -/
def name : CgiDirective → Bytes
  | cgiPath _ => ascii "cgi_path"
  | cgiExt _ => ascii "cgi_ext"

/-- The values of the directive. -/
def values : CgiDirective → List Bytes
  | cgiPath values => values
  | cgiExt values => values

/-- `parseDirective`. -/
def set (c : CgiConfig) : CgiDirective → CgiConfig
  | cgiPath values => c.setCgiPaths values
  | cgiExt values => c.setCgiExtensions values

end CgiDirective

/-- The loop of `parsLocation` over the directives about scripts; `seen` are the names that have
been there, and `none` is an error. -/
def parsCgi (seen : List Bytes) (c : CgiConfig) : List CgiDirective → Option CgiConfig
  | [] => some c
  | d :: ds =>
      if seen.contains d.name || d.values.isEmpty then none
      else parsCgi (d.name :: seen) (d.set c) ds

/-- The map of a location is that of its lists. -/
def CgiConfig.Built (c : CgiConfig) : Prop := c.map = mapOf c.paths c.extensions

theorem built_set (c : CgiConfig) (d : CgiDirective) : (d.set c).Built := by
  cases d with
  | cgiPath values => rfl
  | cgiExt values => rfl

/-- **Whichever directive came first**, the map is that of the two lists. -/
theorem built_parsCgi : ∀ {ds : List CgiDirective} {seen : List Bytes} {c c' : CgiConfig},
    c.Built → parsCgi seen c ds = some c' → c'.Built := by
  intro ds
  induction ds with
  | nil =>
    intro seen c c' hbuilt h
    rw [parsCgi, Option.some.injEq] at h
    exact h ▸ hbuilt
  | cons d ds ih =>
    intro seen c c' _ h
    rw [parsCgi] at h
    split at h
    · cases h
    · exact ih (built_set c d) h

/-! ### Valid locations -/

/-- The lists and the map of a location that the parser and the validation accept. -/
structure CgiConfig.Accepted (executable : Bytes → Bool) (c : CgiConfig) : Prop where
  parsed : ∃ ds, parsCgi [] CgiConfig.empty ds = some c
  valid : c.valid executable = true

variable {executable : Bytes → Bool} {c : CgiConfig}

/-- The extensions are told apart, and there is a path for each, where no list is longer. -/
theorem CgiConfig.Built.lists (hbuilt : c.map = mapOf c.paths c.extensions)
    (hcomplete : c.hasPartialCgiConfig = false) :
    c.paths.length = c.extensions.length ∧ c.extensions.Nodup ∧
      c.map = Std.TreeMap.ofList (c.extensions.zip c.paths) := by
  unfold CgiConfig.hasPartialCgiConfig at hcomplete
  split at hcomplete
  · next hempty =>
    rw [Bool.and_eq_true, List.isEmpty_iff, List.isEmpty_iff] at hempty
    rw [hbuilt, hempty.1, hempty.2]
    exact ⟨rfl, List.nodup_nil, rfl⟩
  · rw [Bool.or_eq_false_iff, bne_eq_false_iff_eq, bne_eq_false_iff_eq] at hcomplete
    obtain ⟨hlength, hsize⟩ := hcomplete
    rw [hbuilt, mapOf, if_pos hlength] at hsize ⊢
    refine ⟨hlength, ?_, rfl⟩
    -- as many names in the map as there are extensions
    have hkeys : (Std.TreeMap.ofList (c.extensions.zip c.paths)).keys.toFinset =
        c.extensions.toFinset := by
      ext ext
      rw [List.mem_toFinset, Std.TreeMap.mem_keys, Std.TreeMap.mem_ofList, List.contains_iff_mem,
        List.map_fst_zip (Nat.le_of_eq hlength.symm), List.mem_toFinset]
    have hcard : c.extensions.toFinset.card = c.extensions.length := by
      rw [← hkeys, List.toFinset_card_of_nodup Std.TreeMap.nodup_keys, Std.TreeMap.length_keys,
        hsize, hlength]
    rw [List.card_toFinset] at hcard
    rw [← List.dedup_eq_self]
    exact (List.dedup_sublist _).eq_of_length hcard

theorem CgiConfig.Accepted.lists (h : c.Accepted executable) :
    c.paths.length = c.extensions.length ∧ c.extensions.Nodup ∧
      c.map = Std.TreeMap.ofList (c.extensions.zip c.paths) := by
  obtain ⟨ds, hds⟩ := h.parsed
  have hvalid := h.valid
  rw [CgiConfig.valid, Bool.and_eq_true, Bool.not_eq_true'] at hvalid
  exact CgiConfig.Built.lists (built_parsCgi (show CgiConfig.empty.Built from rfl) hds) hvalid.1

/-- **What the map of a valid location holds**: the pairs of the two lists. -/
theorem CgiConfig.Accepted.getElem?_map_iff (h : c.Accepted executable) (ext path : Bytes) :
    c.map[ext]? = some path ↔ (ext, path) ∈ c.extensions.zip c.paths := by
  obtain ⟨hlength, hnodup, hmap⟩ := h.lists
  have hnames : (c.extensions.zip c.paths).map Prod.fst = c.extensions :=
    List.map_fst_zip (Nat.le_of_eq hlength.symm)
  have hdistinct : (c.extensions.zip c.paths).Pairwise
      (fun a b => ¬ compare a.1 b.1 = Ordering.eq) := by
    rw [← hnames, List.Nodup, List.pairwise_map] at hnodup
    exact hnodup.imp fun hne heq => hne (Std.LawfulEqCmp.compare_eq_iff_eq.mp heq)
  have hstored : ∀ path', (ext, path') ∈ c.extensions.zip c.paths → c.map[ext]? = some path' := by
    intro path' hmem
    rw [hmap]
    exact Std.TreeMap.getElem?_ofList_of_mem Std.ReflCmp.compare_self hdistinct hmem
  refine ⟨fun hget => ?_, hstored path⟩
  have hext : ext ∈ c.map := by
    rw [Std.TreeMap.mem_iff_isSome_getElem?, hget]
    rfl
  rw [hmap, Std.TreeMap.mem_ofList, List.contains_iff_mem, List.mem_map] at hext
  obtain ⟨⟨ext', path'⟩, hmem, rfl⟩ := hext
  have hpath := hstored path' hmem
  rw [hget, Option.some.injEq] at hpath
  exact hpath ▸ hmem

end Webserv
