import Mathlib.Data.List.MinMax
import Webserv.Config
import Webserv.Lib.Path

/-!
# The choice of a location

`matchLocation` goes through the locations in the order of the file and keeps the one with the
longest path.  The order does not matter, since two locations that cover one path are told apart
by the lengths of their paths.  What it looks for is the longest prefix of whole segments, but its
comparison of the next character with a slash goes wrong for the location `/`.

## Main results

* `matchLocation_eq_some_iff` — the choice in a configuration without duplicates.
* `matchLocation_perm` — **the choice does not depend on the order** of the locations.
* `longestPrefix_matchLocation_iff` — **when the longest prefix is chosen**.
* `not_longestPrefix_matchLocation` — the location `/` does not cover `/x`.
-/

namespace Webserv

open Bytes Path

/-! ### Covered paths -/

theorem dropTrailingSlash_cases (p : Bytes) :
    dropTrailingSlash p = p ∧ (1 < p.length → p.getLast? ≠ some SLASH) ∨
      p = dropTrailingSlash p ++ [SLASH] ∧ dropTrailingSlash p ≠ [] := by
  unfold dropTrailingSlash
  by_cases hlength : 1 < p.length
  · by_cases hlast : p.getLast? = some SLASH
    · right
      have hne : p ≠ [] := List.ne_nil_of_length_pos (Nat.zero_lt_of_lt hlength)
      have hslash : p.getLast hne = SLASH := by
        rw [List.getLast?_eq_some_getLast hne] at hlast
        exact Option.some.inj hlast
      simp only [hlength, hlast, decide_true, Bool.and_self, if_true]
      refine ⟨?_, List.ne_nil_of_length_pos ?_⟩
      · rw [← hslash, List.dropLast_append_getLast]
      · rw [List.length_dropLast]
        omega
    · left
      simp [hlast]
  · left
    simp [hlength]

/-- A path that ends with a slash, but for that slash. -/
theorem dropTrailingSlash_append {p : Bytes} (h : p ≠ []) :
    dropTrailingSlash (p ++ [SLASH]) = p := by
  unfold dropTrailingSlash
  have hlength : 1 < (p ++ [SLASH]).length := by
    rw [List.length_append, List.length_singleton]
    exact Nat.lt_add_of_pos_left (List.length_pos_of_ne_nil h)
  simp [h]

theorem dropTrailingSlash_of_getLast {p : Bytes} (h : p.getLast? ≠ some SLASH) :
    dropTrailingSlash p = p := by
  rcases dropTrailingSlash_cases p with ⟨hsame, -⟩ | ⟨heq, -⟩
  · exact hsame
  · refine absurd ?_ h
    rw [heq]
    exact List.getLast?_concat

/-- A path that loses nothing. -/
theorem dropTrailingSlash_of_length {p : Bytes} (h : p.length ≤ (dropTrailingSlash p).length) :
    dropTrailingSlash p = p ∧ (1 < p.length → p.getLast? ≠ some SLASH) := by
  rcases dropTrailingSlash_cases p with hsame | ⟨heq, -⟩
  · exact hsame
  · have hlength := congrArg List.length heq
    rw [List.length_append, List.length_singleton] at hlength
    omega

/-- A prefix at whose end the path ends or a segment begins is one of the path with its last slash
too. -/
theorem append_of_dropTrailingSlash {q path rest : Bytes}
    (hrest : dropTrailingSlash path = q ++ rest) (hnext : rest = [] ∨ rest.head? = some SLASH) :
    ∃ rest', path = q ++ rest' ∧ (rest' = [] ∨ rest'.head? = some SLASH) := by
  rcases dropTrailingSlash_cases path with ⟨hsame, -⟩ | ⟨heq, -⟩
  · exact ⟨rest, hsame.symm.trans hrest, hnext⟩
  · refine ⟨rest ++ [SLASH], ?_, Or.inr ?_⟩
    · rw [heq, hrest, List.append_assoc]
    · rcases hnext with rfl | hhead
      · rfl
      · rw [List.head?_append, hhead]
        rfl

/-- What a location has to be for the path: a prefix of it at whose end the path ends or a segment
begins. -/
theorem Location.covers_iff (l : Location) (path : Bytes) : l.covers path = true ↔
    l.path ≠ [] ∧ ∃ rest, dropTrailingSlash path = dropTrailingSlash l.path ++ rest ∧
      (rest = [] ∨ rest.head? = some SLASH) := by
  unfold Location.covers
  generalize dropTrailingSlash path = p
  generalize dropTrailingSlash l.path = q
  rw [Bool.and_eq_true, Bool.not_eq_true', List.isEmpty_eq_false_iff, Bool.or_eq_true,
    Bool.and_eq_true, beq_iff_eq, beq_iff_eq, List.isPrefixOf_iff_prefix]
  refine and_congr_right fun _ => ?_
  constructor
  · rintro (rfl | ⟨⟨rest, rfl⟩, hnext⟩)
    · exact ⟨[], (List.append_nil p).symm, Or.inl rfl⟩
    · rw [List.getElem?_append_right (Nat.le_refl _), Nat.sub_self,
        ← List.head?_eq_getElem?] at hnext
      exact ⟨rest, rfl, Or.inr hnext⟩
  · rintro ⟨rest, rfl, rfl | hnext⟩
    · exact Or.inl (List.append_nil q)
    · refine Or.inr ⟨List.prefix_append q rest, ?_⟩
      rw [List.getElem?_append_right (Nat.le_refl _), Nat.sub_self, ← List.head?_eq_getElem?]
      exact hnext

theorem dropTrailingSlash_ne_nil {p : Bytes} (h : p ≠ []) : dropTrailingSlash p ≠ [] := by
  rcases dropTrailingSlash_cases p with ⟨hsame, -⟩ | ⟨-, hne⟩
  · rwa [hsame]
  · exact hne

theorem length_dropTrailingSlash_le (p : Bytes) : (dropTrailingSlash p).length ≤ p.length := by
  unfold dropTrailingSlash
  split
  · rw [List.length_dropLast]
    exact Nat.sub_le _ _
  · exact Nat.le_refl _

/-- What covers a path is a prefix of it, and as long as another one only if it is the same. -/
theorem Location.eq_of_covers {l l' : Location} {path : Bytes} (h : l.covers path = true)
    (h' : l'.covers path = true)
    (hlength : (dropTrailingSlash l.path).length = (dropTrailingSlash l'.path).length) :
    dropTrailingSlash l.path = dropTrailingSlash l'.path := by
  obtain ⟨-, rest, hrest, -⟩ := (l.covers_iff path).mp h
  obtain ⟨-, rest', hrest', -⟩ := (l'.covers_iff path).mp h'
  exact (List.append_inj (hrest.symm.trans hrest') hlength).1

/-- **Two locations that cover one path do not tie.** -/
theorem Location.length_lt_of_covers {l l' : Location} {path : Bytes} (h : l.covers path = true)
    (h' : l'.covers path = true)
    (hlt : (dropTrailingSlash l.path).length < (dropTrailingSlash l'.path).length) :
    l.path.length < l'.path.length := by
  obtain ⟨-, rest, hrest, hnext⟩ := (l.covers_iff path).mp h
  obtain ⟨-, rest', hrest', -⟩ := (l'.covers_iff path).mp h'
  have hshort := length_dropTrailingSlash_le l'.path
  rcases dropTrailingSlash_cases l.path with ⟨hsame, -⟩ | ⟨heq, hne⟩
  · rw [hsame] at hlt
    exact Nat.lt_of_lt_of_le hlt hshort
  · have hlength := congrArg List.length heq
    rw [List.length_append, List.length_singleton] at hlength
    by_contra htie
    -- the longer one has no slash at its end, but that is where the shorter one goes on
    have hsame := @dropTrailingSlash_of_length l'.path (by omega)
    rw [hsame.1] at hlt hrest'
    have hsplit := hrest.symm.trans hrest'
    obtain ⟨last, hlast, rfl⟩ : ∃ last, l'.path = dropTrailingSlash l.path ++ last ∧
        rest = last ++ rest' := by
      rcases List.append_eq_append_iff.mp hsplit with ⟨last, hl', hr⟩ | ⟨last, hl, -⟩
      · exact ⟨last, hl', hr⟩
      · have hle := congrArg List.length hl
        rw [List.length_append] at hle
        omega
    have hone : last.length = 1 := by
      have hle := congrArg List.length hlast
      rw [List.length_append] at hle
      omega
    obtain ⟨b, rfl⟩ := List.length_eq_one_iff.mp hone
    have hslash : b = SLASH := by
      rcases hnext with hnil | hhead
      · simp at hnil
      · simpa using hhead
    refine hsame.2 ?_ ?_
    · have hpos := List.length_pos_of_ne_nil hne
      omega
    · rw [hlast, hslash, List.getLast?_concat]

/-! ### The longest of the covering locations -/

/-- The loop keeps the longest of the locations that cover the path. -/
theorem Server.matchLocation_eq (s : Server) (path : Bytes) :
    s.matchLocation path =
      (s.locations.filter (·.covers path)).argmax (·.path.length) := by
  have hloop : ∀ (ls : List Location) (best : Option Location),
      ls.foldl (fun best l =>
        if l.covers path && (best.elim 0 fun b => b.path.length) < l.path.length then some l
        else best) best =
      (ls.filter (·.covers path)).foldl
        (List.argAux fun b c => c.path.length < b.path.length) best := by
    intro ls
    induction ls with
    | nil => exact fun _ => rfl
    | cons l ls ih =>
      intro best
      rw [List.foldl_cons, ih]
      cases hcovers : l.covers path with
      | false => simp [hcovers]
      | true =>
        have hpos := List.length_pos_of_ne_nil ((l.covers_iff path).mp hcovers).1
        cases best with
        | none => simp [hcovers, hpos, List.argAux]
        | some b =>
          by_cases hlonger : b.path.length < l.path.length
          · simp [hcovers, hlonger, List.argAux]
          · simp [hcovers, hlonger, List.argAux]
  exact hloop s.locations none

theorem Server.matchLocation_eq_none_iff {s : Server} {path : Bytes} :
    s.matchLocation path = none ↔ ∀ l ∈ s.locations, l.covers path = false := by
  rw [s.matchLocation_eq, List.argmax_eq_none, List.filter_eq_nil_iff]
  simp

/-- The chosen location is as long as any other that covers the path. -/
theorem Server.length_le_of_matchLocation {s : Server} {path : Bytes} {l l' : Location}
    (h : s.matchLocation path = some l) (hmem : l' ∈ s.locations)
      (hcovers : l'.covers path = true) :
    (dropTrailingSlash l'.path).length ≤ (dropTrailingSlash l.path).length := by
  by_contra hlt
  have hlonger := Location.length_lt_of_covers (Server.mem_of_matchLocation h).2 hcovers
    (Nat.lt_of_not_le hlt)
  rw [s.matchLocation_eq] at h
  have hmem' : l' ∈ s.locations.filter (·.covers path) := List.mem_filter.mpr ⟨hmem, hcovers⟩
  exact List.not_lt_of_mem_argmax hmem' h hlonger

/-! ### Configurations without duplicates -/

/-- The loop of `verifying_path_in_locations_inside_server`, which throws the message at the
first path that has been seen before. -/
def verifyPaths (uniquePaths : List Bytes) : List Location → Except Bytes Unit
  | [] => .ok ()
  | l :: ls =>
      let path := dropTrailingSlash l.path
      if uniquePaths.contains path then
        .error (ascii "[fatal] duplicate pathin location : " ++ l.path)
      else verifyPaths (path :: uniquePaths) ls

/-- `verifying_path_in_locations_inside_server`. -/
def verifyingPathInLocationsInsideServer (s : Server) : Except Bytes Unit :=
  verifyPaths [] s.locations

/-- The paths of the locations are different, with or without a slash at their ends. -/
def Server.Distinct (s : Server) : Prop := (s.locations.map fun l => dropTrailingSlash l.path).Nodup

theorem verifyPaths_eq_ok_iff : ∀ (ls : List Location) (seen : List Bytes),
    verifyPaths seen ls = .ok () ↔
      (ls.map fun l => dropTrailingSlash l.path).Nodup ∧
        ∀ l ∈ ls, dropTrailingSlash l.path ∉ seen := by
  intro ls
  induction ls with
  | nil => exact fun _ => by simp [verifyPaths]
  | cons l ls ih =>
    intro seen
    rw [verifyPaths]
    split
    · next hseen =>
      rw [List.contains_iff_mem] at hseen
      exact iff_of_false nofun fun h => h.2 l List.mem_cons_self hseen
    · next hnew =>
      rw [List.contains_iff_mem] at hnew
      rw [ih, List.map_cons, List.nodup_cons, List.mem_map]
      constructor
      · rintro ⟨hnodup, hrest⟩
        refine ⟨⟨?_, hnodup⟩, ?_⟩
        · rintro ⟨l', hl', heq⟩
          exact hrest l' hl' (by rw [heq]; exact List.mem_cons_self)
        · intro l' hl'
          rcases List.mem_cons.mp hl' with rfl | hl'
          · exact hnew
          · exact fun hmem => hrest l' hl' (List.mem_cons_of_mem _ hmem)
      · rintro ⟨⟨hfirst, hnodup⟩, hall⟩
        refine ⟨hnodup, fun l' hl' hmem => ?_⟩
        rcases List.mem_cons.mp hmem with heq | hmem
        · exact hfirst ⟨l', hl', heq⟩
        · exact hall l' (List.mem_cons_of_mem _ hl') hmem

theorem verifying_eq_ok_iff (s : Server) :
    verifyingPathInLocationsInsideServer s = .ok () ↔ s.Distinct := by
  rw [verifyingPathInLocationsInsideServer, verifyPaths_eq_ok_iff]
  simp [Server.Distinct]

theorem Server.Distinct.eq {s : Server} (hs : s.Distinct) {l l' : Location}
    (h : l ∈ s.locations) (h' : l' ∈ s.locations)
    (heq : dropTrailingSlash l.path = dropTrailingSlash l'.path) : l = l' :=
  List.inj_on_of_nodup_map hs h h' heq

/-- **The choice without duplicates** is the longest location that covers the path. -/
theorem Server.Distinct.matchLocation_eq_some_iff {s : Server} (hs : s.Distinct) {path : Bytes}
    {l : Location} : s.matchLocation path = some l ↔
      l ∈ s.locations ∧ l.covers path = true ∧ ∀ l' ∈ s.locations, l'.covers path = true →
        (dropTrailingSlash l'.path).length ≤ (dropTrailingSlash l.path).length := by
  constructor
  · intro h
    obtain ⟨hmem, hcovers⟩ := Server.mem_of_matchLocation h
    exact ⟨hmem, hcovers, fun l' hl' => Server.length_le_of_matchLocation h hl'⟩
  · rintro ⟨hmem, hcovers, hlongest⟩
    cases hm : s.matchLocation path with
    | none =>
      rw [Server.matchLocation_eq_none_iff.mp hm l hmem] at hcovers
      cases hcovers
    | some m =>
      obtain ⟨hmem', hcovers'⟩ := Server.mem_of_matchLocation hm
      have hle := Server.length_le_of_matchLocation hm hmem hcovers
      have heq := Location.eq_of_covers hcovers' hcovers
        (Nat.le_antisymm (hlongest m hmem' hcovers') hle)
      rw [hs.eq hmem' hmem heq]

/-- **The choice does not depend on the order of the locations.** -/
theorem matchLocation_perm {s : Server} (h : verifyingPathInLocationsInsideServer s = .ok ())
    {locations : List Location} (hperm : locations.Perm s.locations) (path : Bytes) :
    ({ s with locations := locations } : Server).matchLocation path = s.matchLocation path := by
  have hs : s.Distinct := (verifying_eq_ok_iff s).mp h
  have hs' : Server.Distinct { s with locations := locations } :=
    (hperm.map _).nodup_iff.mpr hs
  ext l
  rw [hs.matchLocation_eq_some_iff, hs'.matchLocation_eq_some_iff]
  simp only [hperm.mem_iff]

/-- A server with two locations. -/
private def twoLocations : Server :=
  { Server.empty with locations := [{ Location.empty with path := ascii "/" },
      { Location.empty with path := ascii "/img/" }] }

/-- The two locations the other way round. -/
theorem matchLocation_perm_twoLocations :
    ({ twoLocations with locations := twoLocations.locations.reverse } : Server).matchLocation
      (ascii "/img/a") = twoLocations.matchLocation (ascii "/img/a") :=
  matchLocation_perm (by rfl) (List.reverse_perm _) (ascii "/img/a")

/-! ### The longest prefix -/

/-- What is chosen for the path is the longest location that is a prefix of it. -/
def IsLongestPrefix (locations : List Location) (path : Bytes) : Option Location → Prop
  | none => ∀ l ∈ locations, ¬ SegmentPrefix (dropTrailingSlash l.path) path
  | some l => l ∈ locations ∧ SegmentPrefix (dropTrailingSlash l.path) path ∧
      ∀ l' ∈ locations, SegmentPrefix (dropTrailingSlash l'.path) path →
        (dropTrailingSlash l'.path).length ≤ (dropTrailingSlash l.path).length

/-- The root is a location only for itself and for paths with two slashes in front, or another
prefix is longer. -/
def RootNotNeeded (locations : List Location) (path : Bytes) : Prop :=
  (∃ l ∈ locations, dropTrailingSlash l.path = [SLASH]) →
    path = [SLASH] ∨ path[1]? = some SLASH ∨
      ∃ l ∈ locations, dropTrailingSlash l.path ≠ [SLASH] ∧
        SegmentPrefix (dropTrailingSlash l.path) path

/-- No location ends with two slashes where the path ends with one. -/
def NoDoubledSlash (locations : List Location) (path : Bytes) : Prop :=
  ∀ l ∈ locations, dropTrailingSlash l.path = path → path.getLast? = some SLASH → path = [SLASH]

theorem Location.segmentPrefix_of_covers {l : Location} {path : Bytes}
    (h : l.covers path = true) : SegmentPrefix (dropTrailingSlash l.path) path := by
  obtain ⟨hne, rest, hrest, hnext⟩ := (l.covers_iff path).mp h
  exact ⟨dropTrailingSlash_ne_nil hne, Or.inl (append_of_dropTrailingSlash hrest hnext)⟩

/-- A prefix at whose end the path ends or a segment begins is missed only if it is the path, which
loses its last slash. -/
theorem Location.slash_of_not_covers {l : Location} {path rest : Bytes} (hl : l.path ≠ [])
    (hnot : l.covers path = false) (hrest : path = dropTrailingSlash l.path ++ rest)
    (hnext : rest = [] ∨ rest.head? = some SLASH) :
    dropTrailingSlash l.path = path ∧ path.getLast? = some SLASH ∧ path ≠ [SLASH] := by
  have hno : ∀ rest, dropTrailingSlash path = dropTrailingSlash l.path ++ rest →
      ¬ (rest = [] ∨ rest.head? = some SLASH) := by
    intro rest hrest hnext
    have hcovers := (l.covers_iff path).mpr ⟨hl, rest, hrest, hnext⟩
    rw [hnot] at hcovers
    cases hcovers
  rcases dropTrailingSlash_cases path with ⟨hsame, -⟩ | ⟨heq, hne'⟩
  · exact absurd hnext (hno rest (hsame.trans hrest))
  · rcases List.eq_nil_or_concat rest with rfl | ⟨front, last, rfl⟩
    · rw [List.append_nil] at hrest
      refine ⟨hrest.symm, ?_, ?_⟩
      · rw [heq, List.getLast?_concat]
      · intro hroot
        rw [hroot] at heq hne'
        exact hne' (List.append_eq_singleton_iff.mp heq.symm |>.resolve_right
          (fun h => by simp at h) |>.1)
    · -- the slash at the end is not part of the prefix
      rw [List.concat_eq_append] at hrest hnext
      rw [heq, ← List.append_assoc] at hrest
      obtain ⟨hfront, -⟩ := List.append_inj' hrest rfl
      refine absurd ?_ (hno front hfront)
      cases front with
      | nil => exact Or.inl rfl
      | cons b front => exact hnext.imp_left fun h => by simp at h

/-- **The prefixes that are missed**: the root in front of a segment, and a path that ends with a
slash. -/
theorem Location.missed_of_not_covers {l : Location} {path : Bytes}
    (h : SegmentPrefix (dropTrailingSlash l.path) path) (hnot : l.covers path = false) :
    dropTrailingSlash l.path = [SLASH] ∧ path ≠ [SLASH] ∧ path[1]? ≠ some SLASH ∨
      dropTrailingSlash l.path = path ∧ path.getLast? = some SLASH ∧ path ≠ [SLASH] := by
  obtain ⟨hne, hprefix⟩ := h
  have hpath : l.path ≠ [] := by
    intro hnil
    rw [hnil] at hne
    exact hne rfl
  rcases hprefix with ⟨rest, hrest, hnext⟩ | ⟨hroot, hhead⟩
  · exact Or.inr (Location.slash_of_not_covers hpath hnot hrest hnext)
  · obtain ⟨rest, rfl⟩ := eq_cons_of_head hhead
    by_cases hnext : rest = [] ∨ rest.head? = some SLASH
    · -- the path has two slashes in front, or is the root
      refine Or.inr (Location.slash_of_not_covers hpath hnot ?_ hnext)
      rw [hroot]
      rfl
    · rw [not_or] at hnext
      refine Or.inl ⟨hroot, ?_, ?_⟩
      · intro heq
        exact hnext.1 (List.cons.inj heq).2
      · rw [List.getElem?_cons_succ, ← List.head?_eq_getElem?]
        exact hnext.2

/-- The root covers no other paths than those that begin with two slashes. -/
theorem Location.not_covers_of_root {l : Location} {path : Bytes}
    (hroot : dropTrailingSlash l.path = [SLASH]) (hpath : path ≠ [SLASH])
    (hnext : path[1]? ≠ some SLASH) : l.covers path = false := by
  by_contra hcovers
  rw [Bool.not_eq_false] at hcovers
  have hprefix := (l.covers_iff path).mp hcovers
  rw [hroot] at hprefix
  obtain ⟨-, rest, hrest, hend⟩ := hprefix
  obtain ⟨rest', heq, hend'⟩ := append_of_dropTrailingSlash hrest hend
  rw [List.singleton_append] at heq
  rcases hend' with rfl | hhead
  · exact hpath heq
  · rw [heq, List.getElem?_cons_succ, ← List.head?_eq_getElem?] at hnext
    exact hnext hhead

/-- A path that ends with a slash is not covered by what ends with that slash. -/
theorem Location.not_covers_of_doubled {l : Location} {path : Bytes}
    (hsame : dropTrailingSlash l.path = path) (hlast : path.getLast? = some SLASH)
    (hpath : path ≠ [SLASH]) : l.covers path = false := by
  by_contra hcovers
  rw [Bool.not_eq_false] at hcovers
  obtain ⟨-, rest, hrest, -⟩ := (l.covers_iff path).mp hcovers
  have hlength := congrArg List.length hrest
  rw [hsame, List.length_append] at hlength
  have hno := (@dropTrailingSlash_of_length path (by omega)).2
  -- a slash at the end is not dropped from the root alone
  have hshort : ¬ 1 < path.length := fun h => hno h hlast
  obtain ⟨front, hfront⟩ := List.getLast?_eq_some_iff.mp hlast
  have hnil : front = [] := by
    refine List.length_eq_zero_iff.mp ?_
    rw [hfront, List.length_append, List.length_singleton] at hshort
    omega
  apply hpath
  rw [hfront, hnil]
  rfl

section

variable {s : Server} {path : Bytes}

/-- If the longest prefix is chosen, it is not a root that covers nothing. -/
theorem rootNotNeeded_of_longestPrefix (hslash : path.head? = some SLASH)
    (h : IsLongestPrefix s.locations path (s.matchLocation path)) :
    RootNotNeeded s.locations path := by
  rintro ⟨l, hmem, hroot⟩
  by_contra hneeded
  simp only [not_or] at hneeded
  obtain ⟨hpath, hnext, hother⟩ := hneeded
  have hprefix : SegmentPrefix (dropTrailingSlash l.path) path := by
    rw [hroot]
    exact ⟨by simp, Or.inr ⟨rfl, hslash⟩⟩
  cases hm : s.matchLocation path with
  | none =>
    rw [hm] at h
    exact h l hmem hprefix
  | some m =>
    obtain ⟨hmem', hcovers⟩ := Server.mem_of_matchLocation hm
    refine hother ⟨m, hmem', fun hroot' => ?_, Location.segmentPrefix_of_covers hcovers⟩
    rw [Location.not_covers_of_root hroot' hpath hnext] at hcovers
    cases hcovers

/-- If the longest prefix is chosen, it does not end with two slashes where the path ends with
one. -/
theorem noDoubledSlash_of_longestPrefix (hslash : path.head? = some SLASH)
    (h : IsLongestPrefix s.locations path (s.matchLocation path)) :
    NoDoubledSlash s.locations path := by
  intro l hmem hsame hlast
  by_contra hpath
  have hprefix : SegmentPrefix (dropTrailingSlash l.path) path := by
    rw [hsame]
    refine ⟨?_, Or.inl ⟨[], (List.append_nil path).symm, Or.inl rfl⟩⟩
    rintro rfl
    cases hslash
  cases hm : s.matchLocation path with
  | none =>
    rw [hm] at h
    exact h l hmem hprefix
  | some m =>
    rw [hm] at h
    obtain ⟨hmem', hcovers⟩ := Server.mem_of_matchLocation hm
    -- what is chosen is a prefix of the path, and not shorter than the path
    have hlength := h.2.2 l hmem hprefix
    obtain ⟨-, rest, hrest, -⟩ := (m.covers_iff path).mp hcovers
    have hshort := congrArg List.length hrest
    rw [List.length_append] at hshort
    have hle := length_dropTrailingSlash_le path
    rw [hsame] at hlength
    have hsame' : dropTrailingSlash m.path = path := by
      have hrest' : rest = [] := List.length_eq_zero_iff.mp (by omega)
      rw [hrest', List.append_nil] at hrest
      rw [← hrest]
      exact (dropTrailingSlash_of_length (by omega)).1
    rw [Location.not_covers_of_doubled hsame' hlast hpath] at hcovers
    cases hcovers

theorem longestPrefix_of_notNeeded (hroot : RootNotNeeded s.locations path)
    (hdoubled : NoDoubledSlash s.locations path) :
    IsLongestPrefix s.locations path (s.matchLocation path) := by
  -- a prefix that is missed is the root
  have hmissed : ∀ l ∈ s.locations, SegmentPrefix (dropTrailingSlash l.path) path →
      l.covers path = false →
        dropTrailingSlash l.path = [SLASH] ∧ path ≠ [SLASH] ∧ path[1]? ≠ some SLASH := by
    intro l hmem hprefix hnot
    rcases Location.missed_of_not_covers hprefix hnot with h | ⟨hsame, hlast, hpath⟩
    · exact h
    · exact absurd (hdoubled l hmem hsame hlast) hpath
  cases hm : s.matchLocation path with
  | none =>
    have hnone := Server.matchLocation_eq_none_iff.mp hm
    intro l hmem hprefix
    obtain ⟨hl, hpath, hnext⟩ := hmissed l hmem hprefix (hnone l hmem)
    rcases hroot ⟨l, hmem, hl⟩ with h | h | ⟨l', hmem', hl', hprefix'⟩
    · exact hpath h
    · exact hnext h
    · exact hl' (hmissed l' hmem' hprefix' (hnone l' hmem')).1
  | some m =>
    obtain ⟨hmem, hcovers⟩ := Server.mem_of_matchLocation hm
    refine ⟨hmem, Location.segmentPrefix_of_covers hcovers, fun l hl hprefix => ?_⟩
    cases hl' : l.covers path with
    | true => exact Server.length_le_of_matchLocation hm hl hl'
    | false =>
      -- the root is no longer than what is chosen
      rw [(hmissed l hl hprefix hl').1]
      exact List.length_pos_of_ne_nil
        (dropTrailingSlash_ne_nil ((m.covers_iff path).mp hcovers).1)

end

/-- **When the longest prefix is chosen**: when the location `/` is not needed for anything but
itself, and no location ends with two slashes where the request ends with one. -/
theorem longestPrefix_matchLocation_iff (s : Server) {path : Bytes}
    (hslash : path.head? = some SLASH) :
    IsLongestPrefix s.locations path (s.matchLocation path) ↔
      RootNotNeeded s.locations path ∧ NoDoubledSlash s.locations path := by
  constructor
  · intro h
    exact ⟨rootNotNeeded_of_longestPrefix hslash h, noDoubledSlash_of_longestPrefix hslash h⟩
  · rintro ⟨hroot, hdoubled⟩
    exact longestPrefix_of_notNeeded hroot hdoubled

theorem longestPrefix_twoLocations :
    IsLongestPrefix twoLocations.locations (ascii "/img/a")
      (twoLocations.matchLocation (ascii "/img/a")) := by
  refine (longestPrefix_matchLocation_iff twoLocations (by decide)).mpr ⟨fun _ => ?_, ?_⟩
  · refine Or.inr (Or.inr ⟨_, List.mem_cons_of_mem _ List.mem_cons_self, by decide, ?_⟩)
    exact ⟨by decide, Or.inl ⟨ascii "/a", by decide, Or.inr (by decide)⟩⟩
  · intro l _ _ hlast
    cases hlast

/-- **The location `/` is not chosen for `/x`**, though it is the only prefix. -/
theorem not_longestPrefix_matchLocation : ¬ ∀ (s : Server) (path : Bytes),
    path.head? = some SLASH → IsLongestPrefix s.locations path (s.matchLocation path) := by
  intro h
  have hlongest := h twoLocations (ascii "/x") (by decide)
  have hnone : twoLocations.matchLocation (ascii "/x") = none :=
    Server.matchLocation_eq_none_iff.mpr (by decide)
  rw [hnone] at hlongest
  exact hlongest _ List.mem_cons_self ⟨by decide, Or.inr ⟨by decide, by decide⟩⟩

end Webserv
