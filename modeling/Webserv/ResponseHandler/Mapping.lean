import Webserv.ResponseHandler.NormalPath

/-!
# Paths and files

`_resolveFsPath` takes the path of the location off the path of the request, puts it back when
the rest has no slash in front, and looks for the last component of the location when nothing
is left, or what looks like the location again.  An entry of a directory need not be found below
the file that the directory is, and a slash at the end of the location's path makes a difference.

## Main results

* `sought_append`, `sought_of_trailing` — what is looked for below the root.
* `resolveFsPath_entry_iff` — **when an entry is found below its directory.**
* `resolveFsPath_slashed_iff` — **when the slash at the end makes no difference.**
-/

namespace Webserv

open Bytes Path

/-! ### The last component -/

/-- There is no slash behind the last one. -/
theorem slash_notMem_tail_lastComponent (p : Bytes) : SLASH ∉ (lastComponent p).tail := by
  unfold lastComponent
  cases hlast : findLast SLASH p with
  | none => exact fun hmem => findLast_eq_none_iff.mp hlast (List.mem_of_mem_tail hmem)
  | some i =>
    obtain ⟨front, t, rfl, ht, rfl⟩ := findLast_eq_some_iff.mp hlast
    dsimp only
    rw [List.drop_left]
    exact ht

/-- A path of one component. -/
theorem lastComponent_eq_self_iff {p : Bytes} (h : p.head? = some SLASH) :
    lastComponent p = p ↔ SLASH ∉ p.tail := by
  obtain ⟨q, rfl⟩ := eq_cons_of_head h
  obtain ⟨hsuffix, hhead⟩ := lastComponent_spec (p := SLASH :: q) List.mem_cons_self
  constructor
  · intro heq
    rw [← heq]
    exact slash_notMem_tail_lastComponent _
  · intro hnone
    rcases List.suffix_cons_iff.mp hsuffix with heq | hsuffix
    · exact heq
    · exact absurd (hsuffix.subset (List.mem_of_mem_head? hhead)) hnone

theorem lastComponent_ne_nil {p : Bytes} (h : p.head? = some SLASH) : lastComponent p ≠ [] := by
  intro hnil
  have hhead := (lastComponent_spec (List.mem_of_mem_head? h)).2
  rw [hnil] at hhead
  cases hhead

/-! ### What is looked for -/

/-- A location that inherits the root takes nothing off the path. -/
theorem sought_of_inherited {l : Location} (hroot : l.hasRoot = false) (p : Bytes) :
    sought (some l) p = p := by
  rw [sought, Option.filter_some, if_neg (by simp [hroot])]

section

variable {l : Location} (hroot : l.hasRoot = true)
include hroot

theorem sought_self : sought (some l) l.path = lastComponent l.path := by
  rw [sought, Option.filter_some, if_pos hroot]
  exact if_pos (Or.inl rfl)

/-- Below the location, the rest is looked for. -/
theorem sought_append {rest : Bytes} (hrest : rest.head? = some SLASH) :
    sought (some l) (l.path ++ rest) = if rest = l.path then lastComponent l.path else rest := by
  have hne : rest ≠ [] := by
    rintro rfl
    cases hrest
  rw [sought, Option.filter_some, if_pos hroot]
  dsimp only
  rw [List.drop_left]
  by_cases htwice : rest = l.path
  · rw [if_pos htwice, if_pos]
    rw [htwice] at hrest ⊢
    exact Or.inr ⟨rfl, hrest⟩
  · rw [if_neg htwice, if_neg, if_pos ⟨List.prefix_append _ _, hrest⟩]
    rintro (heq | ⟨heq, -⟩)
    · exact hne (List.append_right_eq_self.mp heq)
    · exact htwice (List.append_cancel_left heq)

/-- A location that ends with a slash is left in a path that has no doubled slash. -/
theorem sought_of_trailing {q p : Bytes} (hl : l.path = q ++ [SLASH]) (hp : ¬ doubled <:+: p)
    (hne : p ≠ l.path) : sought (some l) p = p := by
  have hno : ∀ rest, rest.head? = some SLASH → p ≠ l.path ++ rest := by
    intro rest hrest heq
    obtain ⟨rest, rfl⟩ := eq_cons_of_head hrest
    exact hp ⟨q, rest, by rw [heq, hl]; simp [doubled]⟩
  rw [sought, Option.filter_some, if_pos hroot]
  dsimp only
  rw [if_neg, if_neg]
  · rintro ⟨hbegins, hhead⟩
    exact hno _ hhead (List.prefix_iff_eq_append.mp hbegins).symm
  · rintro (heq | ⟨heq, hhead⟩)
    · exact hne heq
    · exact hno _ hhead heq

end

/-! ### Entries of a directory -/

/-- The entry of the directory is looked for below what is looked for as the directory. -/
def Location.KeepsEntry (l : Location) (p name : Bytes) : Prop :=
  l.root = [] ∨ p ≠ l.path ∧ ¬ (l.path = p ++ [SLASH] ∧ name = []) ∧
    (p = l.path ++ l.path → SLASH ∉ l.path.tail) ∧ p ++ SLASH :: name ≠ l.path ++ l.path

theorem dropTrailingSlash_of_canonical {p : Bytes} (hp : Canonical p) (hroot : p ≠ [SLASH]) :
    dropTrailingSlash p = p := dropTrailingSlash_of_getLast (hp.getLast hroot)

section

variable {l : Location} {p name : Bytes} (hroot : l.hasRoot = true) (hp : Canonical p)
  (hne : p ≠ [SLASH]) (hname : SLASH ∉ name)
include hroot

/-- An entry below a location without a slash at its end. -/
theorem sought_entry_below {rest : Bytes} (hhead : l.path.head? = some SLASH)
    (hrest : rest = [] ∨ rest.head? = some SLASH) :
    sought (some l) (l.path ++ rest ++ SLASH :: name) =
        sought (some l) (l.path ++ rest) ++ SLASH :: name ↔
      rest ≠ [] ∧ (rest = l.path → SLASH ∉ l.path.tail) ∧ rest ++ SLASH :: name ≠ l.path := by
  have hlast := lastComponent_ne_nil hhead
  rcases hrest with rfl | hrest
  · -- the directory is the location itself, and its last component is put in front of nothing
    refine iff_of_false ?_ (fun h => h.1 rfl)
    rw [List.append_nil, sought_self hroot, sought_append hroot rfl]
    intro heq
    have hlength := congrArg List.length heq
    have hpos := List.length_pos_of_ne_nil hlast
    rw [List.length_append, List.length_cons] at hlength
    split at hlength
    · omega
    · rw [List.length_cons] at hlength
      omega
  · have hrest' : (rest ++ SLASH :: name).head? = some SLASH := by
      rw [List.head?_append, hrest]
      rfl
    have hnil : rest ≠ [] := by
      rintro rfl
      cases hrest
    rw [List.append_assoc, sought_append hroot hrest, sought_append hroot hrest']
    by_cases hentry : rest ++ SLASH :: name = l.path
    · -- the entry looks like the location
      have hother : rest ≠ l.path := by
        intro heq
        rw [heq] at hentry
        exact absurd (List.append_right_eq_self.mp hentry) (List.cons_ne_nil _ _)
      rw [if_pos hentry, if_neg hother, hentry, lastComponent_eq_self_iff hhead]
      refine iff_of_false (fun h => h ?_) (fun h => h.2.2 rfl)
      rw [← hentry]
      obtain ⟨rest, rfl⟩ := eq_cons_of_head hrest
      simp
    · rw [if_neg hentry]
      by_cases htwice : rest = l.path
      · rw [if_pos htwice, htwice, List.append_cancel_right_eq, eq_comm,
          lastComponent_eq_self_iff hhead]
        refine ⟨fun h => ⟨?_, fun _ => h, ?_⟩, fun h => h.2.1 rfl⟩
        · rwa [htwice] at hnil
        · rwa [htwice] at hentry
      · rw [if_neg htwice]
        exact iff_of_true rfl ⟨hnil, fun h => absurd h htwice, hentry⟩

include hp hne hname

/-- An entry below a location with a slash at its end. -/
theorem sought_entry_trailing {q : Bytes} (hl : l.path = q ++ [SLASH]) (hq : q ≠ []) :
    sought (some l) (p ++ SLASH :: name) = sought (some l) p ++ SLASH :: name ↔
      ¬ (l.path = p ++ [SLASH] ∧ name = []) := by
  have hother : p ≠ l.path := by
    rintro rfl
    refine hp.getLast hne ?_
    rw [hl]
    exact List.getLast?_concat
  rw [sought_of_trailing hroot hl (hp.not_doubled hne) hother]
  by_cases hentry : p ++ SLASH :: name = l.path
  · have hnil : name = [] := by
      by_contra hnil
      have hlast : (p ++ SLASH :: name).getLast? = name.getLast? := by
        rw [List.getLast?_append_cons, List.getLast?_cons, List.getLast?_eq_some_getLast hnil]
        rfl
      rw [hentry, hl, List.getLast?_concat] at hlast
      exact hname (List.mem_of_getLast? hlast.symm)
    subst hnil
    have hhead : l.path.head? = some SLASH := by
      rw [← hentry, List.head?_append, hp.head]
      rfl
    rw [hentry, sought_self hroot, lastComponent_eq_self_iff hhead]
    refine iff_of_false (fun h => h ?_) (fun h => h ⟨rfl, rfl⟩)
    rw [hl]
    obtain ⟨b, q, rfl⟩ := List.exists_cons_of_ne_nil hq
    simp
  · rw [sought_of_trailing hroot hl (hp.not_doubled_append hne hname) hentry]
    refine iff_of_true rfl ?_
    rintro ⟨heq, rfl⟩
    exact hentry heq.symm

/-- When an entry is looked for below its directory. -/
theorem sought_entry_iff (hcovers : l.covers p = true) :
    sought (some l) (p ++ SLASH :: name) = sought (some l) p ++ SLASH :: name ↔
      l.KeepsEntry p name := by
  obtain ⟨hpath, rest, hrest, hnext⟩ := (l.covers_iff p).mp hcovers
  rw [dropTrailingSlash_of_canonical hp hne] at hrest
  have hroot' : l.root ≠ [] := by simpa [Location.hasRoot] using hroot
  have hhead : l.path.head? = some SLASH := by
    have hp' := hp.head
    rw [hrest, List.head?_append_of_ne_nil _ (dropTrailingSlash_ne_nil hpath)] at hp'
    rcases dropTrailingSlash_cases l.path with ⟨hsame, -⟩ | ⟨heq, hdrop⟩
    · rwa [hsame] at hp'
    · rw [heq, List.head?_append_of_ne_nil _ hdrop, hp']
  rw [Location.KeepsEntry, or_iff_right hroot']
  rcases dropTrailingSlash_cases l.path with ⟨hsame, -⟩ | ⟨heq, hdrop⟩
  · -- the location has no slash at its end
    rw [hsame] at hrest
    rw [hrest, sought_entry_below hroot hhead hnext]
    refine and_congr (by simp) ?_
    have hshort : ¬ (l.path = l.path ++ rest ++ [SLASH] ∧ name = []) := by
      rintro ⟨h, -⟩
      have hlength := congrArg List.length h
      rw [List.length_append, List.length_append, List.length_singleton] at hlength
      omega
    rw [and_iff_right hshort, List.append_assoc, List.append_cancel_left_eq, ne_eq, ne_eq,
      List.append_cancel_left_eq]
  · -- it has one: a canonical path has no slash at its end, and no two slashes in it
    rw [sought_entry_trailing hroot hp hne hname heq hdrop]
    constructor
    · intro h
      refine ⟨?_, h, ?_, ?_⟩
      · rintro rfl
        refine hp.getLast hne ?_
        rw [heq]
        exact List.getLast?_concat
      · intro htwice
        refine absurd ?_ (hp.getLast hne)
        rw [htwice, heq, ← List.append_assoc]
        exact List.getLast?_concat
      · intro htwice
        obtain ⟨back, hback⟩ := eq_cons_of_head hhead
        refine hp.not_doubled_append hne hname ?_
        rw [htwice]
        nth_rewrite 1 [heq]
        rw [hback]
        exact ⟨dropTrailingSlash (SLASH :: back), back, by simp [doubled]⟩
    · exact fun h => h.2.1

end

/-- **When an entry is found below its directory.**  The request is for a canonical path other than
`/` and for that path with a name behind it, and both match one location. -/
theorem resolveFsPath_entry_iff (cfg : Server) {p name : Bytes} (hp : Canonical p)
    (hne : p ≠ [SLASH]) (hname : SLASH ∉ name)
    (hsame : cfg.matchLocation (p ++ SLASH :: name) = cfg.matchLocation p) (req : HttpRequest) :
    resolveFsPath { req with path := p ++ SLASH :: name }
          (cfg.matchLocation (p ++ SLASH :: name)) cfg =
        resolveFsPath { req with path := p } (cfg.matchLocation p) cfg ++ SLASH :: name ↔
      ∀ l ∈ cfg.matchLocation p, l.KeepsEntry p name := by
  unfold resolveFsPath
  dsimp only
  have hroots : rootOf cfg (p ++ SLASH :: name) = rootOf cfg p := by rw [rootOf, rootOf, hsame]
  rw [pathUnderRoot_eq, pathUnderRoot_eq, hroots, List.append_assoc, List.append_cancel_left_eq,
    hsame]
  cases hl : cfg.matchLocation p with
  | none => exact iff_of_true rfl (by simp)
  | some l =>
    have hcovers := (Server.mem_of_matchLocation hl).2
    simp only [Option.mem_def, Option.some.injEq, forall_eq']
    cases hroot : l.hasRoot with
    | true => exact sought_entry_iff hroot hp hne hname hcovers
    | false =>
      have hempty : l.root = [] := by simpa [Location.hasRoot] using hroot
      refine iff_of_true ?_ (Or.inl hempty)
      rw [sought_of_inherited hroot, sought_of_inherited hroot]

/-- A server with a location that inherits the root. -/
private def pictures : Server :=
  { Server.empty with
    root := ascii "/srv"
    locations := [{ Location.empty with path := ascii "/img", root := ascii "/srv" }] }

/-- An entry of a directory below the location. -/
theorem resolveFsPath_entry_below :
    resolveFsPath { HttpRequest.new 10 with path := ascii "/img/a" ++ SLASH :: ascii "b" }
          (pictures.matchLocation (ascii "/img/a" ++ SLASH :: ascii "b")) pictures =
        resolveFsPath { HttpRequest.new 10 with path := ascii "/img/a" }
          (pictures.matchLocation (ascii "/img/a")) pictures ++ SLASH :: ascii "b" ↔
      ∀ l ∈ pictures.matchLocation (ascii "/img/a"), l.KeepsEntry (ascii "/img/a") (ascii "b") :=
  resolveFsPath_entry_iff pictures ⟨[ascii "img", ascii "a"], by decide, by decide⟩ (by decide)
    (by decide) (by rfl) (.new 10)

/-- **The entries of the location itself** are looked for somewhere else. -/
theorem not_resolveFsPath_entry : ¬ ∀ (cfg : Server) (p name : Bytes) (req : HttpRequest),
    Canonical p → p ≠ [SLASH] → SLASH ∉ name →
      cfg.matchLocation (p ++ SLASH :: name) = cfg.matchLocation p →
        resolveFsPath { req with path := p ++ SLASH :: name }
            (cfg.matchLocation (p ++ SLASH :: name)) cfg =
          resolveFsPath { req with path := p } (cfg.matchLocation p) cfg ++ SLASH :: name := by
  intro h
  have hsame := h pictures (ascii "/img") (ascii "b") (.new 10)
    ⟨[ascii "img"], by decide, by decide⟩
    (by decide) (by decide) (by rfl)
  exact absurd hsame (by decide)

/-! ### A slash at the end of a location -/

/-- The location with the path `q`, with a slash behind it. -/
def Location.slashed (q : Bytes) (l : Location) : Location :=
  if l.path = q then { l with path := q ++ [SLASH] } else l

@[simp] theorem root_slashed (q : Bytes) (l : Location) : (l.slashed q).root = l.root := by
  unfold Location.slashed
  split <;> rfl

@[simp] theorem hasRoot_slashed (q : Bytes) (l : Location) :
    (l.slashed q).hasRoot = l.hasRoot := by
  rw [Location.hasRoot, Location.hasRoot, root_slashed]

/-- The configuration in which the location path `q` is replaced by `q` and a slash. -/
def Server.slashed (q : Bytes) (s : Server) : Server :=
  { s with locations := s.locations.map (·.slashed q) }

section

variable {q : Bytes} (hq : q ≠ []) (hlast : q.getLast? ≠ some SLASH)
include hq hlast

theorem dropTrailingSlash_slashed (l : Location) :
    dropTrailingSlash (l.slashed q).path = dropTrailingSlash l.path := by
  unfold Location.slashed
  split
  · next hl =>
    rw [hl, dropTrailingSlash_append hq, dropTrailingSlash_of_getLast hlast]
  · rfl

theorem covers_slashed (l : Location) (path : Bytes) : (l.slashed q).covers path =
    l.covers path := by
  have hempty : (l.slashed q).path.isEmpty = l.path.isEmpty := by
    unfold Location.slashed
    split
    · next hl =>
      rw [hl, Bool.eq_iff_iff, List.isEmpty_iff, List.isEmpty_iff]
      exact iff_of_false (by simp) hq
    · rfl
  unfold Location.covers
  rw [dropTrailingSlash_slashed hq hlast, hempty]

/-- **The same location is chosen** with the slash and without it. -/
theorem matchLocation_slashed {s : Server} (hs : s.Distinct) (path : Bytes) :
    (s.slashed q).matchLocation path = (s.matchLocation path).map (·.slashed q) := by
  have hs' : (s.slashed q).Distinct := by
    have hpaths : (s.slashed q).locations.map (fun l => dropTrailingSlash l.path) =
        s.locations.map fun l => dropTrailingSlash l.path := by
      rw [Server.slashed, List.map_map]
      exact List.map_congr_left fun l _ => dropTrailingSlash_slashed hq hlast l
    rw [Server.Distinct, hpaths]
    exact hs
  cases hl : s.matchLocation path with
  | none =>
    rw [Server.matchLocation_eq_none_iff] at hl
    rw [Option.map_none, Server.matchLocation_eq_none_iff]
    intro l' hl'
    obtain ⟨l, hmem, rfl⟩ := List.mem_map.mp hl'
    rw [covers_slashed hq hlast]
    exact hl l hmem
  | some l =>
    obtain ⟨hmem, hcovers, hlongest⟩ := hs.matchLocation_eq_some_iff.mp hl
    rw [Option.map_some, hs'.matchLocation_eq_some_iff]
    refine ⟨List.mem_map_of_mem hmem, ?_, ?_⟩
    · rwa [covers_slashed hq hlast]
    · intro l' hl' hcovers'
      obtain ⟨l', hmem', rfl⟩ := List.mem_map.mp hl'
      rw [covers_slashed hq hlast] at hcovers'
      rw [dropTrailingSlash_slashed hq hlast, dropTrailingSlash_slashed hq hlast]
      exact hlongest l' hmem' hcovers'

/-- The path is looked for as it is when the location ends with a slash, and is cut when it does
not. -/
theorem sought_slashed_iff {l : Location} (hl : l.path = q) (hroot : l.hasRoot = true) {p : Bytes}
    (hp : Canonical p) (hcovers : l.covers p = true) :
    sought (some (l.slashed q)) p = sought (some l) p ↔ p = q ∧ SLASH ∉ q.tail := by
  have hslashed : (l.slashed q).path = q ++ [SLASH] := by rw [Location.slashed, if_pos hl]
  have hroot' : (l.slashed q).hasRoot = true := (hasRoot_slashed q l).trans hroot
  obtain ⟨-, rest, hrest, hnext⟩ := (l.covers_iff p).mp hcovers
  have hdrop := dropTrailingSlash_of_getLast hlast
  have hne : p ≠ [SLASH] := by
    -- only the root covers the root
    rintro rfl
    rw [hl, hdrop] at hrest
    rcases List.append_eq_singleton_iff.mp hrest.symm with ⟨h, -⟩ | ⟨h, -⟩
    · exact hq h
    · rw [h] at hlast
      exact hlast rfl
  rw [dropTrailingSlash_of_canonical hp hne, hl, hdrop] at hrest
  have hhead : q.head? = some SLASH := by
    have hp' := hp.head
    rwa [hrest, List.head?_append_of_ne_nil _ hq] at hp'
  have hother : p ≠ (l.slashed q).path := by
    rw [hslashed]
    rintro rfl
    exact hp.getLast hne List.getLast?_concat
  rw [sought_of_trailing hroot' hslashed (hp.not_doubled hne) hother]
  rcases hnext with rfl | hnext
  · rw [List.append_nil] at hrest
    subst hrest
    rw [← hl, sought_self hroot, eq_comm, hl, lastComponent_eq_self_iff hhead]
    exact (and_iff_right rfl).symm
  · have hnil : rest ≠ [] := by
      rintro rfl
      cases hnext
    have hcut : p = l.path ++ rest := by rw [hl, hrest]
    refine iff_of_false ?_ (fun h => ?_)
    · rw [hcut, sought_append hroot hnext]
      intro heq
      have hlength := congrArg List.length heq
      have hpos : 0 < l.path.length := by
        rw [hl]
        exact List.length_pos_of_ne_nil hq
      have hpos' := List.length_pos_of_ne_nil hnil
      rw [List.length_append] at hlength
      split at hlength
      · have hshort := (lastComponent_spec (p := l.path)
          (by rw [hl]; exact List.mem_of_mem_head? hhead)).1.length_le
        omega
      · omega
    · rw [hrest] at h
      exact hnil (List.append_right_eq_self.mp h.1)

/-- **When the slash at the end makes no difference**: the location is not matched, or has no root,
or is the path itself and has one component. -/
theorem resolveFsPath_slashed_iff {cfg : Server}
    (hcfg : verifyingPathInLocationsInsideServer cfg = .ok ()) {p : Bytes} (hp : Canonical p)
    (req : HttpRequest) :
    resolveFsPath { req with path := p } ((cfg.slashed q).matchLocation p) (cfg.slashed q) =
        resolveFsPath { req with path := p } (cfg.matchLocation p) cfg ↔
      ∀ l ∈ cfg.matchLocation p, l.path = q → l.root = [] ∨ p = q ∧ SLASH ∉ q.tail := by
  have hs : cfg.Distinct := (verifying_eq_ok_iff cfg).mp hcfg
  have hmatch := matchLocation_slashed hq hlast hs p
  -- the root is the same, so the question is what stands behind it
  have hrootOf : rootOf (cfg.slashed q) p = rootOf cfg p := by
    unfold rootOf
    rw [hmatch]
    cases cfg.matchLocation p with
    | none => rfl
    | some l =>
      rw [Option.map_some, Option.filter_some, Option.filter_some, hasRoot_slashed]
      cases l.hasRoot with
      | true => simp
      | false => rfl
  unfold resolveFsPath
  dsimp only
  rw [pathUnderRoot_eq, pathUnderRoot_eq, hrootOf, List.append_cancel_left_eq, hmatch]
  cases hl : cfg.matchLocation p with
  | none => exact iff_of_true rfl (by simp)
  | some l =>
    have hcovers := (Server.mem_of_matchLocation hl).2
    simp only [Option.map_some, Option.mem_def, Option.some.injEq, forall_eq']
    by_cases hpath : l.path = q
    · cases hroot : l.hasRoot with
      | true =>
        have hne : l.root ≠ [] := by simpa [Location.hasRoot] using hroot
        rw [sought_slashed_iff hq hlast hpath hroot hp hcovers]
        simp only [hpath, hne, false_or, forall_const]
      | false =>
        have hempty : l.root = [] := by simpa [Location.hasRoot] using hroot
        refine iff_of_true ?_ (fun _ => Or.inl hempty)
        rw [sought_of_inherited hroot,
          sought_of_inherited ((hasRoot_slashed q l).trans hroot)]
    · refine iff_of_true ?_ (fun h => absurd h hpath)
      rw [Location.slashed, if_neg hpath]

end

/-- The path of the location itself, which has one component. -/
theorem resolveFsPath_slashed_pictures :
    resolveFsPath { HttpRequest.new 10 with path := ascii "/img" }
          ((pictures.slashed (ascii "/img")).matchLocation (ascii "/img"))
          (pictures.slashed (ascii "/img")) =
        resolveFsPath { HttpRequest.new 10 with path := ascii "/img" }
          (pictures.matchLocation (ascii "/img")) pictures ↔
      ∀ l ∈ pictures.matchLocation (ascii "/img"), l.path = ascii "/img" →
        l.root = [] ∨ ascii "/img" = ascii "/img" ∧ SLASH ∉ (ascii "/img").tail :=
  resolveFsPath_slashed_iff (by decide) (by decide) (by rfl) ⟨[ascii "img"], by decide, by decide⟩
    (.new 10)

/-- **Below the location**, the slash at its end puts its path in front of what is looked for. -/
theorem not_resolveFsPath_slashed : ¬ ∀ (cfg : Server) (q p : Bytes) (req : HttpRequest),
    verifyingPathInLocationsInsideServer cfg = .ok () → q ≠ [] → q.getLast? ≠ some SLASH →
      Canonical p →
        resolveFsPath { req with path := p } ((cfg.slashed q).matchLocation p) (cfg.slashed q) =
          resolveFsPath { req with path := p } (cfg.matchLocation p) cfg := by
  intro h
  have hsame := h pictures (ascii "/img") (ascii "/img/a") (.new 10) (by rfl)
    (by decide) (by decide)
    ⟨[ascii "img", ascii "a"], by decide, by decide⟩
  exact absurd hsame (by decide)

end Webserv
