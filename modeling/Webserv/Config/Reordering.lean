import Webserv.Config.Settled

/-!
# The order of the statements of a server

What a server itself is does not depend on the order of its statements, and what its locations are
does not either when each of them is settled.

## Main results

* `Reorders.serverBlock_iff` — another order makes the same server if it makes the same locations.
* `parsServer_reorder_iff` — **when the order of the statements does not matter.**
* `not_parsServer_reorder` — two index files, and a location in front of them or behind them.
-/

namespace Webserv

open Bytes Updates Cursor

variable {sz : Bytes → ℤ}

/-! ### Orders -/

/-- The statements of `block` in another order, which keeps that of the locations and that of the
directives of one name. -/
structure Reorders (block block' : List Statement) : Prop where
  perm : block'.Perm block
  locations : locationsOf block' = locationsOf block
  directives : SameByName (directivesOf block) (directivesOf block')

/-- The locations with some directives in front of them, and others behind. -/
def gathered (pre post : List Directive) (ls : List (Bytes × List Directive)) : List Statement :=
  pre.map .directive ++ (ls.map (fun p => .location p.1 p.2) ++ post.map .directive)

theorem directivesOf_gathered (pre post : List Directive) (ls : List (Bytes × List Directive)) :
    directivesOf (gathered pre post ls) = pre ++ post := by
  simp [directivesOf, gathered, List.filterMap_map]

theorem locationsOf_gathered (pre post : List Directive) (ls : List (Bytes × List Directive)) :
    locationsOf (gathered pre post ls) = ls := by
  simp [locationsOf, gathered, List.filterMap_map]

/-- A block is its directives and its locations. -/
theorem gathered_perm (block : List Statement) :
    (gathered (directivesOf block) [] (locationsOf block)).Perm block := by
  induction block with
  | nil => exact .nil
  | cons st block ih =>
    cases st with
    | directive d => exact ih.cons (.directive d)
    | location path body => exact List.perm_middle.trans (ih.cons (.location path body))

/-- The locations may stand anywhere among the directives. -/
theorem reorders_gathered {block : List Statement} {pre post : List Directive}
    (hsplit : directivesOf block = pre ++ post) :
    Reorders block (gathered pre post (locationsOf block)) where
  perm := by
    refine List.Perm.trans ?_ (gathered_perm block)
    rw [hsplit, gathered, gathered, List.map_nil, List.append_nil, List.map_append,
      List.append_assoc]
    exact List.perm_append_comm.append_left _
  locations := locationsOf_gathered _ _ _
  directives := by
    rw [directivesOf_gathered, hsplit]
    exact fun _ => rfl

/-- What is accepted is accepted in another order. -/
theorem Reorders.accepts {block block' : List Statement} (h : Reorders block block')
    {seen : List Bytes} (ha : Accepts sz seen block) : Accepts sz seen block' where
  directives d hd := by
    have hmem := mem_withName.mpr ⟨hd, rfl⟩
    rw [h.directives d.name] at hmem
    exact ha.directives d (mem_withName.mp hmem).1
  locations p hp := ha.locations p (h.locations ▸ hp)
  fresh name hname := by
    rw [h.directives name]
    exact ha.fresh name hname

/-! ### The end of a server block -/

theorem closedServer_ok {s c : ServerConf} (h : closedServer s = .ok c) :
    requireDirectives s = .ok () ∧ c = s.close := by
  unfold closedServer at h
  cases hr : requireDirectives s with
  | error r =>
    rw [hr, error_bind] at h
    cases h
  | ok _ =>
    cases hv : validateLocations s.close.locations with
    | error r =>
      rw [hr, hv, ok_bind, error_bind] at h
      cases h
    | ok _ =>
      cases hp : verifyingPaths [] s.close.locations with
      | error r =>
        rw [hr, hv, hp, ok_bind, ok_bind, error_bind] at h
        cases h
      | ok _ =>
        rw [hr, hv, hp] at h
        exact ⟨rfl, (Except.ok.inj h).symm⟩

/-- The checks look at what the server has behind the second pass. -/
theorem closedServer_congr {s s' : ServerConf} (h : s'.close = s.close) :
    closedServer s' = closedServer s := by
  have hsame : ∀ s : ServerConf, closedServer s = (do
      requireDirectives s.close
      validateLocations s.close.locations
      verifyingPaths [] s.close.locations
      .ok s.close) := fun _ => rfl
  rw [hsame, hsame, h]

/-- A server needs an index file. -/
theorem indexFiles_of_requireDirectives {s : ServerConf} (h : requireDirectives s = .ok ()) :
    s.indexFiles ≠ [] := by
  intro hnil
  unfold requireDirectives at h
  split at h
  · cases h
  · split at h
    · cases h
    · rw [if_pos (List.isEmpty_iff.mpr hnil)] at h
      cases h

/-- The server of the http block with some statements, at its closing brace. -/
def serverAt (sz : Bytes → ℤ) (http : HttpConf) (block : List Statement) : ServerConf :=
  { (ServerConf.ofHttp http).after sz (directivesOf block) with
    locations := locationsFrom sz (.ofHttp http) block }

theorem settings_serverAt (http : HttpConf) (block : List Statement) :
    (serverAt sz http block).settings = finalSettings sz http (directivesOf block) := rfl

/-- The statements of a block, if they are accepted. -/
theorem serverBlock_eq {http : HttpConf} {block : List Statement} (h : Accepts sz [] block) :
    serverBlock sz (.ofHttp http) block = closedServer (serverAt sz http block) := by
  unfold serverBlock
  rcases foldlM_serverStatement sz block (.ofHttp http) [] with ⟨-, seen, hok⟩ | ⟨hn, -⟩
  · rw [hok]
    rfl
  · exact absurd h hn

theorem accepts_of_serverBlock {http : HttpConf} {block : List Statement} {c : ServerConf}
    (h : serverBlock sz (.ofHttp http) block = .ok c) : Accepts sz [] block := by
  unfold serverBlock at h
  rcases foldlM_serverStatement sz block (.ofHttp http) [] with ⟨ha, -⟩ | ⟨-, r, hr⟩
  · exact ha
  · rw [hr, error_bind] at h
    cases h

/-- What an accepted block has once. -/
theorem Accepts.once {block : List Statement} (h : Accepts sz [] block) :
    ∀ name ∈ serverUnique, (withName name (directivesOf block)).length ≤ 1 :=
  fun name hname => h.fresh name hname

/-- An `error_page` that is accepted sets some page. -/
theorem Accepts.pageUpdates_ne_nil {block : List Statement} (h : Accepts sz [] block) :
    ∀ e ∈ withName (ascii "error_page") (directivesOf block), pageUpdates e ≠ [] := by
  intro e he
  obtain ⟨hmem, hname⟩ := mem_withName.mp he
  have hok := h.directives e hmem (.ofHttp ⟨0, ∅, []⟩)
  obtain ⟨name, values⟩ := e
  subst hname
  have hvalues : values ≠ [] := values_of_serverDirective values hok
  have hne : ¬ values.isEmpty = true := mt List.isEmpty_iff.mp hvalues
  simp +decide only [serverDirective, hne, if_true, if_false] at hok
  rcases errorPageDirective_alike (serverReport "'error_page needs at least a code and a path'")
    (serverReport "'Invalid error code'") ⟨ascii "error_page", values⟩ with
    ⟨r, hr⟩ | ⟨_, ⟨hupdates, -⟩, -⟩
  · have herror : errorPageDirective _ _ (ServerConf.ofHttp ⟨0, ∅, []⟩).errorPage values =
        .error r := hr _
    rw [herror, error_bind] at hok
    cases hok
  · exact hupdates

/-! ### The locations of a block -/

/-- The second pass looks at the settings of the server. -/
theorem locations_close {s c : ServerConf} (h : s.settings = c.settings) :
    s.close.locations = s.locations.map (LocationConf.inherit c) := by
  refine List.map_congr_left fun l _ => ?_
  rw [inherit_eq, inherit_eq, h]

variable {http : HttpConf} {block block' : List Statement} {c : ServerConf}

/-- **Another order makes the same server** if it makes the same locations. -/
theorem Reorders.serverBlock_iff (h : Reorders block block')
    (hok : serverBlock sz (.ofHttp http) block = .ok c) :
    serverBlock sz (.ofHttp http) block' = .ok c ↔
      (locationsFrom sz (.ofHttp http) block').map (LocationConf.inherit c) =
        (locationsFrom sz (.ofHttp http) block).map (LocationConf.inherit c) := by
  have ha := accepts_of_serverBlock hok
  rw [serverBlock_eq ha] at hok
  rw [serverBlock_eq (h.accepts ha)]
  have hc := (closedServer_ok hok).2
  have hafter : (ServerConf.ofHttp http).after sz (directivesOf block') =
      (ServerConf.ofHttp http).after sz (directivesOf block) := after_congr h.directives _
  have hsettings : (serverAt sz http block).settings = c.settings := by
    rw [hc]
    rfl
  have hsettings' : (serverAt sz http block').settings = c.settings := by
    rw [← hsettings, settings_serverAt, settings_serverAt, finalSettings, hafter]
    rfl
  have hlocations := locations_close hsettings
  have hlocations' := locations_close hsettings'
  constructor
  · intro hok'
    have hc' := (closedServer_ok hok').2
    change (serverAt sz http block').locations.map _ = (serverAt sz http block).locations.map _
    rw [← hlocations, ← hlocations', ← hc, ← hc']
  · intro hsame
    have hclose : (serverAt sz http block').close = (serverAt sz http block).close := by
      change { (ServerConf.ofHttp http).after sz (directivesOf block') with
          locations := (serverAt sz http block').close.locations } =
        { (ServerConf.ofHttp http).after sz (directivesOf block) with
          locations := (serverAt sz http block).close.locations }
      rw [hafter, hlocations, hlocations']
      exact congrArg (fun ls => { (ServerConf.ofHttp http).after sz (directivesOf block) with
        locations := ls }) hsame
    rw [closedServer_congr hclose, hok]

/-- **Settled locations end up the same** wherever the directives stand; `pre` is what has been in
front of the block. -/
theorem map_inherit_locationsFrom {ds : List Directive}
    (hc : c.settings = finalSettings sz http ds)
    (honce : ∀ name ∈ serverUnique, (withName name ds).length ≤ 1)
    (hes : ∀ e ∈ withName (ascii "error_page") ds, pageUpdates e ≠ [])
    (hset : ∀ p ∈ locationsOf block, SettledAt sz http ds (ownOf sz p.2)) (pre : List Directive)
    (hsplit : SameByName ds (pre ++ directivesOf block)) :
    (locationsFrom sz ((ServerConf.ofHttp http).after sz pre) block).map (LocationConf.inherit c) =
      (locationsOf block).map fun p =>
        (locationFrom sz p.1 p.2 (finalSettings sz http [])).inherit c := by
  induction block generalizing pre with
  | nil => rfl
  | cons st block ih =>
    cases st with
    | directive d =>
      rw [locationsFrom, ServerConf.after_append]
      refine ih hset (pre ++ [d]) ?_
      rw [List.append_assoc]
      exact hsplit
    | location path body =>
      obtain ⟨hhead, hrest⟩ := List.forall_mem_cons.mp hset
      rw [locationsFrom, List.map_cons, ih hrest pre hsplit]
      refine congrArg (· :: _) ((inherit_locationFrom_eq_iff c path body _ _).mpr ?_)
      rw [hc]
      exact hhead.settle_eq hsplit honce hes

theorem locationsFrom_directives (ds : List Directive) (block : List Statement) (s : ServerConf) :
    locationsFrom sz s (ds.map .directive ++ block) = locationsFrom sz (s.after sz ds) block := by
  induction ds generalizing s with
  | nil => rw [ServerConf.after_nil]; rfl
  | cons d ds ih =>
    rw [List.map_cons, List.cons_append, locationsFrom, ih, ServerConf.after_append]
    rfl

theorem locationsFrom_locations_append (ls : List (Bytes × List Directive)) (s : ServerConf)
    (ds : List Directive) :
    locationsFrom sz s (ls.map (fun p => .location p.1 p.2) ++ ds.map .directive) =
      ls.map fun p => locationFrom sz p.1 p.2 s.settings := by
  induction ls with
  | nil =>
    rw [List.map_nil, List.nil_append, ← List.append_nil (ds.map _), locationsFrom_directives]
    rfl
  | cons p ls ih =>
    rw [List.map_cons, List.cons_append, locationsFrom, ih]
    rfl

/-- The locations that stand together have the settings of one point. -/
theorem locationsFrom_gathered (pre post : List Directive) (ls : List (Bytes × List Directive)) :
    locationsFrom sz (.ofHttp http) (gathered pre post ls) =
      ls.map fun p => locationFrom sz p.1 p.2 (finalSettings sz http pre) := by
  rw [gathered, locationsFrom_directives, locationsFrom_locations_append]
  rfl

/-! ### The parser -/

/-- **When the order of the statements does not matter.**  The server of an accepted block is that
of all its reorderings, wherever these stand in a vector of tokens, if and only if each location is
settled. -/
theorem parsServer_reorder_iff (sz : Bytes → ℤ) (http : HttpConf) (block : List Statement)
    (front back : List Lexer) (c : ServerConf) (n : ℕ)
    (hok : parsServer sz (.ofHttp http) (front ++ serverTokens block ++ back) front.length =
      .ok (c, n)) :
    (∀ block', Reorders block block' → ∀ front' back',
        parsServer sz (.ofHttp http) (front' ++ serverTokens block' ++ back') front'.length =
          .ok (c, front'.length + (serverTokens block').length)) ↔
      ∀ p ∈ locationsOf block, SettledAt sz http (directivesOf block) (ownOf sz p.2) := by
  have hparser : ∀ (block' : List Statement) (front' back' : List Lexer),
      parsServer sz (.ofHttp http) (front' ++ serverTokens block' ++ back') front'.length =
        atCursor (front'.length + (serverTokens block').length)
          (serverBlock sz (.ofHttp http) block') := fun block' front' back' =>
    parsServer_eq (Span.between front' _ back') _
  rw [hparser] at hok
  have hblock := (atCursor_eq_ok_iff.mp hok).1
  have ha := accepts_of_serverBlock hblock
  have hclosed := closedServer_ok ((serverBlock_eq ha).symm.trans hblock)
  have hc : c.settings = finalSettings sz http (directivesOf block) := by
    rw [hclosed.2]
    rfl
  have hindex := indexFiles_of_requireDirectives hclosed.1
  constructor
  · intro h p hp
    refine settledAt_of_settle_eq (fun pre post hsplit => ?_) hindex ha.pageUpdates_ne_nil
    -- all the locations behind `pre`, and all of them in front of the directives
    have hends : ∀ pre post : List Directive, directivesOf block = pre ++ post →
        (locationsFrom sz (.ofHttp http) (gathered pre post (locationsOf block))).map
            (LocationConf.inherit c) =
          (locationsFrom sz (.ofHttp http) block).map (LocationConf.inherit c) := by
      intro pre post hsplit
      have hre := reorders_gathered hsplit
      have hgathered := h _ hre [] []
      rw [hparser] at hgathered
      exact (hre.serverBlock_iff hblock).mp (atCursor_eq_ok_iff.mp hgathered).1
    have hsame := (hends pre post hsplit).trans (hends [] (directivesOf block) rfl).symm
    rw [locationsFrom_gathered, locationsFrom_gathered, List.map_map, List.map_map] at hsame
    have hlocation := List.map_inj_left.mp hsame p hp
    rw [← hc]
    exact (inherit_locationFrom_eq_iff c p.1 p.2 _ _).mp hlocation
  · intro h block' hre front' back'
    rw [hparser, (hre.serverBlock_iff hblock).mpr]
    · rfl
    have hends : ∀ b, locationsOf b = locationsOf block →
        SameByName (directivesOf block) (directivesOf b) →
        (locationsFrom sz (.ofHttp http) b).map (LocationConf.inherit c) =
          (locationsOf block).map fun p =>
            (locationFrom sz p.1 p.2 (finalSettings sz http [])).inherit c := by
      intro b hlocations hsame
      have hrun := map_inherit_locationsFrom hc ha.once ha.pageUpdates_ne_nil (hlocations ▸ h) []
        hsame
      rwa [ServerConf.after_nil, hlocations] at hrun
    rw [hends block' hre.locations hre.directives, hends block rfl fun _ => rfl]

/-- A directive with some words. -/
def Directive.of (name : String) (values : List String) : Directive :=
  ⟨ascii name, values.map ascii⟩

/-- What a server needs, except for an index. -/
def neededDirectives : List Statement :=
  [.directive (.of "listen" ["8080"]), .directive (.of "root" ["/w"]),
    .directive (.of "timeout" ["30"])]

/-- A location that takes over its index files. -/
def listedLocation : Statement := .location (ascii "/") [.of "autoindex" ["on"]]

/-- A server with one index file. -/
def oneIndex : List Statement :=
  neededDirectives ++ [.directive (.of "index" ["a.html"]), listedLocation]

theorem parsServer_reorder_oneIndex : ∃ c n,
    parsServer (fun _ => 0) (.ofHttp ⟨0, ∅, []⟩) ([] ++ serverTokens oneIndex ++ []) 0 =
        .ok (c, n) ∧
      ∀ block', Reorders oneIndex block' → ∀ front' back',
        parsServer (fun _ => 0) (.ofHttp ⟨0, ∅, []⟩) (front' ++ serverTokens block' ++ back')
          front'.length = .ok (c, front'.length + (serverTokens block').length) := by
  have hsome : (parsServer (fun _ => 0) (.ofHttp ⟨0, ∅, []⟩) ([] ++ serverTokens oneIndex ++ [])
      0).toOption.isSome = true := by decide +kernel
  cases hok : parsServer (fun _ => 0) (.ofHttp ⟨0, ∅, []⟩) ([] ++ serverTokens oneIndex ++ []) 0
    with
  | error e =>
    rw [hok] at hsome
    cases hsome
  | ok x =>
    refine ⟨x.1, x.2, rfl, (parsServer_reorder_iff (fun _ => 0) ⟨0, ∅, []⟩ oneIndex [] [] x.1 x.2
      hok).mpr fun p hp => ?_⟩
    have hone : p = (ascii "/", [.of "autoindex" ["on"]]) := List.mem_singleton.mp hp
    subst hone
    refine ⟨.inl ⟨ascii "a.html", by decide⟩, .inl rfl, ?_⟩
    rw [PagesSettled, if_pos ⟨rfl, rfl⟩]
    intro e he
    cases he

/-- Two index files in front of the location. -/
def indexAhead : List Statement :=
  neededDirectives ++ [.directive (.of "index" ["a.html", "b.html"]), listedLocation]

/-- Two index files behind the location. -/
def indexBehind : List Statement :=
  neededDirectives ++ [listedLocation, .directive (.of "index" ["a.html", "b.html"])]

/-- Behind the `index` the location has both files, in front of it only the first one. -/
theorem not_parsServer_reorder :
    ¬ ∀ (sz : Bytes → ℤ) (http : HttpConf) (block block' : List Statement) (c : ServerConf)
        (n : ℕ), Reorders block block' →
      parsServer sz (.ofHttp http) (serverTokens block) 0 = .ok (c, n) →
        parsServer sz (.ofHttp http) (serverTokens block') 0 = .ok (c, n) := by
  intro h
  have hre : Reorders indexAhead indexBehind :=
    ⟨(List.Perm.swap _ _ []).append_left neededDirectives, rfl, fun _ => rfl⟩
  have hahead : (parsServer (fun _ => 0) (.ofHttp ⟨0, ∅, []⟩) (serverTokens indexAhead)
      0).toOption.map (fun x => x.1.locations.map (·.indexFiles)) =
        some [[ascii "a.html", ascii "b.html"]] := by decide +kernel
  have hbehind : (parsServer (fun _ => 0) (.ofHttp ⟨0, ∅, []⟩) (serverTokens indexBehind)
      0).toOption.map (fun x => x.1.locations.map (·.indexFiles)) =
        some [[ascii "a.html"]] := by decide +kernel
  cases hok : parsServer (fun _ => 0) (.ofHttp ⟨0, ∅, []⟩) (serverTokens indexAhead) 0 with
  | error e =>
    rw [hok] at hahead
    cases hahead
  | ok x =>
    rw [h _ _ _ _ x.1 x.2 hre hok, ← hok, hahead] at hbehind
    cases hbehind

end Webserv
