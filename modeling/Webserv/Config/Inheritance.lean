import Webserv.Config.Blocks
import Webserv.Lib.Updates

/-!
# What a location takes over from its server

A location begins with the settings that its server has at that point, and sets some of them
itself.  A directive sets what it sets wherever it stands, and whether it is accepted does not
depend on what has been set before.

## Main results

* `serverDirective_alike`, `locationDirective_alike` — what a directive sets.
* `locationOf_alike` — a location is its own settings over those of its server.
* `foldlM_serverStatement` — **the server of a list of statements**.
-/

namespace Webserv

open Bytes Updates

/-! ### Settings -/

/-- What a location has of its server. -/
structure Settings where
  root : Bytes
  indexFiles : List Bytes
  clientMaxBodySize : ℤ
  errorPage : ErrorPages

/-- What a server hands down. -/
def ServerConf.settings (s : ServerConf) : Settings :=
  ⟨s.root, s.indexFiles, s.clientMaxBodySize, s.errorPage⟩

namespace LocationConf

/-- What a location has of it. -/
def settings (l : LocationConf) : Settings :=
  ⟨l.root, l.indexFiles, l.clientMaxBodySize, l.errorPage⟩

/-- A location with other settings. -/
def withSettings (l : LocationConf) (v : Settings) : LocationConf :=
  { l with
    root := v.root
    indexFiles := v.indexFiles
    clientMaxBodySize := v.clientMaxBodySize
    errorPage := v.errorPage }

/-- A location of a server without settings. -/
def blank : LocationConf := .ofServer (.ofHttp ⟨0, ∅, []⟩)

@[simp] theorem withSettings_withSettings (l : LocationConf) (v w : Settings) :
    (l.withSettings v).withSettings w = l.withSettings w := rfl

@[simp] theorem settings_withSettings (l : LocationConf) (v : Settings) :
    (l.withSettings v).settings = v := rfl

theorem checkForAllowedMethods_withSettings (l : LocationConf) (v : Settings) :
    (l.withSettings v).checkForAllowedMethods = l.checkForAllowedMethods.withSettings v := by
  unfold checkForAllowedMethods
  split
  · next h =>
    rw [if_pos (show l.allowedMethods.isEmpty = true from h)]
    rfl
  · next h => rw [if_neg (show ¬ l.allowedMethods.isEmpty = true from h)]

end LocationConf

/-! ### Directives by name -/

/-- The directives of one name. -/
def withName (name : Bytes) (ds : List Directive) : List Directive := ds.filter (·.name = name)

theorem withName_append (name : Bytes) (a b : List Directive) :
    withName name (a ++ b) = withName name a ++ withName name b := List.filter_append a b

theorem withName_cons (name : Bytes) (d : Directive) (ds : List Directive) :
    withName name (d :: ds) = withName name [d] ++ withName name ds := withName_append name [d] ds

theorem withName_self (d : Directive) : withName d.name [d] = [d] :=
  List.filter_cons_of_pos (decide_eq_true rfl)

theorem withName_of_ne {name : Bytes} {d : Directive} (h : d.name ≠ name) :
    withName name [d] = [] :=
  List.filter_cons_of_neg (by simpa using h)

theorem mem_withName {name : Bytes} {d : Directive} {ds : List Directive} :
    d ∈ withName name ds ↔ d ∈ ds ∧ d.name = name := by
  rw [withName, List.mem_filter, decide_eq_true_eq]

/-- What `f` makes of the value of the last directive of a name. -/
def lastValue {α : Type} (name : String) (f : Bytes → Option α) (ds : List Directive) : Option α :=
  ((withName (ascii name) ds).filterMap fun d => d.values.head?.bind f).getLast?

theorem lastValue_append {α : Type} (name : String) (f : Bytes → Option α)
    (a b : List Directive) :
    lastValue name f (a ++ b) = (lastValue name f b).or (lastValue name f a) := by
  rw [lastValue, withName_append, List.filterMap_append, List.getLast?_append]
  rfl

/-- What `error_page` sets: each code is set to the page that stands last. -/
def pageUpdates (d : Directive) : List (ℤ × Bytes) :=
  d.values.dropLast.map fun c => ((safeStrtol c).elim 0 toInt, d.values.getLastD [])

/-- The error pages that some directives set. -/
def pagesOf (ds : List Directive) : List (ℤ × Bytes) :=
  (withName (ascii "error_page") ds).flatMap pageUpdates

/-- The host and the port of `listen`. -/
def listenOf (v : Bytes) : Option (Bytes × ℤ) :=
  (listenDirective (.ofHttp ⟨0, ∅, []⟩) v).toOption.map fun s => (s.host, s.port)

/-- A server behind some directives. -/
def ServerConf.after (sz : Bytes → ℤ) (s : ServerConf) (ds : List Directive) : ServerConf :=
  { s with
    host := (lastValue "listen" listenOf ds).elim s.host (·.1)
    port := (lastValue "listen" listenOf ds).elim s.port (·.2)
    timeoutSeconds :=
      (lastValue "timeout" (fun v => (safeStrtol v).map toInt) ds).getD s.timeoutSeconds
    root := (lastValue "root" some ds).getD s.root
    clientMaxBodySize :=
      (lastValue "client_max_body_size" (fun v => some (sz v)) ds).getD s.clientMaxBodySize
    indexFiles := s.indexFiles ++ (withName (ascii "index") ds).flatMap (·.values)
    serverName := (lastValue "server_name" some ds).getD s.serverName
    errorPage := setAll s.errorPage (pagesOf ds) }

/-- Directives that are put together. -/
theorem ServerConf.after_append (sz : Bytes → ℤ) (s : ServerConf) (a b : List Directive) :
    (s.after sz a).after sz b = s.after sz (a ++ b) := by
  have helim : ∀ {α β : Type} (x y : Option α) (f : α → β) (z : β),
      x.elim (y.elim z f) f = (x.or y).elim z f := by
    intro α β x y f z
    cases x <;> rfl
  simp only [after, lastValue_append, pagesOf, withName_append, List.flatMap_append, setAll_append,
    Option.getD_or, List.append_assoc, helim]

/-- What the directives of a location set of the settings. -/
structure Own where
  root : Option Bytes
  indexFiles : Option (List Bytes)
  clientMaxBodySize : Option ℤ
  errorPage : List (ℤ × Bytes)

/-- What the directives of a block set. -/
def ownOf (sz : Bytes → ℤ) (ds : List Directive) : Own where
  root := lastValue "root" some ds
  indexFiles := ((withName (ascii "index") ds).map (·.values)).getLast?
  clientMaxBodySize := lastValue "client_max_body_size" (fun v => some (sz v)) ds
  errorPage := pagesOf ds

/-- A location's own settings, and the others. -/
def Own.over (o : Own) (v : Settings) : Settings where
  root := o.root.getD v.root
  indexFiles := o.indexFiles.getD v.indexFiles
  clientMaxBodySize := o.clientMaxBodySize.getD v.clientMaxBodySize
  errorPage := setAll v.errorPage o.errorPage

/-- Directives that are put together. -/
theorem ownOf_append (sz : Bytes → ℤ) (a b : List Directive) (v : Settings) :
    (ownOf sz (a ++ b)).over v = (ownOf sz b).over ((ownOf sz a).over v) := by
  simp only [ownOf, Own.over, lastValue_append, pagesOf, withName_append, List.map_append,
    List.getLast?_append, List.flatMap_append, setAll_append, Option.getD_or]

/-! ### What is decided for all arguments alike -/

theorem ok_bind {σ τ : Type} (a : σ) (f : σ → Except Report τ) : (Except.ok a >>= f) = f a := rfl

theorem error_bind {σ τ : Type} (r : Report) (f : σ → Except Report τ) :
    (Except.error r >>= f) = .error r := rfl

/-- A function that refuses every argument with one report, or takes every one, as a function that
`G` holds of does. -/
def Alike {σ τ : Type} (G : (σ → τ) → Prop) (f : σ → Except Report τ) : Prop :=
  (∃ r, ∀ s, f s = .error r) ∨ ∃ g, G g ∧ ∀ s, f s = .ok (g s)

namespace Alike

variable {σ τ α β : Type} {G : (σ → τ) → Prop} {H : (α → β) → Prop}

theorem error (r : Report) : Alike G fun _ => .error r := .inl ⟨r, fun _ => rfl⟩

theorem ok {g : σ → τ} (hg : G g) : Alike G fun s => .ok (g s) := .inr ⟨g, hg, fun _ => rfl⟩

/-- A check that does not look at the argument. -/
theorem check (c : Except Report α) {f : α → σ → Except Report τ}
    (h : ∀ a, c = .ok a → Alike G (f a)) : Alike G fun s => c >>= fun a => f a s := by
  cases hc : c with
  | error r => exact error r
  | ok a => exact h a hc

theorem ite {p : Prop} [Decidable p] {f f' : σ → Except Report τ} (ht : p → Alike G f)
    (hf : ¬ p → Alike G f') : Alike G fun s => if p then f s else f' s := by
  by_cases hp : p
  · simpa only [if_pos hp] using ht hp
  · simpa only [if_neg hp] using hf hp

/-- A step that looks at a part of the argument, and what is done behind it. -/
theorem bind {f : α → Except Report β} {k : σ → β → Except Report τ} (h : Alike H f)
    (get : σ → α) (hk : ∀ g, H g → Alike G fun s => k s (g (get s))) :
    Alike G fun s => f (get s) >>= k s := by
  rcases h with ⟨r, hr⟩ | ⟨g, hg, hok⟩
  · refine .inl ⟨r, fun s => ?_⟩
    dsimp only
    rw [hr, error_bind]
  · have hstep : (fun s => f (get s) >>= k s) = fun s => k s (g (get s)) := by
      funext s
      rw [hok, ok_bind]
    rw [hstep]
    exact hk g hg

theorem comp {f : α → Except Report β} (h : Alike H f) (get : σ → α) {G : (σ → β) → Prop}
    (hg : ∀ g, H g → G fun s => g (get s)) : Alike G fun s => f (get s) := by
  rcases h with ⟨r, hr⟩ | ⟨g, hH, hok⟩
  · exact .inl ⟨r, fun s => hr _⟩
  · exact .inr ⟨_, hg g hH, fun s => hok _⟩

end Alike

/-! ### One directive -/

/-- A number that is read is the one of the string. -/
theorem numberIn_ok {lo hi x : ℤ} {bad range : Report} {v : Bytes}
    (h : numberIn lo hi bad range v = .ok x) : (safeStrtol v).map toInt = some x := by
  unfold numberIn at h
  split at h
  · cases h
  · next n hn =>
    rw [hn]
    unfold intInRange at h
    split at h
    · cases h
    · exact congrArg some (Except.ok.inj h)

theorem singleValue_ok {r : Report} {values : List Bytes} {v : Bytes}
    (h : singleValue r values = .ok v) : values = [v] := by
  unfold singleValue at h
  split at h
  · rw [Except.ok.inj h]
  · cases h

theorem bodySize_ok {sz : Bytes → ℤ} {r : Report} {v : Bytes} {size : ℤ}
    (h : bodySize sz r v = .ok size) : size = sz v := by
  unfold bodySize at h
  split at h
  · cases h
  · exact (Except.ok.inj h).symm

/-- `error_page` sets its updates, of which there are some. -/
theorem errorPageDirective_alike (few bad : Report) (d : Directive) :
    Alike (fun g => pageUpdates d ≠ [] ∧ g = (setAll · (pageUpdates d)))
      (errorPageDirective few bad · d.values) := by
  have hcodes : ∀ (path : Bytes) (codes : List Bytes),
      Alike (fun g => g = fun pages : ErrorPages =>
          setAll pages (codes.map fun c => ((safeStrtol c).elim 0 toInt, path)))
        fun pages => codes.foldlM
          (fun m v => (numberIn 300 599 bad bad v).map (m.insert · path)) pages := by
    intro path codes
    induction codes with
    | nil => exact .ok rfl
    | cons c codes ih =>
      simp only [List.foldlM_cons, List.map_cons, setAll_cons]
      cases hc : numberIn 300 599 bad bad c with
      | error r => exact .error r
      | ok x =>
        have hx : (safeStrtol c).elim 0 toInt = x := by
          obtain ⟨n, hn, rfl⟩ := Option.map_eq_some_iff.mp (numberIn_ok hc)
          rw [hn]
          rfl
        rw [hx]
        refine ih.comp (fun pages : ErrorPages => pages.insert x path) ?_
        rintro g rfl
        rfl
  refine .ite (fun _ => .error few) fun hlength => (hcodes _ _).comp id ?_
  rintro g rfl
  refine ⟨fun hnil => hlength ?_, rfl⟩
  have hzero := congrArg List.length hnil
  rw [pageUpdates, List.length_map, List.length_dropLast, List.length_nil] at hzero
  omega

/-- `index` of a server appends its values. -/
theorem serverIndex_alike (values : List Bytes) :
    Alike (fun g => g = fun files => files ++ values) (serverIndex · values) := by
  induction values with
  | nil =>
    refine .ok (funext fun files => ?_)
    rw [List.append_nil]
  | cons v values ih =>
    simp only [serverIndex, List.foldlM_cons] at ih ⊢
    cases hv : v.isEmpty with
    | true => exact .error _
    | false =>
      refine ih.comp (· ++ [v]) ?_
      rintro g rfl
      exact funext fun files => List.append_assoc files [v] values

/-- `listen` sets the host and the port. -/
theorem listenDirective_alike (v : Bytes) :
    Alike (fun g => ∃ host port, listenOf v = some (host, port) ∧
      g = fun s => { s with host, port }) (listenDirective · v) := by
  unfold listenOf
  refine .ite (fun hcolon => ?_) fun hcolon => ?_
  · simp only [listenDirective, if_pos hcolon]
    refine .check _ fun host hhost => .check _ fun port hport => .ok ⟨host, port, ?_, rfl⟩
    rw [hhost, hport]
    rfl
  · simp only [listenDirective, if_neg hcolon]
    cases safeStrtol v with
    | none =>
      dsimp only
      refine .ite (fun hhost => .ok ⟨v, 9090, ?_, rfl⟩) fun _ => .error _
      rw [if_pos hhost]
      rfl
    | some n =>
      dsimp only
      cases hport : intInRange 1 65535 portRange n with
      | error r => exact .error r
      | ok port => exact .ok ⟨_, port, rfl, rfl⟩

/-- **What a directive of a server sets**, wherever it stands. -/
theorem serverDirective_alike (sz : Bytes → ℤ) (d : Directive) :
    Alike (fun g => g = fun s => s.after sz [d]) (serverDirective sz · d.name d.values) := by
  obtain ⟨name, values⟩ := d
  -- one case for each name, and the refusals between them
  refine .ite (fun _ => .error _) fun hvalues => .ite ?listen fun _ => .ite ?root fun _ =>
    .ite ?index fun _ => .ite ?serverName fun _ => .ite ?size fun _ => .ite ?timeout fun _ =>
    .ite ?pages fun _ => .ite (fun _ => .error _) fun _ => .error _
  case listen =>
    rintro rfl
    refine .check _ fun v hv => (listenDirective_alike v).comp id ?_
    rintro g ⟨host, port, hlisten, rfl⟩
    obtain rfl := singleValue_ok hv
    simp +decide [ServerConf.after, lastValue, withName, pagesOf, hlisten]
  case root =>
    rintro rfl
    refine .check _ fun v hv => .ok ?_
    obtain rfl := singleValue_ok hv
    simp +decide [ServerConf.after, lastValue, withName, pagesOf]
  case index =>
    rintro rfl
    refine (serverIndex_alike values).bind ServerConf.indexFiles ?_
    rintro g rfl
    refine .ok ?_
    simp +decide [ServerConf.after, lastValue, withName, pagesOf]
  case serverName =>
    rintro rfl
    obtain ⟨v, values, rfl⟩ := List.exists_cons_of_ne_nil (mt List.isEmpty_iff.mpr hvalues)
    refine .ok ?_
    simp +decide [ServerConf.after, lastValue, withName, pagesOf]
  case size =>
    rintro rfl
    refine .check _ fun v hv => .check _ fun size hsize => .ok ?_
    obtain rfl := singleValue_ok hv
    obtain rfl := bodySize_ok hsize
    simp +decide [ServerConf.after, lastValue, withName, pagesOf]
  case timeout =>
    rintro rfl
    refine .check _ fun v hv => .check _ fun seconds hseconds => .ok ?_
    obtain rfl := singleValue_ok hv
    simp +decide [ServerConf.after, lastValue, withName, pagesOf, numberIn_ok hseconds]
  case pages =>
    rintro rfl
    refine (errorPageDirective_alike _ _ ⟨ascii "error_page", values⟩).bind ServerConf.errorPage ?_
    rintro g ⟨-, rfl⟩
    refine .ok ?_
    simp +decide [ServerConf.after, lastValue, withName, pagesOf]

theorem serverDirective_cases (sz : Bytes → ℤ) (d : Directive) :
    (∃ r, ∀ s, serverDirective sz s d.name d.values = .error r) ∨
      ∀ s, serverDirective sz s d.name d.values = .ok (s.after sz [d]) := by
  rcases serverDirective_alike sz d with hr | ⟨_, rfl, hd⟩
  · exact .inl hr
  · exact .inr hd

/-- The directives of a location that are about the settings. -/
def settingNames : List Bytes :=
  ["root", "index", "client_max_body_size", "error_page"].map ascii

/-- The other directives leave the settings alone. -/
theorem over_ownOf_of_notMem (sz : Bytes → ℤ) {d : Directive} (h : d.name ∉ settingNames) :
    (ownOf sz [d]).over = id := by
  funext v
  simp only [settingNames, List.map_cons, List.map_nil, List.mem_cons, List.not_mem_nil, or_false,
    not_or] at h
  obtain ⟨hroot, hindex, hsize, hpages⟩ := h
  simp only [ownOf, Own.over, lastValue, pagesOf, withName_of_ne hroot, withName_of_ne hindex,
    withName_of_ne hsize, withName_of_ne hpages]
  rfl

/-- A function that gives a location its own settings over others. -/
def Gives (o : Own) (g : Settings → LocationConf) : Prop :=
  ∃ l : LocationConf, g = fun v => l.withSettings (o.over v)

/-- A directive that is not about the settings. -/
theorem Gives.other {sz : Bytes → ℤ} {name : Bytes} {values : List Bytes}
    (h : name ∉ settingNames) (l : LocationConf) :
    Gives (ownOf sz [⟨name, values⟩]) l.withSettings := by
  refine ⟨l, ?_⟩
  rw [over_ownOf_of_notMem sz (d := ⟨name, values⟩) h]
  rfl

/-- **What a directive of a location sets**: some of the settings, or something else. -/
theorem locationDirective_alike (sz : Bytes → ℤ) (d : Directive) (l : LocationConf) :
    Alike (Gives (ownOf sz [d]))
      fun v => locationDirective sz (l.withSettings v) d.name d.values := by
  obtain ⟨name, values⟩ := d
  refine .ite (fun _ => .error _) fun _ => .ite ?root fun _ => .ite ?index fun _ =>
    .ite ?methods fun _ => .ite ?autoindex fun _ => .ite ?cgiPath fun _ => .ite ?cgiExt fun _ =>
    .ite ?upload fun _ => .ite ?size fun _ => .ite ?pages fun _ => .ite ?redirect fun _ => .error _
  case root =>
    rintro rfl
    refine .check _ fun v hv => .ok ⟨l, ?_⟩
    obtain rfl := singleValue_ok hv
    simp +decide [ownOf, Own.over, LocationConf.withSettings, lastValue, withName, pagesOf]
  case index =>
    rintro rfl
    refine .ok ⟨l, ?_⟩
    simp +decide [ownOf, Own.over, LocationConf.withSettings, lastValue, withName, pagesOf]
  case size =>
    rintro rfl
    refine .check _ fun v hv => .check _ fun size hsize => .ok ⟨l, ?_⟩
    obtain rfl := singleValue_ok hv
    obtain rfl := bodySize_ok hsize
    simp +decide [ownOf, Own.over, LocationConf.withSettings, lastValue, withName, pagesOf]
  case pages =>
    rintro rfl
    refine (errorPageDirective_alike _ _ ⟨ascii "error_page", values⟩).bind Settings.errorPage ?_
    rintro g ⟨-, rfl⟩
    refine .ok ⟨l, ?_⟩
    simp +decide [ownOf, Own.over, LocationConf.withSettings, lastValue, withName, pagesOf]
  -- what is left does not touch the settings
  case methods =>
    rintro rfl
    exact .check (allowedMethodsFrom [] l.allowedMethods values) fun methods _ =>
      .ok (.other (by decide) { l with allowedMethods := methods })
  case autoindex =>
    rintro rfl
    exact .check _ fun v _ =>
      .ite (fun _ => .ok (.other (by decide) { l with autoindex := true })) fun _ =>
      .ite (fun _ => .ok (.other (by decide) { l with autoindex := false })) fun _ => .error _
  case cgiPath =>
    rintro rfl
    exact .ok (.other (by decide) (l.setCgiPaths values))
  case cgiExt =>
    rintro rfl
    exact .ok (.other (by decide) (l.setCgiExtensions values))
  case upload =>
    rintro rfl
    exact .check _ fun v _ => .ok (.other (by decide) { l with upload := v })
  case redirect =>
    rintro rfl
    rcases values with _ | ⟨code, _ | ⟨url, _ | ⟨v, values⟩⟩⟩
    · exact .error _
    · exact .error _
    · simp only [returnDirective]
      cases numberIn 300 399 (locationReport "'Invalid return code'")
        (locationReport "'Invalid return code: must be 3xx'") code with
      | error r => exact .error r
      | ok x => exact .ok (.other (by decide) (l.setReturnRedirection x url))
    · exact .error _

/-! ### Locations -/

/-- The directives of a location, one after the other. -/
theorem foldlM_locationStatement (sz : Bytes → ℤ) (body : List Directive) (l : LocationConf)
    (seen : List Bytes) :
    Alike (fun g => Gives (ownOf sz body) fun v => (g v).1)
      fun v => body.foldlM (locationStatement sz) (l.withSettings v, seen) := by
  induction body generalizing l seen with
  | nil => exact .ok ⟨l, rfl⟩
  | cons d body ih =>
    simp only [List.foldlM_cons, locationStatement, bind_assoc, ok_bind]
    refine .check _ fun seen' _ => (locationDirective_alike sz d l).bind id ?_
    rintro g ⟨l', rfl⟩
    refine (ih l' seen').comp (ownOf sz [d]).over ?_
    rintro g ⟨l'', hg⟩
    refine ⟨l'', funext fun v => ?_⟩
    exact (congrFun hg _).trans (congrArg l''.withSettings (ownOf_append sz [d] body v).symm)

/-- **A location is its own settings over those of its server.** -/
theorem locationOf_alike (sz : Bytes → ℤ) (path : Bytes) (body : List Directive) :
    Alike (fun g => ∃ h, Gives (ownOf sz body) h ∧ g = fun s => h s.settings)
      fun s => locationOf sz (.ofServer s) path body := by
  refine .check _ fun _ _ => (foldlM_locationStatement sz body
    { LocationConf.blank with path } []).bind ServerConf.settings ?_
  intro g hg
  exact .ok ⟨fun v => (g v).1, hg, rfl⟩

/-- What a location block makes of the settings of its server. -/
def locationFrom (sz : Bytes → ℤ) (path : Bytes) (body : List Directive) (v : Settings) :
    LocationConf :=
  (((locationOf sz .blank path body).toOption.getD .blank).withSettings
    ((ownOf sz body).over v)).checkForAllowedMethods

theorem locationOf_cases (sz : Bytes → ℤ) (path : Bytes) (body : List Directive) :
    (∃ r, ∀ s, locationOf sz (.ofServer s) path body = .error r) ∨
      ∀ s, ∃ l, locationOf sz (.ofServer s) path body = .ok l ∧
        l.checkForAllowedMethods = locationFrom sz path body s.settings := by
  rcases locationOf_alike sz path body with hr | ⟨_, ⟨_, ⟨l, rfl⟩, rfl⟩, hok⟩
  · exact .inl hr
  · refine .inr fun s => ⟨_, hok s, ?_⟩
    have hblank : locationOf sz .blank path body = _ := hok (.ofHttp ⟨0, ∅, []⟩)
    rw [locationFrom, hblank]
    rfl

/-! ### Servers -/

/-- The directives of a server block, without those of its locations. -/
def directivesOf (block : List Statement) : List Directive :=
  block.filterMap fun
    | .directive d => some d
    | .location _ _ => none

/-- The locations of a server block. -/
def locationsOf (block : List Statement) : List (Bytes × List Directive) :=
  block.filterMap fun
    | .directive _ => none
    | .location path body => some (path, body)

/-- The locations, each with the settings of the server at its point. -/
def locationsFrom (sz : Bytes → ℤ) (s : ServerConf) : List Statement → List LocationConf
  | [] => []
  | .directive d :: block => locationsFrom sz (s.after sz [d]) block
  | .location path body :: block =>
      locationFrom sz path body s.settings :: locationsFrom sz s block

/-- The names that a server block may still have once. -/
def Fresh (seen : List Bytes) (ds : List Directive) : Prop :=
  ∀ name ∈ serverUnique, (withName name ds).length ≤ if seen.contains name then 0 else 1

/-- What is accepted of a server block, which does not depend on the order. -/
structure Accepts (sz : Bytes → ℤ) (seen : List Bytes) (block : List Statement) : Prop where
  directives : ∀ d ∈ directivesOf block, ∀ s,
    serverDirective sz s d.name d.values = .ok (s.after sz [d])
  locations : ∀ p ∈ locationsOf block, ∀ s, ∃ l,
    locationOf sz (.ofServer s) p.1 p.2 = .ok l ∧
      l.checkForAllowedMethods = locationFrom sz p.1 p.2 s.settings
  fresh : Fresh seen (directivesOf block)

theorem withName_cons_length (name : Bytes) (d : Directive) (ds : List Directive) :
    (withName name (d :: ds)).length =
      (if d.name = name then 1 else 0) + (withName name ds).length := by
  rw [withName_cons, List.length_append]
  by_cases h : d.name = name
  · rw [if_pos h, ← h, withName_self]
    rfl
  · rw [if_neg h, withName_of_ne h]
    rfl

/-- **A name that has not been there** leaves the rest fresh, and another one is refused. -/
theorem seenOnce_cases (seen : List Bytes) (d : Directive) (ds : List Directive) :
    (∃ seen', seenOnce serverUnique "Duplicate directive in server" seen d.name = .ok seen' ∧
        (Fresh seen (d :: ds) ↔ Fresh seen' ds)) ∨
      ¬ Fresh seen (d :: ds) ∧
        ∃ r, seenOnce serverUnique "Duplicate directive in server" seen d.name = .error r := by
  unfold seenOnce
  split
  · next hunique =>
    have hmem : d.name ∈ serverUnique := List.contains_iff_mem.mp hunique
    split
    · next hseen =>
      refine .inr ⟨fun hfresh => ?_, _, rfl⟩
      have hzero := hfresh d.name hmem
      rw [if_pos hseen, withName_cons_length, if_pos rfl] at hzero
      omega
    · next hnew =>
      refine .inl ⟨_, rfl, forall₂_congr fun name hname => ?_⟩
      rw [withName_cons_length, List.contains_cons]
      by_cases h : d.name = name
      · subst h
        rw [if_pos rfl, if_neg hnew, beq_self_eq_true, Bool.true_or, if_pos rfl]
        omega
      · rw [if_neg h, beq_eq_false_iff_ne.mpr (Ne.symm h), Bool.false_or, Nat.zero_add]
  · next hother =>
    refine .inl ⟨seen, rfl, forall₂_congr fun name hname => ?_⟩
    have h : d.name ≠ name := by
      rintro rfl
      exact hother (List.contains_iff_mem.mpr hname)
    rw [withName_cons_length, if_neg h, Nat.zero_add]

theorem ServerConf.after_nil (sz : Bytes → ℤ) (s : ServerConf) : s.after sz [] = s := by
  rw [after]
  change { s with indexFiles := s.indexFiles ++ [] } = s
  rw [List.append_nil]

/-- The locations that a server has do not matter for the next ones. -/
theorem locationsFrom_locations (sz : Bytes → ℤ) (block : List Statement) (s : ServerConf)
    (ls : List LocationConf) :
    locationsFrom sz { s with locations := ls } block = locationsFrom sz s block := by
  induction block generalizing s with
  | nil => rfl
  | cons st block ih =>
    cases st with
    | directive d => exact ih (s.after sz [d])
    | location path body => exact congrArg (_ :: ·) (ih s)

theorem accepts_directive_iff {sz : Bytes → ℤ} {seen seen' : List Bytes} {d : Directive}
    {block : List Statement}
    (hfresh : Fresh seen (d :: directivesOf block) ↔ Fresh seen' (directivesOf block))
    (hd : ∀ s, serverDirective sz s d.name d.values = .ok (s.after sz [d])) :
    Accepts sz seen (.directive d :: block) ↔ Accepts sz seen' block := by
  constructor
  · intro h
    exact ⟨fun e he => h.directives e (List.mem_cons_of_mem d he), h.locations,
      hfresh.mp h.fresh⟩
  · intro h
    exact ⟨List.forall_mem_cons.mpr ⟨hd, h.directives⟩, h.locations, hfresh.mpr h.fresh⟩

theorem accepts_location_iff {sz : Bytes → ℤ} {seen : List Bytes} {path : Bytes}
    {body : List Directive} {block : List Statement}
    (hl : ∀ s, ∃ l, locationOf sz (.ofServer s) path body = .ok l ∧
      l.checkForAllowedMethods = locationFrom sz path body s.settings) :
    Accepts sz seen (.location path body :: block) ↔ Accepts sz seen block := by
  constructor
  · intro h
    exact ⟨h.directives, fun p hp => h.locations p (List.mem_cons_of_mem _ hp), h.fresh⟩
  · intro h
    exact ⟨h.directives, List.forall_mem_cons.mpr ⟨hl, h.locations⟩, h.fresh⟩

/-- **The statements in their order**: if they are accepted, they make a server. -/
theorem foldlM_serverStatement (sz : Bytes → ℤ) (block : List Statement) (s : ServerConf)
    (seen : List Bytes) :
    (Accepts sz seen block ∧ ∃ seen', block.foldlM (serverStatement sz) (s, seen) =
        .ok ({ s.after sz (directivesOf block) with
          locations := s.locations ++ locationsFrom sz s block }, seen')) ∨
      ¬ Accepts sz seen block ∧
        ∃ r, block.foldlM (serverStatement sz) (s, seen) = .error r := by
  induction block generalizing s seen with
  | nil =>
    have hnil : s.after sz (directivesOf []) = s := ServerConf.after_nil sz s
    refine .inl ⟨⟨by simp [directivesOf], by simp [locationsOf], fun _ _ => Nat.zero_le _⟩,
      seen, ?_⟩
    rw [hnil, locationsFrom, List.append_nil]
    rfl
  | cons st block ih =>
    rw [List.foldlM_cons]
    cases st with
    | directive d =>
      have hafter : s.after sz (directivesOf (.directive d :: block)) =
          (s.after sz [d]).after sz (directivesOf block) :=
        (ServerConf.after_append sz s [d] (directivesOf block)).symm
      rw [serverStatement]
      -- refused as a repetition, refused by its check, or it adds to what has been seen
      rcases seenOnce_cases seen d (directivesOf block) with
        ⟨seen', hseen, hfresh⟩ | ⟨hstale, r, hr⟩
      · rw [hseen, ok_bind]
        rcases serverDirective_cases sz d with ⟨r, hr⟩ | hd
        · refine .inr ⟨fun h => ?_, r, by rw [hr]; rfl⟩
          have hok := h.directives d List.mem_cons_self s
          rw [hr] at hok
          cases hok
        · rw [hd, ok_bind, ok_bind, accepts_directive_iff hfresh hd, hafter]
          exact ih (s.after sz [d]) seen'
      · exact .inr ⟨fun h => hstale h.fresh, r, by rw [hr]; rfl⟩
    | location path body =>
      rw [serverStatement]
      -- a location is made from what the server has been given so far
      rcases locationOf_cases sz path body with ⟨r, hr⟩ | hl
      · refine .inr ⟨fun h => ?_, r, by rw [hr]; rfl⟩
        obtain ⟨l, hok, -⟩ := h.locations (path, body) List.mem_cons_self s
        rw [hr] at hok
        cases hok
      · obtain ⟨l, hok, hmade⟩ := hl s
        rw [hok, ok_bind, ok_bind, accepts_location_iff hl, hmade]
        have hnext := ih { s with
          locations := s.locations ++ [locationFrom sz path body s.settings] } seen
        rw [locationsFrom_locations, List.append_assoc] at hnext
        exact hnext

end Webserv
