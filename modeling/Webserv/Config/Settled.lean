import Webserv.Config.ErrorPages

/-!
# The point of a location among the directives of its server

A location copies the settings of its server at its point, and a second pass fills in what looks
unset.  The point never matters for the root; it matters for the other settings when the copy
differs from what the second pass would fill in.

## Main results

* `after_congr` — what a server ends with depends on the directives of each name.
* `SettledAt.settle_eq` — **a settled location ends up the same at every point.**
* `settledAt_of_settle_eq` — and one that does is settled.
-/

namespace Webserv

open Bytes Updates Cursor

variable {sz : Bytes → ℤ}

/-! ### The second pass -/

/-- The settings of a location after the second pass, where the server ends with `final`. -/
def settle (final v : Settings) : Settings where
  root := if v.root.isEmpty then final.root else v.root
  indexFiles := if v.indexFiles.isEmpty then [final.indexFiles.headD []] else v.indexFiles
  clientMaxBodySize :=
    if v.clientMaxBodySize = 0 then final.clientMaxBodySize else v.clientMaxBodySize
  errorPage := settlePages final.errorPage v.errorPage

theorem inherit_eq (s : ServerConf) (l : LocationConf) :
    l.inherit s = l.withSettings (settle s.settings l.settings) := by
  have hpages : (if l.errorPage.isEmpty then
      s.errorPage.foldl (fun m c page => m.insert c page) l.errorPage else l.errorPage) =
        settlePages s.errorPage l.errorPage := by
    unfold settlePages
    split
    · next hempty =>
      rw [Std.ExtTreeMap.isEmpty_iff.mp hempty, Std.ExtTreeMap.foldl_eq_foldl_toList]
      exact setAll_toList s.errorPage
    · rfl
  rw [LocationConf.inherit, hpages]
  rfl

/-- A location after the second pass. -/
theorem inherit_locationFrom (s : ServerConf) (path : Bytes) (body : List Directive)
    (v : Settings) :
    (locationFrom sz path body v).inherit s =
      (locationFrom sz path body v).withSettings
        (settle s.settings ((ownOf sz body).over v)) := by
  rw [inherit_eq, locationFrom, LocationConf.checkForAllowedMethods_withSettings,
    LocationConf.settings_withSettings]

/-- Two points at which a location ends up the same. -/
theorem inherit_locationFrom_eq_iff (s : ServerConf) (path : Bytes) (body : List Directive)
    (v w : Settings) :
    (locationFrom sz path body v).inherit s = (locationFrom sz path body w).inherit s ↔
      settle s.settings ((ownOf sz body).over v) = settle s.settings ((ownOf sz body).over w) := by
  rw [inherit_locationFrom, inherit_locationFrom]
  constructor
  · intro h
    exact congrArg LocationConf.settings h
  · intro h
    rw [h, locationFrom, locationFrom, LocationConf.checkForAllowedMethods_withSettings,
      LocationConf.checkForAllowedMethods_withSettings, LocationConf.withSettings_withSettings,
      LocationConf.withSettings_withSettings]

/-! ### Points -/

/-- The directives of `b` are those of `a` with other names between them. -/
def SameByName (a b : List Directive) : Prop := ∀ name, withName name b = withName name a

/-- **What a server ends with depends on the directives of each name.** -/
theorem after_congr {a b : List Directive} (h : SameByName a b) (s : ServerConf) :
    s.after sz b = s.after sz a := by
  have hname : ∀ name, withName name b = withName name a := h
  unfold ServerConf.after lastValue pagesOf
  simp only [hname]

/-! ### The settings one by one -/

/-- The root does not depend on the point. -/
theorem root_settles (o : Option Bytes) {final x : Bytes} (hx : x = [] ∨ x = final) :
    (if (o.getD x).isEmpty then final else o.getD x) =
      if (o.getD []).isEmpty then final else o.getD [] := by
  cases o with
  | some own => rfl
  | none =>
    rcases hx with rfl | rfl
    · rfl
    · exact ite_self x

/-- The index files, which are the first one or all of them. -/
theorem index_settles (o : Option (List Bytes)) {final x : List Bytes} (hx : x = [] ∨ x = final)
    (h : (∃ f, final = [f]) ∨ o ≠ none) :
    (if (o.getD x).isEmpty then [final.headD []] else o.getD x) =
      if (o.getD []).isEmpty then [final.headD []] else o.getD [] := by
  cases o with
  | some own => rfl
  | none =>
    rcases hx with rfl | rfl
    · rfl
    · obtain ⟨f, rfl⟩ := h.resolve_right (fun hne => hne rfl)
      rfl

theorem index_of_settles (o : Option (List Bytes)) {final : List Bytes} (hfinal : final ≠ [])
    (h : (if (o.getD final).isEmpty then [final.headD []] else o.getD final) =
      if (o.getD []).isEmpty then [final.headD []] else o.getD []) :
    (∃ f, final = [f]) ∨ o ≠ none := by
  cases o with
  | some own => exact .inr (Option.some_ne_none own)
  | none =>
    rw [Option.getD_none, Option.getD_none, if_neg (by simpa using hfinal),
      if_pos List.isEmpty_nil] at h
    exact .inl ⟨_, h⟩

/-- The limit, which is that of the http block or that of the server. -/
theorem size_settles (o : Option ℤ) {http final x : ℤ} (hx : x = http ∨ x = final)
    (h : http = 0 ∨ final = http ∨ o ≠ none) :
    (if o.getD x = 0 then final else o.getD x) =
      if o.getD http = 0 then final else o.getD http := by
  cases o with
  | some own => rfl
  | none =>
    rcases hx with rfl | rfl
    · rfl
    · rw [Option.getD_none, Option.getD_none, ite_self]
      rcases h with h | h | h
      · rw [if_pos h]
      · rw [h, ite_self]
      · exact absurd rfl h

theorem size_of_settles (o : Option ℤ) {http final : ℤ}
    (h : (if o.getD final = 0 then final else o.getD final) =
      if o.getD http = 0 then final else o.getD http) : http = 0 ∨ final = http ∨ o ≠ none := by
  cases o with
  | some own => exact .inr (.inr (Option.some_ne_none own))
  | none =>
    rw [Option.getD_none, Option.getD_none, ite_self] at h
    split at h
    · next hzero => exact .inl hzero
    · exact .inr (.inl h)

/-! ### One location -/

/-- The point of a location with its own settings `o` does not matter, among the directives `ds` of
its server. -/
structure SettledAt (sz : Bytes → ℤ) (http : HttpConf) (ds : List Directive) (o : Own) : Prop where
  index : (∃ f, (withName (ascii "index") ds).flatMap (·.values) = [f]) ∨ o.indexFiles ≠ none
  size : http.clientMaxBodySize = 0 ∨
    (∀ n, lastValue "client_max_body_size" (fun v => some (sz v)) ds = some n →
      n = http.clientMaxBodySize) ∨ o.clientMaxBodySize ≠ none
  pages : PagesSettled http.errorPage (withName (ascii "error_page") ds) o.errorPage

/-- A directive that is there once stands in front of a point, or behind it. -/
theorem withName_eq_nil_or {name : Bytes} {pre post ds : List Directive}
    (hsplit : withName name (pre ++ post) = withName name ds)
    (honce : (withName name ds).length ≤ 1) :
    withName name pre = [] ∨ withName name pre = withName name ds := by
  rw [withName_append] at hsplit
  rw [← hsplit, List.length_append] at honce
  cases hpre : withName name pre with
  | nil => exact .inl rfl
  | cons d rest =>
    right
    rw [hpre, List.length_cons] at honce
    have hpost : withName name post = [] := List.length_eq_zero_iff.mp (by omega)
    rw [← hsplit, hpre, hpost, List.append_nil]

theorem lastValue_eq_or {α : Type} {name : String} {f : Bytes → Option α}
    {pre post ds : List Directive}
    (hsplit : withName (ascii name) (pre ++ post) = withName (ascii name) ds)
    (honce : (withName (ascii name) ds).length ≤ 1) :
    lastValue name f pre = none ∨ lastValue name f pre = lastValue name f ds := by
  unfold lastValue
  rcases withName_eq_nil_or hsplit honce with h | h
  · exact .inl (by rw [h]; rfl)
  · exact .inr (by rw [h])

/-- The server of a block with the directives `ds`, at its end. -/
def finalSettings (sz : Bytes → ℤ) (http : HttpConf) (ds : List Directive) : Settings :=
  ((ServerConf.ofHttp http).after sz ds).settings

theorem settle_eq_iff (final v w : Settings) :
    settle final v = settle final w ↔
      (settle final v).root = (settle final w).root ∧
      (settle final v).indexFiles = (settle final w).indexFiles ∧
      (settle final v).clientMaxBodySize = (settle final w).clientMaxBodySize ∧
      (settle final v).errorPage = (settle final w).errorPage := by
  rw [settle, settle, Settings.mk.injEq]

variable {http : HttpConf} {ds : List Directive} {o : Own}

/-- **A settled location ends up the same at every point.** -/
theorem SettledAt.settle_eq (h : SettledAt sz http ds o) {pre post : List Directive}
    (hsplit : SameByName ds (pre ++ post))
    (honce : ∀ name ∈ serverUnique, (withName name ds).length ≤ 1)
    (hes : ∀ e ∈ withName (ascii "error_page") ds, pageUpdates e ≠ []) :
    settle (finalSettings sz http ds) (o.over (finalSettings sz http pre)) =
      settle (finalSettings sz http ds) (o.over (finalSettings sz http [])) := by
  refine (settle_eq_iff _ _ _).mpr ⟨?_, ?_, ?_, ?_⟩
  · refine root_settles o.root ?_
    rcases lastValue_eq_or (f := some) (hsplit (ascii "root")) (honce _ (by decide)) with hr | hr
    · exact .inl (congrArg (·.getD []) hr)
    · exact .inr (congrArg (·.getD []) hr)
  · refine index_settles o.indexFiles ?_ h.index
    rcases withName_eq_nil_or (hsplit (ascii "index")) (honce _ (by decide)) with hi | hi
    · exact .inl (congrArg (List.flatMap fun d : Directive => d.values) hi)
    · exact .inr (congrArg (List.flatMap fun d : Directive => d.values) hi)
  · refine size_settles o.clientMaxBodySize (?_ : _ = http.clientMaxBodySize ∨ _) ?_
    · rcases lastValue_eq_or (f := fun v => some (sz v)) (hsplit (ascii "client_max_body_size"))
        (honce _ (by decide)) with hs | hs
      · exact .inl (congrArg (·.getD http.clientMaxBodySize) hs)
      · exact .inr (congrArg (·.getD http.clientMaxBodySize) hs)
    · refine h.size.imp_right (Or.imp_left fun hsame => ?_)
      change (lastValue "client_max_body_size" (fun v => some (sz v)) ds).getD _ = _
      cases hvalue : lastValue "client_max_body_size" (fun v => some (sz v)) ds with
      | none => rfl
      | some n => exact hsame n hvalue
  · have hpages := (pagesSettled_iff o.errorPage hes).mpr h.pages
      (withName (ascii "error_page") pre) (withName (ascii "error_page") post)
    refine hpages ?_
    rw [← withName_append]
    exact (hsplit (ascii "error_page")).symm

/-- A location that ends up the same at every point is settled. -/
theorem settledAt_of_settle_eq
    (h : ∀ pre post, ds = pre ++ post →
      settle (finalSettings sz http ds) (o.over (finalSettings sz http pre)) =
        settle (finalSettings sz http ds) (o.over (finalSettings sz http [])))
    (hindex : (finalSettings sz http ds).indexFiles ≠ [])
    (hes : ∀ e ∈ withName (ascii "error_page") ds, pageUpdates e ≠ []) :
    SettledAt sz http ds o := by
  obtain ⟨-, hfiles, hsize, -⟩ := (settle_eq_iff _ _ _).mp (h ds [] (List.append_nil ds).symm)
  refine ⟨index_of_settles o.indexFiles hindex hfiles, ?_, ?_⟩
  · refine (size_of_settles o.clientMaxBodySize hsize).imp_right (Or.imp_left fun hsame n hn => ?_)
    change (lastValue "client_max_body_size" (fun v => some (sz v)) ds).getD _ = _ at hsame
    rwa [hn] at hsame
  · refine (pagesSettled_iff o.errorPage hes).mp fun a b hab => ?_
    obtain ⟨pre, post, hds, rfl, -⟩ := List.filter_eq_append_iff.mp hab
    exact ((settle_eq_iff _ _ _).mp (h pre post hds)).2.2.2

end Webserv
