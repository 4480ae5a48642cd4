import Webserv.Config.Routing
import Webserv.ResponseHandler.Confinement

/-!
# Normal paths

`normalizePath` reads a path byte by byte and has its end-of-segment block twice; what it
computes is where the segments of the path lead, one after another.  `cleanPath`, which has
been over the path before, changes nothing in that but for the slash at the end.

## Main results

* `normalizePath_eq` — `normalizePath` in terms of what its segments resolve to.
* `resolve_cleanPath` — `cleanPath` keeps what a path resolves to.
* `canonical_iff` — the paths that are left as they are.
* `normalizePath_canonical` — **`normalizePath` is canonical resolution.**
-/

namespace Webserv

open Bytes Path

/-! ### The loop over the bytes -/

/-- The block at the end of a segment follows it. -/
theorem pushSegment_eq (kept : List Bytes) (seg : Bytes) : pushSegment kept seg =
    follow kept seg := by
  unfold pushSegment follow
  by_cases hempty : seg = []
  · simp [hempty]
  · have hempty' : ¬ seg.isEmpty = true := by simpa using hempty
    rw [if_neg hempty']
    by_cases hup : seg = dotDot
    · have hhere : seg ≠ here := by
        rw [hup]
        decide
      rw [if_pos hup, if_neg (not_or.mpr ⟨hempty, hhere⟩), if_pos hup]
      simp
    · by_cases hhere : seg = here
      · have hdot : ¬ seg ≠ dot := not_not_intro hhere
        rw [if_neg hup, if_neg hdot, if_pos (Or.inr hhere)]
      · have hdot : seg ≠ dot := hhere
        rw [if_neg hup, if_pos hdot, if_neg (not_or.mpr ⟨hempty, hhere⟩), if_neg hup]

/-- **The loop follows the segments**, the last one behind its end. -/
theorem foldlM_normalizeStep (p : Bytes) : ∀ {kept : List Bytes} {seg : Bytes}, SLASH ∉ seg →
    ((p.foldlM normalizeStep (kept, seg)).bind fun st => pushSegment st.1 st.2) =
      (segments (seg ++ p)).foldlM follow kept := by
  induction p with
  | nil =>
    intro kept seg hseg
    rw [List.append_nil, segments_of_notMem hseg, List.foldlM_cons, ← pushSegment_eq]
    show pushSegment kept seg = (pushSegment kept seg).bind some
    cases pushSegment kept seg <;> rfl
  | cons b p ih =>
    intro kept seg hseg
    rw [List.foldlM_cons, normalizeStep]
    by_cases hb : b = SLASH
    · subst hb
      rw [if_pos (beq_self_eq_true SLASH), segments_append_slash, segments_of_notMem hseg,
        List.singleton_append, List.foldlM_cons, pushSegment_eq]
      cases follow kept seg with
      | none => rfl
      | some kept' => exact ih List.not_mem_nil
    · have hseg' : SLASH ∉ seg ++ [b] := by
        rw [List.mem_append, List.mem_singleton, not_or]
        exact ⟨hseg, Ne.symm hb⟩
      have happend : seg ++ b :: p = seg ++ [b] ++ p := by simp
      rw [if_neg (by simpa using hb), happend, ← ih hseg']
      rfl

/-- A path that leads down does not end with a slash. -/
theorem getLast?_joinSegments {kept : List Bytes} (hne : kept ≠ []) (h : ∀ s ∈ kept, Proper s) :
    (joinSegments kept).getLast? ≠ some SLASH := getLast?_join hne h

/-- The slash that the result ends with. -/
def finalSlash (p : Bytes) (kept : List Bytes) : Bytes :=
  if 1 < p.length ∧ p.getLast? = some SLASH ∧ kept ≠ [] then [SLASH] else []

/-- **`normalizePath` in terms of what the path resolves to.** -/
theorem normalizePath_eq (p : Bytes) : normalizePath p =
    (resolve p).elim [] fun kept => joinSegments kept ++ finalSlash p kept := by
  have hloop := @foldlM_normalizeStep p [] [] List.not_mem_nil
  rw [List.nil_append, ← resolve] at hloop
  have hproper : ∀ kept, resolve p = some kept → ∀ s ∈ kept, Proper s :=
    fun _ => proper_of_resolve
  unfold normalizePath
  cases hfold : p.foldlM normalizeStep ([], []) with
  | none =>
    rw [hfold, Option.bind_none] at hloop
    rw [← hloop]
    rfl
  | some st =>
    rw [hfold, Option.bind_some] at hloop
    dsimp only
    rw [hloop]
    cases hresolve : resolve p with
    | none => rfl
    | some kept =>
      dsimp only [Option.elim_some]
      unfold finalSlash
      by_cases hkept : kept = []
      · subst hkept
        have hroot : (joinSegments []).getLast? = some SLASH := rfl
        simp [hroot]
      · have hlast := getLast?_joinSegments hkept (hproper kept hresolve)
        by_cases hlong : 1 < p.length
        · by_cases hslash : p.getLast? = some SLASH
          · simp [hlong, hslash, hkept, hlast]
          · simp [hslash]
        · simp [hlong]

/-! ### Normal paths are normal -/

section

variable {kept : List Bytes} (h : ∀ s ∈ kept, Proper s)
include h

theorem resolve_joinSegments : resolve (joinSegments kept) = some kept := by
  rw [resolve_eq, joinSegments, named_join fun s hs => ⟨(h s hs).ne_nil, (h s hs).slash⟩,
    foldlM_follow_of_proper h, List.nil_append]

theorem resolve_joinSegments_slash : resolve (joinSegments kept ++ [SLASH]) = some kept := by
  rw [resolve_eq, named_append_slash, joinSegments,
    named_join fun s hs => ⟨(h s hs).ne_nil, (h s hs).slash⟩]
  show (kept ++ []).foldlM follow [] = some kept
  rw [List.append_nil, foldlM_follow_of_proper h, List.nil_append]

theorem normalizePath_joinSegments : normalizePath (joinSegments kept) = joinSegments kept := by
  have hfinal : finalSlash (joinSegments kept) kept = [] := by
    refine if_neg ?_
    rintro ⟨-, hlast, hne⟩
    exact getLast?_joinSegments hne h hlast
  rw [normalizePath_eq, resolve_joinSegments h, Option.elim_some, hfinal, List.append_nil]

theorem normalizePath_joinSegments_slash (hne : kept ≠ []) :
    normalizePath (joinSegments kept ++ [SLASH]) = joinSegments kept ++ [SLASH] := by
  have hfinal : finalSlash (joinSegments kept ++ [SLASH]) kept = [SLASH] :=
    if_pos ⟨by simp [joinSegments], List.getLast?_concat, hne⟩
  rw [normalizePath_eq, resolve_joinSegments_slash h, Option.elim_some, hfinal]

theorem dropTrailingSlash_joinSegments : dropTrailingSlash (joinSegments kept) =
    joinSegments kept := by
  by_cases hkept : kept = []
  · -- only the root ends with a slash, and that is all there is of it
    rw [hkept]
    rfl
  · exact dropTrailingSlash_of_getLast (getLast?_joinSegments hkept h)

theorem not_doubled_joinSegments : ¬ doubled <:+: joinSegments kept := by
  by_cases hkept : kept = []
  · rw [hkept]
    decide
  · have hjoin := not_doubled_join hkept (fun s hs => ⟨(h s hs).ne_nil, (h s hs).slash⟩)
      (by decide : ¬ doubled <:+: [])
    rwa [List.append_nil] at hjoin

end

/-- The two forms of a result that is not empty. -/
theorem normalizePath_cases {p : Bytes} (h : normalizePath p ≠ []) :
    ∃ kept, resolve p = some kept ∧ (∀ s ∈ kept, Proper s) ∧
      (normalizePath p = joinSegments kept ∨
        kept ≠ [] ∧ normalizePath p = joinSegments kept ++ [SLASH]) := by
  rw [normalizePath_eq] at h ⊢
  cases hresolve : resolve p with
  | none =>
    rw [hresolve] at h
    exact absurd rfl h
  | some kept =>
    refine ⟨kept, rfl, proper_of_resolve hresolve, ?_⟩
    rw [Option.elim_some]
    unfold finalSlash
    split
    · next hfinal => exact Or.inr ⟨hfinal.2.2, rfl⟩
    · exact Or.inl (List.append_nil _)

/-! ### Clean paths -/

/-- The segments of a path without its runs of slashes. -/
theorem named_squeezeSlashes (p : Bytes) : Path.named (squeezeSlashes true p) = Path.named p ∧
    ∀ seg, SLASH ∉ seg → Path.named (seg ++ squeezeSlashes false p) = Path.named (seg ++ p) := by
  induction p with
  | nil => exact ⟨rfl, fun _ _ => rfl⟩
  | cons b p ih =>
    obtain ⟨hafter, hwithin⟩ := ih
    by_cases hb : b = SLASH
    · subst hb
      constructor
      · rw [squeezeSlashes, if_pos (beq_self_eq_true SLASH), if_pos rfl, hafter]
        exact (named_append_slash [] p).symm
      · intro seg _
        rw [squeezeSlashes, if_pos (beq_self_eq_true SLASH), if_neg Bool.false_ne_true,
          named_append_slash, named_append_slash, hafter]
    · have hslash : ¬ (b == SLASH) = true := by simpa using hb
      constructor
      · rw [squeezeSlashes, if_neg hslash]
        exact hwithin [b] (by simpa using Ne.symm hb)
      · intro seg hseg
        have hseg' : SLASH ∉ seg ++ [b] := by
          rw [List.mem_append, List.mem_singleton, not_or]
          exact ⟨hseg, Ne.symm hb⟩
        rw [squeezeSlashes, if_neg hslash]
        simpa using hwithin (seg ++ [b]) hseg'

/-- No slash is left doubled. -/
theorem not_doubled_squeezeSlashes (p : Bytes) : ¬ doubled <:+: squeezeSlashes false p ∧
    ¬ doubled <:+: SLASH :: squeezeSlashes true p := by
  induction p with
  | nil => exact ⟨by decide, by decide⟩
  | cons b p ih =>
    by_cases hb : b = SLASH
    · subst hb
      rw [squeezeSlashes, squeezeSlashes, if_pos (beq_self_eq_true SLASH),
        if_neg Bool.false_ne_true,
        if_pos (beq_self_eq_true SLASH), if_pos rfl]
      exact ⟨ih.2, ih.2⟩
    · have hslash : ¬ (b == SLASH) = true := by simpa using hb
      have hmem : SLASH ∉ [b] := by simpa using Ne.symm hb
      rw [squeezeSlashes, squeezeSlashes, if_neg hslash, if_neg hslash]
      exact ⟨not_doubled_append hmem ih.1, not_doubled_segment (List.cons_ne_nil b []) hmem ih.1⟩

/-- **`cleanPath` keeps what a path resolves to.** -/
theorem resolve_cleanPath (p : Bytes) : resolve (cleanPath p) = resolve p := by
  have hnamed : Path.named (cleanPath p) = Path.named p := by
    rw [cleanPath]
    refine Eq.trans ?_ ((named_squeezeSlashes p).2 [] List.not_mem_nil)
    rw [List.nil_append]
    rcases dropTrailingSlash_cases (squeezeSlashes false p) with ⟨hsame, -⟩ | ⟨heq, -⟩
    · rw [hsame]
    · have hlast := named_append_slash (dropTrailingSlash (squeezeSlashes false p)) []
      rw [← heq] at hlast
      rw [hlast]
      exact (List.append_nil _).symm
  rw [resolve_eq, resolve_eq, hnamed]

/-- A clean path ends with a slash only when it is that slash. -/
theorem getLast?_cleanPath {p : Bytes} (h : 1 < (cleanPath p).length) :
    (cleanPath p).getLast? ≠ some SLASH := by
  unfold cleanPath at h ⊢
  rcases dropTrailingSlash_cases (squeezeSlashes false p) with ⟨hsame, hlast⟩ | ⟨heq, -⟩
  · rw [hsame] at h ⊢
    exact hlast h
  · intro hlast
    obtain ⟨front, hfront⟩ := List.getLast?_eq_some_iff.mp hlast
    refine (not_doubled_squeezeSlashes p).1 ?_
    rw [heq, hfront]
    exact ⟨front, [], by simp [doubled]⟩

theorem normalizePath_cleanPath (p : Bytes) :
    normalizePath (cleanPath p) = dropTrailingSlash (normalizePath p) := by
  have hfinal : ∀ kept, finalSlash (cleanPath p) kept = [] :=
    fun kept => if_neg fun h => getLast?_cleanPath h.1 h.2.1
  rw [normalizePath_eq, normalizePath_eq p, resolve_cleanPath]
  cases hresolve : resolve p with
  | none => rfl
  | some kept =>
    have hproper := proper_of_resolve hresolve
    rw [Option.elim_some, Option.elim_some, hfinal, List.append_nil]
    unfold finalSlash
    split
    · exact (dropTrailingSlash_append (by simp [joinSegments])).symm
    · rw [List.append_nil, dropTrailingSlash_joinSegments hproper]

/-- A path without doubled slashes has none to squeeze. -/
theorem squeezeSlashes_of_not_doubled {p : Bytes} (h : ¬ doubled <:+: p) :
    squeezeSlashes false p = p ∧ (p.head? ≠ some SLASH → squeezeSlashes true p = p) := by
  induction p with
  | nil => exact ⟨rfl, fun _ => rfl⟩
  | cons b p ih =>
    rw [List.infix_cons_iff, not_or] at h
    obtain ⟨hsame, hafter⟩ := ih h.2
    by_cases hb : b = SLASH
    · subst hb
      have hnext : p.head? ≠ some SLASH := by
        intro hhead
        obtain ⟨q, rfl⟩ := eq_cons_of_head hhead
        exact h.1 ⟨q, rfl⟩
      refine ⟨?_, fun hhead => absurd rfl hhead⟩
      rw [squeezeSlashes, if_pos (beq_self_eq_true SLASH), if_neg Bool.false_ne_true, hafter hnext]
    · have hslash : ¬ (b == SLASH) = true := by simpa using hb
      rw [squeezeSlashes, squeezeSlashes, if_neg hslash, hsame]
      exact ⟨rfl, fun _ => if_neg hslash⟩

/-- **The canonical paths** are those that neither function changes. -/
theorem canonical_iff {p : Bytes} : Canonical p ↔ normalizePath p = p ∧ cleanPath p = p := by
  constructor
  · rintro ⟨kept, hproper, rfl⟩
    refine ⟨normalizePath_joinSegments hproper, ?_⟩
    rw [← joinSegments, cleanPath, (squeezeSlashes_of_not_doubled
      (not_doubled_joinSegments hproper)).1]
    exact dropTrailingSlash_joinSegments hproper
  · rintro ⟨hnormal, hclean⟩
    have hne : normalizePath p ≠ [] := by
      rw [hnormal]
      rintro rfl
      exact absurd hnormal (by decide)
    obtain ⟨kept, -, hproper, hform⟩ := normalizePath_cases hne
    rw [hnormal] at hform
    rcases hform with hform | ⟨hkept, hform⟩
    · exact ⟨kept, hproper, hform⟩
    · -- a clean path does not end with a slash
      have hlast := @getLast?_cleanPath p (by rw [hclean, hform]; simp [joinSegments])
      rw [hclean, hform] at hlast
      exact absurd List.getLast?_concat hlast

/-- **`normalizePath` is canonical resolution.**  It refuses the paths whose segments lead out of
the root, and for any other it joins the segments that are kept; the result has no segment that is
empty or leads nowhere or up, it is its own normal path, and cleaning the path first only takes
its last slash away. -/
theorem normalizePath_canonical (p : Bytes) :
    (normalizePath p = [] ↔ resolve p = none) ∧
      (∀ kept, resolve p = some kept →
        normalizePath p = SLASH :: [SLASH].intercalate kept ++
          if 1 < p.length ∧ p.getLast? = some SLASH ∧ kept ≠ [] then [SLASH] else []) ∧
      (normalizePath p ≠ [] →
        Resolved (normalizePath p) ∧ ¬ doubled <:+: normalizePath p ∧
          normalizePath (normalizePath p) = normalizePath p) ∧
      normalizePath (cleanPath p) = dropTrailingSlash (normalizePath p) := by
  refine ⟨?_, ?_, ?_, normalizePath_cleanPath p⟩
  · rw [normalizePath_eq]
    cases resolve p with
    | none => exact iff_of_true rfl rfl
    | some kept => exact iff_of_false (by simp [joinSegments]) (by simp)
  · intro kept hresolve
    rw [normalizePath_eq, hresolve]
    rfl
  · intro hne
    obtain ⟨kept, -, hproper, hform⟩ := normalizePath_cases hne
    refine ⟨(normalizePath_spec hne).1, ?_, ?_⟩
    · rcases hform with hform | ⟨hkept, hform⟩
      · rw [hform]
        exact not_doubled_joinSegments hproper
      · rw [hform]
        exact not_doubled_join hkept (fun s hs => ⟨(hproper s hs).ne_nil, (hproper s hs).slash⟩)
          (by decide)
    · rcases hform with hform | ⟨hkept, hform⟩
      · rw [hform, normalizePath_joinSegments hproper]
      · rw [hform, normalizePath_joinSegments_slash hproper hkept]

example : resolve (ascii "/a//./b/../c/") = some [ascii "a", ascii "c"] := by decide

end Webserv
