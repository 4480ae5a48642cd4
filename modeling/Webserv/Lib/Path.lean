import Webserv.Lib.Bytes

/-!
# Paths

A path is a string of bytes, cut into segments at the slashes.  `Descending` paths
begin with a slash and have no `..` segment, so that behind a root they lead to
nothing above it; `Confined root` are the paths that consist of the root and a
descending path.  `Resolved` paths have no `.` segment either.

## Main results

* `segments_append_slash` — the segments of two paths with a slash between them.
* `segments_map` — what is done to a path segment by segment.
* `Resolved.suffix` — what is cut off in front of a slash is not missed.
* `proper_of_resolve` — what is kept of a path leads down.
* `resolved_join` — segments that lead somewhere make a resolved path.
-/

namespace Path

open Bytes

/-- The segment that leads up. -/
def dotDot : Bytes := [DOT, DOT]

/-- What stands between the slashes. -/
def segments (p : Bytes) : List Bytes := p.splitOn SLASH

/-- A path that leads down from where it begins. -/
def Descending (p : Bytes) : Prop := p.head? = some SLASH ∧ dotDot ∉ segments p

instance (p : Bytes) : Decidable (Descending p) := inferInstanceAs (Decidable (_ ∧ _))

/-- A path below a root. -/
def Confined (root p : Bytes) : Prop := ∃ q, p = root ++ q ∧ Descending q

/-- Behind the root, only the rest of the path matters. -/
theorem confined_append_iff {root q : Bytes} : Confined root (root ++ q) ↔ Descending q := by
  constructor
  · rintro ⟨q', heq, hq'⟩
    rwa [List.append_cancel_left heq]
  · exact fun hq => ⟨q, rfl, hq⟩

/-- A path that is cut off inside its root is not below it. -/
theorem not_confined_of_length_le {root p : Bytes} (h : p.length ≤ root.length) :
    ¬ Confined root p := by
  rintro ⟨q, rfl, hq, -⟩
  rw [List.length_append] at h
  rw [List.length_eq_zero_iff.mp (by omega : q.length = 0)] at hq
  simp at hq

/-- The path `q` is a prefix of `p` that ends with a segment of it.  The root is a prefix of every
path that begins there. -/
def SegmentPrefix (q p : Bytes) : Prop :=
  q ≠ [] ∧ ((∃ rest, p = q ++ rest ∧ (rest = [] ∨ rest.head? = some SLASH)) ∨
    q = [SLASH] ∧ p.head? = some SLASH)

/-! ### Resolved paths -/

/-- The segment that leads nowhere. -/
def here : Bytes := [DOT]

/-- The segments of two paths with a slash between them. -/
theorem segments_append_slash (p q : Bytes) :
    segments (p ++ SLASH :: q) = segments p ++ segments q :=
  List.splitOn_append_cons_self p q

theorem segments_of_notMem {p : Bytes} (h : SLASH ∉ p) : segments p = [p] :=
  List.splitOn_eq_singleton h

/-- Induction over a path from its first slash on. -/
theorem slash_induction {motive : Bytes → Prop} (single : ∀ p, SLASH ∉ p → motive p)
    (slash : ∀ p q, SLASH ∉ p → motive q → motive (p ++ SLASH :: q)) (p : Bytes) : motive p := by
  induction hlength : p.length using Nat.strong_induction_on generalizing p with
  | _ n ih =>
    subst hlength
    by_cases hmem : SLASH ∈ p
    · obtain ⟨front, rest, rfl, hfront⟩ := List.eq_append_cons_of_mem hmem
      refine slash front rest hfront (ih rest.length ?_ rest rfl)
      rw [List.length_append, List.length_cons]
      omega
    · exact single p hmem

/-- **What is done to the segments one by one** can be done to the whole path. -/
theorem segments_map {f : Bytes → Bytes}
    (happend : ∀ p q, f (p ++ SLASH :: q) = f p ++ SLASH :: f q)
    (hslash : ∀ p, SLASH ∉ p → SLASH ∉ f p) (p : Bytes) : segments (f p) = (segments p).map f := by
  induction p using slash_induction with
  | single p hp => rw [segments_of_notMem hp, segments_of_notMem (hslash p hp), List.map_singleton]
  | slash p q hp ih =>
    rw [happend, segments_append_slash, segments_append_slash, ih, segments_of_notMem hp,
      segments_of_notMem (hslash p hp), List.map_append, List.map_singleton]

/-- A path from the root that says where it leads. -/
structure Resolved (p : Bytes) : Prop where
  slash : p.head? = some SLASH
  segments : ∀ s ∈ segments p, s ≠ here ∧ s ≠ dotDot

instance (p : Bytes) : Decidable (Resolved p) :=
  decidable_of_iff (p.head? = some SLASH ∧ ∀ s ∈ segments p, s ≠ here ∧ s ≠ dotDot)
    ⟨fun h => ⟨h.1, h.2⟩, fun h => ⟨h.slash, h.segments⟩⟩

theorem eq_cons_of_head {p : Bytes} (h : p.head? = some SLASH) : ∃ q, p = SLASH :: q := by
  cases p with
  | nil => cases h
  | cons b q =>
    rw [List.head?_cons, Option.some.injEq] at h
    exact ⟨q, by rw [h]⟩

/-- What stands behind a slash has its segments from the whole path. -/
theorem Resolved.suffix {p q : Bytes} (h : Resolved p) (hq : q <:+ p)
    (hslash : q.head? = some SLASH) : Resolved q := by
  obtain ⟨p', rfl⟩ := hq
  obtain ⟨q, rfl⟩ := eq_cons_of_head hslash
  refine ⟨hslash, ?_⟩
  intro s hs
  rw [← List.nil_append (SLASH :: q), segments_append_slash] at hs
  rcases List.mem_append.mp hs with hs | hs
  · rw [List.mem_singleton.mp hs]
    decide
  · apply h.segments s
    rw [segments_append_slash]
    exact List.mem_append_right _ hs

/-- A slash at the end adds an empty segment. -/
theorem Resolved.append_slash {p : Bytes} (h : Resolved p) : Resolved (p ++ [SLASH]) := by
  constructor
  · rw [List.head?_append, h.slash]
    rfl
  · intro s hs
    rw [segments_append_slash] at hs
    rcases List.mem_append.mp hs with hs | hs
    · exact h.segments s hs
    · rw [List.mem_singleton.mp hs]
      decide

/-- Segments with slashes between them, behind a slash. -/
theorem resolved_join {parts : List Bytes}
    (h : ∀ s ∈ parts, SLASH ∉ s ∧ s ≠ here ∧ s ≠ dotDot) :
    Resolved (SLASH :: [SLASH].intercalate parts) := by
  refine ⟨rfl, ?_⟩
  intro s hs
  rw [← List.nil_append (SLASH :: _), segments_append_slash] at hs
  rcases List.mem_append.mp hs with hs | hs
  · rw [List.mem_singleton.mp hs]
    decide
  · cases parts with
    | nil =>
      rw [List.mem_singleton.mp hs]
      decide
    | cons part parts =>
      rw [segments, List.splitOn_intercalate _ (fun l hl => (h l hl).1) (by simp)] at hs
      exact (h s hs).2

/-! ### Resolution -/

/-- Where one more segment leads: nowhere, up, or down.  Nothing leads up from the root. -/
def follow (kept : List Bytes) (s : Bytes) : Option (List Bytes) :=
  if s = [] ∨ s = here then some kept
  else if s = dotDot then if kept = [] then none else some kept.dropLast
  else some (kept ++ [s])

/-- The segments that are kept when those of a path are followed from left to right. -/
def resolve (p : Bytes) : Option (List Bytes) := (segments p).foldlM follow []

/-- A segment that leads down. -/
structure Proper (s : Bytes) : Prop where
  ne_nil : s ≠ []
  slash : SLASH ∉ s
  here : s ≠ here
  dotDot : s ≠ dotDot

instance (s : Bytes) : Decidable (Proper s) :=
  decidable_of_iff (s ≠ [] ∧ SLASH ∉ s ∧ s ≠ Path.here ∧ s ≠ Path.dotDot)
    ⟨fun h => ⟨h.1, h.2.1, h.2.2.1, h.2.2.2⟩, fun h => ⟨h.ne_nil, h.slash, h.here, h.dotDot⟩⟩

/-- The segments that say something. -/
def named (p : Bytes) : List Bytes := (segments p).filter (· ≠ [])

theorem follow_nil (kept : List Bytes) : follow kept [] = some kept := if_pos (Or.inl rfl)

theorem follow_of_proper {s : Bytes} (h : Proper s) (kept : List Bytes) :
    follow kept s = some (kept ++ [s]) := by
  rw [follow, if_neg (not_or.mpr ⟨h.ne_nil, h.here⟩), if_neg h.dotDot]

/-- Segments that lead down are kept. -/
theorem foldlM_follow_of_proper {parts : List Bytes} (h : ∀ s ∈ parts, Proper s) :
    ∀ kept, parts.foldlM follow kept = some (kept ++ parts) := by
  induction parts with
  | nil => exact fun kept => congrArg some (List.append_nil kept).symm
  | cons s parts ih =>
    intro kept
    rw [List.foldlM_cons, follow_of_proper (h s List.mem_cons_self), Option.bind_eq_bind,
      Option.bind_some, ih fun s' hs' => h s' (List.mem_cons_of_mem s hs'), List.append_assoc,
      List.singleton_append]

/-- What is kept leads down. -/
theorem proper_of_foldlM : ∀ {parts kept kept' : List Bytes}, (∀ s ∈ parts, SLASH ∉ s) →
    (∀ s ∈ kept, Proper s) → parts.foldlM follow kept = some kept' → ∀ s ∈ kept', Proper s := by
  intro parts
  induction parts with
  | nil =>
    intro kept kept' _ hkept h
    cases h
    exact hkept
  | cons s parts ih =>
    intro kept kept' hslash hkept h
    rw [List.foldlM_cons, Option.bind_eq_bind, Option.bind_eq_some_iff] at h
    obtain ⟨kept₁, hs, h⟩ := h
    refine ih (fun s' hs' => hslash s' (List.mem_cons_of_mem s hs')) ?_ h
    unfold follow at hs
    split_ifs at hs with hnowhere hup
    · cases hs
      exact hkept
    · cases hs
      exact fun s' hs' => hkept s' (List.mem_of_mem_dropLast hs')
    · cases hs
      intro s' hs'
      rcases List.mem_append.mp hs' with hs' | hs'
      · exact hkept s' hs'
      · rw [List.mem_singleton.mp hs']
        rw [not_or] at hnowhere
        exact ⟨hnowhere.1, hslash s List.mem_cons_self, hnowhere.2, hup⟩

theorem slash_notMem_of_mem_segments {p s : Bytes} (h : s ∈ segments p) : SLASH ∉ s := by
  induction p using slash_induction with
  | single p hp =>
    rw [segments_of_notMem hp, List.mem_singleton] at h
    rwa [h]
  | slash p q hp ih =>
    rw [segments_append_slash, segments_of_notMem hp, List.singleton_append, List.mem_cons] at h
    rcases h with rfl | h
    · exact hp
    · exact ih h

theorem proper_of_resolve {p : Bytes} {kept : List Bytes} (h : resolve p = some kept) :
    ∀ s ∈ kept, Proper s :=
  proper_of_foldlM (fun _ => slash_notMem_of_mem_segments) (by simp) h

/-- Empty segments do not matter. -/
theorem resolve_eq (p : Bytes) : resolve p = (named p).foldlM follow [] := by
  have hfilter : ∀ (parts kept : List Bytes),
      (parts.filter (· ≠ [])).foldlM follow kept = parts.foldlM follow kept := by
    intro parts
    induction parts with
    | nil => exact fun _ => rfl
    | cons s parts ih =>
      intro kept
      by_cases hs : s = []
      · rw [List.filter_cons_of_neg (by simpa using hs), ih, List.foldlM_cons, hs, follow_nil]
        rfl
      · rw [List.filter_cons_of_pos (by simpa using hs), List.foldlM_cons, List.foldlM_cons]
        simp only [ih]
  exact (hfilter _ _).symm

theorem named_append_slash (p q : Bytes) : named (p ++ SLASH :: q) = named p ++ named q := by
  rw [named, segments_append_slash, List.filter_append]
  rfl

/-- Segments with slashes between them, behind a slash. -/
theorem named_join {parts : List Bytes} (h : ∀ s ∈ parts, s ≠ [] ∧ SLASH ∉ s) :
    named (SLASH :: [SLASH].intercalate parts) = parts := by
  rw [← List.nil_append (SLASH :: _), named_append_slash]
  cases parts with
  | nil => rfl
  | cons part parts =>
    have hall : (part :: parts).filter (· ≠ []) = part :: parts :=
      List.filter_eq_self.mpr fun s hs => by simpa using (h s hs).1
    rw [named, named, segments, segments, List.splitOn_nil,
      List.splitOn_intercalate _ (fun l hl => (h l hl).2) (by simp), hall]
    rfl

/-! ### Doubled slashes -/

/-- Two slashes one behind the other. -/
def doubled : Bytes := [SLASH, SLASH]

/-- No slash of a text without any is doubled. -/
theorem not_doubled_append {s t : Bytes} (hs : SLASH ∉ s) (ht : ¬ doubled <:+: t) :
    ¬ doubled <:+: s ++ t := by
  induction s with
  | nil => exact ht
  | cons b s ih =>
    rw [List.mem_cons, not_or] at hs
    rw [List.cons_append, List.infix_cons_iff, doubled, List.cons_prefix_cons]
    rintro (⟨hb, -⟩ | hwithin)
    · exact hs.1 hb
    · exact ih hs.2 hwithin

/-- A slash in front of a segment is not doubled. -/
theorem not_doubled_segment {s t : Bytes} (hne : s ≠ []) (hs : SLASH ∉ s)
    (ht : ¬ doubled <:+: t) : ¬ doubled <:+: SLASH :: (s ++ t) := by
  have hst := not_doubled_append hs ht
  obtain ⟨b, s, rfl⟩ := List.exists_cons_of_ne_nil hne
  rw [List.mem_cons, not_or] at hs
  rw [List.infix_cons_iff, doubled, List.cons_append, List.cons_prefix_cons, List.cons_prefix_cons]
  rintro (⟨-, hb, -⟩ | hwithin)
  · exact hs.1 hb
  · exact hst hwithin

/-- Segments with slashes between them, behind a slash and in front of another. -/
theorem not_doubled_join {parts : List Bytes} {t : Bytes} (hparts : parts ≠ [])
    (h : ∀ s ∈ parts, s ≠ [] ∧ SLASH ∉ s) (ht : ¬ doubled <:+: t) :
    ¬ doubled <:+: SLASH :: [SLASH].intercalate parts ++ t := by
  induction parts with
  | nil => exact absurd rfl hparts
  | cons part parts ih =>
    obtain ⟨hne, hslash⟩ := h part List.mem_cons_self
    cases parts with
    | nil =>
      rw [List.intercalate_singleton]
      exact not_doubled_segment hne hslash ht
    | cons part' parts =>
      have hrest := ih (by simp) fun s hs => h s (List.mem_cons_of_mem part hs)
      rw [List.intercalate_cons_cons, List.cons_append, List.append_assoc, List.append_assoc,
        List.singleton_append]
      exact not_doubled_segment hne hslash hrest

/-! ### Canonical paths -/

/-- A path that is written the one way its segments can be. -/
def Canonical (p : Bytes) : Prop :=
  ∃ parts, (∀ s ∈ parts, Proper s) ∧ p = SLASH :: [SLASH].intercalate parts

/-- The last segment is behind the last slash. -/
theorem getLast?_join {parts : List Bytes} (hne : parts ≠ []) (h : ∀ s ∈ parts, Proper s) :
    (SLASH :: [SLASH].intercalate parts).getLast? ≠ some SLASH := by
  intro hlast
  obtain ⟨front, hfront⟩ := List.getLast?_eq_some_iff.mp hlast
  refine not_doubled_join hne (fun s hs => ⟨(h s hs).ne_nil, (h s hs).slash⟩)
    (by decide : ¬ doubled <:+: [SLASH]) ?_
  rw [hfront]
  exact ⟨front, [], by simp [doubled]⟩

theorem Canonical.head {p : Bytes} (h : Canonical p) : p.head? = some SLASH := by
  obtain ⟨parts, -, rfl⟩ := h
  rfl

section

variable {p : Bytes} (h : Canonical p) (hroot : p ≠ [SLASH])
include h hroot

theorem Canonical.getLast : p.getLast? ≠ some SLASH := by
  obtain ⟨parts, hproper, rfl⟩ := h
  refine getLast?_join ?_ hproper
  rintro rfl
  exact hroot rfl

/-- A segment more behind a path. -/
theorem Canonical.not_doubled_append {name : Bytes} (hname : SLASH ∉ name) :
    ¬ doubled <:+: p ++ SLASH :: name := by
  obtain ⟨parts, hproper, rfl⟩ := h
  have hparts : parts ≠ [] := by
    rintro rfl
    exact hroot rfl
  refine not_doubled_join hparts (fun s hs => ⟨(hproper s hs).ne_nil, (hproper s hs).slash⟩) ?_
  by_cases hnil : name = []
  · rw [hnil]
    decide
  · have hsegment := not_doubled_segment hnil hname (by decide : ¬ doubled <:+: [])
    rwa [List.append_nil] at hsegment

theorem Canonical.not_doubled : ¬ doubled <:+: p := by
  intro hwithin
  have hname : SLASH ∉ ([] : Bytes) := List.not_mem_nil
  exact h.not_doubled_append hroot hname (hwithin.trans (List.prefix_append _ _).isInfix)

end

end Path
