import Webserv.Cgi.Confinement
import Webserv.ResponseHandler.Handle

/-!
# Where the handler looks

`normalizePath` resolves the path of a request before the handler goes to the file
system, and what `_resolveFsPath` puts behind the root is cut off from the resolved
path at a slash.  So nothing that is served, listed or removed stands outside the root;
an upload stands in the directory of its location.

## Main results

* `normalizePath_spec` — what is not refused is resolved.
* `resolved_sought` — what is looked for below the root is resolved.
* `handle_within` — every path that the handler makes a call on; an upload is beside the root.
-/

namespace Webserv

open Bytes Path

/-! ### Normal paths -/

/-- A segment that a path keeps. -/
structure KeptSegment (path s : Bytes) : Prop where
  slash : SLASH ∉ s
  here : s ≠ here
  dotDot : s ≠ dotDot
  mem : s ⊆ path

theorem kept_pushSegment {path : Bytes} {segments segments' : List Bytes} {seg : Bytes}
    (hsegments : ∀ s ∈ segments, KeptSegment path s) (hslash : SLASH ∉ seg) (hmem : seg ⊆ path)
    (h : pushSegment segments seg = some segments') : ∀ s ∈ segments', KeptSegment path s := by
  unfold pushSegment at h
  split at h
  · cases h
    exact hsegments
  · split at h
    · split at h
      · cases h
      · cases h
        exact fun s hs => hsegments s (List.mem_of_mem_dropLast hs)
    · next hdotDot =>
      split at h
      · next hdot =>
        cases h
        intro s hs
        rcases List.mem_append.mp hs with hs | hs
        · exact hsegments s hs
        · rw [List.mem_singleton.mp hs]
          exact ⟨hslash, hdot, hdotDot, hmem⟩
      · cases h
        exact hsegments

/-- The loop of `normalizePath`, over a part of the path. -/
theorem kept_foldlM {path : Bytes} : ∀ {bs : Bytes} {segments : List Bytes} {seg : Bytes}
    {st : List Bytes × Bytes}, bs ⊆ path → (∀ s ∈ segments, KeptSegment path s) → SLASH ∉ seg →
      seg ⊆ path → bs.foldlM normalizeStep (segments, seg) = some st →
        (∀ s ∈ st.1, KeptSegment path s) ∧ SLASH ∉ st.2 ∧ st.2 ⊆ path := by
  intro bs
  induction bs with
  | nil =>
    intro segments seg st _ hsegments hslash hmem h
    cases h
    exact ⟨hsegments, hslash, hmem⟩
  | cons b bs ih =>
    intro segments seg st hbs hsegments hslash hmem h
    obtain ⟨hb, hbs⟩ := List.cons_subset.mp hbs
    rw [List.foldlM_cons, normalizeStep] at h
    split at h
    · cases hpush : pushSegment segments seg with
      | none => simp [hpush] at h
      | some segments' =>
        simp only [hpush, Option.map_some, Option.bind_eq_bind, Option.bind_some] at h
        exact ih hbs (kept_pushSegment hsegments hslash hmem hpush) (by simp) (by simp) h
    · next hne =>
      simp only [Option.bind_eq_bind, Option.bind_some] at h
      have hne' : SLASH ≠ b := fun heq => hne (by simp [heq])
      exact ih hbs hsegments (by simp [hslash, hne'])
        (List.append_subset.mpr ⟨hmem, List.cons_subset.mpr ⟨hb, List.nil_subset _⟩⟩) h

/-- The characters of segments with slashes between them. -/
theorem mem_intercalate {sep : UInt8} {b : UInt8} : ∀ {parts : List Bytes},
    b ∈ [sep].intercalate parts → b = sep ∨ ∃ s ∈ parts, b ∈ s := by
  intro parts
  induction parts with
  | nil =>
    intro h
    cases h
  | cons part parts ih =>
    intro h
    cases parts with
    | nil =>
      rw [List.intercalate_singleton] at h
      exact Or.inr ⟨part, List.mem_cons_self, h⟩
    | cons part' parts =>
      rw [List.intercalate_cons_cons, List.mem_append, List.mem_append, List.mem_singleton] at h
      rcases h with (h | h) | h
      · exact Or.inr ⟨part, List.mem_cons_self, h⟩
      · exact Or.inl h
      · rcases ih h with h | ⟨s, hs, hb⟩
        · exact Or.inl h
        · exact Or.inr ⟨s, List.mem_cons_of_mem _ hs, hb⟩

/-- **What `normalizePath` does not refuse is resolved**, and has no characters of its own
but slashes. -/
theorem normalizePath_spec {path : Bytes} (h : normalizePath path ≠ []) :
    Resolved (normalizePath path) ∧ ∀ b ∈ normalizePath path, b = SLASH ∨ b ∈ path := by
  unfold normalizePath at h ⊢
  cases hfold : path.foldlM normalizeStep ([], []) with
  | none => simp [hfold] at h
  | some st =>
    obtain ⟨segments, seg⟩ := st
    obtain ⟨hsegments, hslash, hmem⟩ := kept_foldlM (List.Subset.refl path) (by simp) (by simp)
      (by simp) hfold
    dsimp only
    cases hpush : pushSegment segments seg with
    | none => simp [hfold, hpush] at h
    | some segments' =>
      have hkept := kept_pushSegment hsegments hslash hmem hpush
      have hjoin : Resolved (joinSegments segments') :=
        resolved_join fun s hs => ⟨(hkept s hs).slash, (hkept s hs).here, (hkept s hs).dotDot⟩
      have hbytes : ∀ b ∈ joinSegments segments', b = SLASH ∨ b ∈ path := by
        intro b hb
        rcases List.mem_cons.mp hb with hb | hb
        · exact Or.inl hb
        · rcases mem_intercalate hb with hb | ⟨s, hs, hb⟩
          · exact Or.inl hb
          · exact Or.inr ((hkept s hs).mem hb)
      dsimp only
      split
      · refine ⟨hjoin.append_slash, ?_⟩
        intro b hb
        rcases List.mem_append.mp hb with hb | hb
        · exact hbytes b hb
        · exact Or.inl (List.mem_singleton.mp hb)
      · exact ⟨hjoin, hbytes⟩

/-! ### Below the root -/

/-- The last component begins with the slash that is looked for. -/
theorem lastComponent_spec {p : Bytes} (h : SLASH ∈ p) :
    lastComponent p <:+ p ∧ (lastComponent p).head? = some SLASH := by
  unfold lastComponent
  cases hlast : findLast SLASH p with
  | none => exact absurd h (findLast_eq_none_iff.mp hlast)
  | some i =>
    obtain ⟨front, t, rfl, -, rfl⟩ := findLast_eq_some_iff.mp hlast
    dsimp only
    rw [List.drop_left]
    exact ⟨List.suffix_append _ _, rfl⟩

/-- What is looked for is the end of the path from a slash on. -/
theorem sought_spec (loc : Option Location) {path : Bytes} (h : path.head? = some SLASH) :
    sought loc path <:+ path ∧ (sought loc path).head? = some SLASH := by
  unfold sought
  split
  · exact ⟨List.suffix_rfl, h⟩
  · next l _ =>
    split
    · next hl =>
      rcases hl with rfl | ⟨rfl, hslash⟩
      · exact lastComponent_spec (List.mem_of_mem_head? h)
      · obtain ⟨hsuffix, hhead⟩ := lastComponent_spec (List.mem_of_mem_head? hslash)
        exact ⟨hsuffix.trans (List.suffix_append _ _), hhead⟩
    · split
      · next hl => exact ⟨List.drop_suffix _ _, hl.2⟩
      · exact ⟨List.suffix_rfl, h⟩

/-- **What is looked for below the root is resolved if the path is.** -/
theorem resolved_sought (loc : Option Location) {path : Bytes} (h : Resolved path) :
    Resolved (sought loc path) :=
  h.suffix (sought_spec loc h.slash).1 (sought_spec loc h.slash).2

/-- The last character stays. -/
theorem getLast?_suffix {p q : Bytes} (h : q <:+ p) (hne : q ≠ []) : q.getLast? = p.getLast? := by
  obtain ⟨p', rfl⟩ := h
  rw [List.getLast?_append_of_ne_nil _ hne]

/-! ### Paths of calls -/

/-- A resolved path behind the root. -/
def Below (root p : Bytes) : Prop := ∃ q, Resolved q ∧ 0 ∉ q ∧ p = root ++ q

/-- The names that the handler puts behind the path of a directory: an index file's, or
that of an entry. -/
inductive Follows (env : Env) (cfg : Server) (dir : Bytes) : Bytes → Prop
  | index (loc : Option Location) (hloc : ∀ l ∈ loc, l ∈ cfg.locations)
      (hslash : SLASH ∉ indexFile loc cfg) : Follows env cfg dir (indexFile loc cfg)
  | entry (names : List Bytes) (name : Bytes) (hopen : env.fs.opendir (cStr dir) = .ok names)
      (hmem : name ∈ names) (hdot : name ≠ dot) (hdotDot : name ≠ Path.dotDot) :
      Follows env cfg dir name

/-- A resolved path behind the root, or a name behind such a path that ends with a slash. -/
def Within (env : Env) (cfg : Server) (root p : Bytes) : Prop :=
  Below root p ∨ ∃ dir name, Below root dir ∧ dir.getLast? = some SLASH ∧
    Follows env cfg dir name ∧ p = dir ++ name

/-- What is within the root has the root in front. -/
theorem Within.prefix_root {env : Env} {cfg : Server} {root p : Bytes}
    (h : Within env cfg root p) : root <+: p := by
  obtain ⟨q, -, -, rfl⟩ | ⟨dir, name, ⟨q, -, -, rfl⟩, -, -, rfl⟩ := h
  · exact List.prefix_append root q
  · exact ⟨q ++ name, (List.append_assoc root q name).symm⟩

/-- The path that a call is on. -/
def FsCall.path : FsCall → Bytes
  | .stat p | .openRead p | .opendir p | .create p | .remove p => p

/-- A call on a path within the root; an upload is one component behind the directory of
a location. -/
def FsCall.Within (env : Env) (cfg : Server) (root : Bytes) : FsCall → Prop
  | .create p => ∃ l ∈ cfg.locations, ∃ name, p = withSlash l.upload ++ name ∧
      SLASH ∉ name ∧ name ≠ [] ∧ name ≠ dot ∧ name ≠ Path.dotDot
  | .stat p => Webserv.Within env cfg root p
  | .openRead p => Webserv.Within env cfg root p
  | .opendir p => Webserv.Within env cfg root p
  | .remove p => Webserv.Within env cfg root p

/-- No name of an index file has a slash in it. -/
def PlainIndexNames (cfg : Server) : Prop :=
  (∀ name ∈ cfg.indexFiles, SLASH ∉ name) ∧
    ∀ l ∈ cfg.locations, ∀ name ∈ l.indexFiles, SLASH ∉ name

theorem Below.append_slash {root p : Bytes} (h : Below root p) : Below root (p ++ [SLASH]) := by
  obtain ⟨q, hq, hnul, rfl⟩ := h
  refine ⟨q ++ [SLASH], hq.append_slash, ?_, List.append_assoc _ _ _⟩
  rw [List.mem_append, not_or]
  exact ⟨hnul, by decide⟩

theorem Below.withSlash {root p : Bytes} (h : Below root p) : Below root (withSlash p) := by
  unfold Webserv.withSlash
  split
  · exact h
  · exact h.append_slash

/-- The directory and the index file's name. -/
theorem within_index {env : Env} {cfg : Server} {root dir : Bytes} {loc : Option Location}
    (hplain : PlainIndexNames cfg) (hloc : ∀ l ∈ loc, l ∈ cfg.locations) (hdir : Below root dir)
    (hslash : dir.getLast? = some SLASH) : Within env cfg root (dir ++ indexFile loc cfg) := by
  refine Or.inr ⟨dir, _, hdir, hslash, .index loc hloc ?_, rfl⟩
  have hhead : ∀ files : List Bytes, (∀ name ∈ files, SLASH ∉ name) →
      SLASH ∉ files.head?.getD (ascii "index.html") := by
    intro files hfiles
    cases files with
    | nil => decide
    | cons name files => exact hfiles name List.mem_cons_self
  unfold indexFile
  apply hhead
  cases loc with
  | none => exact hplain.1
  | some l =>
    dsimp only
    split
    · exact hplain.1
    · exact hplain.2 l (hloc l rfl)

/-- The name of an upload is one component. -/
theorem uploadName_spec (env : Env) (req : HttpRequest) :
    SLASH ∉ uploadName env req ∧ uploadName env req ≠ [] ∧ uploadName env req ≠ dot ∧
      uploadName env req ≠ Path.dotDot := by
  have hdecimal : ∀ n, SLASH ∉ decimal n := notMem_decimal (by decide)
  have hsanitized : ∀ raw, SLASH ∉ sanitizeFilename raw ∧ sanitizeFilename raw ≠ dot ∧
      sanitizeFilename raw ≠ Path.dotDot := by
    intro raw
    unfold sanitizeFilename
    dsimp only
    split
    · exact ⟨by simp, by decide, by decide⟩
    · next hname =>
      rw [not_or] at hname
      refine ⟨?_, hname⟩
      intro hmem
      have hcond := List.all_eq_true.mp List.all_takeWhile SLASH (List.mem_reverse.mp hmem)
      simp at hcond
  unfold uploadName
  extract_lets filename
  split
  · have hupload : (ascii "upload_").length = 7 := by decide
    refine ⟨?_, by simp, ?_, ?_⟩
    · simp only [List.mem_append, not_or]
      exact ⟨⟨⟨by decide, hdecimal _⟩, by decide⟩, hdecimal _⟩
    -- a generated name is longer than a segment of dots
    · intro h
      have hlength := congrArg List.length h
      simp [hupload, dot] at hlength
      omega
    · intro h
      have hlength := congrArg List.length h
      simp [hupload, Path.dotDot] at hlength
      omega
  · next hne =>
    rw [List.isEmpty_iff] at hne
    dsimp only [filename] at hne ⊢
    cases hform : formFile req with
    | none => simp [hform] at hne
    | some file =>
      rw [hform] at hne
      exact ⟨(hsanitized _).1, hne, (hsanitized _).2⟩

/-! ### The calls of the handler -/

section

variable {env : Env} {cfg : Server} {root : Bytes} {req : HttpRequest} {calls : List FsCall}
  (hcalls : ∀ call ∈ calls, call.Within env cfg root)
include hcalls

theorem within_append (call : FsCall) (h : call.Within env cfg root) :
    ∀ call' ∈ calls ++ [call], call'.Within env cfg root := by
  intro call' hmem
  rcases List.mem_append.mp hmem with hmem | hmem
  · exact hcalls call' hmem
  · rw [List.mem_singleton.mp hmem]
    exact h

theorem within_serveStaticFile {fsPath : Bytes} (hpath : Within env cfg root fsPath) :
    ∀ call ∈ (serveStaticFile env req fsPath cfg calls).calls, call.Within env cfg root := by
  have hopen := within_append hcalls (.openRead fsPath) hpath
  have hstat := within_append hopen (.stat fsPath) hpath
  unfold serveStaticFile
  dsimp only
  split
  · exact hopen
  · split
    · exact hstat
    · split
      · exact hstat
      · exact hstat

/-- A listing goes into the directory, and to its entries. -/
theorem within_sendDirectoryListing {fsPath : Bytes} (hpath : Below root fsPath)
    (hslash : fsPath.getLast? = some SLASH) :
    ∀ call ∈ (sendDirectoryListing env req fsPath cfg calls).calls, call.Within env cfg root := by
  have hopen := within_append hcalls (.opendir fsPath) (Or.inl hpath)
  unfold sendDirectoryListing
  dsimp only
  split
  · exact hopen
  · next names hnames =>
    intro call hcall
    rcases List.mem_append.mp hcall with hcall | hcall
    · exact hopen call hcall
    · obtain ⟨name, hname, rfl⟩ := List.mem_map.mp hcall
      obtain ⟨hmem, hshown⟩ := List.mem_filter.mp hname
      rw [decide_eq_true_eq] at hshown
      exact Or.inr ⟨fsPath, name, hpath, hslash,
        .entry names name hnames hmem hshown.1 hshown.2, rfl⟩

theorem within_handlePost {loc : Location} (hloc : loc ∈ cfg.locations) :
    ∀ call ∈ (handlePost env req loc cfg calls).calls, call.Within env cfg root := by
  have hcreate := within_append hcalls
    (.create (withSlash loc.upload ++ uploadName env req))
    ⟨loc, hloc, uploadName env req, rfl, uploadName_spec env req⟩
  unfold handlePost
  dsimp only
  split
  · exact hcalls
  · split
    · exact hcreate
    · split
      · exact hcreate
      · exact hcreate

theorem within_handleDelete {fsPath : Bytes} (hpath : Within env cfg root fsPath) :
    ∀ call ∈ (handleDelete env fsPath req cfg calls).calls, call.Within env cfg root := by
  have hremove := within_append hcalls (.remove fsPath) hpath
  unfold handleDelete
  dsimp only
  split
  · exact hremove
  · exact hremove

theorem within_postTo {loc : Option Location} (hloc : ∀ l ∈ loc, l ∈ cfg.locations) :
    ∀ call ∈ (postTo env req loc cfg calls).calls, call.Within env cfg root := by
  unfold postTo
  split
  · split
    · exact hcalls
    · exact within_handlePost hcalls (hloc _ rfl)
  · exact hcalls

end

/-- The first call is a `stat`. -/
theorem within_stat {env : Env} {cfg : Server} {root fsPath : Bytes} (hpath : Below root fsPath) :
    ∀ call ∈ [FsCall.stat fsPath], call.Within env cfg root := by
  intro call hcall
  rw [List.mem_singleton.mp hcall]
  exact Or.inl hpath

section

variable {env : Env} {cfg : Server} {root : Bytes} {req : HttpRequest} {fsPath : Bytes}
  (hplain : PlainIndexNames cfg) (hpath : Below root fsPath)
include hplain hpath

theorem within_handleSlash {loc : Option Location} (hloc : ∀ l ∈ loc, l ∈ cfg.locations)
    (hslash : fsPath.getLast? = some SLASH) :
    ∀ call ∈ (handleSlash env req loc fsPath cfg).calls, call.Within env cfg root := by
  have hstat : ∀ call ∈ [FsCall.stat fsPath], call.Within env cfg root := within_stat hpath
  have hindex : Within env cfg root (fsPath ++ indexFile loc cfg) :=
    within_index hplain hloc hpath hslash
  have hcalls := within_append hstat (.stat (fsPath ++ indexFile loc cfg)) hindex
  unfold handleSlash
  dsimp only
  split
  · exact hstat
  · split_ifs
    · exact hstat
    · exact within_postTo hstat hloc
    · exact hstat
    · exact within_serveStaticFile hcalls hindex
    · exact within_sendDirectoryListing
        (within_append hcalls (.stat fsPath) (Or.inl hpath)) hpath hslash
    · exact hcalls

theorem within_handleDirectory :
    ∀ call ∈ (handleDirectory env req fsPath cfg).calls, call.Within env cfg root := by
  have hstat : ∀ call ∈ [FsCall.stat fsPath], call.Within env cfg root := within_stat hpath
  have hloc : ∀ l ∈ cfg.matchLocation (withSlash req.path), l ∈ cfg.locations :=
    fun l hl => (Server.mem_of_matchLocation hl).1
  have hindex : Within env cfg root
      (fsPath ++ [SLASH] ++ indexFile (cfg.matchLocation (withSlash req.path)) cfg) :=
    within_index hplain hloc hpath.append_slash List.getLast?_concat
  have hcalls := within_append hstat
    (.stat (fsPath ++ [SLASH] ++ indexFile (cfg.matchLocation (withSlash req.path)) cfg))
    hindex
  unfold handleDirectory
  dsimp only
  split_ifs
  · exact within_postTo hstat hloc
  · exact hstat
  · exact within_serveStaticFile hcalls hindex
  · exact within_sendDirectoryListing hcalls hpath.withSlash (getLast?_withSlash fsPath)
  · exact hcalls

theorem within_handlePlain {loc : Option Location} (hloc : ∀ l ∈ loc, l ∈ cfg.locations) :
    ∀ call ∈ (handlePlain env req loc fsPath cfg).calls, call.Within env cfg root := by
  have hstat : ∀ call ∈ [FsCall.stat fsPath], call.Within env cfg root := within_stat hpath
  unfold handlePlain
  dsimp only
  split
  · exact hstat
  · split_ifs
    · exact within_handleDirectory hplain hpath
    · exact within_serveStaticFile hstat (Or.inl hpath)
    · exact within_postTo hstat hloc
    · exact within_handleDelete hstat (Or.inl hpath)
    · exact hstat

end

/-- The path of a request that is resolved leads below the root of its location. -/
theorem within_handleFile {env : Env} {cfg : Server} {req : HttpRequest}
    (hplain : PlainIndexNames cfg) (hpath : Resolved req.path) (hnul : 0 ∉ req.path) :
    ∀ call ∈ (handleFile env req (cfg.matchLocation req.path) cfg).calls,
      call.Within env cfg (rootOf cfg req.path) := by
  have hloc : ∀ l ∈ cfg.matchLocation req.path, l ∈ cfg.locations :=
    fun l hl => (Server.mem_of_matchLocation hl).1
  obtain ⟨hsuffix, hhead⟩ := sought_spec (cfg.matchLocation req.path) hpath.slash
  have hne : sought (cfg.matchLocation req.path) req.path ≠ [] := by
    intro h
    rw [h] at hhead
    cases hhead
  have heq : resolveFsPath req (cfg.matchLocation req.path) cfg =
      rootOf cfg req.path ++ sought (cfg.matchLocation req.path) req.path :=
    pathUnderRoot_eq cfg req.path
  have hbelow : Below (rootOf cfg req.path) (resolveFsPath req (cfg.matchLocation req.path) cfg) :=
    ⟨_, resolved_sought _ hpath, fun h => hnul (hsuffix.subset h), heq⟩
  unfold handleFile
  dsimp only
  split
  · next hslash =>
    apply within_handleSlash hplain hbelow hloc
    rw [heq, List.getLast?_append_of_ne_nil _ hne, getLast?_suffix hsuffix hne, hslash]
  · exact within_handlePlain hplain hbelow hloc

/-- **The handler stays inside the root.**  Every call is on a path below the root that is
configured for the resolved path, or, for an upload, in the directory of a location; a path
that `normalizePath` refuses is answered with 400 and no call. -/
theorem handle_within (env : Env) {cfg : Server} (hplain : PlainIndexNames cfg)
    {req : HttpRequest} (hnul : 0 ∉ req.path) :
    (normalizePath req.path = [] → handle env req cfg = .error env 400 req cfg []) ∧
      ∀ call ∈ (handle env req cfg).calls,
        call.Within env cfg (rootOf cfg (normalizePath req.path)) := by
  constructor
  · intro h
    unfold handle
    dsimp only
    rw [h]
    rfl
  · unfold handle
    dsimp only
    split
    · intro call hcall
      cases hcall
    · next hpath =>
      obtain ⟨hresolved, hbytes⟩ := normalizePath_spec (List.isEmpty_iff.not.mp hpath)
      have hnul' : 0 ∉ normalizePath req.path := by
        intro h
        rcases hbytes 0 h with h | h
        · exact absurd h (by decide)
        · exact hnul h
      -- behind the gate the calls are those for a file
      have hfile := @within_handleFile env cfg { req with path := normalizePath req.path } hplain
        hresolved hnul'
      split
      · intro call hcall
        cases hcall
      · split
        · next loc hloc =>
          rw [hloc] at hfile
          split
          · intro call hcall
            cases hcall
          · split
            · intro call hcall
              cases hcall
            · exact hfile
        · next hloc =>
          rw [hloc] at hfile
          split
          · intro call hcall
            cases hcall
          · exact hfile

/-- A location with a root of its own, which lists its directories. -/
private def listingServer : Server :=
  { Server.empty with
    root := ascii "/srv/"
    locations := [{ Location.empty with
      path := ascii "/pub"
      root := ascii "/data/"
      indexFiles := [ascii "index.html"]
      autoindex := true }] }

/-- A directory with two entries, and no index file. -/
private def listingFiles : FileSystem :=
  { FileSystem.empty with
    stat := fun p => if p = ascii "/data/a/" then .ok ⟨true, false, 0⟩ else .error .enoent
    opendir := fun _ => .ok [dot, ascii "b"] }

/-- A path with `..` that stays below the root: the directory is looked at, its index
file, and its entry. -/
theorem handle_within_listing :
    (handle ⟨listingFiles, 0, 0⟩ { HttpRequest.new 0 with
      method := ascii "GET", path := ascii "/pub/x/../a/" } listingServer).calls =
      [.stat (ascii "/data/a/"), .stat (ascii "/data/a/index.html"), .stat (ascii "/data/a/"),
        .opendir (ascii "/data/a/"), .stat (ascii "/data/a/b")] ∧
    ∀ call ∈ (handle ⟨listingFiles, 0, 0⟩ { HttpRequest.new 0 with
      method := ascii "GET", path := ascii "/pub/x/../a/" } listingServer).calls,
      call.Within ⟨listingFiles, 0, 0⟩ listingServer
        (rootOf listingServer (normalizePath (ascii "/pub/x/../a/"))) :=
  ⟨by decide +kernel, (handle_within ⟨listingFiles, 0, 0⟩ ⟨by decide, by decide⟩ (by decide)).2⟩

/-- A location that takes uploads, into a directory beside the root. -/
private def uploadingServer : Server :=
  { Server.empty with
    root := ascii "/srv/www"
    locations := [{ Location.empty with
      path := ascii "/up"
      allowedMethods := [ascii "POST"]
      upload := ascii "/srv/up" }] }

/-- The path of the request is that of a directory. -/
private def uploadingFiles : FileSystem :=
  { FileSystem.empty with
    stat := fun p => if p = ascii "/srv/www/up" then .ok ⟨true, false, 0⟩ else .error .enoent }

/-- A request that uploads four bytes. -/
private def uploading : HttpRequest :=
  { HttpRequest.new 1000 with
    method := ascii "POST", path := ascii "/up", body := ⟨ascii "data", 1000⟩ }

/-- **An upload does not stand in the root**, but in the directory of its location. -/
theorem not_handle_withinRoot : ¬ ∀ (env : Env) (cfg : Server) (req : HttpRequest),
    PlainIndexNames cfg → (∀ l ∈ cfg.locations, l.path.head? = some SLASH) → 0 ∉ req.path →
      ∀ call ∈ (handle env req cfg).calls,
        Within env cfg (rootOf cfg (normalizePath req.path)) call.path := by
  intro h
  have hcall : FsCall.create (ascii "/srv/up/upload_0_0") ∈
      (handle ⟨uploadingFiles, 0, 0⟩ uploading uploadingServer).calls := by decide +kernel
  have hroot := (h ⟨uploadingFiles, 0, 0⟩ uploadingServer uploading ⟨by decide, by decide⟩
    (by decide) (by decide) _ hcall).prefix_root
  exact absurd hroot (by decide +kernel)

end Webserv
