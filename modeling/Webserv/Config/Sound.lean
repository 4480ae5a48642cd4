import Webserv.Config.Loading
import Webserv.Config.Routing
import Webserv.Config.Settled

/-!
# Sound configurations

A configuration is checked in three places: where a directive is read, at the end of a server, and
behind the last block.  What comes out at the end satisfies all of it, with and without a file.

## Main results

* `locationStatement_keeps`, `serverStatement_keeps`, `httpPart_keeps` — what a statement keeps.
* `apiConf_sound` — **whatever `API_conf` returns is sound.**
* `ServerConf.Sound.distinct_toServer` — so the server finds the one location of a path.
-/

namespace Webserv

open Bytes Checks Updates

/-! ### Sound servers -/

/-- The methods that the server has. -/
def knownMethods : List Bytes := ["GET", "POST", "DELETE"].map ascii

/-- A limit as a directive gives it. -/
def ReadLimit (limit : ℤ) : Prop := limit ≠ -1 ∧ limit ≤ INT_MAX

instance (limit : ℤ) : Decidable (ReadLimit limit) := inferInstanceAs (Decidable (_ ∧ _))

/-- Pages for codes of redirections and errors. -/
def SoundPages (pages : ErrorPages) : Prop := ∀ code ∈ pages, 300 ≤ code ∧ code ≤ 599

/-- A location that redirects has a code, and no other location has one. -/
def SoundReturn (l : LocationConf) : Prop :=
  (l.redirectEnabled = false ∧ l.returnCode = -1) ∨
    (l.redirectEnabled = true ∧ 300 ≤ l.returnCode ∧ l.returnCode ≤ 399)

instance (l : LocationConf) : Decidable (SoundReturn l) := inferInstanceAs (Decidable (_ ∨ _))

/-- What a `location` block says is in its range. -/
structure LocationConf.WellRead (l : LocationConf) : Prop where
  path : l.path.head? = some SLASH ∧ l.path.all isLocationByte = true
  methods : l.allowedMethods.Nodup ∧ ∀ m ∈ l.allowedMethods, m ∈ knownMethods
  redirect : SoundReturn l
  built : l.cgiMap = CgiConfig.mapOf l.cgiPaths l.cgiExtensions
  limit : ReadLimit l.clientMaxBodySize
  pages : SoundPages l.errorPage

/-- A location that the server can work with. -/
structure LocationConf.Sound (l : LocationConf) : Prop where
  path : l.path.head? = some SLASH ∧ l.path.all isLocationByte = true
  root : l.root ≠ []
  index : l.indexFiles ≠ [] ∧ ∀ name ∈ l.indexFiles, isValidFilename name = true
  methods : l.allowedMethods ≠ [] ∧ l.allowedMethods.Nodup ∧
    ∀ m ∈ l.allowedMethods, m ∈ knownMethods
  redirect : SoundReturn l
  limit : l.clientMaxBodySize ≠ 0 ∧ ReadLimit l.clientMaxBodySize
  interpreters : l.cgiPaths.length = l.cgiExtensions.length ∧ l.cgiExtensions.Nodup ∧
    l.cgiMap = Std.TreeMap.ofList (l.cgiExtensions.zip l.cgiPaths) ∧
      ∀ e ∈ l.cgiMap.toList, e.1 ≠ [] ∧ e.2 ≠ []
  upload : l.upload ≠ [] → ascii "POST" ∈ l.allowedMethods
  pages : SoundPages l.errorPage

/-- A server that can be listened on and asked. -/
structure ServerConf.Sound (s : ServerConf) : Prop where
  host : s.host = ascii "localhost" ∨ isValidHost s.host = true
  port : 1 ≤ s.port ∧ s.port ≤ 65535
  timeout : 1 ≤ s.timeoutSeconds ∧ s.timeoutSeconds ≤ 3600
  root : isRootPath s.root = true
  index : s.indexFiles ≠ [] ∧ ∀ name ∈ s.indexFiles, isIndexFilename name = true
  limit : s.clientMaxBodySize ≠ 0 ∧ ReadLimit s.clientMaxBodySize
  pages : SoundPages s.errorPage
  locations : ∀ l ∈ s.locations, l.Sound
  distinct : (s.locations.map fun l => dropTrailingSlash l.path).Nodup

/-- The servers of a configuration, which are told apart. -/
structure SoundServers (servers : List ServerConf) : Prop where
  some : servers ≠ []
  length : servers.length ≤ MAXSERVERS
  distinct : (servers.map ServerConf.key).Nodup
  servers : ∀ s ∈ servers, s.Sound

/-! ### Values -/

theorem numberIn_between (lo hi : ℤ) (bad range : Report) (v : Bytes) :
    Ensures (fun x => lo ≤ x ∧ x ≤ hi) (numberIn lo hi bad range v) := by
  unfold numberIn
  cases safeStrtol v with
  | none => exact .error bad
  | some n => exact .ite (fun _ => .error range) fun hrange => .ok (by omega)

theorem bodySize_readLimit (sz : Bytes → ℤ) (r : Report) (v : Bytes) :
    Ensures ReadLimit (bodySize sz r v) := by
  refine .ite (fun _ => .error r) fun hrange => .ok ?_
  rw [not_or, not_lt] at hrange
  exact hrange

theorem SoundPages.insert {pages : ErrorPages} (h : SoundPages pages) {code : ℤ} (page : Bytes)
    (hcode : 300 ≤ code ∧ code ≤ 599) : SoundPages (pages.insert code page) := by
  intro c hc
  rcases Std.ExtTreeMap.mem_insert.mp hc with heq | hc
  · rw [← Std.LawfulEqCmp.compare_eq_iff_eq.mp heq]
    exact hcode
  · exact h c hc

theorem errorPageDirective_soundPages (few bad : Report) {pages : ErrorPages}
    (h : SoundPages pages) (values : List Bytes) :
    Ensures SoundPages (errorPageDirective few bad pages values) := by
  refine .ite (fun _ => .error few) fun _ => .foldlM (fun pages v hpages => ?_) _ h
  exact (numberIn_between 300 599 bad bad v).map fun code hcode => hpages.insert _ hcode

/-- Methods that are told apart; `seen` has those that have been there. -/
theorem allowedMethodsFrom_ok (vs : List Bytes) : ∀ {seen methods : List Bytes}, methods.Nodup →
    (∀ m ∈ methods, m ∈ knownMethods) → (∀ m ∈ methods, m ∈ seen) →
    Ensures (fun methods' => methods'.Nodup ∧ ∀ m ∈ methods', m ∈ knownMethods)
      (allowedMethodsFrom seen methods vs) := by
  induction vs with
  | nil => exact fun hnodup hknown _ => .ok ⟨hnodup, hknown⟩
  | cons v vs ih =>
    intro seen methods hnodup hknown hseen
    refine .ite (fun hv => .ite (fun _ => .error _) fun hnew => ?_) fun _ => .error _
    have hnot : v ∉ methods := fun hmem => hnew (List.contains_iff_mem.mpr (hseen v hmem))
    refine ih (List.concat_eq_append ▸ hnodup.concat hnot) ?_ ?_
    · refine List.forall_mem_append.mpr ⟨hknown, ?_⟩
      simpa [knownMethods] using hv
    · refine List.forall_mem_append.mpr ⟨fun m hm => List.mem_cons_of_mem v (hseen m hm), ?_⟩
      simp

/-- A directive that may be there once has not been there. -/
theorem seenOnce_ok (unique seen : List Bytes) (msg : String) (d : Bytes) :
    Ensures (fun seen' => (d ∈ unique → d ∉ seen ∧ d ∈ seen') ∧ seen ⊆ seen')
      (seenOnce unique msg seen d) := by
  refine .ite (fun _ => .ite (fun _ => .error _) fun hnew => .ok ?_) fun hfree => .ok ?_
  · rw [List.contains_iff_mem] at hnew
    exact ⟨fun _ => ⟨hnew, List.mem_cons_self⟩, List.subset_cons_self d seen⟩
  · rw [List.contains_iff_mem] at hfree
    exact ⟨fun hd => absurd hd hfree, List.Subset.refl seen⟩

/-! ### Locations -/

variable (sz : Bytes → ℤ)

/-- A value of `return`. -/
theorem returnDirective_wellRead {l : LocationConf} (hl : l.WellRead) (values : List Bytes) :
    Ensures (fun l' => l'.WellRead ∧ l'.allowedMethods = l.allowedMethods)
      (returnDirective l values) := by
  unfold returnDirective
  split
  · refine (numberIn_between 300 399 _ _ _).map fun code hcode => ?_
    have henabled : code ≠ -1 := by omega
    exact ⟨⟨hl.path, hl.methods, .inr ⟨decide_eq_true henabled, hcode⟩, hl.built, hl.limit,
      hl.pages⟩, rfl⟩
  · exact .error _

/-- **A directive of a location** that the block may have once keeps what is said in range. -/
theorem locationDirective_wellRead {l : LocationConf} (hl : l.WellRead) {d : Bytes}
    (hfirst : d = ascii "allowed_methods" → l.allowedMethods = []) (values : List Bytes) :
    Ensures (fun l' => l'.WellRead ∧
      (d ≠ ascii "allowed_methods" → l'.allowedMethods = l.allowedMethods))
      (locationDirective sz l d values) := by
  -- one case for each name, and the refusals between them
  refine .ite (fun _ => .error _) fun _ => .ite ?root fun _ => .ite ?index fun _ =>
    .ite ?methods fun _ => .ite ?autoindex fun _ => .ite ?cgiPath fun _ => .ite ?cgiExt fun _ =>
    .ite ?upload fun _ => .ite ?size fun _ => .ite ?pages fun _ => .ite ?redirect fun _ => .error _
  case root =>
    exact fun _ => (Ensures.result _).bind fun v _ =>
      .ok ⟨⟨hl.path, hl.methods, hl.redirect, hl.built, hl.limit, hl.pages⟩, fun _ => rfl⟩
  case index =>
    exact fun _ =>
      .ok ⟨⟨hl.path, hl.methods, hl.redirect, hl.built, hl.limit, hl.pages⟩, fun _ => rfl⟩
  case methods =>
    intro hname
    rw [hfirst hname]
    refine (allowedMethodsFrom_ok values List.nodup_nil (by simp) (by simp)).bind
      fun methods hmethods => .ok ⟨?_, fun hne => absurd hname hne⟩
    exact ⟨hl.path, hmethods, hl.redirect, hl.built, hl.limit, hl.pages⟩
  case autoindex =>
    have hset : ∀ b, LocationConf.WellRead { l with autoindex := b } := fun b =>
      ⟨hl.path, hl.methods, hl.redirect, hl.built, hl.limit, hl.pages⟩
    exact fun _ => (Ensures.result _).bind fun v _ => .ite (fun _ => .ok ⟨hset _, fun _ => rfl⟩)
      fun _ => .ite (fun _ => .ok ⟨hset _, fun _ => rfl⟩) fun _ => .error _
  case cgiPath =>
    exact fun _ => .ok ⟨⟨hl.path, hl.methods, hl.redirect, rfl, hl.limit, hl.pages⟩, fun _ => rfl⟩
  case cgiExt =>
    exact fun _ => .ok ⟨⟨hl.path, hl.methods, hl.redirect, rfl, hl.limit, hl.pages⟩, fun _ => rfl⟩
  case upload =>
    exact fun _ => (Ensures.result _).bind fun v _ =>
      .ok ⟨⟨hl.path, hl.methods, hl.redirect, hl.built, hl.limit, hl.pages⟩, fun _ => rfl⟩
  case size =>
    exact fun _ => (Ensures.result _).bind fun v _ => (bodySize_readLimit sz _ v).bind
      fun size hsize =>
        .ok ⟨⟨hl.path, hl.methods, hl.redirect, hl.built, hsize, hl.pages⟩, fun _ => rfl⟩
  case pages =>
    exact fun _ => (errorPageDirective_soundPages _ _ hl.pages values).bind fun pages hpages =>
      .ok ⟨⟨hl.path, hl.methods, hl.redirect, hl.built, hl.limit, hpages⟩, fun _ => rfl⟩
  case redirect =>
    exact fun _ => (returnDirective_wellRead hl values).imp fun l' hl' => ⟨hl'.1, fun _ => hl'.2⟩

/-- What holds while a location is read; `x.2` are the directives that have been there. -/
structure LocationReading (x : LocationConf × List Bytes) : Prop where
  wellRead : x.1.WellRead
  first : ascii "allowed_methods" ∉ x.2 → x.1.allowedMethods = []

/-- **What a directive of a location keeps.** -/
theorem locationStatement_keeps (x : LocationConf × List Bytes) (d : Directive)
    (hx : LocationReading x) : Ensures LocationReading (locationStatement sz x d) := by
  have honce : ascii "allowed_methods" ∈ locationUnique := by decide
  refine (seenOnce_ok _ _ _ _).bind fun seen ⟨hnew, hsub⟩ => ?_
  have hfirst : d.name = ascii "allowed_methods" → x.1.allowedMethods = [] := by
    intro hname
    rw [hname] at hnew
    exact hx.first (hnew honce).1
  refine (locationDirective_wellRead sz hx.wellRead hfirst d.values).bind fun l hl =>
    .ok ⟨hl.1, fun hnot => ?_⟩
  have hname : d.name ≠ ascii "allowed_methods" := by
    intro hname
    rw [hname] at hnew
    exact hnot (hnew honce).2
  exact (hl.2 hname).trans (hx.first fun hold => hnot (hsub hold))

theorem checkLocationPath_ok (path : Bytes) :
    Ensures (fun _ => path.head? = some SLASH ∧ path.all isLocationByte = true)
      (checkLocationPath path) := by
  refine .ite (fun _ => .error _) fun _ => .ite (fun _ => .error _) fun hhead =>
    .ite (fun _ => .error _) fun hbytes => .ok ⟨not_not.mp hhead, ?_⟩
  rwa [Bool.not_eq_true', Bool.not_eq_false] at hbytes

/-- **A location block** is in its range where the server above it is. -/
theorem locationOf_wellRead {s : ServerConf} (hlimit : ReadLimit s.clientMaxBodySize)
    (hpages : SoundPages s.errorPage) (path : Bytes) (body : List Directive) :
    Ensures LocationConf.WellRead (locationOf sz (.ofServer s) path body) := by
  refine (checkLocationPath_ok path).bind fun _ hpath =>
    (Ensures.foldlM (locationStatement_keeps sz) body ⟨?_, fun _ => rfl⟩).bind fun x hx =>
      .ok hx.wellRead
  exact ⟨hpath, ⟨List.nodup_nil, fun m hm => absurd hm List.not_mem_nil⟩, .inl ⟨rfl, rfl⟩, rfl,
    hlimit, hpages⟩

/-- A location that has its methods. -/
def LocationConf.Ready (l : LocationConf) : Prop := l.WellRead ∧ l.allowedMethods ≠ []

theorem LocationConf.WellRead.ready {l : LocationConf} (h : l.WellRead) :
    l.checkForAllowedMethods.Ready := by
  unfold LocationConf.checkForAllowedMethods
  split
  · refine ⟨⟨h.path, ⟨List.nodup_singleton _, ?_⟩, h.redirect, h.built, h.limit, h.pages⟩,
      List.cons_ne_nil _ _⟩
    simp [knownMethods]
  · next hsome => exact ⟨h, by simpa using hsome⟩

/-! ### Servers -/

/-- A host that can be listened on. -/
def SoundHost (host : Bytes) : Prop := host = ascii "localhost" ∨ isValidHost host = true

/-- What a `server` block says is in its range, as far as it has been read. -/
structure ServerConf.WellRead (s : ServerConf) : Prop where
  address : s.port = -1 ∨ ((1 ≤ s.port ∧ s.port ≤ 65535) ∧ SoundHost s.host)
  timeout : s.timeoutSeconds = 0 ∨ (1 ≤ s.timeoutSeconds ∧ s.timeoutSeconds ≤ 3600)
  limit : ReadLimit s.clientMaxBodySize
  pages : SoundPages s.errorPage
  locations : ∀ l ∈ s.locations, l.Ready

theorem listenHost_ok (host : Bytes) : Ensures SoundHost (listenHost host) :=
  .ite (fun _ => .ok (.inr (by decide +kernel))) fun _ => .ite (fun h => .ok (.inl h)) fun _ =>
    .ite (fun h => .ok (.inr h)) fun _ => .error _

/-- **What `listen` sets** can be listened on. -/
theorem listenDirective_wellRead {s : ServerConf} (hs : s.WellRead) (val : Bytes) :
    Ensures ServerConf.WellRead (listenDirective s val) := by
  have hset : ∀ {host : Bytes} {port : ℤ}, SoundHost host → 1 ≤ port ∧ port ≤ 65535 →
      ServerConf.WellRead { s with host, port } := fun hhost hport =>
    ⟨.inr ⟨hport, hhost⟩, hs.timeout, hs.limit, hs.pages, hs.locations⟩
  have hany : SoundHost (ascii "0.0.0.0") := .inr (by decide +kernel)
  refine .ite (fun _ => (listenHost_ok _).bind fun host hhost => (numberIn_between _ _ _ _ _).bind
    fun port hport => .ok (hset hhost hport)) fun _ => ?_
  cases safeStrtol val with
  | some n =>
    have hrange : Ensures (fun port => 1 ≤ port ∧ port ≤ 65535)
        (intInRange 1 65535 portRange n) :=
      .ite (fun _ => .error _) fun h => .ok (by omega)
    exact hrange.map fun port hport => hset hany hport
  | none => exact .ite (fun h => .ok (hset (.inr h) (by decide))) fun _ => .error _

/-- **A directive of a server** keeps what is said in range. -/
theorem serverDirective_wellRead {s : ServerConf} (hs : s.WellRead) (d : Bytes)
    (values : List Bytes) : Ensures ServerConf.WellRead (serverDirective sz s d values) := by
  refine .ite (fun _ => .error _) fun _ => .ite ?listen fun _ => .ite ?root fun _ =>
    .ite ?index fun _ => .ite ?serverName fun _ => .ite ?size fun _ => .ite ?timeout fun _ =>
    .ite ?pages fun _ => .ite (fun _ => .error _) fun _ => .error _
  case listen => exact fun _ => (Ensures.result _).bind fun v _ => listenDirective_wellRead hs v
  case root =>
    exact fun _ => (Ensures.result _).bind fun v _ =>
      .ok ⟨hs.address, hs.timeout, hs.limit, hs.pages, hs.locations⟩
  case index =>
    exact fun _ => (Ensures.result _).bind fun files _ =>
      .ok ⟨hs.address, hs.timeout, hs.limit, hs.pages, hs.locations⟩
  case serverName =>
    exact fun _ => .ok ⟨hs.address, hs.timeout, hs.limit, hs.pages, hs.locations⟩
  case size =>
    exact fun _ => (Ensures.result _).bind fun v _ => (bodySize_readLimit sz _ v).bind
      fun size hsize => .ok ⟨hs.address, hs.timeout, hsize, hs.pages, hs.locations⟩
  case timeout =>
    exact fun _ => (Ensures.result _).bind fun v _ => (numberIn_between _ _ _ _ _).bind
      fun seconds hseconds => .ok ⟨hs.address, .inr hseconds, hs.limit, hs.pages, hs.locations⟩
  case pages =>
    exact fun _ => (errorPageDirective_soundPages _ _ hs.pages values).bind fun pages hpages =>
      .ok ⟨hs.address, hs.timeout, hs.limit, hpages, hs.locations⟩

/-- **What a statement of a server keeps.** -/
theorem serverStatement_keeps (x : ServerConf × List Bytes) (st : Statement)
    (hx : x.1.WellRead) : Ensures (fun x => x.1.WellRead) (serverStatement sz x st) := by
  cases st with
  | directive d =>
    exact (Ensures.result _).bind fun seen _ =>
      (serverDirective_wellRead sz hx d.name d.values).bind fun s hs => .ok hs
  | location path body =>
    refine (locationOf_wellRead sz hx.limit hx.pages path body).bind fun l hl =>
      .ok ⟨hx.address, hx.timeout, hx.limit, hx.pages, ?_⟩
    refine List.forall_mem_append.mpr ⟨hx.locations, fun l' hl' => ?_⟩
    rw [List.mem_singleton.mp hl']
    exact hl.ready

/-! ### The end of a server -/

/-- A location behind the second pass. -/
structure LocationConf.Closed (l : LocationConf) : Prop where
  ready : l.Ready
  root : l.root ≠ []
  index : l.indexFiles ≠ []

/-- A server behind its block. -/
structure ServerConf.Closed (s : ServerConf) : Prop where
  host : SoundHost s.host
  port : 1 ≤ s.port ∧ s.port ≤ 65535
  timeout : 1 ≤ s.timeoutSeconds ∧ s.timeoutSeconds ≤ 3600
  index : s.indexFiles ≠ [] ∧ ∀ name ∈ s.indexFiles, isIndexFilename name = true
  limit : ReadLimit s.clientMaxBodySize
  pages : SoundPages s.errorPage
  locations : ∀ l ∈ s.locations, l.Closed
  distinct : (s.locations.map fun l => dropTrailingSlash l.path).Nodup

theorem validateIndexFilenames_ok (place : Bytes) : ∀ names : List Bytes,
    Ensures (fun _ => ∀ name ∈ names, isIndexFilename name = true)
      (validateIndexFilenames place names)
  | [] => .ok fun _ h => absurd h List.not_mem_nil
  | _ :: names =>
    .ite (fun hname => (validateIndexFilenames_ok place names).imp fun _ hnames =>
      List.forall_mem_cons.mpr ⟨hname, hnames⟩) fun _ => .error _

/-- The directives that are there. -/
theorem requireDirectives_ok (s : ServerConf) :
    Ensures (fun _ => s.port ≠ -1 ∧ s.root ≠ [] ∧ s.indexFiles ≠ [] ∧
      (∀ name ∈ s.indexFiles, isIndexFilename name = true) ∧ 0 < s.timeoutSeconds)
      (requireDirectives s) := by
  refine .ite (fun _ => .error _) fun hport => .ite (fun _ => .error _) fun hroot =>
    .ite (fun _ => .error _) fun hindex => (validateIndexFilenames_ok _ _).bind fun _ hnames =>
      .ite (fun _ => .error _) fun htimeout => .ok ⟨hport, ?_, ?_, hnames, not_le.mp htimeout⟩
  · exact fun h => hroot (List.isEmpty_iff.mpr h)
  · exact fun h => hindex (List.isEmpty_iff.mpr h)

/-- The paths of locations are verified as those of a server are. -/
theorem verifyingPaths_ok : ∀ (ls : List LocationConf) (seen : List Bytes),
    Ensures (fun _ => verifyPaths seen (ls.map (·.toLocation)) = .ok ()) (verifyingPaths seen ls)
  | [], _ => .ok rfl
  | l :: ls, seen => by
    refine .ite (fun _ => .error _) fun hnew => (verifyingPaths_ok ls _).imp fun _ h => ?_
    rw [List.map_cons, verifyPaths]
    exact (if_neg hnew).trans h

/-- **The second pass**: a location has what it needs. -/
theorem LocationConf.Ready.inherit {l : LocationConf} (h : l.Ready) {s : ServerConf}
    (hroot : s.root ≠ []) (hlimit : ReadLimit s.clientMaxBodySize)
    (hpages : SoundPages s.errorPage) : (l.inherit s).Closed := by
  obtain ⟨hread, hmethods⟩ := h
  rw [inherit_eq]
  refine ⟨⟨⟨hread.path, hread.methods, hread.redirect, hread.built, ?_, ?_⟩, hmethods⟩, ?_, ?_⟩
  · change ReadLimit (if _ then _ else _)
    split
    · exact hlimit
    · exact hread.limit
  · change SoundPages (settlePages _ _)
    unfold settlePages
    split
    · exact hpages
    · exact hread.pages
  · change (if l.root.isEmpty then s.root else l.root) ≠ []
    split
    · exact hroot
    · next h => simpa using h
  · change (if l.indexFiles.isEmpty then _ else l.indexFiles) ≠ []
    split
    · exact List.cons_ne_nil _ _
    · next h => simpa using h

/-- **The end of a server block.** -/
theorem closedServer_closed {s : ServerConf} (hs : s.WellRead) :
    Ensures ServerConf.Closed (closedServer s) := by
  refine (requireDirectives_ok s).bind fun _ ⟨hport, hroot, hindex, hnames, htimeout⟩ =>
    (Ensures.result _).bind fun _ _ => (verifyingPaths_ok s.close.locations []).bind
      fun _ hpaths => .ok ?_
  obtain ⟨hrange, hhost⟩ := hs.address.resolve_left hport
  refine ⟨hhost, hrange, hs.timeout.resolve_left (by omega), ⟨hindex, hnames⟩, hs.limit, hs.pages,
    ?_, ?_⟩
  · intro l' hl'
    obtain ⟨l, hl, rfl⟩ := List.mem_map.mp hl'
    exact (hs.locations l hl).inherit hroot hs.limit hs.pages
  · have hdistinct := ((verifyPaths_eq_ok_iff _ _).mp hpaths).1
    rwa [List.map_map] at hdistinct

/-! ### Configurations -/

/-- What has been read of a configuration. -/
structure ParserConf.WellRead (p : ParserConf) : Prop where
  limit : ReadLimit p.http.clientMaxBodySize
  pages : SoundPages p.http.errorPage
  servers : ∀ s ∈ p.http.servers, s.Closed
  some : p.existServer = true → p.http.servers ≠ []

theorem serverBlock_closed {http : HttpConf} (hlimit : ReadLimit http.clientMaxBodySize)
    (hpages : SoundPages http.errorPage) (block : List Statement) :
    Ensures ServerConf.Closed (serverBlock sz (.ofHttp http) block) := by
  have hstart : (ServerConf.ofHttp http).WellRead :=
    ⟨.inl rfl, .inl rfl, hlimit, hpages, fun l hl => absurd hl List.not_mem_nil⟩
  exact (Ensures.foldlM (serverStatement_keeps sz) block hstart).bind fun x hx =>
    closedServer_closed hx

/-- **What a part of the http block keeps.** -/
theorem httpPart_keeps (p : ParserConf) (part : HttpPart) (hp : p.WellRead) :
    Ensures ParserConf.WellRead (httpPart sz p part) := by
  cases part with
  | directive d =>
    have hhttp : Ensures (fun http : HttpConf => ReadLimit http.clientMaxBodySize ∧
        SoundPages http.errorPage ∧ http.servers = p.http.servers)
          (httpDirective sz p.http d.name d.values) := by
      refine .ite (fun _ => .error _) fun _ => .ite ?size fun _ => .ite ?pages fun _ => .error _
      case size =>
        exact fun _ => (Ensures.result _).bind fun v _ => (bodySize_readLimit sz _ v).bind
          fun size hsize => .ok ⟨hsize, hp.pages, rfl⟩
      case pages =>
        exact fun _ => (errorPageDirective_soundPages _ _ hp.pages d.values).bind
          fun pages hpages => .ok ⟨hp.limit, hpages, rfl⟩
    refine hhttp.bind fun http ⟨hlimit, hpages, hservers⟩ => .ok ⟨hlimit, hpages, ?_, ?_⟩
    · exact fun s hs => hp.servers s (hservers ▸ hs)
    · exact fun hthere => hservers ▸ hp.some hthere
  | server block =>
    refine (serverBlock_closed sz hp.limit hp.pages block).bind fun s hs =>
      .ok ⟨hp.limit, hp.pages, ?_, fun _ => List.append_ne_nil_of_right_ne_nil _ (by simp)⟩
    refine List.forall_mem_append.mpr ⟨hp.servers, fun s' hs' => ?_⟩
    rw [List.mem_singleton.mp hs']
    exact hs

/-- **What is read of a configuration** is in its range. -/
theorem conf_wellRead (doc : Document) : Ensures ParserConf.WellRead (doc.conf sz) := by
  have hstart : ParserConf.empty.WellRead :=
    ⟨⟨by decide, by decide⟩, fun c hc => absurd hc Std.ExtTreeMap.not_mem_empty,
      fun s hs => absurd hs List.not_mem_nil, fun h => absurd h Bool.false_ne_true⟩
  refine .foldlM (fun p part hp => ?_) doc hstart
  cases part with
  | events body =>
    exact (Ensures.result _).bind fun events _ => .ok ⟨hp.limit, hp.pages, hp.servers, hp.some⟩
  | http body =>
    exact .ite (fun _ => .error _) fun _ => .foldlM (httpPart_keeps sz) body
      ⟨hp.limit, hp.pages, hp.servers, hp.some⟩

/-! ### The last checks -/

variable (fs : ConfFiles)

/-- A location whose limit has been settled. -/
theorem LocationConf.Closed.sound {l : LocationConf} (h : l.Closed) (hpasses : l.Passes fs)
    {size : ℤ} (hsize : size ≠ 0 ∧ ReadLimit size) : (l.withLimit size).Sound := by
  obtain ⟨⟨hread, hmethods⟩, hroot, hindex⟩ := h
  have hlists := CgiConfig.Built.lists hread.built hpasses.lists
  refine ⟨hread.path, hroot, ⟨hindex, hpasses.index⟩, ⟨hmethods, hread.methods⟩, hread.redirect,
    ⟨l.withLimit_ne hsize.1, ?_⟩, ⟨hlists.1, hlists.2.1, hlists.2.2, ?_⟩, ?_, hread.pages⟩
  · change ReadLimit (if _ then _ else _)
    split
    · exact hsize.2
    · exact hread.limit
  · exact fun e he => ⟨(hpasses.interpreters e he).1, (hpasses.interpreters e he).2.1⟩
  · exact fun hupload => (hpasses.upload hupload).2.2 hmethods

theorem ServerConf.withLimit_readLimit {s : ServerConf} {http : ℤ}
    (hs : ReadLimit s.clientMaxBodySize) (hhttp : ReadLimit http) :
    ReadLimit (s.withLimit http).clientMaxBodySize := by
  unfold ServerConf.withLimit
  dsimp only
  split_ifs
  · exact hhttp
  · exact ⟨by decide, by decide⟩
  · exact hs

theorem ServerConf.Closed.sound {s : ServerConf} (h : s.Closed) (hpasses : s.Passes fs) {http : ℤ}
    (hhttp : ReadLimit http) : (s.withLimits http).Sound := by
  have hlimit : (s.withLimit http).clientMaxBodySize ≠ 0 ∧
      ReadLimit (s.withLimit http).clientMaxBodySize :=
    ⟨s.withLimit_ne http, s.withLimit_readLimit h.limit hhttp⟩
  refine ⟨h.host, h.port, h.timeout, hpasses.isRootPath, h.index, hlimit, h.pages, ?_, ?_⟩
  · intro l' hl'
    obtain ⟨l, hl, rfl⟩ := List.mem_map.mp hl'
    exact (h.locations l hl).sound fs (hpasses.locations l hl) hlimit
  · change ((s.locations.map _).map fun l : LocationConf => dropTrailingSlash l.path).Nodup
    rw [List.map_map]
    exact h.distinct

/-- **The end of `parsing_lexems`.** -/
theorem closeParser_sound {p : ParserConf} (hp : p.WellRead) :
    Ensures SoundServers (closeParser fs p) := by
  intro finals h
  obtain ⟨hblocks, h⟩ := check_bind_eq_ok_iff.mp h
  rw [require_eq_ok_iff, Bool.and_eq_true] at hblocks
  obtain ⟨hlength, hdistinct, hpasses, rfl⟩ := validateFinalConfig_eq_ok_iff.mp h
  refine ⟨?_, ?_, ?_, ?_⟩
  · exact mt List.map_eq_nil_iff.mp (hp.some hblocks.2)
  · rwa [List.length_map]
  · rw [List.map_map]
    exact hdistinct
  · intro s' hs'
    obtain ⟨s, hs, rfl⟩ := List.mem_map.mp hs'
    refine (hp.servers s hs).sound fs (hpasses s hs) ?_
    split
    · exact ⟨by decide, by decide⟩
    · exact hp.limit

/-! ### The server without a file -/

theorem SoundPages.setAll {pages : ErrorPages} (h : SoundPages pages) {entries : List (ℤ × Bytes)}
    (hentries : ∀ e ∈ entries, 300 ≤ e.1 ∧ e.1 ≤ 599) : SoundPages (setAll pages entries) := by
  induction entries generalizing pages with
  | nil => exact h
  | cons e entries ih =>
    rw [List.forall_mem_cons] at hentries
    exact ih (h.insert e.2 hentries.1) hentries.2

theorem defaultPages_range : ∀ e ∈ defaultPages, 300 ≤ e.1 ∧ e.1 ≤ 599 := by decide

theorem LocationConf.Sound.withPages {l : LocationConf} (h : l.Sound) {pages : ErrorPages}
    (hpages : SoundPages pages) : LocationConf.Sound { l with errorPage := pages } :=
  ⟨h.path, h.root, h.index, h.methods, h.redirect, h.limit, h.interpreters, h.upload, hpages⟩

/-- **The default locations** are sound, whatever location they are made from. -/
theorem setDefaultConf_sound {l : LocationConf} (hpages : SoundPages l.errorPage) {num : ℕ}
    (hnum : num ≤ 5) : (l.setDefaultConf num).Sound := by
  have hempty : SoundPages (setAll (∅ : ErrorPages) defaultPages) :=
    SoundPages.setAll (fun c hc => absurd hc Std.ExtTreeMap.not_mem_empty) defaultPages_range
  have hsame : l.setDefaultConf num = { LocationConf.empty.setDefaultConf num with
      errorPage := setAll l.errorPage defaultPages } := by
    interval_cases num <;> rfl
  rw [hsame]
  refine LocationConf.Sound.withPages ?_ (hpages.setAll defaultPages_range)
  interval_cases num <;>
    exact ⟨by decide, by decide, by decide, by decide, by decide, by decide,
      ⟨rfl, by decide, rfl, by decide⟩, by decide, hempty⟩

theorem defaultLocations_sound : ∀ (nums : List ℕ) {l : LocationConf}, SoundPages l.errorPage →
    (∀ num ∈ nums, num ≤ 5) → ∀ l' ∈ defaultLocations l nums, l'.Sound
  | [], _, _, _ => fun l' hl' => absurd hl' List.not_mem_nil
  | num :: nums, l, hpages, hnums => by
    rw [List.forall_mem_cons] at hnums
    have hsound := setDefaultConf_sound hpages hnums.1
    exact List.forall_mem_cons.mpr ⟨hsound, defaultLocations_sound nums hsound.pages hnums.2⟩

theorem setDefaultConf_empty_sound : ServerConf.empty.setDefaultConf.Sound := by
  have hpages : SoundPages (∅ : ErrorPages) := fun c hc => absurd hc Std.ExtTreeMap.not_mem_empty
  refine ⟨.inl rfl, by decide, by decide, by decide, by decide, by decide, ?_, ?_, by decide⟩
  · exact hpages.setAll defaultPages_range
  · exact defaultLocations_sound _ hpages (by decide)

/-- **Whatever `API_conf` returns is sound**, with a file and without one. -/
theorem apiConf_sound {argv : List Bytes} {servers : List ServerConf}
    (h : apiConf sz fs argv = .ok servers) : SoundServers servers := by
  unfold apiConf at h
  split at h
  · cases h
    refine ⟨List.cons_ne_nil _ _, by decide, List.nodup_singleton _, ?_⟩
    exact List.forall_mem_singleton.mpr setDefaultConf_empty_sound
  · split at h
    · obtain ⟨-, text, -, -, doc, -, -, hservers⟩ := (loadFile_eq_ok_iff sz fs).mp h
      have hread := (conf_wellRead sz doc).mapError Report.msg
      exact hread.bind (fun p hp => closeParser_sound fs hp) _ hservers
    · cases h

theorem apiConf_sound_smallServer : SoundServers [smallServer] := by
  have hwritten : ∀ w ∈ smallDocument.words, isWritten w = true := by decide +kernel
  have hload : loadFile (fun _ => 1) smallFiles (ascii "a.conf") = .ok [smallServer] :=
    (loadFile_eq_ok_iff _ _).mpr ⟨⟨[97], by decide⟩, _, rfl, checkValidContent_written hwritten,
      smallDocument, by decide, laid_written hwritten, rfl⟩
  exact apiConf_sound (fun _ => 1) smallFiles (show apiConf _ _ [[], ascii "a.conf"] = _ from hload)

/-! ### The servers of the program -/

/-- A server as the rest of the program has it. -/
def ServerConf.toServer (s : ServerConf) : Server where
  host := s.host
  port := s.port
  timeoutSeconds := s.timeoutSeconds
  root := s.root
  clientMaxBodySize := s.clientMaxBodySize
  indexFiles := s.indexFiles
  serverName := s.serverName
  errorPage := Std.TreeMap.ofList (s.errorPage.toList.map fun e => (e.1.toNat, e.2))
  locations := s.locations.map (·.toLocation)

/-- **A path has one location** of a sound server that fits it best, in whatever order they are. -/
theorem ServerConf.Sound.distinct_toServer {s : ServerConf} (h : s.Sound) :
    s.toServer.Distinct := by
  rw [Server.Distinct, ServerConf.toServer, List.map_map]
  exact h.distinct

end Webserv
