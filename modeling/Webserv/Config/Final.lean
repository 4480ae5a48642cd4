import Webserv.Config.Parser
import Webserv.Lib.Checks

/-!
# The last checks of a configuration

`validate_final_config` looks at the servers that the parser has made: two servers of one port are
told apart by their names, directories and pages have to be there, and a limit that is still 0 is
replaced.

## Main results

* `validateFinalConfig_eq_ok_iff` — what is accepted, and what is made of it.
* `validateFinalConfig_perm` — **servers are accepted in any order, and again.**
-/

namespace Webserv

open Bytes Checks

/-! ### What the kernel tells -/

/-- The modes that `access` is asked for. -/
inductive AccessMode where
  | executable
  | readable
  | writable
  deriving DecidableEq, Repr

/-- What the kernel tells about a path while the configuration is read. -/
structure ConfFiles where
  /-- The bytes of a file that can be opened. -/
  content : Bytes → Option Bytes
  /-- `st_mode`, where `stat` succeeds. -/
  mode : Bytes → Option ℕ
  access : Bytes → AccessMode → Bool

/-- The mode bit of a directory. -/
def S_IFDIR : ℕ := 0o040000

/-- The mode bit of a regular file. -/
def S_IFREG : ℕ := 0o100000

namespace ConfFiles

variable (fs : ConfFiles)

/-- `is_directory`, which looks at one bit of the mode. -/
def isDirectory (path : Bytes) : Bool := (fs.mode path).any fun m => m &&& S_IFDIR != 0

/-- `is_regular_file`, which looks at one bit of the mode. -/
def isRegularFile (path : Bytes) : Bool := (fs.mode path).any fun m => m &&& S_IFREG != 0

/-- `is_executable`. -/
def isExecutable (path : Bytes) : Bool := fs.access path .executable

/-- `is_readable`. -/
def isReadable (path : Bytes) : Bool := fs.access path .readable

end ConfFiles

/-- `is_valid_filename`. -/
def isValidFilename (name : Bytes) : Bool :=
  !(name.isEmpty || name == ascii "." || name == ascii "..") && !name.contains SLASH &&
    name.head? != some DOT && name.getLast? != some DOT && name.contains DOT

/-! ### One location -/

variable (fs : ConfFiles)

/-- What is wrong with a server or location. -/
def fatal (id : Bytes) (text : String) (value : Bytes) : Bytes :=
  ascii "[fatal]" ++ id ++ ascii text ++ value

/-- The bytes of a path that an error page may be read from. -/
def pageThere (path : Bytes) : Bool := fs.isRegularFile path && fs.isReadable path

/-- One interpreter. -/
def validateInterpreter (id : Bytes) (entry : Bytes × Bytes) : Except Bytes Unit := do
  require (!entry.1.isEmpty && !entry.2.isEmpty)
    (fatal id ": CGI map contains an empty extension or binary path." [])
  require (fs.isExecutable entry.2)
    (fatal id ": CGI binary not executable for " (entry.1 ++ ascii " : " ++ entry.2))

/-- The directory that uploads go to, which nobody can fill without `POST`. -/
def validateUpload (id : Bytes) (l : LocationConf) : Except Bytes Unit :=
  if l.upload.isEmpty then .ok ()
  else do
    require (fs.isDirectory l.upload && fs.access l.upload .writable)
      (fatal id ": Upload directory not found or not writable: " l.upload)
    require (l.allowedMethods.isEmpty || l.allowedMethods.contains (ascii "POST"))
      (fatal id ": upload_path requires POST in allowed_methods" [])

/-- The limit of a location; `size` is that of its server. -/
def LocationConf.withLimit (size : ℤ) (l : LocationConf) : LocationConf :=
  { l with clientMaxBodySize := if l.clientMaxBodySize = 0 then size else l.clientMaxBodySize }

/-- One round of the loop over the locations. -/
def validateLocation (serverId : Bytes) (size : ℤ) (l : LocationConf) :
    Except Bytes LocationConf := do
  let id := serverId ++ ascii " [" ++ l.path ++ ascii "]"
  require (fs.isDirectory l.root) (fatal serverId ": Location root not found: " l.root)
  l.indexFiles.forM fun idx =>
    require (isValidFilename idx) (fatal id ": Invalid index filename: " idx)
  require (!(CgiConfig.mk l.cgiPaths l.cgiExtensions l.cgiMap).hasPartialCgiConfig)
    (fatal id ": CGI requires the same number of paths and extensions." [])
  l.cgiMap.toList.forM (validateInterpreter fs id)
  validateUpload fs id l
  l.errorPage.toList.forM fun e =>
    require (pageThere fs e.2) (fatal id ": Error page file not found: " e.2)
  .ok (l.withLimit size)

/-! ### One server -/

/-- `server_id`. -/
def serverId (s : ServerConf) : Bytes := ascii "Server on port " ++ decimalInt s.port

/-- A root that is absolute or relative. -/
def isRootPath (root : Bytes) : Bool := root.head? == some DOT || root.head? == some SLASH

/-- One error page of a server. -/
def validateServerPage (id : Bytes) (e : ℤ × Bytes) : Except Bytes Unit := do
  require (300 ≤ e.1 && e.1 ≤ 599) (fatal id ": Invalid error code" [])
  require (pageThere fs e.2) (fatal id ": Error page file not found or unreadable: " e.2)

/-- The limit of a server; `http` is that of the http block. -/
def ServerConf.withLimit (http : ℤ) (s : ServerConf) : ServerConf :=
  { s with clientMaxBodySize :=
      if s.clientMaxBodySize = 0 then if 0 < http then http else 1048576
      else s.clientMaxBodySize }

/-- One round of the loop over the servers, behind the check of the names. -/
def validateServer (http : ℤ) (s : ServerConf) : Except Bytes ServerConf := do
  require (isRootPath s.root)
    (ascii "[fatal] " ++ serverId s ++ ascii " : Root path must be absolute or relative (./).")
  require (fs.isDirectory s.root) (fatal (serverId s) " : Root directory not found: " s.root)
  s.errorPage.toList.forM (validateServerPage fs (serverId s))
  let s := s.withLimit http
  let locations ← s.locations.mapM (validateLocation fs (serverId s) s.clientMaxBodySize)
  .ok { s with locations }

/-! ### All servers -/

/-- `MAXSERVERS`. -/
def MAXSERVERS : ℕ := 20

/-- What tells a server from the others. -/
def ServerConf.key (s : ServerConf) : ℤ × Bytes := (s.port, s.serverName)

/-- `validate_final_config`; `http` is the limit of the http block. -/
def validateFinalConfig (http : ℤ) (servers : List ServerConf) : Except Bytes (List ServerConf) :=
  if MAXSERVERS < servers.length then .error (ascii "[fatal]  : Max servers exceded limit .")
  else
    eachOnce ServerConf.key
      (fun s => ascii "[fatal] " ++ serverId s ++ ascii " : duplicate server_name '" ++
        s.serverName ++ ascii "' defined on the same port.")
      (validateServer fs http) [] servers

/-! ### What is accepted -/

variable {fs}

/-- A location that passes the checks. -/
structure LocationConf.Passes (fs : ConfFiles) (l : LocationConf) : Prop where
  root : fs.isDirectory l.root = true
  index : ∀ name ∈ l.indexFiles, isValidFilename name = true
  lists : (CgiConfig.mk l.cgiPaths l.cgiExtensions l.cgiMap).hasPartialCgiConfig = false
  interpreters : ∀ e ∈ l.cgiMap.toList, e.1 ≠ [] ∧ e.2 ≠ [] ∧ fs.isExecutable e.2 = true
  upload : l.upload ≠ [] → fs.isDirectory l.upload = true ∧ fs.access l.upload .writable = true ∧
    (l.allowedMethods ≠ [] → ascii "POST" ∈ l.allowedMethods)
  pages : ∀ e ∈ l.errorPage.toList, pageThere fs e.2 = true

theorem validateInterpreter_eq_ok_iff {id : Bytes} {e : Bytes × Bytes} :
    validateInterpreter fs id e = .ok () ↔ e.1 ≠ [] ∧ e.2 ≠ [] ∧ fs.isExecutable e.2 = true := by
  rw [validateInterpreter, check_bind_eq_ok_iff, require_eq_ok_iff, require_eq_ok_iff]
  simp [and_assoc]

theorem validateUpload_eq_ok_iff {id : Bytes} {l : LocationConf} :
    validateUpload fs id l = .ok () ↔ (l.upload ≠ [] → fs.isDirectory l.upload = true ∧
      fs.access l.upload .writable = true ∧
        (l.allowedMethods ≠ [] → ascii "POST" ∈ l.allowedMethods)) := by
  unfold validateUpload
  split
  · next h => exact iff_of_true rfl fun hne => absurd (List.isEmpty_iff.mp h) hne
  · next h =>
    rw [check_bind_eq_ok_iff, require_eq_ok_iff, require_eq_ok_iff]
    have hne : l.upload ≠ [] := by simpa using h
    simp [hne, and_assoc, or_iff_not_imp_left]

theorem validateLocation_eq_ok_iff {id : Bytes} {size : ℤ} (l l' : LocationConf) :
    validateLocation fs id size l = .ok l' ↔ l.Passes fs ∧ l' = l.withLimit size := by
  simp only [validateLocation, check_bind_eq_ok_iff, forM_eq_ok_iff, require_eq_ok_iff,
    validateInterpreter_eq_ok_iff, validateUpload_eq_ok_iff, Bool.not_eq_true']
  constructor
  · rintro ⟨hroot, hindex, hlists, hinterpreters, hupload, hpages, h⟩
    exact ⟨⟨hroot, hindex, hlists, hinterpreters, hupload, hpages⟩, (Except.ok.inj h).symm⟩
  · rintro ⟨h, rfl⟩
    exact ⟨h.root, h.index, h.lists, h.interpreters, h.upload, h.pages, rfl⟩

/-- A server that passes the checks. -/
structure ServerConf.Passes (fs : ConfFiles) (s : ServerConf) : Prop where
  isRootPath : isRootPath s.root = true
  root : fs.isDirectory s.root = true
  pages : ∀ e ∈ s.errorPage.toList, 300 ≤ e.1 ∧ e.1 ≤ 599 ∧ pageThere fs e.2 = true
  locations : ∀ l ∈ s.locations, l.Passes fs

/-- The server with the limits that it and its locations have in the end. -/
def ServerConf.withLimits (http : ℤ) (s : ServerConf) : ServerConf :=
  let s := s.withLimit http
  { s with locations := s.locations.map (LocationConf.withLimit s.clientMaxBodySize) }

theorem validateServerPage_eq_ok_iff {id : Bytes} {e : ℤ × Bytes} :
    validateServerPage fs id e = .ok () ↔ 300 ≤ e.1 ∧ e.1 ≤ 599 ∧ pageThere fs e.2 = true := by
  rw [validateServerPage, check_bind_eq_ok_iff, require_eq_ok_iff, require_eq_ok_iff]
  simp [and_assoc]

theorem validateServer_eq_ok_iff {http : ℤ} (s s' : ServerConf) :
    validateServer fs http s = .ok s' ↔ s.Passes fs ∧ s' = s.withLimits http := by
  simp only [validateServer, check_bind_eq_ok_iff, forM_eq_ok_iff, require_eq_ok_iff,
    validateServerPage_eq_ok_iff]
  rw [bind_eq_ok_iff]
  simp only [mapM_eq_ok_iff_map validateLocation_eq_ok_iff]
  constructor
  · rintro ⟨hpath, hroot, hpages, _, ⟨hlocations, rfl⟩, h⟩
    exact ⟨⟨hpath, hroot, hpages, hlocations⟩, (Except.ok.inj h).symm⟩
  · rintro ⟨h, rfl⟩
    exact ⟨h.isRootPath, h.root, h.pages, _, ⟨h.locations, rfl⟩, rfl⟩

/-- **What is accepted, and what is made of it.** -/
theorem validateFinalConfig_eq_ok_iff {http : ℤ} {servers finals : List ServerConf} :
    validateFinalConfig fs http servers = .ok finals ↔ servers.length ≤ MAXSERVERS ∧
      (servers.map ServerConf.key).Nodup ∧ (∀ s ∈ servers, s.Passes fs) ∧
        finals = servers.map (ServerConf.withLimits http) := by
  rw [validateFinalConfig, ← eachOnce_eq_ok_iff_map validateServer_eq_ok_iff]
  split
  · next h => exact iff_of_false nofun fun hle => absurd hle.1 (Nat.not_le.mpr h)
  · next h => exact ⟨fun hok => ⟨Nat.not_lt.mp h, hok⟩, fun hok => hok.2⟩

/-! ### Another look -/

theorem LocationConf.withLimit_of_ne {size : ℤ} {l : LocationConf} (h : l.clientMaxBodySize ≠ 0) :
    l.withLimit size = l := by
  rw [LocationConf.withLimit, if_neg h]

theorem LocationConf.withLimit_ne {size : ℤ} (hsize : size ≠ 0) (l : LocationConf) :
    (l.withLimit size).clientMaxBodySize ≠ 0 := by
  unfold LocationConf.withLimit
  dsimp only
  split
  · exact hsize
  · next h => exact h

theorem ServerConf.withLimit_of_ne {http : ℤ} {s : ServerConf} (h : s.clientMaxBodySize ≠ 0) :
    s.withLimit http = s := by
  rw [ServerConf.withLimit, if_neg h]

theorem ServerConf.withLimit_ne (http : ℤ) (s : ServerConf) :
    (s.withLimit http).clientMaxBodySize ≠ 0 := by
  unfold ServerConf.withLimit
  dsimp only
  split_ifs with h hhttp
  · omega
  · decide
  · exact h

/-- Limits that have been settled stay as they are. -/
theorem ServerConf.withLimits_withLimits (http http' : ℤ) (s : ServerConf) :
    (s.withLimits http).withLimits http' = s.withLimits http := by
  have hne : (s.withLimits http).clientMaxBodySize ≠ 0 := s.withLimit_ne http
  rw [ServerConf.withLimits, ServerConf.withLimit_of_ne hne]
  have hlocations : (s.withLimits http).locations.map
      (LocationConf.withLimit (s.withLimits http).clientMaxBodySize) =
        (s.withLimits http).locations := by
    refine (List.map_congr_left fun l hl => ?_).trans (List.map_id _)
    obtain ⟨l, -, rfl⟩ := List.mem_map.mp hl
    exact LocationConf.withLimit_of_ne (LocationConf.withLimit_ne (s.withLimit_ne http) l)
  rw [hlocations]

theorem LocationConf.Passes.withLimit {l : LocationConf} (h : l.Passes fs) (size : ℤ) :
    (l.withLimit size).Passes fs :=
  ⟨h.root, h.index, h.lists, h.interpreters, h.upload, h.pages⟩

theorem ServerConf.Passes.withLimits {s : ServerConf} (h : s.Passes fs) (http : ℤ) :
    (s.withLimits http).Passes fs where
  isRootPath := h.isRootPath
  root := h.root
  pages := h.pages
  locations := by
    intro l' hl'
    obtain ⟨l, hl, rfl⟩ := List.mem_map.mp hl'
    exact (h.locations l hl).withLimit _

/-- What has been accepted is accepted again, whatever the limit of the http block. -/
theorem validateFinalConfig_again {http : ℤ} {servers finals : List ServerConf}
    (h : validateFinalConfig fs http servers = .ok finals) (http' : ℤ) :
    validateFinalConfig fs http' finals = .ok finals := by
  obtain ⟨hlength, hnodup, hpasses, rfl⟩ := validateFinalConfig_eq_ok_iff.mp h
  refine validateFinalConfig_eq_ok_iff.mpr ⟨?_, ?_, ?_, ?_⟩
  · rwa [List.length_map]
  · rw [List.map_map]
    exact hnodup
  · intro s' hs'
    obtain ⟨s, hs, rfl⟩ := List.mem_map.mp hs'
    exact (hpasses s hs).withLimits http
  · rw [List.map_map]
    exact List.map_congr_left fun s _ => (s.withLimits_withLimits http http').symm

/-- **Servers that are accepted are accepted in any order**, as the same servers; and what has been
made of them is accepted again as it is, whatever the limit of the http block. -/
theorem validateFinalConfig_perm {http : ℤ} {servers servers' finals : List ServerConf}
    (hperm : servers.Perm servers') (h : validateFinalConfig fs http servers = .ok finals) :
    ∃ finals', finals.Perm finals' ∧ validateFinalConfig fs http servers' = .ok finals' ∧
      ∀ http', validateFinalConfig fs http' finals' = .ok finals' := by
  obtain ⟨hlength, hnodup, hpasses, rfl⟩ := validateFinalConfig_eq_ok_iff.mp h
  have hok : validateFinalConfig fs http servers' =
      .ok (servers'.map (ServerConf.withLimits http)) := by
    refine validateFinalConfig_eq_ok_iff.mpr ⟨?_, ?_, ?_, rfl⟩
    · rwa [← hperm.length_eq]
    · exact (hperm.map ServerConf.key).nodup_iff.mp hnodup
    · exact fun s hs => hpasses s (hperm.mem_iff.mpr hs)
  exact ⟨_, hperm.map _, hok, fun http' => validateFinalConfig_again hok http'⟩

/-- A server of `/` without a limit. -/
def rootServer (name : Bytes) : ServerConf where
  host := ascii "0.0.0.0"
  port := 80
  timeoutSeconds := 60
  root := [SLASH]
  clientMaxBodySize := 0
  indexFiles := [ascii "index.html"]
  serverName := name
  errorPage := ∅
  locations :=
    [{ LocationConf.ofServer (.ofHttp ⟨0, ∅, []⟩) with path := [SLASH], root := [SLASH] }]

/-- Every path is a directory. -/
def directoriesOnly : ConfFiles where
  content := fun _ => none
  mode := fun _ => some S_IFDIR
  access := fun _ _ => false

theorem rootServer_passes (name : Bytes) : (rootServer name).Passes directoriesOnly where
  isRootPath := rfl
  root := rfl
  pages := by
    intro e he
    exact absurd he List.not_mem_nil
  locations := by
    intro l hl
    obtain rfl := List.mem_singleton.mp hl
    exact ⟨rfl, by simp [LocationConf.ofServer, ServerConf.ofHttp], rfl,
      fun e he => absurd he List.not_mem_nil, fun hne => absurd rfl hne,
      fun e he => absurd he List.not_mem_nil⟩

theorem validateFinalConfig_perm_rootServers :
    ∃ finals', ([[97], [98]].map fun name => (rootServer name).withLimits 0).Perm finals' ∧
      validateFinalConfig directoriesOnly 0 ([[98], [97]].map rootServer) = .ok finals' ∧
        ∀ http', validateFinalConfig directoriesOnly http' finals' = .ok finals' :=
  validateFinalConfig_perm ((List.Perm.swap _ _ _).map rootServer)
    (validateFinalConfig_eq_ok_iff.mpr ⟨by decide, by decide,
      List.forall_mem_map.mpr fun name _ => rootServer_passes name, rfl⟩)

end Webserv
