import Webserv.Cgi.Request
import Webserv.Lib.Path

/-!
# Where the parser and the scripts look

The path that `_parseRequestLine` hands to `stat` and the script that is chosen and
run for a request have to stand below the root that is configured for the path.
Neither function resolves `..`, so they do where the path leads down, and only there:
`Harmless` says it of the decoded path and the configuration.

## Main results

* `pathUnderRoot_eq` — the file-system path is the root and `sought`.
* `confined_iff` — when the parser and the scripts stay below the root.
-/

namespace Webserv

open Bytes Path

/-! ### The root and the rest -/

/-- The location has a root of its own. -/
def Location.hasRoot (l : Location) : Bool := !l.root.isEmpty

/-- The root that is configured for a path, without trailing slashes. -/
def rootOf (cfg : Server) (path : Bytes) : Bytes :=
  let root := match (cfg.matchLocation path).filter (·.hasRoot) with
    | some l => l.root
    | none => cfg.root
  (root.reverse.dropWhile (· == SLASH)).reverse

/-- The last slash and what is behind it. -/
def lastComponent (p : Bytes) : Bytes :=
  match findLast SLASH p with
  | some i => p.drop i
  | none => p

/-- What is looked for below the root.  A location with a root of its own is left out
of the path; if that leaves nothing, or the location once more, the last component of
the location is looked for. -/
def sought (loc : Option Location) (path : Bytes) : Bytes :=
  match loc.filter (·.hasRoot) with
  | none => path
  | some l =>
      if path = l.path ∨ path = l.path ++ l.path ∧ l.path.head? = some SLASH then
        lastComponent l.path
      else if l.path <+: path ∧ (path.drop l.path.length).head? = some SLASH then
        path.drop l.path.length
      else path

/-- The path leads down from the root that is configured for it. -/
def Harmless (cfg : Server) (path : Bytes) : Prop :=
  0 ∉ rootOf cfg path ∧ Descending (cStr (sought (cfg.matchLocation path) path))

instance (cfg : Server) (path : Bytes) : Decidable (Harmless cfg path) :=
  inferInstanceAs (Decidable (_ ∧ _))

theorem lastComponent_eq (p : Bytes) :
    lastComponent p =
      match p.reverse.findIdx? (· == SLASH) with
      | some back => p.drop (p.length - 1 - back)
      | none => p := by
  unfold lastComponent findLast
  cases p.reverse.findIdx? (· == SLASH) <;> rfl

/-- `pathUnderRoot` for a location with a root of its own. -/
theorem pathUnderRoot_of_hasRoot {cfg : Server} {l : Location} (hl : l.hasRoot = true)
    (path : Bytes) :
    pathUnderRoot cfg (some l) path =
      (l.root.reverse.dropWhile (· == SLASH)).reverse ++ sought (some l) path := by
  have hne : l.root.isEmpty = false := by simpa [Location.hasRoot] using hl
  have hfilter : (some l).filter (·.hasRoot) = some l := by simp [hl]
  rw [sought, hfilter, pathUnderRoot]
  simp only [Option.elim_some, hne, Bool.not_false, Bool.true_and, Bool.false_eq_true, if_false]
  congr 1
  by_cases hpre : l.path <+: path
  · obtain ⟨rest, rfl⟩ := hpre
    have hpre' : l.path.isPrefixOf (l.path ++ rest) = true :=
      List.isPrefixOf_iff_prefix.mpr (List.prefix_append _ _)
    simp only [hpre', if_true, List.drop_left, List.prefix_append, true_and]
    by_cases hrest : rest = []
    · -- the path is the location's
      subst hrest
      simp only [List.isEmpty_nil, if_true, List.append_nil, BEq.rfl, List.self_eq_append_left,
        true_or]
      exact (lastComponent_eq l.path).symm
    · have hlong : l.path ++ rest ≠ l.path := fun h => hrest (List.append_right_eq_self.mp h)
      by_cases hslash : rest.head? = some SLASH
      · by_cases htwice : rest = l.path
        · subst htwice
          simp only [List.isEmpty_iff, hrest, if_false, hslash, bne_self_eq_false,
            Bool.false_eq_true, BEq.rfl, if_true, List.append_left_eq_self, and_self, or_true]
          exact (lastComponent_eq l.path).symm
        · simp [hrest, hslash, htwice]
      · have hnot : ¬ (rest = l.path ∧ l.path.head? = some SLASH) := by
          rintro ⟨rfl, h⟩
          exact hslash h
        simp [hrest, hslash, hnot]
  · have hpre' : l.path.isPrefixOf path = false := by
      rw [Bool.eq_false_iff, ne_eq, List.isPrefixOf_iff_prefix]
      exact hpre
    have hne₁ : path ≠ l.path := fun h => hpre (h ▸ List.prefix_rfl)
    have hne₂ : path ≠ l.path ++ l.path := fun h => hpre (h ▸ List.prefix_append _ _)
    simp [hpre', hpre, hne₁, hne₂]

/-- **Where a path leads in the file system.** -/
theorem pathUnderRoot_eq (cfg : Server) (path : Bytes) :
    pathUnderRoot cfg (cfg.matchLocation path) path =
      rootOf cfg path ++ sought (cfg.matchLocation path) path := by
  unfold rootOf
  generalize cfg.matchLocation path = loc
  cases loc with
  | none => simp [pathUnderRoot, sought]
  | some l =>
    cases hl : l.hasRoot with
    | true =>
      rw [pathUnderRoot_of_hasRoot hl, Option.filter_some, if_pos hl]
    | false =>
      have hempty : l.root = [] := by simpa [Location.hasRoot] using hl
      rw [sought, Option.filter_some, if_neg (by simp [hl])]
      simp [pathUnderRoot, hempty]

/-- A path handed to the kernel ends at its first NUL. -/
theorem cStr_append {a b : Bytes} (h : 0 ∉ a) : cStr (a ++ b) = a ++ cStr b := by
  unfold cStr
  rw [List.takeWhile_append_of_pos]
  intro x hx
  simp only [decide_eq_true_eq]
  rintro rfl
  exact h hx

theorem cStr_of_notMem {s : Bytes} (h : 0 ∉ s) : cStr s = s := by
  have happend := @cStr_append s [] h
  simpa [cStr] using happend

theorem cStr_append_of_mem {a b : Bytes} (h : 0 ∈ a) : cStr (a ++ b) = cStr a := by
  obtain ⟨x, y, rfl, hx⟩ := List.eq_append_cons_of_mem h
  rw [List.append_assoc, List.cons_append, cStr_append hx, cStr_append hx]
  simp [cStr]

/-- A NUL in front cuts off what is behind. -/
theorem length_cStr_append_le {a b : Bytes} (h : 0 ∈ a) : (cStr (a ++ b)).length ≤ a.length := by
  obtain ⟨x, y, rfl⟩ := List.append_of_mem h
  unfold cStr
  rw [List.append_assoc, List.cons_append, List.takeWhile_append]
  split
  · simp
  · have hle := (List.takeWhile_prefix (fun c : UInt8 => decide (c ≠ 0)) (l := x)).length_le
    rw [List.length_append]
    omega

/-- **The file-system path is below the root exactly for a path that leads down.** -/
theorem confined_pathUnderRoot_iff (cfg : Server) (path : Bytes) :
    Confined (rootOf cfg path) (cStr (pathUnderRoot cfg (cfg.matchLocation path) path)) ↔
      Harmless cfg path := by
  rw [pathUnderRoot_eq, Harmless]
  by_cases h0 : 0 ∈ rootOf cfg path
  · constructor
    · exact fun h => absurd h (not_confined_of_length_le (length_cStr_append_le h0))
    · exact fun h => absurd h0 h.1
  · rw [cStr_append h0, confined_append_iff]
    exact ⟨fun h => ⟨h0, h⟩, fun h => h.2⟩

/-! ### The parser -/

/-- The target of the request line at the front of the readable bytes, if the line is
complete and passes every check in front of the `stat`. -/
def Connection.acceptedTarget (c : Connection) : Option Bytes :=
  match rlScan RLScan.init 0 c.readBuffer.items with
  | .line sc p =>
      match sc.methodStart, sc.methodEnd, sc.uriStart with
      | some methodStart, some methodEnd, some uriStart =>
          let uriEnd := sc.uriEnd.getD p
          let method := slice c.readBuffer.items methodStart methodEnd
          if uriStart ≤ uriEnd ∧ uriEnd - uriStart ≤ 8192 ∧ sc.httpMajor = 1 ∧
              (sc.httpMinor = 0 ∨ sc.httpMinor = 1) ∧
              method ∈ [ascii "GET", ascii "HEAD", ascii "POST", ascii "DELETE"] then
            some (slice c.readBuffer.items uriStart uriEnd)
          else none
      | _, _, _ => none
  | _ => none

/-- An accepted line comes to the `stat`. -/
theorem parseRequestLine_of_acceptedTarget {c : Connection} {target : Bytes}
    (h : c.acceptedTarget = some target) :
    ∃ req major minor p, ∀ stat,
      parseRequestLine stat c = acceptRequestLine stat c req target major minor p := by
  unfold Connection.acceptedTarget at h
  split at h
  · next sc p hscan =>
    split at h
    · next methodStart methodEnd uriStart hms hme hus =>
      dsimp only at h
      split at h
      · next hok =>
        obtain ⟨hle, hlen, hmajor, hminor, hmethod⟩ := hok
        rw [Option.some.injEq] at h
        refine ⟨{ c.request with method := slice c.readBuffer.items methodStart methodEnd },
          sc.httpMajor, sc.httpMinor, p, fun stat => ?_⟩
        have hne : c.readBuffer.items.isEmpty = false := by
          cases hitems : c.readBuffer.items with
          | nil => simp [hitems, rlScan] at hscan
          | cons b bs => rfl
        simp only [List.mem_cons, List.not_mem_nil, or_false] at hmethod
        have hmethod' : ¬ (slice c.readBuffer.items methodStart methodEnd ≠ ascii "GET" ∧
            slice c.readBuffer.items methodStart methodEnd ≠ ascii "HEAD" ∧
            slice c.readBuffer.items methodStart methodEnd ≠ ascii "POST" ∧
            slice c.readBuffer.items methodStart methodEnd ≠ ascii "DELETE") := by
          tauto
        have hversion : (sc.httpMajor < 0 || sc.httpMinor < 0) = false := by
          rcases hminor with hminor | hminor <;> simp [hmajor, hminor]
        have hversion' : (!(sc.httpMajor == 1 &&
          (sc.httpMinor == 0 || sc.httpMinor == 1))) = false := by
          rcases hminor with hminor | hminor <;> simp [hmajor, hminor]
        simp only [parseRequestLine, hne, Bool.false_eq_true, if_false, hscan, finishRequestLine,
          hms, hme, hus, Nat.not_lt.mpr hle, hversion, hversion', Nat.not_lt.mpr hlen, hmethod', h]
      · simp at h
    · simp at h
  · simp at h

/-- The answer of the `stat`, and where it was asked. -/
theorem acceptRequestLine_eq (stat : StatAnswer) (c : Connection) (req : HttpRequest)
    (target : Bytes) (major minor : ℤ) (p : ℕ) :
    (acceptRequestLine stat c req target major minor p).request.parseState = .headers ↔
      stat (cStr (pathUnderRoot c.config (c.config.matchLocation (requestPath target))
        (requestPath target))) = none := by
  dsimp only [acceptRequestLine, validatePath]
  cases stat (cStr (pathUnderRoot c.config (c.config.matchLocation (requestPath target))
    (requestPath target))) with
  | none => simp
  | some e => cases e <;> simp

/-- Whatever the parser finds out from `stat`, it asks below the root: two file systems
that agree there cannot be told apart. -/
def StatsConfined (c : Connection) (target : Bytes) : Prop :=
  ∀ stat₁ stat₂ : StatAnswer,
    (∀ p, Confined (rootOf c.config (requestPath target)) p → stat₁ p = stat₂ p) →
      parseRequestLine stat₁ c = parseRequestLine stat₂ c

theorem statsConfined_iff {c : Connection} {target : Bytes} (h : c.acceptedTarget = some target) :
    StatsConfined c target ↔ Harmless c.config (requestPath target) := by
  classical
  obtain ⟨req, major, minor, p, hline⟩ := parseRequestLine_of_acceptedTarget h
  rw [← confined_pathUnderRoot_iff]
  generalize hasked : cStr (pathUnderRoot c.config
    (c.config.matchLocation (requestPath target)) (requestPath target)) = asked
  constructor
  · intro hconf
    by_contra hout
    -- two file systems that differ at the path that is asked for alone
    have heq := hconf (fun _ => none) (fun q => if q = asked then some .enoent else none) ?_
    · rw [hline, hline] at heq
      have hyes := (acceptRequestLine_eq (fun _ => none) c req target major minor p).mpr rfl
      rw [heq, acceptRequestLine_eq, hasked] at hyes
      simp at hyes
    · intro q hq
      have hne : q ≠ asked := by
        rintro rfl
        exact hout hq
      simp [hne]
  · intro hin stat₁ stat₂ hagree
    rw [hline, hline]
    have hask : stat₁ asked = stat₂ asked := hagree asked hin
    dsimp only [acceptRequestLine, validatePath]
    rw [hasked, hask]

/-! ### The scripts -/

/-- The script that is chosen for a request, and the one that is run, are below the root. -/
def RunsConfined (req : HttpRequest) (cfg : Server) : Prop :=
  ∀ info, resolveCgiRequest req cfg = some info →
    Confined (rootOf cfg req.path) (cStr info.scriptPath) ∧
      ∀ fs w e, startCgi fs w req cfg info = some e → Confined (rootOf cfg req.path) (cStr e.script)

theorem runsConfined_iff (req : HttpRequest) (cfg : Server) :
    RunsConfined req cfg ↔ (pathRequiresCgiBodySpool req cfg = true → Harmless cfg req.path) := by
  have hchosen : ∀ info, resolveCgiRequest req cfg = some info →
      info.scriptPath = pathUnderRoot cfg (cfg.matchLocation req.path) req.path := by
    intro info h
    unfold resolveCgiRequest at h
    split at h
    · simp at h
    · next loc hloc =>
      split at h
      · rw [Option.some.injEq] at h
        rw [← h, hloc]
        rfl
      · simp at h
  rw [← isSome_resolveCgiRequest, Option.isSome_iff_exists, ← confined_pathUnderRoot_iff]
  constructor
  · rintro h ⟨info, hinfo⟩
    rw [← hchosen info hinfo]
    exact (h info hinfo).1
  · intro h info hinfo
    have hconf := h ⟨info, hinfo⟩
    rw [← hchosen info hinfo] at hconf
    refine ⟨hconf, ?_⟩
    intro fs w e he
    rw [script_startCgi he]
    exact hconf

/-! ### Both -/

/-- **When no request path leads out of the document tree**, in the parser's `stat` and
in the scripts that are chosen and run: when the decoded path leads down from its root,
under the configuration that is in force for each of the two. -/
theorem confined_iff {c : Connection} {target : Bytes} (h : c.acceptedTarget = some target)
    (req : HttpRequest) (cfg : Server) :
    (StatsConfined c target ∧ RunsConfined req cfg) ↔
      Harmless c.config (requestPath target) ∧
        (pathRequiresCgiBodySpool req cfg = true → Harmless cfg req.path) :=
  and_congr (statsConfined_iff h) (runsConfined_iff req cfg)

/-- A server with scripts in one location. -/
private def scriptServer : Server :=
  { Server.empty with
    root := ascii "/www/"
    clientMaxBodySize := 1000
    locations := [{ Location.empty with
      path := ascii "/cgi"
      cgiMap := Std.TreeMap.ofList [(ascii ".py", ascii "/usr/bin/python3")] }] }

/-- A client that has sent a request line. -/
private def asking (line : String) : Connection :=
  { Connection.new 5 scriptServer 0 with readBuffer := (Fifo.new 1000).push (ascii line) }

/-- A request whose target is given. -/
private def requestFor (target : String) : HttpRequest :=
  { HttpRequest.new 1000 with path := requestPath (ascii target) }

/-- A path that leads down. -/
theorem confined_iff_down :
    StatsConfined (asking "GET /cgi/b.py HTTP/1.1\r\n") (ascii "/cgi/b.py") ∧
      RunsConfined (requestFor "/cgi/b.py") scriptServer :=
  (confined_iff (by decide +kernel) _ _).mpr ⟨by decide +kernel, fun _ => by decide +kernel⟩

/-- A path that leads up, decoded or not, is handed to `stat` and to the interpreter. -/
theorem not_confined_up :
    ¬ StatsConfined (asking "GET /cgi/../%2e%2e/x.py HTTP/1.1\r\n") (ascii "/cgi/../%2e%2e/x.py") ∧
      ¬ RunsConfined (requestFor "/cgi/../%2e%2e/x.py") scriptServer := by
  constructor
  · rw [statsConfined_iff (by decide +kernel)]
    decide +kernel
  · rw [runsConfined_iff]
    decide +kernel

end Webserv
