import Webserv.EventLoop.FileRuns
import Webserv.EventLoop.IdleTimeout

/-!
# No body file outlives its connection

The calls of a whole run, and of the end of the program: `~EventLoop` goes through the references
and removes the files of the connections that they belong to.  Every connection has a reference,
whatever masks could not be changed, so it is come to.

## Main results

* `filesKept` — **whatever ends finds nothing left**, in a run of foreseen moments.
* `not_filesKept` — a client that goes after a pipe could not be made leaves its file.
-/

namespace Webserv

open Bytes

/-- The calls of `~EventLoop` for a connection. -/
def destroyCalls (req : HttpRequest) : List FileCall :=
  .destroyed req :: (if req.opened ∧ 0 ≤ req.openedFile then [.closed req.openedFile] else []) ++
    if req.tmpBodyPath = [] then [] else [.removed req.tmpBodyPath]

/-- Behind `~EventLoop` nothing is left. -/
theorem foldl_destroyCalls {req : HttpRequest} {acc : Account} (hacc : req.Holds acc)
    (hcalls : ∀ call ∈ destroyCalls req, call.Foreseen) :
    (destroyCalls req).foldl Account.record acc = .empty := by
  have hdestroyed : req.opened = true ∨ req.openedFile < 0 :=
    hcalls (.destroyed req) List.mem_cons_self
  obtain ⟨files, descriptors, right⟩ := acc
  obtain ⟨hfiles, hdescriptors, hright, -⟩ := hacc
  dsimp only at hfiles hdescriptors hright
  subst hfiles hdescriptors hright
  unfold destroyCalls
  by_cases hfile : req.openedFile < 0
  · have hclosed : ¬ (req.opened ∧ 0 ≤ req.openedFile) := fun h => h.2.not_gt hfile
    by_cases hpath : req.tmpBodyPath = [] <;>
      simp [hpath, hfile, hclosed, Account.record, Account.empty]
  · have hopen : req.opened ∧ 0 ≤ req.openedFile :=
      ⟨hdestroyed.resolve_right hfile, not_lt.mp hfile⟩
    by_cases hpath : req.tmpBodyPath = [] <;>
      simp [hpath, hfile, hopen, Account.record, Account.empty]

namespace EventLoop

/-! ### The end of the program -/

/-- `~EventLoop` comes to a reference. -/
def destroyRefFiles (l : EventLoop) (k : ℕ) : FileLog :=
  match l.eventRefs[k]? with
  | none => []
  | some ref =>
      match l.connections[ref.fd]? with
      | none => []
      | some c => filesOf c (destroyCalls c.request)

/-- `ConnectionManager::_destroyAll` comes to a connection. -/
def destroyConnectionFiles (l : EventLoop) (fd : ℕ) : FileLog :=
  match l.connections[fd]? with
  | none => []
  | some c => filesOf c [.ended]

/-- The calls of `~EventLoop`. -/
def destroyFiles (l : EventLoop) : FileLog :=
  l.eventRefs.keys.flatMap l.destroyRefFiles ++ l.connections.keys.flatMap l.destroyConnectionFiles

section

variable {l : EventLoop} {accs : Accounts}

/-- A reference leads to the connection that is filed under its key. -/
theorem Keeps.destroyRef {l₀ : EventLoop} {k : ℕ} (hkeyed : l₀.Keyed)
    (href : ∃ ref, l₀.eventRefs[k]? = some ref)
    (hsame : l.connections[k]? = l₀.connections[k]?) :
    Keeps l (l₀.destroyRefFiles k) (l.closeConnection k) := by
  obtain ⟨ref, href⟩ := href
  unfold destroyRefFiles
  rw [href]
  dsimp only
  rw [hkeyed k ref href, ← hsame]
  cases hc : l.connections[k]? with
  | none => exact .erase_none hc
  | some c => exact .erase hc fun _ => foldl_destroyCalls

/-- Going through the references closes what they lead to. -/
theorem Keeps.destroyRefs {l₀ : EventLoop} (hkeyed : l₀.Keyed) : ∀ (ks : List ℕ) (l : EventLoop),
    ks.Nodup → (∀ k ∈ ks, ∃ ref, l₀.eventRefs[k]? = some ref) →
    (∀ k ∈ ks, l.connections[k]? = l₀.connections[k]?) →
    Keeps l (ks.flatMap l₀.destroyRefFiles) (ks.foldl closeConnection l) := by
  intro ks
  induction ks with
  | nil => exact fun l _ _ _ => .refl l
  | cons k ks ih =>
    intro l hnodup hrefs hsame
    obtain ⟨hnotMem, hnodup⟩ := List.nodup_cons.mp hnodup
    rw [List.flatMap_cons]
    refine (Keeps.destroyRef hkeyed (hrefs k List.mem_cons_self)
      (hsame k List.mem_cons_self)).trans (ih _ hnodup ?_ ?_)
    · exact fun k' hk' => hrefs k' (List.mem_cons_of_mem _ hk')
    · intro k' hk'
      have hne : k' ≠ k := by
        rintro rfl
        exact hnotMem hk'
      exact (connections_closeConnection_ne hne).trans (hsame k' (List.mem_cons_of_mem _ hk'))

theorem connections_closeConnections : ∀ (ks : List ℕ) (l : EventLoop) (x : ℕ),
    x ∈ ks ∨ l.connections[x]? = none → (ks.foldl closeConnection l).connections[x]? = none := by
  intro ks
  induction ks with
  | nil => exact fun _ _ h => h.resolve_left List.not_mem_nil
  | cons k ks ih =>
    intro l x h
    apply ih
    rcases eq_or_ne x k with rfl | hne
    · exact Or.inr (connections_closeConnection_self l x)
    · refine h.imp (fun hmem => (List.mem_cons.mp hmem).resolve_left hne) fun hnone => ?_
      exact (connections_closeConnection_ne hne).trans hnone

/-- Connections that hold nothing may end. -/
theorem post_ended : ∀ (log : FileLog) (accs : Accounts), (∀ n, accs n = .empty) →
    (∀ x ∈ log, x.2 = .ended) → ∀ n, accs.post log n = .empty := by
  intro log
  induction log with
  | nil => exact fun _ haccs _ => haccs
  | cons x log ih =>
    intro accs haccs hlog
    refine ih _ (fun n => ?_) fun y hy => hlog y (List.mem_cons_of_mem _ hy)
    dsimp only
    rcases eq_or_ne n x.1 with rfl | hne
    · rw [Function.update_self, haccs, hlog x List.mem_cons_self]
      rfl
    · rw [Function.update_of_ne hne, haccs]

/-- **The end of the program leaves nothing.** -/
theorem post_destroyFiles (hl : l.Attached) (haccs : Balanced l accs)
    (hlog : l.destroyFiles.Foreseen) (n : ℕ) : accs.post l.destroyFiles n = .empty := by
  unfold destroyFiles at hlog ⊢
  have hregistered : ∀ k ∈ l.eventRefs.keys, ∃ ref, l.eventRefs[k]? = some ref := fun k hk =>
    ⟨_, Std.TreeMap.getElem?_eq_some_getElem (Std.TreeMap.mem_keys.mp hk)⟩
  have hdestroyed := Keeps.destroyRefs hl.keyed l.eventRefs.keys l Std.TreeMap.nodup_keys
    hregistered (fun _ _ => rfl) accs haccs (FileLog.Foreseen.append hlog).1
  have hgone : ∀ x : ℕ, (l.eventRefs.keys.foldl closeConnection l).connections[x]? = none := by
    intro x
    apply connections_closeConnections
    cases hc : l.connections[x]? with
    | none => exact Or.inr rfl
    | some c =>
      obtain ⟨ref, href, -⟩ := hl.registered x c hc
      have hmem : x ∈ l.eventRefs := Std.TreeMap.mem_iff_isSome_getElem?.mpr (by rw [href]; rfl)
      exact Or.inl (Std.TreeMap.mem_keys.mpr hmem)
  have hempty : ∀ n, accs.post (l.eventRefs.keys.flatMap l.destroyRefFiles) n = .empty := by
    intro n
    refine hdestroyed.others n fun x d hd => ?_
    rw [hgone] at hd
    cases hd
  rw [post_append]
  refine post_ended _ _ hempty (fun x hx => ?_) n
  obtain ⟨fd, -, hfd⟩ := List.mem_flatMap.mp hx
  unfold destroyConnectionFiles at hfd
  split at hfd
  · cases hfd
  · rw [List.mem_singleton.mp hfd]

/-! ### Runs -/

/-- The calls of a run. -/
def runFiles (l : EventLoop) : List Event → FileLog
  | [] => []
  | ev :: es => l.files ev ++ runFiles (next l ev) es

/-- Every moment of the event is one that the code is made for. -/
def FilesForeseen (l : EventLoop) (ev : Event) : Prop := (l.files ev).Foreseen

/-- The same of the end of the program. -/
def EndForeseen (l : EventLoop) : Prop := l.destroyFiles.Foreseen

instance (l : EventLoop) (ev : Event) : Decidable (l.FilesForeseen ev) :=
  inferInstanceAs (Decidable (FileLog.Foreseen _))

instance (l : EventLoop) : Decidable l.EndForeseen :=
  inferInstanceAs (Decidable (FileLog.Foreseen _))

/-- In the run nothing that had been made for a request was left behind, nor will it be when the
program ends now. -/
def FilesKept (l : EventLoop) (es : List Event) : Prop :=
  ∀ n, (Accounts.new.post (l.runFiles es) n).right = true ∧
    (Accounts.new.post (l.runFiles es ++ (es.foldl next l).destroyFiles) n).right = true

theorem balanced_start (listeners : List Listener) : Balanced (start listeners) .new := by
  refine ⟨?_, fun _ _ => rfl, ?_, ?_⟩
  all_goals simp [connections_start]

/-- A run of foreseen moments keeps the loop balanced. -/
theorem balanced_run : ∀ (es : List Event) (l : EventLoop) (accs : Accounts), Balanced l accs →
    l.Attached → Run.Meets next (fun l ev => l.Possible ev ∧ l.FilesForeseen ev) l es →
    Balanced (es.foldl next l) (accs.post (l.runFiles es)) ∧ (es.foldl next l).Attached := by
  intro es
  induction es with
  | nil => exact fun _ _ haccs hl _ => ⟨haccs, hl⟩
  | cons ev es ih =>
    intro l accs haccs hl hmeets
    obtain ⟨⟨hpossible, hforeseen⟩, hrest⟩ := hmeets
    rw [runFiles, post_append]
    exact ih _ _ (keeps_step hpossible accs haccs hforeseen) (hl.next hpossible) hrest

end

/-- **Whatever ends finds nothing left**, in a run of foreseen moments: the files made for its
requests have been removed, and each descriptor has been closed once. -/
theorem filesKept {listeners : List Listener} {es : List Event}
    (h : Run.Meets next (fun l ev => l.Possible ev ∧ l.FilesForeseen ev) (start listeners) es)
    (hend : (es.foldl next (start listeners)).EndForeseen) : FilesKept (start listeners) es := by
  obtain ⟨hbalanced, hattached⟩ :=
    balanced_run es _ _ (balanced_start listeners) (attached_start listeners) h
  intro n
  refine ⟨hbalanced.right n, ?_⟩
  rw [post_append, post_destroyFiles hattached hbalanced hend]
  rfl

/-! ### A pipe that cannot be made -/

/-- The server of the scripts, which may be sent bodies. -/
private def postServer : Server :=
  { scriptServer 100000 with
    locations := [{ Location.empty with
      path := ascii "/cgi"
      root := ascii "/www"
      allowedMethods := [ascii "POST"]
      cgiMap := Std.TreeMap.ofList [(ascii ".py", ascii "/usr/bin/python3")] }] }

/-- A client sends a request with a body, which goes into a file; the client goes. -/
private def postedBody (pipe : Option ℕ) : List Event := [
  .dispatch 3 { epollIn := true } { quiet 0 with clients := [5] },
  .dispatch 5 { epollIn := true } { quiet 0 with
    recvs := [.data (ascii "POST /cgi/x.py HTTP/1.1\r\nHost: x\r\nContent-Length: 5\r\n\r\nhello")
      ⟨some 9, [5], some 9, 1, 0⟩]
    pipe := pipe },
  .dispatch 5 { epollHup := true } (quiet 0)]

theorem filesKept_started : FilesKept (start [⟨3, postServer⟩]) (postedBody (some 7)) :=
  filesKept (by decide +kernel) (by decide +kernel)

/-- **A client that goes after its script could not be started leaves its file.** -/
theorem not_filesKept : ∃ listeners es,
    Run.Meets next (Returns fun _ _ => True) (start listeners) es ∧
      ¬ FilesKept (start listeners) es :=
  ⟨[⟨3, postServer⟩], postedBody none, by decide +kernel, fun h =>
    absurd (h 0).1 (by decide +kernel)⟩

end EventLoop

end Webserv
