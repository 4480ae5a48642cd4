import Mathlib.Data.List.Induction
import Mathlib.Data.List.Nodup
import Webserv.Lib.Children
import Webserv.Lib.Run
import Webserv.Lib.Table

/-!
# The processes of the scripts

The books that the event loop keeps of its processes: the pid in the job of a script, and the list
of those that were killed when their job was closed and still have to be waited for.  A process
that has not been waited for a minute after it was killed is given up.

The life of one child is an automaton of its own, which knows nothing of the other children.  The
books, the list and the kernel's table together are `Custody` of such lives, one for each pid.

## Main results

* `Custody.step` — **the books follow the life of every child**.
* `Attend.givenUp_iff` — when a child is given up.
* `Custody.destroy` — behind the destructor only the children that were given up are left.
-/

namespace Webserv

/-- A call of the event loop that concerns the processes. -/
inductive ProcessCall where
  /-- `startCgi` has made a process for the job on the pipe. -/
  | started (resultFd : ℕ)
  /-- `_closeCgiJob` for a job that is filed. -/
  | closed (resultFd now : ℕ)
  /-- `_reapPending`. -/
  | reaped (now : ℕ)
  /-- A handler goes on with a connection that has been freed. -/
  | freed
  deriving DecidableEq, Repr

/-- What happens to the processes: a call with what the kernel makes of it, or the end of a
child. -/
inductive ProcessMoment where
  | started (resultFd pid : ℕ)
  | closed (resultFd now : ℕ)
  | reaped (now : ℕ)
  | exits (pid : ℕ)
  deriving DecidableEq, Repr

/-- The call of the event loop, if the moment is one. -/
def ProcessMoment.call : ProcessMoment → Option ProcessCall
  | .started resultFd _ => some (.started resultFd)
  | .closed resultFd now => some (.closed resultFd now)
  | .reaped now => some (.reaped now)
  | .exits _ => none

/-! ### The books -/

/-- The children, and what the jobs know of them. -/
structure Processes where
  children : Children
  /-- `child_pid` of the jobs, by their pipes. -/
  childPid : ℕ → Option ℕ
  /-- `_pending_reap`: pids, and when they were killed. -/
  pendingReap : List (ℕ × ℕ)
  /-- Ghost: the children that were given up. -/
  givenUp : List ℕ

namespace Processes

/-- `REAP_STALE_SECONDS`. -/
def reapStaleSeconds : ℕ := 60

/-- Before the first script. -/
def new : Processes := ⟨.none, fun _ => none, [], []⟩

/-- `_ApiStartCgi` files the pid of the child. -/
def start (s : Processes) (resultFd pid : ℕ) : Processes :=
  { s with
    children := s.children.fork pid
    childPid := Function.update s.childPid resultFd (some pid) }

/-- `_closeCgiJob`: a child that has not ended is killed, to be waited for later. -/
def closeCgiJob (s : Processes) (resultFd now : ℕ) : Processes :=
  match s.childPid resultFd with
  | none => s
  | some pid =>
      let children := s.children.poll pid
      let childPid := Function.update s.childPid resultFd none
      match s.children.answer pid with
      | .alive => { s with
          children := children.kill pid
          childPid := childPid
          pendingReap := s.pendingReap ++ [(pid, now)] }
      | _ => { s with children := children, childPid := childPid }

/-- One round of the loop of `_reapPending`; those that remain are gathered anew. -/
def reapOne (now : ℕ) (s : Processes) (entry : ℕ × ℕ) : Processes :=
  if entry.2 + reapStaleSeconds < now then { s with givenUp := entry.1 :: s.givenUp }
  else
    let children := s.children.poll entry.1
    match s.children.answer entry.1 with
    | .alive => { s with
        children := children
        pendingReap := s.pendingReap ++ [entry] }
    | _ => { s with children := children }

/-- `_reapPending`. -/
def reapPending (s : Processes) (now : ℕ) : Processes :=
  s.pendingReap.foldl (reapOne now) { s with pendingReap := [] }

/-- What a moment does. -/
def step (s : Processes) : ProcessMoment → Processes
  | .started resultFd pid => s.start resultFd pid
  | .closed resultFd now => s.closeCgiJob resultFd now
  | .reaped now => s.reapPending now
  | .exits pid => { s with children := s.children.exit pid }

/-- `fork` gives no pid that a child has. -/
def Lawful (s : Processes) : ProcessMoment → Prop
  | .started _ pid => s.children.child pid = none
  | _ => True

instance (s : Processes) (m : ProcessMoment) : Decidable (s.Lawful m) :=
  match m with
  | .started _ pid => inferInstanceAs (Decidable (s.children.child pid = none))
  | .closed _ _ | .reaped _ | .exits _ => inferInstanceAs (Decidable True)

/-- `~EventLoop` kills the child of a job, and waits for it. -/
def destroyJob (s : Processes) (resultFd : ℕ) : Processes :=
  match s.childPid resultFd with
  | none => s
  | some pid => { s with
      children := (s.children.kill pid).await pid
      childPid := Function.update s.childPid resultFd none }

/-- `~EventLoop` kills a child that is pending, and waits for it. -/
def destroyPending (s : Processes) (entry : ℕ × ℕ) : Processes :=
  { s with children := (s.children.kill entry.1).await entry.1 }

/-- `~EventLoop`, with the pipes of the jobs that are filed. -/
def destroy (s : Processes) (resultFds : List ℕ) : Processes :=
  let s := resultFds.foldl destroyJob s
  { s.pendingReap.foldl destroyPending s with pendingReap := [] }

end Processes

/-- `_reapPending` has nothing to do with jobs. -/
theorem Processes.childPid_reapPending (s : Processes) (now : ℕ) :
    (s.reapPending now).childPid = s.childPid := by
  have hall : ∀ (todo : List (ℕ × ℕ)) (s : Processes),
      (todo.foldl (reapOne now) s).childPid = s.childPid := by
    intro todo
    induction todo with
    | nil => exact fun _ => rfl
    | cons entry todo ih =>
      intro s
      have hone : (reapOne now s entry).childPid = s.childPid := by
        unfold reapOne
        dsimp only
        split
        · rfl
        · split <;> rfl
      exact (ih _).trans hone
  exact hall s.pendingReap _

/-! ### One child -/

/-- The life of a child, as the server sees it. -/
inductive Life where
  /-- No child has the pid. -/
  | none
  /-- It works for the job on the pipe. -/
  | working (resultFd : ℕ) (c : Child)
  /-- It has been killed, and has to be waited for. -/
  | pending (since : ℕ) (c : Child)
  | givenUp (c : Child)
  deriving DecidableEq, Repr

namespace Life

/-- What the kernel knows of it. -/
def child : Life → Option Child
  | none => .none
  | working _ c | pending _ c | givenUp c => some c

/-- It ends. -/
def exit : Life → Life
  | none => none
  | working resultFd _ => working resultFd .ended
  | pending since _ => pending since .ended
  | givenUp _ => givenUp .ended

/-- Its job is closed. -/
def closed (now : ℕ) : Child → Life
  | .running => pending now .running
  | .ended => none

/-- `_reapPending` comes to it. -/
def reaped (now since : ℕ) (c : Child) : Life :=
  if since + Processes.reapStaleSeconds < now then givenUp c
  else match c with
    | .running => pending since .running
    | .ended => none

/-- What a moment means for the child with the pid. -/
def step (pid : ℕ) (life : Life) : ProcessMoment → Life
  | .started resultFd p => if p = pid then working resultFd .running else life
  | .closed resultFd now =>
      match life with
      | working x c => if x = resultFd then closed now c else life
      | _ => life
  | .reaped now =>
      match life with
      | pending since c => reaped now since c
      | _ => life
  | .exits p => if p = pid then life.exit else life

/-- The jobs on the pipes are gone. -/
def unfiled (xs : List ℕ) : Life → Life
  | working x c => if x ∈ xs then none else working x c
  | life => life

/-- Behind the destructor. -/
def destroyed : Life → Life
  | givenUp c => givenUp c
  | _ => none

theorem child_exit (life : Life) : life.exit.child = life.child.map fun _ => .ended := by
  cases life <;> rfl

/-- How a child comes to be given up. -/
theorem of_step_eq_givenUp {pid : ℕ} {life : Life} {m : ProcessMoment} {c : Child}
    (h : life.step pid m = givenUp c) : (∃ c, life = givenUp c) ∨ ∃ now since c, m = .reaped now ∧
      life = pending since c ∧ since + Processes.reapStaleSeconds < now := by
  cases life with
  | givenUp c => exact Or.inl ⟨c, rfl⟩
  | none | working x c =>
    cases m <;> simp only [step, closed, exit] at h <;> grind
  | pending since c =>
    cases m with
    | reaped now =>
      right
      refine ⟨now, since, c, rfl, rfl, ?_⟩
      by_contra hyoung
      simp only [step, reaped, if_neg hyoung] at h
      cases c <;> cases h
    | started | closed | exits =>
      simp only [step, exit] at h
      grind

/-- A child that was given up is never heard of again. -/
theorem step_givenUp {pid : ℕ} {m : ProcessMoment} (hm : ∀ x, m ≠ .started x pid) (c : Child) :
    ∃ c', (givenUp c).step pid m = givenUp c' := by
  cases m with
  | started x p =>
    have hp : p ≠ pid := by
      rintro rfl
      exact hm x rfl
    exact ⟨c, if_neg hp⟩
  | closed x now => exact ⟨c, rfl⟩
  | reaped now => exact ⟨c, rfl⟩
  | exits p =>
    by_cases hp : p = pid
    · exact ⟨.ended, if_pos hp⟩
    · exact ⟨c, if_neg hp⟩

end Life

/-- The books and the kernel's table say of each child what its life says; `pending` are the
entries that have not been gone through. -/
structure Custody (s : Processes) (pending : List (ℕ × ℕ)) (life : ℕ → Life) : Prop where
  child : ∀ pid, s.children.child pid = (life pid).child
  job : ∀ x pid, s.childPid x = some pid ↔ ∃ c, life pid = .working x c
  waits : ∀ pid since, (pid, since) ∈ pending ↔ ∃ c, life pid = .pending since c
  once : (pending.map Prod.fst).Nodup
  lost : ∀ pid, pid ∈ s.givenUp ↔ ∃ c, life pid = .givenUp c
  right : s.children.right = true

namespace Custody

variable {s s' : Processes} {pending pending' : List (ℕ × ℕ)} {life life' : ℕ → Life}
  {pid x : ℕ}

theorem congr (h : Custody s pending life) (hlife : ∀ pid, life pid = life' pid) :
    Custody s pending life' := by
  rwa [← funext hlife]

theorem new : Custody .new [] fun _ => .none where
  child _ := rfl
  job x pid := by simp [Processes.new]
  waits pid since := by simp
  once := List.nodup_nil
  lost pid := by simp [Processes.new]
  right := rfl

/-- **One child is changed**, and the books are changed for it alone. -/
theorem update (h : Custody s pending life) (new : Life)
    (hchild : s'.children.child = Function.update s.children.child pid new.child)
    (hright : s'.children.right = s.children.right)
    (hjob : ∀ x p, s'.childPid x = some p ↔
      if p = pid then ∃ c, new = .working x c else s.childPid x = some p)
    (hwaits : ∀ p since, (p, since) ∈ pending' ↔
      if p = pid then ∃ c, new = .pending since c else (p, since) ∈ pending)
    (honce : (pending'.map Prod.fst).Nodup)
    (hlost : ∀ p, p ∈ s'.givenUp ↔ if p = pid then ∃ c, new = .givenUp c else p ∈ s.givenUp) :
    Custody s' pending' (Function.update life pid new) where
  child p := by
    rw [hchild]
    by_cases hp : p = pid
    · subst hp
      rw [Function.update_self, Function.update_self]
    · rw [Function.update_of_ne hp, Function.update_of_ne hp, h.child]
  job x p := by
    rw [hjob]
    by_cases hp : p = pid
    · subst hp
      rw [if_pos rfl, Function.update_self]
    · rw [if_neg hp, Function.update_of_ne hp, h.job]
  waits p since := by
    rw [hwaits]
    by_cases hp : p = pid
    · subst hp
      rw [if_pos rfl, Function.update_self]
    · rw [if_neg hp, Function.update_of_ne hp, h.waits]
  once := honce
  lost p := by
    rw [hlost]
    by_cases hp : p = pid
    · subst hp
      rw [if_pos rfl, Function.update_self]
    · rw [if_neg hp, Function.update_of_ne hp, h.lost]
  right := hright.trans h.right

/-! ### What each moment does -/

theorem start (h : Custody s pending life) (hfree : s.children.child pid = none)
    (hnew : s.childPid x = none) :
    Custody (s.start x pid) pending (Function.update life pid (.working x .running)) := by
  have hnone : life pid = .none := by
    have hchild := h.child pid
    rw [hfree] at hchild
    cases hlife : life pid with
    | none => rfl
    | working | pending | givenUp =>
      rw [hlife] at hchild
      cases hchild
  refine h.update _ rfl rfl (fun y p => ?_) (fun p since => ?_) h.once fun p => ?_
  · change Function.update s.childPid x (some pid) y = some p ↔ _
    by_cases hy : y = x
    · subst hy
      rw [Function.update_self, hnew]
      by_cases hp : p = pid
      · simp [hp]
      · simp [hp, Ne.symm hp]
    · rw [Function.update_of_ne hy]
      split
      · next hp => simp [hp, h.job, hnone, Ne.symm hy]
      · rfl
  · split
    · next hp => simp [hp, h.waits, hnone]
    · rfl
  · change p ∈ s.givenUp ↔ _
    split
    · next hp => simp [hp, h.lost, hnone]
    · rfl

theorem exits (h : Custody s pending life) (pid : ℕ) :
    Custody (s.step (.exits pid)) pending (Function.update life pid (life pid).exit) := by
  refine h.update _ ?_ rfl (fun y p => ?_) (fun p since => ?_) h.once fun p => ?_
  · change Function.update s.children.child pid _ = _
    rw [h.child, Life.child_exit]
  · change s.childPid y = some p ↔ _
    split
    · next hp =>
      subst hp
      rw [h.job]
      cases life p <;> simp [Life.exit]
    · rfl
  · split
    · next hp =>
      subst hp
      rw [h.waits]
      cases life p <;> simp [Life.exit]
    · rfl
  · change p ∈ s.givenUp ↔ _
    split
    · next hp =>
      subst hp
      rw [h.lost]
      cases life p <;> simp [Life.exit]
    · rfl

/-- A child that is not pending any more, or never was. -/
theorem waits_of_ne {new : Life} (h : Custody s pending life)
    (hpending : ∀ since c, life pid ≠ .pending since c) (hnew : ∀ since c, new ≠ .pending since c)
    (p since : ℕ) : (p, since) ∈ pending ↔
      if p = pid then ∃ c, new = .pending since c else (p, since) ∈ pending := by
  split
  · next hp =>
    subst hp
    simp [h.waits, hpending, hnew]
  · rfl

/-- A child that is not given up, now or before. -/
theorem lost_of_ne {new : Life} (h : Custody s pending life)
    (hlost : ∀ c, life pid ≠ .givenUp c) (hnew : ∀ c, new ≠ .givenUp c) (p : ℕ) :
    p ∈ s.givenUp ↔ if p = pid then ∃ c, new = .givenUp c else p ∈ s.givenUp := by
  split
  · next hp =>
    subst hp
    simp [h.lost, hlost, hnew]
  · rfl

/-- The pid of a job that is closed is taken out of the books. -/
theorem job_update {c : Child} {new : Life} (h : Custody s pending life)
    (hlife : life pid = .working x c) (hnew : ∀ y c, new ≠ .working y c) (y p : ℕ) :
    Function.update s.childPid x none y = some p ↔
      if p = pid then ∃ c, new = .working y c else s.childPid y = some p := by
  have hx : s.childPid x = some pid := (h.job x pid).mpr ⟨c, hlife⟩
  by_cases hy : y = x
  · subst hy
    rw [Function.update_self, hx]
    by_cases hp : p = pid
    · simp [hp, hnew]
    · simp [hp, Ne.symm hp]
  · rw [Function.update_of_ne hy]
    split
    · next hp =>
      subst hp
      simp [h.job, hlife, hnew, Ne.symm hy]
    · rfl

/-- **A job is closed.** -/
theorem closeCgiJob {c : Child} (h : Custody s s.pendingReap life) (hlife : life pid = .working x c)
    (now : ℕ) : Custody (s.closeCgiJob x now) (s.closeCgiJob x now).pendingReap
      (Function.update life pid (.closed now c)) := by
  have hx : s.childPid x = some pid := (h.job x pid).mpr ⟨c, hlife⟩
  have hchild : s.children.child pid = some c := by rw [h.child, hlife]; rfl
  unfold Processes.closeCgiJob
  rw [hx]
  dsimp only
  cases c with
  | running =>
    obtain ⟨hanswer, hpoll⟩ := Children.poll_running hchild
    have hkill : s.children.kill pid = s.children := Children.aim_eq (by simp [hchild])
    rw [hanswer, hpoll, hkill]
    refine h.update _ ?_ rfl (h.job_update hlife fun y c => ?_) (fun p since => ?_) ?_
      (h.lost_of_ne (by simp [hlife]) (by simp [Life.closed]))
    · exact (Function.update_eq_self_iff.mpr hchild.symm).symm
    · simp [Life.closed]
    · by_cases hp : p = pid
      · subst hp
        simp [h.waits, hlife, Life.closed, eq_comm]
      · simp [hp]
    · rw [List.map_append, List.nodup_append]
      refine ⟨h.once, List.nodup_singleton _, fun p hp q hq => ?_⟩
      obtain ⟨⟨p', since⟩, hmem, rfl⟩ := List.mem_map.mp hp
      obtain ⟨c', hc'⟩ := (h.waits p' since).mp hmem
      rw [List.map_singleton, List.mem_singleton] at hq
      rintro rfl
      dsimp only at hq
      rw [hq, hlife] at hc'
      cases hc'
  | ended =>
    obtain ⟨hanswer, hpoll⟩ := Children.poll_ended hchild
    rw [hanswer, hpoll]
    exact h.update _ rfl rfl (h.job_update hlife (by simp [Life.closed]))
      (h.waits_of_ne (by simp [hlife]) (by simp [Life.closed])) h.once
      (h.lost_of_ne (by simp [hlife]) (by simp [Life.closed]))

/-! ### Reaping -/

/-- An entry is dropped from the list. -/
theorem waits_drop {done todo : List (ℕ × ℕ)} {since : ℕ} {new : Life}
    (h : Custody s (done ++ (pid, since) :: todo) life)
    (hnew : ∀ since c, new ≠ .pending since c) (p t : ℕ) : (p, t) ∈ done ++ todo ↔
      if p = pid then ∃ c, new = .pending t c else (p, t) ∈ done ++ (pid, since) :: todo := by
  split
  · next hp =>
    subst hp
    have honce := h.once
    simp only [List.map_append, List.map_cons, List.nodup_append, List.nodup_cons] at honce
    obtain ⟨-, ⟨htodo, -⟩, hdone⟩ := honce
    simp only [hnew, exists_false, iff_false, List.mem_append, not_or]
    refine ⟨fun hmem => ?_, fun hmem => htodo (List.mem_map_of_mem hmem)⟩
    exact hdone p (List.mem_map_of_mem hmem) p List.mem_cons_self rfl
  · next hp => simp [hp]

/-- A child that works for no job, before and after. -/
theorem job_of_ne {new : Life} (h : Custody s pending life)
    (hlife : ∀ x c, life pid ≠ .working x c) (hnew : ∀ x c, new ≠ .working x c) (y p : ℕ) :
    s.childPid y = some p ↔ if p = pid then ∃ c, new = .working y c else s.childPid y = some p := by
  split
  · next hp =>
    subst hp
    simp [h.job, hlife, hnew]
  · rfl

/-- **One round of the loop of `_reapPending`.** -/
theorem reapOne {todo : List (ℕ × ℕ)} {since : ℕ} {c : Child}
    (h : Custody s (s.pendingReap ++ (pid, since) :: todo) life)
    (hlife : life pid = .pending since c) (now : ℕ) :
    Custody (Processes.reapOne now s (pid, since))
      ((Processes.reapOne now s (pid, since)).pendingReap ++ todo)
      (Function.update life pid (.reaped now since c)) := by
  have hchild : s.children.child pid = some c := by rw [h.child, hlife]; rfl
  have honce : ((s.pendingReap ++ todo).map Prod.fst).Nodup :=
    h.once.sublist (((List.sublist_cons_self _ _).append_left _).map _)
  unfold Processes.reapOne Life.reaped
  dsimp only
  split
  · refine h.update _ ?_ rfl (h.job_of_ne (by simp [hlife]) (by simp)) (h.waits_drop (by simp))
      honce fun p => ?_
    · exact (Function.update_eq_self_iff.mpr hchild.symm).symm
    · by_cases hp : p = pid
      · simp [hp]
      · simp [hp]
  · cases c with
    | running =>
      obtain ⟨hanswer, hpoll⟩ := Children.poll_running hchild
      rw [hanswer, hpoll]
      have hsame : Function.update life pid (.pending since .running) = life := by
        rw [← hlife, Function.update_eq_self]
      dsimp only
      rw [hsame, List.append_assoc, List.singleton_append]
      exact ⟨h.child, h.job, h.waits, h.once, h.lost, h.right⟩
    | ended =>
      obtain ⟨hanswer, hpoll⟩ := Children.poll_ended hchild
      rw [hanswer, hpoll]
      exact h.update _ rfl rfl (h.job_of_ne (by simp [hlife]) (by simp))
        (h.waits_drop (by simp)) honce (h.lost_of_ne (by simp [hlife]) (by simp))

/-- The lives of the children on the list go on, the others stay. -/
theorem reapAll (now : ℕ) : ∀ (todo : List (ℕ × ℕ)) (s : Processes) (life : ℕ → Life),
    Custody s (s.pendingReap ++ todo) life →
    Custody (todo.foldl (Processes.reapOne now) s)
      (todo.foldl (Processes.reapOne now) s).pendingReap fun pid =>
        if pid ∈ todo.map Prod.fst then (life pid).step pid (.reaped now) else life pid := by
  intro todo
  induction todo with
  | nil =>
    intro s life h
    simpa using h
  | cons entry todo ih =>
    intro s life h
    obtain ⟨pid, since⟩ := entry
    obtain ⟨c, hlife⟩ := (h.waits pid since).mp (by simp)
    have hnotMem : pid ∉ todo.map Prod.fst := by
      have honce := h.once
      simp only [List.map_append, List.map_cons, List.nodup_append, List.nodup_cons] at honce
      exact honce.2.1.1
    have hrest := ih _ _ (h.reapOne hlife now)
    rw [List.foldl_cons]
    refine hrest.congr fun p => ?_
    by_cases hp : p = pid
    · subst hp
      rw [if_neg hnotMem, Function.update_self, if_pos (by simp), hlife]
      rfl
    · rw [Function.update_of_ne hp]
      have hmem : p ∈ ((pid, since) :: todo).map Prod.fst ↔ p ∈ todo.map Prod.fst := by simp [hp]
      simp only [hmem]

/-- **`_reapPending`.** -/
theorem reapPending (h : Custody s s.pendingReap life) (now : ℕ) :
    Custody (s.reapPending now) (s.reapPending now).pendingReap
      fun pid => (life pid).step pid (.reaped now) := by
  have hall := reapAll now s.pendingReap { s with pendingReap := [] } life
    ⟨h.child, h.job, h.waits, h.once, h.lost, h.right⟩
  refine hall.congr fun pid => ?_
  split
  · rfl
  · next hnotMem =>
    cases hlife : life pid with
    | none | working | givenUp => rfl
    | pending since c =>
      exact absurd (List.mem_map_of_mem ((h.waits pid since).mpr ⟨c, hlife⟩)) hnotMem

/-! ### Runs -/

/-- **The books follow every life.**  Two jobs never have one pipe. -/
theorem step {m : ProcessMoment} (h : Custody s s.pendingReap life) (hlawful : s.Lawful m)
    (hpipe : ∀ x pid, m = .started x pid → s.childPid x = none) :
    Custody (s.step m) (s.step m).pendingReap fun pid => (life pid).step pid m := by
  cases m with
  | started x p =>
    refine (h.start hlawful (hpipe x p rfl)).congr fun q => ?_
    by_cases hq : q = p
    · subst hq
      simp [Life.step]
    · simp [Life.step, hq, Ne.symm hq]
  | closed x now =>
    cases hx : s.childPid x with
    | none =>
      -- no child is on record for the pipe: nothing is done
      have hsame : s.closeCgiJob x now = s := by rw [Processes.closeCgiJob, hx]
      change Custody (s.closeCgiJob x now) (s.closeCgiJob x now).pendingReap _
      rw [hsame]
      refine h.congr fun q => ?_
      -- and no child works for it, since those that work are on record
      cases hlife : life q with
      | none | pending | givenUp => rfl
      | working y c =>
        have hy : y ≠ x := by
          rintro rfl
          have hjob := (h.job y q).mpr ⟨c, hlife⟩
          rw [hx] at hjob
          cases hjob
        exact (if_neg hy).symm
    | some p =>
      obtain ⟨c, hlife⟩ := (h.job x p).mp hx
      refine (h.closeCgiJob hlife now).congr fun q => ?_
      by_cases hq : q = p
      · subst hq
        rw [Function.update_self, hlife]
        exact (if_pos rfl).symm
      · -- another child does not work for this pipe
        rw [Function.update_of_ne hq]
        cases hother : life q with
        | none | pending | givenUp => rfl
        | working y c' =>
          have hy : y ≠ x := by
            rintro rfl
            have hjob := (h.job y q).mpr ⟨c', hother⟩
            rw [hx] at hjob
            exact hq (Option.some.inj hjob).symm
          exact (if_neg hy).symm
  | reaped now => exact h.reapPending now
  | exits p =>
    refine (h.exits p).congr fun q => ?_
    by_cases hq : q = p
    · subst hq
      simp [Life.step]
    · simp [Life.step, hq, Ne.symm hq]

end Custody

/-! ### Histories -/

/-- What a history makes of the lives. -/
def livesAfter (life : ℕ → Life) (ms : List ProcessMoment) (pid : ℕ) : Life :=
  ms.foldl (Life.step pid) (life pid)

/-- The books follow the lives all along a history. -/
def Attend : Processes → (ℕ → Life) → List ProcessMoment → Prop
  | s, life, [] => Custody s s.pendingReap life
  | s, life, m :: ms => Custody s s.pendingReap life ∧
      Attend (s.step m) (fun pid => (life pid).step pid m) ms

namespace Attend

variable {s : Processes} {life : ℕ → Life} {ms : List ProcessMoment}

theorem custody (h : Attend s life ms) : Custody s s.pendingReap life := by
  cases ms with
  | nil => exact h
  | cons m ms => exact h.1

theorem append_iff : ∀ {ms ms' : List ProcessMoment} {s : Processes} {life : ℕ → Life},
    Attend s life (ms ++ ms') ↔
      Attend s life ms ∧ Attend (ms.foldl Processes.step s) (livesAfter life ms) ms' := by
  intro ms
  induction ms with
  | nil => exact fun {_ _ _} => ⟨fun h => ⟨h.custody, h⟩, fun h => h.2⟩
  | cons m ms ih => exact fun {_ _ _} => (and_congr_right fun _ => ih).trans and_assoc.symm

/-- What is found at the end. -/
theorem last (h : Attend s life ms) : Custody (ms.foldl Processes.step s)
    (ms.foldl Processes.step s).pendingReap (livesAfter life ms) := by
  rw [← List.append_nil ms] at h
  exact (append_iff.mp h).2

theorem livesAfter_concat (life : ℕ → Life) (ms : List ProcessMoment) (m : ProcessMoment)
    (pid : ℕ) : livesAfter life (ms ++ [m]) pid = (livesAfter life ms pid).step pid m := by
  rw [livesAfter, List.foldl_append]
  rfl

/-- **A child is given up** by a call of `_reapPending` that finds it more than a minute after it
was killed, and is never heard of again. -/
theorem givenUp_iff (hattend : Attend s life ms) (hnew : ∀ pid c, life pid ≠ .givenUp c)
    (hlawful : Run.Meets Processes.step Processes.Lawful s ms) (pid : ℕ) :
    (∃ c, livesAfter life ms pid = .givenUp c) ↔ ∃ before now later since c,
      ms = before ++ .reaped now :: later ∧ livesAfter life before pid = .pending since c ∧
        since + Processes.reapStaleSeconds < now := by
  induction ms using List.reverseRecOn with
  | nil =>
    refine ⟨fun ⟨c, hc⟩ => absurd hc (hnew pid c), ?_⟩
    rintro ⟨before, now, later, since, c, hms, -⟩
    simp at hms
  | append_singleton ms m ih =>
    obtain ⟨hbefore, -⟩ := append_iff.mp hattend
    obtain ⟨hlawful', hm, -⟩ := Run.Meets.append_iff.mp hlawful
    have ih := ih hbefore hlawful'
    rw [livesAfter_concat]
    constructor
    · rintro ⟨c, hc⟩
      rcases Life.of_step_eq_givenUp hc with hlost | ⟨now, since, c, rfl, hpending, hold⟩
      · obtain ⟨before, now, later, since, c, rfl, hpending⟩ := ih.mp hlost
        exact ⟨before, now, later ++ [m], since, c, by simp, hpending⟩
      · exact ⟨ms, now, [], since, c, rfl, hpending, hold⟩
    · rintro ⟨before, now, later, since, c, hms, hpending, hold⟩
      rcases List.eq_nil_or_concat later with rfl | ⟨later', m', rfl⟩
      · obtain ⟨rfl, hlast⟩ := List.append_inj' hms rfl
        cases hlast
        refine ⟨c, ?_⟩
        rw [hpending]
        exact if_pos hold
      · rw [List.concat_eq_append, ← List.cons_append, ← List.append_assoc] at hms
        obtain ⟨rfl, hlast⟩ := List.append_inj' hms rfl
        cases hlast
        obtain ⟨c', hlost⟩ := ih.mpr ⟨before, now, later', since, c, rfl, hpending, hold⟩
        rw [hlost]
        refine Life.step_givenUp (fun x hx => ?_) c'
        -- its pid is still taken
        subst hx
        have hchild := hbefore.last.child pid
        rw [hlost, show _ = none from hm] at hchild
        cases hchild

end Attend

/-! ### The destructor -/

namespace Custody

variable {s : Processes} {pending : List (ℕ × ℕ)} {life : ℕ → Life} {pid : ℕ}

theorem destroyJob (h : Custody s pending life) (x : ℕ) :
    Custody (s.destroyJob x) pending fun pid => (life pid).unfiled [x] := by
  unfold Processes.destroyJob
  cases hx : s.childPid x with
  | none =>
    refine h.congr fun p => ?_
    cases hlife : life p with
    | none | pending | givenUp => rfl
    -- no child works for a pipe without one on record
    | working y c =>
      have hy : y ≠ x := by
        rintro rfl
        have hjob := (h.job y p).mpr ⟨c, hlife⟩
        rw [hx] at hjob
        cases hjob
      simp [Life.unfiled, hy]
  | some pid =>
    obtain ⟨c, hlife⟩ := (h.job x pid).mp hx
    have hchild : s.children.child pid = some c := by rw [h.child, hlife]; rfl
    have hkill : s.children.kill pid = s.children := Children.aim_eq (by simp [hchild])
    have hawait : s.children.await pid = _ := Children.await_eq (by simp [hchild])
    dsimp only
    rw [hkill, hawait]
    -- the child is killed and waited for, so it is gone
    have hgone : Custody { s with
        children := s.children.put pid none
        childPid := Function.update s.childPid x none } pending (Function.update life pid .none) :=
      h.update _ rfl rfl (h.job_update hlife (by simp))
        (h.waits_of_ne (by simp [hlife]) (by simp)) h.once
        (h.lost_of_ne (by simp [hlife]) (by simp))
    refine hgone.congr fun p => ?_
    by_cases hp : p = pid
    · subst hp
      simp [Life.unfiled, hlife]
    · rw [Function.update_of_ne hp]
      cases hother : life p with
      | none | pending | givenUp => rfl
      | working y c' =>
        have hy : y ≠ x := by
          rintro rfl
          have hjob := (h.job y p).mpr ⟨c', hother⟩
          rw [hx] at hjob
          exact hp (Option.some.inj hjob).symm
        simp [Life.unfiled, hy]

theorem destroyJobs : ∀ (xs : List ℕ) (s : Processes) (life : ℕ → Life), Custody s pending life →
    Custody (xs.foldl Processes.destroyJob s) pending fun pid => (life pid).unfiled xs := by
  intro xs
  induction xs with
  | nil =>
    refine fun s life h => h.congr fun p => ?_
    cases life p <;> simp [Life.unfiled]
  | cons x xs ih =>
    refine fun s life h => (ih _ _ (h.destroyJob x)).congr fun p => ?_
    cases life p with
    | none | pending | givenUp => rfl
    | working y c => by_cases hy : y = x <;> simp [Life.unfiled, hy]

theorem destroyAll : ∀ (todo : List (ℕ × ℕ)) (s : Processes) (life : ℕ → Life),
    Custody s todo life → Custody (todo.foldl Processes.destroyPending s) []
      fun pid => if pid ∈ todo.map Prod.fst then .none else life pid := by
  intro todo
  induction todo with
  | nil =>
    intro s life h
    simpa using h
  | cons entry todo ih =>
    intro s life h
    obtain ⟨pid, since⟩ := entry
    obtain ⟨c, hlife⟩ := (h.waits pid since).mp List.mem_cons_self
    have hchild : s.children.child pid = some c := by rw [h.child, hlife]; rfl
    have hkill : s.children.kill pid = s.children := Children.aim_eq (by simp [hchild])
    have hawait : s.children.await pid = _ := Children.await_eq (by simp [hchild])
    have hdrop := @waits_drop _ _ _ [] todo since .none h (by simp)
    have honce : (todo.map Prod.fst).Nodup := (List.nodup_cons.mp h.once).2
    have hgone : Custody (Processes.destroyPending s (pid, since)) todo
        (Function.update life pid .none) := by
      unfold Processes.destroyPending
      dsimp only
      rw [hkill, hawait]
      exact h.update _ rfl rfl (h.job_of_ne (by simp [hlife]) (by simp)) hdrop honce
        (h.lost_of_ne (by simp [hlife]) (by simp))
    rw [List.foldl_cons]
    refine (ih _ _ hgone).congr fun p => ?_
    by_cases hp : p = pid
    · simp [hp]
    · rw [Function.update_of_ne hp]
      have hmem : p ∈ ((pid, since) :: todo).map Prod.fst ↔ p ∈ todo.map Prod.fst := by simp [hp]
      simp only [hmem]

theorem pendingReap_destroyJobs : ∀ (xs : List ℕ) (s : Processes),
    (xs.foldl Processes.destroyJob s).pendingReap = s.pendingReap := by
  intro xs
  induction xs with
  | nil => exact fun _ => rfl
  | cons x xs ih =>
    intro s
    have hjob : (s.destroyJob x).pendingReap = s.pendingReap := by
      unfold Processes.destroyJob
      cases s.childPid x <;> rfl
    exact (ih _).trans hjob

/-- **Behind the destructor only the children that were given up are left.** -/
theorem destroy {xs : List ℕ} (h : Custody s s.pendingReap life)
    (hxs : ∀ x pid, s.childPid x = some pid → x ∈ xs) :
    Custody (s.destroy xs) [] fun pid => (life pid).destroyed := by
  have hjobs := destroyJobs xs s life h
  rw [← pendingReap_destroyJobs xs s] at hjobs
  have hall := destroyAll _ _ _ hjobs
  have hdestroyed : Custody (s.destroy xs) [] _ :=
    ⟨hall.child, hall.job, hall.waits, hall.once, hall.lost, hall.right⟩
  refine hdestroyed.congr fun p => ?_
  cases hlife : life p with
  | none => simp [Life.unfiled, Life.destroyed]
  | givenUp c =>
    have hnotMem : ∀ since, (p, since) ∉ s.pendingReap := by simp [h.waits, hlife]
    simp [pendingReap_destroyJobs, hnotMem, Life.unfiled, Life.destroyed]
  | working x c =>
    have hx := hxs x p ((h.job x p).mpr ⟨c, hlife⟩)
    simp [Life.unfiled, Life.destroyed, hx]
  | pending since c =>
    have hmem : (p, since) ∈ s.pendingReap := (h.waits p since).mpr ⟨c, hlife⟩
    rw [pendingReap_destroyJobs, if_pos (List.mem_map_of_mem hmem)]
    rfl

end Custody

end Webserv
