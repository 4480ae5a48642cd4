import Mathlib.Data.Nat.Notation
import Mathlib.Logic.Function.Basic

/-!
# The children of a process

The kernel keeps a child under its pid until the parent has waited for it, also when it has ended:
so long the pid is not given away, and a signal to it reaches no other process.  A call that is
aimed at a pid without a child is not `right`.
-/

/-- A child that has not been waited for. -/
inductive Child where
  | running
  | ended
  deriving DecidableEq, Repr

/-- What `waitpid` with `WNOHANG` answers. -/
inductive WaitAnswer where
  /-- `0`: the child has not ended. -/
  | alive
  /-- Its pid. -/
  | reaped
  /-- `-1`: there is no such child. -/
  | failed
  deriving DecidableEq, Repr

/-- What the kernel knows of a process with children. -/
structure Children where
  child : ℕ → Option Child
  /-- Ghost: every signal and every wait was aimed at a child. -/
  right : Bool

namespace Children

/-- No process has been made. -/
def none : Children := ⟨fun _ => .none, true⟩

/-- The child is what is said now. -/
def put (k : Children) (pid : ℕ) (c : Option Child) : Children :=
  { k with child := Function.update k.child pid c }

/-- A call is aimed at the pid. -/
def aim (k : Children) (pid : ℕ) : Children := { k with right := k.right && (k.child pid).isSome }

/-- `fork` returns the pid. -/
def fork (k : Children) (pid : ℕ) : Children := k.put pid (some .running)

/-- A child ends, by itself or by a signal. -/
def exit (k : Children) (pid : ℕ) : Children := k.put pid ((k.child pid).map fun _ => .ended)

/-- `kill` with a signal that ends the child, sooner or later. -/
def kill (k : Children) (pid : ℕ) : Children := k.aim pid

/-- What `waitpid` with `WNOHANG` answers. -/
def answer (k : Children) (pid : ℕ) : WaitAnswer :=
  match k.child pid with
  | some .running => .alive
  | some .ended => .reaped
  | .none => .failed

/-- `waitpid` with `WNOHANG`. -/
def poll (k : Children) (pid : ℕ) : Children :=
  match k.answer pid with
  | .reaped => (k.aim pid).put pid .none
  | _ => k.aim pid

/-- `waitpid` for a child that has been killed: it returns when the child has ended. -/
def await (k : Children) (pid : ℕ) : Children := (k.aim pid).put pid .none

variable {k : Children} {pid x : ℕ} {c : Option Child}

@[simp] theorem child_put_self : (k.put pid c).child pid = c := Function.update_self ..

@[simp] theorem right_put : (k.put pid c).right = k.right := rfl

@[simp] theorem child_aim : (k.aim pid).child = k.child := rfl

@[simp] theorem child_kill : (k.kill pid).child = k.child := rfl

/-- A call that is aimed at a child. -/
theorem aim_eq (h : k.child pid ≠ .none) : k.aim pid = k := by
  unfold aim
  rw [Option.isSome_iff_ne_none.mpr h, Bool.and_true]

/-- A child that is running goes on. -/
theorem poll_running (h : k.child pid = some .running) :
    k.answer pid = .alive ∧ k.poll pid = k := by
  have hanswer : k.answer pid = .alive := by rw [answer, h]
  refine ⟨hanswer, ?_⟩
  rw [poll, hanswer]
  exact aim_eq (by simp [h])

/-- A child that has ended is gone. -/
theorem poll_ended (h : k.child pid = some .ended) :
    k.answer pid = .reaped ∧ k.poll pid = k.put pid .none := by
  have hanswer : k.answer pid = .reaped := by rw [answer, h]
  refine ⟨hanswer, ?_⟩
  rw [poll, hanswer]
  change (k.aim pid).put pid .none = _
  rw [aim_eq (by simp [h])]

/-- A child that is waited for is gone. -/
theorem await_eq (h : k.child pid ≠ .none) : k.await pid = k.put pid .none := by
  rw [await, aim_eq h]

end Children
