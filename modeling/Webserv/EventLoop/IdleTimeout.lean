import Webserv.EventLoop.Runs

/-!
# The idle timeout and scripts

`getTimedOutFds` lets a client alone that waits for its script, by its state.  The state says so
until the head of the script's response is queued; from then on the client is writing, its job is
still filed, and only its own activity keeps the timeout from it.

## Main results

* `sparesJobs_iff` — when the sweep over the clients finds none that has a job.
-/

namespace Webserv

open Bytes

namespace EventLoop

/-- The sweep over the clients takes none that has a job. -/
def SparesJobs (l : EventLoop) (now : ℕ) : Prop :=
  ∀ fd ∈ l.getTimedOutFds now, ∀ (x : ℕ) (j : CgiJob), l.cgiJobs[x]? = some j → j.clientFd ≠ fd

/-- No client is silent for too long while the output of its script is relayed. -/
def StreamsAwake (l : EventLoop) (now : ℕ) : Prop :=
  ∀ (x : ℕ) (j : CgiJob) (c : Connection), l.cgiJobs[x]? = some j → j.headersSent = true →
    l.connections[j.clientFd]? = some c → c.isTimedOut c.config.timeoutSeconds now = false

theorem mem_getTimedOutFds {l : EventLoop} {fd now : ℕ} :
    fd ∈ l.getTimedOutFds now ↔ ∃ c, l.connections[fd]? = some c ∧ c.state ≠ .cgiRunning ∧
      c.isTimedOut c.config.timeoutSeconds now = true := by
  simp only [getTimedOutFds, Table.mem_keysWhere, Bool.and_eq_true, decide_eq_true_eq]

/-- A client's state says whether the head of its script's response is queued. -/
theorem Coherent.state_ne_cgiRunning_iff {l : EventLoop} (hl : l.Coherent) {x : ℕ} {j : CgiJob}
    {c : Connection} (hj : l.cgiJobs[x]? = some j) (hc : l.connections[j.clientFd]? = some c) :
    c.state ≠ .cgiRunning ↔ j.headersSent = true := by
  cases (hl.clientOf hj hc).1 with
  | waiting hstate hunsent => simp [hstate, hunsent]
  | streaming hstate hsent => simp [hstate, hsent]

theorem Coherent.spares_iff {l : EventLoop} (hl : l.Coherent) (now : ℕ) :
    l.SparesJobs now ↔ l.StreamsAwake now := by
  constructor
  · intro hspares x j c hj hsent hc
    by_contra hsilent
    rw [Bool.not_eq_false] at hsilent
    have hstate := (hl.state_ne_cgiRunning_iff hj hc).mpr hsent
    exact hspares j.clientFd (mem_getTimedOutFds.mpr ⟨c, hc, hstate, hsilent⟩) x j hj rfl
  · rintro hawake fd hfd x j hj rfl
    obtain ⟨c, hc, hstate, hsilent⟩ := mem_getTimedOutFds.mp hfd
    rw [hawake x j c hj ((hl.state_ne_cgiRunning_iff hj hc).mp hstate) hc] at hsilent
    cases hsilent

/-- **When the idle timeout lets scripts alone**: in every state of a run in which no client is
accepted on a descriptor that a job is still filed for. -/
theorem sparesJobs_iff {listeners : List Listener} {l : EventLoop}
    (h : Reaches Unclaimed listeners l) (now : ℕ) : l.SparesJobs now ↔ l.StreamsAwake now :=
  (h.coherent fun _ _ hP => hP).spares_iff now

/-! ### A slow script -/

/-- A server with scripts. -/
def scriptServer (limit : ℤ) : Server :=
  { Server.empty with
    root := ascii "/www"
    timeoutSeconds := 60
    clientMaxBodySize := limit
    locations := [{ Location.empty with
      path := ascii "/cgi"
      root := ascii "/www"
      allowedMethods := [ascii "GET"]
      cgiMap := Std.TreeMap.ofList [(ascii ".py", ascii "/usr/bin/python3")] }] }

/-- Nothing comes and nothing goes. -/
def quiet (now : ℕ) : KernelAnswers where
  env := ⟨oneFile, now, 0⟩
  world := ⟨fun _ => true, fun _ => true, none, true⟩
  clients := []
  recvs := []
  pipe := none
  takes := fun _ => []
  reads := fun _ => .again
  modifies := fun _ _ => true

/-- A client is accepted, and sends a request; a pipe can be made. -/
def requestFrom (request : String) : List Event :=
  [.dispatch 3 { epollIn := true } { quiet 0 with clients := [5] },
    .dispatch 5 { epollIn := true } { quiet 0 with
      recvs := [.data (ascii request) .none]
      pipe := some 7 }]

/-- The script is started, and writes the begin of its response. -/
private def slowScript : List Event :=
  requestFrom "GET /cgi/x.py HTTP/1.1\r\nHost: x\r\n\r\n" ++
    [.dispatch 7 { epollIn := true } { quiet 0 with
      reads := fun _ => .data (ascii "A: b\r\n\r\nhello") }]

/-- A server that runs scripts. -/
private def slowStart : EventLoop := start [⟨3, scriptServer 100000⟩]

private theorem reaches_slowScript :
    Reaches Unclaimed [⟨3, scriptServer 100000⟩] (slowScript.foldl next slowStart) :=
  reaches_of_meets (by decide +kernel)

/-- The job on the pipe 7 after the script has begun its response. -/
private theorem slowScript_job :
    ((slowScript.foldl next slowStart).cgiJobs[7]?).any (fun j => j.clientFd = 5 && j.headersSent) =
      true := by decide +kernel

/-- A minute after its last activity the client is still let alone. -/
theorem sparesJobs_iff_slowScript : (slowScript.foldl next slowStart).SparesJobs 60 ∧
    (slowScript.foldl next slowStart).StreamsAwake 60 := by
  have hspares : (slowScript.foldl next slowStart).SparesJobs 60 := by
    have hnone : (slowScript.foldl next slowStart).getTimedOutFds 60 = [] := by decide +kernel
    intro fd hfd
    rw [hnone] at hfd
    cases hfd
  exact ⟨hspares, (sparesJobs_iff reaches_slowScript 60).mp hspares⟩

/-- **A script is cut by the idle timeout of its client.** -/
theorem not_sparesJobs : ∃ listeners l now, Reaches Unclaimed listeners l ∧
    5 ∈ l.getTimedOutFds now ∧ ¬ l.SparesJobs now := by
  have htaken : 5 ∈ (slowScript.foldl next slowStart).getTimedOutFds 61 := by decide +kernel
  refine ⟨_, _, 61, reaches_slowScript, htaken, fun hspares => ?_⟩
  cases hj : (slowScript.foldl next slowStart).cgiJobs[7]? with
  | none =>
    have hjob := slowScript_job
    rw [hj] at hjob
    cases hjob
  | some j =>
    have hjob := slowScript_job
    rw [hj, Option.any_some, Bool.and_eq_true, decide_eq_true_eq] at hjob
    exact hspares 5 htaken 7 j hj hjob.1

end EventLoop

end Webserv
