import Webserv.Cgi.Stream

/-!
# Room for the end of a job

When an exception comes to the handler of `_handleCgiEvent`, the handler queues something itself:
an error page, or the zero chunk behind a head.  If that finds no room either, the exception
leaves the handler.  Whether it does is a matter of the sizes of what is queued, of what is to be
queued and of what the handler adds.

## Main results

* `threw_cgiEvent` — an event of the pipe returns **if and only if** its blocks leave room.
-/

namespace Webserv

open Bytes

/-! ### Error pages -/

/-- The page `code` fits behind what is queued. -/
def PageFits (env : Env) (code : ℕ) (c : Connection) : Prop :=
  c.writeBuffer.Fits (errorResponse env code c.config).length

instance (env : Env) (code : ℕ) (c : Connection) : Decidable (PageFits env code c) :=
  inferInstanceAs (Decidable (Fifo.Fits _ _))

theorem threw_sendError (env : Env) (code : ℕ) (c : Connection) :
    (sendError env code c).threw = false ↔ PageFits env code c := by
  by_cases hfits : PageFits env code c
  · rw [sendError_ok hfits]
    exact iff_of_true rfl hfits
  · rw [sendError_refused (Nat.lt_of_not_le hfits)]
    exact iff_of_false nofun hfits

/-! ### The end of a job -/

/-- What `_failCgiJob` queues. -/
def lastBlock (env : Env) (code : ℕ) (c : Connection) (job : CgiJob) : Bytes :=
  if job.headersSent then zeroChunk else errorResponse env code c.config

/-- What `_finishCgiJob` queues. -/
def finalBlocks (env : Env) (c : Connection) (job : CgiJob) : List Bytes :=
  if job.headersSent then (if c.request.method = ascii "HEAD" then [] else [zeroChunk])
  else [errorResponse env 502 c.config]

/-- There is room for what `_failCgiJob` queues. -/
def EndFits (env : Env) (code : ℕ) (c : Connection) (job : CgiJob) : Prop :=
  c.writeBuffer.Fits (lastBlock env code c job).length

instance (env : Env) (code : ℕ) (c : Connection) (job : CgiJob) :
    Decidable (EndFits env code c job) := inferInstanceAs (Decidable (Fifo.Fits _ _))

theorem lastBlock_ne_nil (env : Env) (code : ℕ) (c : Connection) (job : CgiJob) :
    lastBlock env code c job ≠ [] := by
  unfold lastBlock
  split
  · decide
  · exact errorResponse_ne_nil env code c.config

/-- `_failCgiJob` queues one block, and throws the connection as it is when there is no room. -/
theorem failCgiJob_cases (env : Env) (code : ℕ) (c : Connection) (job : CgiJob) :
    EndFits env code c job ∧ (failCgiJob env code c job).threw = false ∨
      ¬ EndFits env code c job ∧ failCgiJob env code c job = .bodyLimit (c, job) := by
  unfold failCgiJob EndFits lastBlock
  split
  · -- behind a head
    by_cases hfits : c.writeBuffer.Fits zeroChunk.length
    · rw [queue_ok (by rw [Fifo.appendAll_singleton_of_fits hfits])]
      exact Or.inl ⟨hfits, rfl⟩
    · have hall := Fifo.appendAll_singleton_of_not_fits (by decide) hfits
      rw [queue_refused (by rw [hall]), hall]
      exact Or.inr ⟨hfits, rfl⟩
  · by_cases hfits : PageFits env code c
    · rw [sendError_ok hfits]
      exact Or.inl ⟨hfits, rfl⟩
    · rw [sendError_refused (Nat.lt_of_not_le hfits)]
      exact Or.inr ⟨hfits, rfl⟩

theorem threw_failCgiJob (env : Env) (code : ℕ) (c : Connection) (job : CgiJob) :
    (failCgiJob env code c job).threw = false ↔ EndFits env code c job := by
  rcases failCgiJob_cases env code c job with ⟨hfits, hok⟩ | ⟨hfits, hthrew⟩
  · exact iff_of_true hok hfits
  · rw [hthrew]
    exact iff_of_false nofun hfits

/-! ### The handler -/

/-- The exception of a call, if there is one, does not leave the handler. -/
def Caught (env : Env) : Outcome (Connection × CgiJob) CgiFate → Prop
  | .ok _ _ => True
  | .bodyLimit s => EndFits env 413 s.1 s.2

theorem threw_catchBodyLimit (env : Env) (o : Outcome (Connection × CgiJob) CgiFate) :
    (catchBodyLimit env o).threw = false ↔ Caught env o := by
  cases o with
  | ok s fate => exact iff_of_true rfl trivial
  | bodyLimit s => exact threw_failCgiJob env 413 s.1 s.2

/-- The blocks are queued, or the handler finds room behind those that are. -/
def Relieves (env : Env) (c : Connection) (job : CgiJob) (blocks : List Bytes) : Prop :=
  c.writeBuffer.LeavesRoom blocks (lastBlock env 413 c job).length

instance (env : Env) (c : Connection) (job : CgiJob) (blocks : List Bytes) :
    Decidable (Relieves env c job blocks) := inferInstanceAs (Decidable (Fifo.LeavesRoom _ _ _))

/-- A call that queues the blocks, and then returns. -/
theorem caught_queue {env : Env} {c : Connection} {job : CgiJob} {blocks : List Bytes}
    {o : Outcome (Connection × CgiJob) CgiFate}
    (hok : (c.writeBuffer.appendAll blocks).2 = true → o.threw = false)
    (hthrew : (c.writeBuffer.appendAll blocks).2 = false →
      o = .bodyLimit (c.setWriteBuffer (c.writeBuffer.appendAll blocks).1, job)) :
    Caught env o ↔ Relieves env c job blocks := by
  cases hall : (c.writeBuffer.appendAll blocks).2 with
  | true =>
    have hreturns := hok hall
    cases o with
    | ok s fate => exact iff_of_true trivial (Fifo.leavesRoom_of_true hall _)
    | bodyLimit s => cases hreturns
  | false =>
    rw [hthrew hall]
    exact (Fifo.leavesRoom_iff_of_false hall _).symm

/-- A call that queues one block, and leaves the connection as it is when there is no room. -/
theorem caught_block {env : Env} {c : Connection} {job : CgiJob} {xs : Bytes}
    {o : Outcome (Connection × CgiJob) CgiFate} (hxs : xs ≠ [])
    (hok : c.writeBuffer.Fits xs.length → o.threw = false)
    (hthrew : ¬ c.writeBuffer.Fits xs.length → o = .bodyLimit (c, job)) :
    Caught env o ↔ Relieves env c job [xs] := by
  by_cases hfits : c.writeBuffer.Fits xs.length
  · have hall := Fifo.appendAll_singleton_of_fits hfits
    refine caught_queue (fun _ => hok hfits) fun hfalse => ?_
    rw [hall] at hfalse
    cases hfalse
  · have hall := Fifo.appendAll_singleton_of_not_fits hxs hfits
    refine caught_queue (fun htrue => ?_) fun _ => ?_
    · rw [hall] at htrue
      cases htrue
    · rw [hthrew hfits, hall]
      rfl

theorem caught_relayBody (env : Env) (c : Connection) (job : CgiJob) (d : Bytes) :
    Caught env (relayBody c job d) ↔ Relieves env c job (chunkBlocks d) := by
  unfold relayBody
  apply caught_queue
  · intro hall
    rw [queue_ok hall]
    rfl
  · intro hall
    rw [queue_refused hall]

/-- An error page within the `try` block. -/
theorem caught_failCgiJob (env : Env) (code : ℕ) (c : Connection) (job : CgiJob) :
    Caught env (failCgiJob env code c job) ↔ Relieves env c job [lastBlock env code c job] := by
  rcases failCgiJob_cases env code c job with ⟨hfits, hok⟩ | ⟨hfits, hthrew⟩
  · exact caught_block (lastBlock_ne_nil env code c job) (fun _ => hok) fun h => absurd hfits h
  · exact caught_block (lastBlock_ne_nil env code c job) (fun h => absurd h hfits) fun _ => hthrew

theorem caught_finishCgiJob (env : Env) (c : Connection) (job : CgiJob) :
    Caught env (finishCgiJob env c job) ↔ Relieves env c job (finalBlocks env c job) := by
  unfold finishCgiJob finalBlocks
  split
  · apply caught_queue
    · intro hall
      rw [queue_ok hall]
      rfl
    · intro hall
      rw [queue_refused hall]
  · apply caught_block (errorResponse_ne_nil env 502 c.config)
    · intro hfits
      rw [sendError_ok hfits]
      rfl
    · intro hfits
      rw [sendError_refused (Nat.lt_of_not_le hfits)]

/-! ### What is read from the pipe -/

/-- The header block ends at `n` of what has been read: the head is queued, and the rest of it
behind the head. -/
def HeadFits (env : Env) (c : Connection) (job : CgiJob) (output : Bytes) (n : ℕ) : Prop :=
  let head := cgiResponseHead (output.take n) c.request
  if c.writeBuffer.Fits head.length then
    (c.writeBuffer.push head).LeavesRoom (chunkBlocks (output.drop n)) zeroChunk.length
  else EndFits env 413 c job

instance (env : Env) (c : Connection) (job : CgiJob) (output : Bytes) (n : ℕ) :
    Decidable (HeadFits env c job output n) := inferInstanceAs (Decidable (ite _ _ _))

/-- What has been read is `output`; where its header block ends, if it does. -/
def OutputFits (env : Env) (c : Connection) (job : CgiJob) (output : ByteQueue) : Option ℕ → Prop
  | none => output.size > fhls → Relieves env c job [lastBlock env 502 c job]
  | some n => HeadFits env c job output.items n

instance (env : Env) (c : Connection) (job : CgiJob) (output : ByteQueue) (n : Option ℕ) :
    Decidable (OutputFits env c job output n) :=
  match n with
  | none => inferInstanceAs (Decidable (_ → _))
  | some n => inferInstanceAs (Decidable (HeadFits env c job output.items n))

/-- What has been read behind the data that came, if it is not too long. -/
def BufferFits (env : Env) (c : Connection) (job : CgiJob) : Option ByteQueue → Prop
  | none => EndFits env 413 c job
  | some output => OutputFits env c job output (findHeaderEnd output.items)

instance (env : Env) (c : Connection) (job : CgiJob) (output : Option ByteQueue) :
    Decidable (BufferFits env c job output) :=
  match output with
  | none => inferInstanceAs (Decidable (EndFits env 413 c job))
  | some output => inferInstanceAs (Decidable (OutputFits env c job output _))

/-- There is room for what the event makes of what `read` returns. -/
def ReadAnswerFits (env : Env) (c : Connection) (job : CgiJob) : ReadAnswer → Prop
  | .data d =>
      if job.headersSent then Relieves env c job (chunkBlocks d)
      else BufferFits env c job (appendResult job.resultBuffer d)
  | .eof => Relieves env c job (finalBlocks env c job)
  | .again => True

instance (env : Env) (c : Connection) (job : CgiJob) (a : ReadAnswer) :
    Decidable (ReadAnswerFits env c job a) :=
  match a with
  | .data _ => inferInstanceAs (Decidable (ite _ _ _))
  | .eof => inferInstanceAs (Decidable (Relieves env c job _))
  | .again => inferInstanceAs (Decidable True)

theorem cgiResponseHead_ne_nil (block : Bytes) (req : HttpRequest) :
    cgiResponseHead block req ≠ [] := by
  intro h
  simp [cgiResponseHead] at h

theorem caught_relayLeftover (env : Env) (c : Connection) (job : CgiJob) (n : ℕ) :
    Caught env (relayLeftover c job n) ↔
      Relieves env c job (chunkBlocks (job.resultBuffer.items.drop n)) := by
  rw [← caught_relayBody]
  unfold relayLeftover
  cases relayBody c job (job.resultBuffer.items.drop n) with
  | bodyLimit s => exact Iff.rfl
  | ok s fate => exact Iff.rfl

theorem caught_relayHead (env : Env) (c : Connection) (job : CgiJob) (n : ℕ) :
    Caught env (relayHead c job n) ↔ HeadFits env c job job.resultBuffer.items n := by
  have hne := cgiResponseHead_ne_nil (job.resultBuffer.items.take n) c.request
  unfold relayHead flushCgiHeaders HeadFits
  generalize cgiResponseHead (job.resultBuffer.items.take n) c.request = head at hne ⊢
  by_cases hfits : c.writeBuffer.Fits head.length
  · have hall := Fifo.appendAll_singleton_of_fits hfits
    rw [appendBlocks_of_true (by rw [hall]), List.flatten_singleton]
    dsimp only
    rw [if_pos hfits]
    exact caught_relayLeftover env _ { job with headersSent := true } n
  · have hall := Fifo.appendAll_singleton_of_not_fits hne hfits
    rw [appendBlocks_of_false (by rw [hall]), hall]
    dsimp only
    rw [if_neg hfits]
    exact Iff.rfl

theorem caught_cgiData (env : Env) (c : Connection) (job : CgiJob) (d : Bytes) :
    Caught env (cgiData env c job d) ↔ ReadAnswerFits env c job (.data d) := by
  unfold cgiData ReadAnswerFits
  dsimp only
  split
  · exact caught_relayBody env c { job with parentRequest := job.parentRequest + 1 } d
  · cases appendResult job.resultBuffer d with
    | none => exact Iff.rfl
    | some buf =>
      unfold BufferFits
      dsimp only
      cases findHeaderEnd buf.items with
      | some n =>
        exact caught_relayHead env c
          { job with parentRequest := job.parentRequest + 1, resultBuffer := buf } n
      | none =>
        unfold OutputFits
        dsimp only
        split
        · next hlong =>
          rw [caught_failCgiJob]
          exact ⟨fun h _ => h, fun h => h hlong⟩
        · next hshort => exact iff_of_true trivial fun hlong => absurd hlong hshort

/-- There is room for what `_handleCgiEvent` queues. -/
def CgiFits (env : Env) (c : Connection) (job : CgiJob) (a : ReadAnswer) : Prop :=
  if job.parentRequest > limitInternalRecursion then EndFits env 502 c job
  else readsPipe c job = true → ReadAnswerFits env c job a

instance (env : Env) (c : Connection) (job : CgiJob) (a : ReadAnswer) :
    Decidable (CgiFits env c job a) := inferInstanceAs (Decidable (ite _ _ (_ → _)))

/-- **An event of the pipe returns if and only if there is room.** -/
theorem threw_cgiEvent (env : Env) (c : Connection) (job : CgiJob) (a : ReadAnswer) :
    (cgiEvent env c job a).threw = false ↔ CgiFits env c job a := by
  unfold cgiEvent CgiFits
  split
  · exact threw_failCgiJob env 502 c job
  · next hfew =>
    have hreads : readsPipe c job = !(job.headersSent && cgiStreamHwm ≤ c.writeBuffer.size) := by
      rw [readsPipe, decide_eq_true (Nat.le_of_not_lt hfew), Bool.true_and]
    rw [hreads]
    split
    · next hheld => exact iff_of_true rfl fun h => by rw [hheld] at h; cases h
    · next hdue =>
      rw [Bool.not_eq_true] at hdue
      have hread : ((!false) = true → ReadAnswerFits env c job a) ↔ ReadAnswerFits env c job a :=
        ⟨fun h => h rfl, fun h _ => h⟩
      rw [threw_catchBodyLimit, hdue, hread]
      cases a with
      | data d => exact caught_cgiData env c job d
      | eof => exact caught_finishCgiJob env c { job with parentRequest := 0 }
      | again => exact iff_of_true trivial trivial

end Webserv
