import Webserv.Cgi.Delivery
import Webserv.Cgi.Room

/-!
# A script that is answered for with 413

Whatever `_handleCgiEvent` queues for a script has the limit of a body too.  If the exception is
thrown before the response head is queued, the handler has a 413 page to send; behind the head it
can only end the chunks.

## Main definitions

* `CgiStream.cgiCall` — the call of `_handleCgiEvent` in an event.
* `CgiStream.Leads413` — an event in which that call comes to the 413 page.
* `CgiStream.BeginsWithRoom` — an event in which there is room for the beginning of the response.

## Main results

* `CgiStream.not_leads413_run` — a job comes to no 413 page if and only if there is room.
-/

namespace Webserv

open Bytes

/-! ### One call -/

/-- `_handleCgiEvent` comes to its handler, and no head has been queued. -/
def Answers413 (env : Env) (c : Connection) (job : CgiJob) (a : ReadAnswer) : Prop :=
  readsPipe c job = true ∧ ∃ s, cgiTry env c job a = .bodyLimit s ∧ s.2.headersSent = false

/-- There is room for what is queued first for a script: the head, or the 502 page. -/
def FirstBlockFits (env : Env) (c : Connection) (job : CgiJob) : ReadAnswer → Prop
  | .data d =>
      match findHeaderEnd (job.resultBuffer.items ++ d) with
      | some n => c.writeBuffer.Fits
          (cgiResponseHead ((job.resultBuffer.items ++ d).take n) c.request).length
      | none => fhls < (job.resultBuffer.items ++ d).length → PageFits env 502 c
  | .eof => PageFits env 502 c
  | .again => True

instance (env : Env) (c : Connection) (job : CgiJob) (a : ReadAnswer) :
    Decidable (FirstBlockFits env c job a) :=
  match a with
  | .data d => by
      unfold FirstBlockFits
      dsimp only
      cases findHeaderEnd (job.resultBuffer.items ++ d) <;> infer_instance
  | .eof => inferInstanceAs (Decidable (PageFits env 502 c))
  | .again => inferInstanceAs (Decidable True)

section

variable {env : Env} {c : Connection} {job : CgiJob} {a : ReadAnswer} {d : Bytes} {n : ℕ}

/-- The head stays queued. -/
theorem headersSent_cgiTry (h : job.headersSent = true) :
    (cgiTry env c job a).state.2.headersSent = true := by
  cases a with
  | data d =>
    simp only [cgiTry, cgiData, h, if_true]
    exact CgiStream.headersSent_relayBody c _ d
  | eof => exact (CgiStream.headersSent_over (over_finishCgiJob env c _)).trans h
  | again => exact h

/-- A page that is queued instead of a head. -/
theorem failCgiJob_unsent (hsent : job.headersSent = false) (code : ℕ) :
    (∃ s, failCgiJob env code c job = .bodyLimit s ∧ s.2.headersSent = false) ↔
      ¬ PageFits env code c := by
  have hblock : lastBlock env code c job = errorResponse env code c.config := by
    rw [lastBlock, hsent, if_neg Bool.false_ne_true]
  have hfits : EndFits env code c job ↔ PageFits env code c := by
    rw [EndFits, hblock]
    exact Iff.rfl
  rcases failCgiJob_cases env code c job with ⟨hend, hok⟩ | ⟨hend, hthrew⟩
  · refine iff_of_false ?_ (not_not_intro (hfits.mp hend))
    rintro ⟨s, hs, -⟩
    rw [hs] at hok
    cases hok
  · exact iff_of_true ⟨_, hthrew, hsent⟩ fun hpage => hend (hfits.mpr hpage)

/-- The end of the output in front of a head. -/
theorem finishCgiJob_unsent (hsent : job.headersSent = false) :
    (∃ s, finishCgiJob env c job = .bodyLimit s ∧ s.2.headersSent = false) ↔
      ¬ PageFits env 502 c := by
  have hend : finishCgiJob env c job = failCgiJob env 502 c job := by
    rw [finishCgiJob, failCgiJob, hsent, if_neg Bool.false_ne_true, if_neg Bool.false_ne_true]
  rw [hend]
  exact failCgiJob_unsent hsent 502

/-- The head itself finds no room; what stands behind it is no matter. -/
theorem relayHead_unsent (hsent : job.headersSent = false) :
    (∃ s, relayHead c job n = .bodyLimit s ∧ s.2.headersSent = false) ↔
      ¬ c.writeBuffer.Fits
        (cgiResponseHead (job.resultBuffer.items.take n) c.request).length := by
  have hne := cgiResponseHead_ne_nil (job.resultBuffer.items.take n) c.request
  unfold relayHead flushCgiHeaders
  generalize cgiResponseHead (job.resultBuffer.items.take n) c.request = head at hne ⊢
  by_cases hfits : c.writeBuffer.Fits head.length
  · have hall := Fifo.appendAll_singleton_of_fits hfits
    rw [appendBlocks_of_true (by rw [hall]), List.flatten_singleton]
    refine iff_of_false ?_ (not_not_intro hfits)
    rintro ⟨s, hs, hunsent⟩
    have hkept := CgiStream.headersSent_relayBody (c.setWriteBuffer (c.writeBuffer.push head))
      { job with headersSent := true } (job.resultBuffer.items.drop n)
    dsimp only at hs
    unfold relayLeftover at hs
    dsimp only at hs
    cases hbody : relayBody (c.setWriteBuffer (c.writeBuffer.push head))
        { job with headersSent := true } (job.resultBuffer.items.drop n) with
    | ok q fate =>
      rw [hbody] at hs
      cases hs
    | bodyLimit q =>
      rw [hbody] at hs hkept
      cases hs
      rw [show s.2.headersSent = true from hkept] at hunsent
      cases hunsent
  · have hall := Fifo.appendAll_singleton_of_not_fits hne hfits
    rw [appendBlocks_of_false (by rw [hall])]
    exact iff_of_true ⟨_, rfl, hsent⟩ hfits

/-- **`_handleCgiEvent` comes to a 413 page if and only if the first block finds no room.** -/
theorem answers413_iff (hsize : job.headersSent = false → job.resultBuffer.size ≤ fhls)
    (ha : a.WellFormed) : Answers413 env c job a ↔
      job.headersSent = false ∧ readsPipe c job = true ∧ ¬ FirstBlockFits env c job a := by
  cases hsent : job.headersSent with
  | true =>
    refine iff_of_false ?_ fun h => Bool.noConfusion h.1
    rintro ⟨-, s, hs, hunsent⟩
    have hkept := @headersSent_cgiTry env c job a hsent
    rw [hs] at hkept
    rw [show s.2.headersSent = true from hkept] at hunsent
    cases hunsent
  | false =>
    rw [and_iff_right rfl]
    apply and_congr_right
    intro _
    cases a with
    | eof => exact finishCgiJob_unsent hsent
    | again =>
      refine iff_of_false ?_ (not_not_intro trivial)
      rintro ⟨s, hs, -⟩
      cases hs
    | data d =>
      -- the piece is added to the header block, which ends in it, is too long, or goes on
      have hshort : ¬ job.resultBuffer.size + d.length > limitRequestBody := by
        have hle := hsize hsent
        have hlen := ha.2
        unfold fhls at hle
        unfold limitRequestBody
        omega
      have hpush : appendResult job.resultBuffer d = some (job.resultBuffer.push d) := by
        rw [appendResult, if_neg ha.1, if_neg hshort]
      simp only [cgiTry, cgiData, hsent, Bool.false_eq_true, if_false, hpush, FirstBlockFits,
        Fifo.items_push]
      cases hend : findHeaderEnd (job.resultBuffer.items ++ d) with
      | some n => exact relayHead_unsent rfl
      | none =>
        dsimp only
        rw [Fifo.size_eq, Fifo.items_push]
        by_cases hlong : fhls < (job.resultBuffer.items ++ d).length
        · rw [if_pos hlong, Classical.not_imp, and_iff_right hlong]
          exact failCgiJob_unsent rfl 502
        · rw [if_neg hlong]
          refine iff_of_false ?_ (not_not_intro fun h => absurd h hlong)
          rintro ⟨s, hs, -⟩
          cases hs

end

namespace CgiStream

/-! ### The events of a job -/

/-- The call of `_handleCgiEvent` in `_handleWrite`: what it finds, and what `read` returns. -/
def writeCall (env : Env) (takes : List ℕ) (a : ReadAnswer) (s : CgiStream) :
    Option (Env × CgiStream × ReadAnswer) :=
  let s := s.drain env takes
  if s.live ∧ s.conn.writeBuffer.size < cgiStreamLwm then some (env, s, a) else none

/-- The call of `_handleCgiEvent` in an event. -/
def cgiCall (s : CgiStream) : Event → Option (Env × CgiStream × ReadAnswer)
  | .readable env a => if s.live then some (env, s, a) else none
  | .writable env takes a => if s.conn.state = .writing then s.writeCall env takes a else none
  | .sweep _ => none
  | .sweepClients env takes a =>
      if s.live && s.expires env then
        match sendError env 408 s.conn with
        | .bodyLimit _ => none
        | .ok c _ => ({ s with conn := c } : CgiStream).writeCall env takes a
      else none
  | .closed => none

/-- The event leads to a 413 page. -/
def Leads413 (s : CgiStream) (ev : Event) : Prop :=
  ∃ x ∈ s.cgiCall ev, Answers413 x.1 x.2.1.conn x.2.1.job x.2.2

/-- If the response has not begun, there is room for its beginning. -/
def BeginsWithRoom (s : CgiStream) (ev : Event) : Prop :=
  ∀ x ∈ s.cgiCall ev, x.2.1.job.headersSent = false → readsPipe x.2.1.conn x.2.1.job = true →
    FirstBlockFits x.1 x.2.1.conn x.2.1.job x.2.2

instance (s : CgiStream) (ev : Event) : Decidable (s.BeginsWithRoom ev) :=
  inferInstanceAs (Decidable (∀ x ∈ s.cgiCall ev, _))

section

variable {s : CgiStream} {ev : Event} {es : List Event} {x : Env × CgiStream × ReadAnswer}

theorem writeCall_spec {env : Env} {takes : List ℕ} {a : ReadAnswer}
    (h : x ∈ s.writeCall env takes a) : s.live = true ∧ x.2.1.job = s.job ∧ x.2.2 = a := by
  unfold writeCall at h
  dsimp only at h
  split at h
  · next hcall =>
    cases h
    exact ⟨hcall.1, rfl, rfl⟩
  · cases h

/-- The call finds the job as it is. -/
theorem cgiCall_spec (hev : ev.WellFormed) (h : x ∈ s.cgiCall ev) :
    s.live = true ∧ x.2.1.job = s.job ∧ x.2.2.WellFormed := by
  cases ev with
  | readable env a =>
    simp only [cgiCall] at h
    split at h
    · next hlive =>
      cases h
      exact ⟨hlive, rfl, hev⟩
    · cases h
  | writable env takes a =>
    simp only [cgiCall] at h
    split at h
    · obtain ⟨hlive, hjob, ha⟩ := writeCall_spec h
      exact ⟨hlive, hjob, ha ▸ hev⟩
    · cases h
  | sweep env => cases h
  | sweepClients env takes a =>
    simp only [cgiCall] at h
    split at h
    · split at h
      · cases h
      · obtain ⟨hlive, hjob, ha⟩ := writeCall_spec h
        exact ⟨hlive, hjob, ha ▸ hev⟩
    · cases h
  | closed => cases h

theorem Consistent.size (hs : Consistent s) (hlive : s.live = true)
    (hsent : s.job.headersSent = false) : s.job.resultBuffer.size ≤ fhls := by
  rcases hs hlive with hwaits | ⟨h, n, hr⟩
  · exact hwaits.size
  · rw [hr.headersSent] at hsent
    cases hsent

/-- One event. -/
theorem not_leads413_iff (hs : Consistent s) (hev : ev.WellFormed) :
    ¬ s.Leads413 ev ↔ s.BeginsWithRoom ev := by
  unfold Leads413 BeginsWithRoom
  rw [not_exists]
  apply forall_congr'
  intro x
  rw [not_and]
  apply imp_congr_right
  intro hx
  obtain ⟨hlive, hjob, ha⟩ := cgiCall_spec hev hx
  have hsize : x.2.1.job.headersSent = false → x.2.1.job.resultBuffer.size ≤ fhls := by
    rw [hjob]
    exact hs.size hlive
  rw [answers413_iff hsize ha]
  tauto

/-- **A job comes to no 413 page if and only if there is room for the beginning of its
response.** -/
theorem not_leads413_run (hs : Consistent s) (hes : ∀ ev ∈ es, ev.WellFormed) :
    Run.Meets step (fun s ev => ¬ s.Leads413 ev) s es ↔ Run.Meets step BeginsWithRoom s es := by
  have hwell : Run.Meets step (fun _ ev => ev.WellFormed) s es :=
    ((Run.Meets.of_forall (fun _ _ => trivial) es s).and_of_forall hes).mono fun _ _ h => h.2
  exact Run.Meets.iff_of_invariant (J := Consistent) (Q := fun _ ev => ev.WellFormed)
    (fun _ _ hs hev => hs.step hev) (fun _ _ hs hev => not_leads413_iff hs hev) hs hwell

end

end CgiStream

end Webserv
