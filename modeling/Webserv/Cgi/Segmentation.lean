import Webserv.Cgi.Delivery
import Webserv.Cgi.Room

/-!
# Output in pieces

The output of a script comes out of the pipe in pieces, as `read` returns them, and between two of
them the client may take what is queued.  Where the output is cut must not matter: the head is that
of the header block, and the chunks behind it carry the rest.

## Main definitions

* `CgiStream.Reads` — an event that has the pipe read, if it brings a piece.
* `SplitsAt` — the response to an output that is split at a given place.
* `CgiStream.RoomFor` — an event that finds room for what its piece is turned into.

## Main results

* `live_pump_sent`, `live_pump_unsent` — when a job goes on behind a piece.
* `splitAtBlankLine_iff` — **when the response is that of the output split at its first blank
  line**, over all cuts of the output.
-/

namespace Webserv

open Bytes ChunkedCoding

/-! ### Pieces -/

/-- What the script has written, if anything. -/
def ReadAnswer.piece : ReadAnswer → Option Bytes
  | .data p => some p
  | .eof => none
  | .again => none

namespace CgiStream

/-- The piece that an event has `read` return. -/
def Event.piece : Event → Option Bytes
  | .readable _ a => a.piece
  | .writable _ _ a => a.piece
  | _ => none

/-- The pieces that the events of a run bring. -/
def pieces (es : List Event) : List Bytes := es.filterMap Event.piece

/-- The pieces up to the one that brings their length to `n`. -/
def readsUpTo : ℕ → List Bytes → List Bytes
  | 0, _ => []
  | _ + 1, [] => []
  | n + 1, p :: ps => p :: readsUpTo (n + 1 - p.length) ps

theorem readsUpTo_zero (ps : List Bytes) : readsUpTo 0 ps = [] := by
  cases ps <;> rfl

theorem readsUpTo_cons {n : ℕ} (hn : 0 < n) (p : Bytes) (ps : List Bytes) :
    readsUpTo n (p :: ps) = p :: readsUpTo (n - p.length) ps := by
  cases n with
  | zero => exact absurd hn (Nat.lt_irrefl 0)
  | succ n => rfl

/-- The pipe is readable, or the client is writable, and the output is not at its end. -/
def Event.GoesOn : Event → Prop
  | .readable _ a => a ≠ .eof
  | .writable _ _ a => a ≠ .eof
  | _ => False

/-- There is too much to send for the pipe to be read. -/
def Held (s : CgiStream) : Prop :=
  s.job.headersSent = true ∧ cgiStreamHwm ≤ s.conn.writeBuffer.size

/-- If the event brings a piece, the job is over or the event comes to the pipe and finds
nothing against reading it, but that it may have been read too often. -/
def Reads (s : CgiStream) (ev : Event) : Prop :=
  ev.WellFormed ∧ ev.GoesOn ∧
    (ev.piece ≠ none → s.live = true → ∃ ta ∈ s.atPipe ev, ¬ Held ta.1)

/-- There is room for what a piece is turned into, for an output that is to be split in front of
position `e`. -/
def PieceRoom (e : ℕ) (s : CgiStream) (p : Bytes) : Prop :=
  if e ≤ s.output.length then s.conn.writeBuffer.Fits (encodeChunk p).length
  else e ≤ (s.output ++ p).length → s.conn.writeBuffer.Fits
    (cgiResponseHead ((s.output ++ p).take e) s.conn.request ++
      encodeChunk ((s.output ++ p).drop e)).length

/-- If the event brings a piece to the job, there is room for it. -/
def RoomFor (e : ℕ) (s : CgiStream) (ev : Event) : Prop :=
  ∀ p ∈ ev.piece, ∀ ta ∈ s.atPipe ev, PieceRoom e ta.1 p

instance (s : CgiStream) : Decidable (Held s) := inferInstanceAs (Decidable (_ ∧ _))

instance (e : ℕ) (s : CgiStream) (p : Bytes) : Decidable (PieceRoom e s p) := by
  unfold PieceRoom
  infer_instance

/-! ### When a job goes on -/

section

variable {env : Env} {s t : CgiStream} {c : Connection} {job : CgiJob} {d p : Bytes} {n : ℕ}

theorem job_record (x : Bytes) (eof : Bool) (r : Outcome (Connection × CgiJob) CgiFate) :
    (s.record x eof r).job = r.state.2 := rfl

/-- A job that is over. -/
theorem live_record_over {eof : Bool} {r : Outcome (Connection × CgiJob) CgiFate}
    (h : Over job r) : (s.record d eof r).live = false := by
  rcases h with ⟨c, rfl⟩ | ⟨c, rfl⟩ <;> simp [live, record, hasEnded, Outcome.threw]

theorem live_relayBody (x : Bytes) :
    (s.record x false (catchBodyLimit env (relayBody c job d))).live = true ↔
      (c.writeBuffer.appendAll (chunkBlocks d)).2 = true := by
  cases hall : (c.writeBuffer.appendAll (chunkBlocks d)).2 with
  | true =>
    simp only [relayBody, queue_ok hall, catchBodyLimit]
    exact iff_of_true rfl trivial
  | false =>
    simp only [relayBody, queue_refused hall, catchBodyLimit]
    rw [live_record_over (over_failCgiJob env 413 _ job)]

/-- The head and a chunk behind it. -/
theorem appendAll_behind_head {wb : ByteQueue} {head : Bytes} (hfits : wb.Fits head.length) :
    ((wb.push head).appendAll (chunkBlocks d)).2 = true ↔
      wb.Fits (head ++ encodeChunk d).length := by
  by_cases hd : d = []
  · subst hd
    exact iff_of_true rfl (by rwa [encodeChunk, if_pos rfl, List.append_nil])
  · rw [appendAll_chunkBlocks_iff hd, Fifo.Fits, Fifo.Fits, Fifo.size_push, Fifo.limit_push,
      List.length_append, Nat.add_assoc]

theorem live_relayHead (x : Bytes) :
    (s.record x false (catchBodyLimit env (relayHead c job n))).live = true ↔
      c.writeBuffer.Fits (cgiResponseHead (job.resultBuffer.items.take n) c.request ++
        encodeChunk (job.resultBuffer.items.drop n)).length := by
  have hne := cgiResponseHead_ne_nil (job.resultBuffer.items.take n) c.request
  unfold relayHead flushCgiHeaders
  generalize cgiResponseHead (job.resultBuffer.items.take n) c.request = head at hne ⊢
  by_cases hfits : c.writeBuffer.Fits head.length
  · -- the head is queued: it is up to the chunk behind it
    have hall := Fifo.appendAll_singleton_of_fits hfits
    rw [appendBlocks_of_true (by rw [hall]), List.flatten_singleton, ← appendAll_behind_head hfits]
    have hbody := @live_relayBody env s (c.setWriteBuffer (c.writeBuffer.push head))
      { job with headersSent := true } (job.resultBuffer.items.drop n) x
    refine Iff.trans ?_ hbody
    unfold relayLeftover
    dsimp only
    cases relayBody (c.setWriteBuffer (c.writeBuffer.push head))
      { job with headersSent := true } (job.resultBuffer.items.drop n) with
    | bodyLimit q => exact Iff.rfl
    | ok q fate => cases fate <;> exact Iff.rfl
  · -- the head is refused, and the handler ends the job
    have hall := Fifo.appendAll_singleton_of_not_fits hne hfits
    rw [appendBlocks_of_false (by rw [hall])]
    have hover : (s.record x false (failCgiJob env 413
        (c.setWriteBuffer (c.writeBuffer.appendAll [head]).1) job)).live = false :=
      live_record_over (over_failCgiJob env 413 _ job)
    refine iff_of_false ?_ fun hboth => hfits ?_
    · show ¬ (s.record x false (failCgiJob env 413 _ job)).live = true
      rw [hover]
      exact Bool.false_ne_true
    · rw [Fifo.Fits, List.length_append] at hboth
      exact Nat.le_trans (by omega) hboth

/-- A head that finds no room leaves the flag as it is. -/
theorem headersSent_relayHead (hfits : ¬ c.writeBuffer.Fits
      (cgiResponseHead (job.resultBuffer.items.take n) c.request).length) :
    (catchBodyLimit env (relayHead c job n)).state.2.headersSent = job.headersSent := by
  have hne := cgiResponseHead_ne_nil (job.resultBuffer.items.take n) c.request
  unfold relayHead flushCgiHeaders
  generalize cgiResponseHead (job.resultBuffer.items.take n) c.request = head at hne hfits ⊢
  rw [appendBlocks_of_false (by rw [Fifo.appendAll_singleton_of_not_fits hne hfits])]
  exact headersSent_over (over_failCgiJob env 413 _ job)

/-- **A job that relays goes on behind a piece that finds room.** -/
theorem live_pump_sent (hsent : s.job.headersSent = true)
    (hfew : s.job.parentRequest ≤ limitInternalRecursion) (hdue : ¬ Held s) (hp : p ≠ []) :
    (s.pump env (.data p)).live = true ↔ s.conn.writeBuffer.Fits (encodeChunk p).length := by
  have hlow : ¬ cgiStreamHwm ≤ s.conn.writeBuffer.size := fun h => hdue ⟨hsent, h⟩
  have hreads : readsPipe s.conn s.job = true := by simp [readsPipe, hlow, hfew]
  have hdata : cgiTry env s.conn s.job (.data p) =
      relayBody s.conn { s.job with parentRequest := s.job.parentRequest + 1 } p := by
    simp [cgiTry, cgiData, hsent]
  rw [pump_reads hreads, hdata]
  exact (live_relayBody p).trans (appendAll_chunkBlocks_iff hp)

/-- The piece that completes the header block has the head queued. -/
theorem pump_unsent (hs : Waits s) (hfew : s.job.parentRequest ≤ limitInternalRecursion)
    (hp : (ReadAnswer.data p).WellFormed)
    (hn : findHeaderEnd (s.job.resultBuffer.items ++ p) = some n) :
    s.pump env (.data p) = s.record p false (catchBodyLimit env (relayHead s.conn
      { s.job with
        parentRequest := s.job.parentRequest + 1
        resultBuffer := s.job.resultBuffer.push p } n)) := by
  have hreads : readsPipe s.conn s.job = true := by simp [readsPipe, hs.headersSent, hfew]
  have hsize : ¬ s.job.resultBuffer.size + p.length > limitRequestBody := by
    have hblock := hs.size
    have hlen := hp.2
    unfold fhls at hblock
    unfold limitRequestBody
    omega
  have hpush : appendResult s.job.resultBuffer p = some (s.job.resultBuffer.push p) := by
    rw [appendResult, if_neg hp.1, if_neg hsize]
  have hend : findHeaderEnd (s.job.resultBuffer.push p).items = some n := hn
  rw [pump_reads hreads]
  simp only [cgiTry, cgiData, hs.headersSent, Bool.false_eq_true, if_false, hpush, hend]
  rfl

/-- **A job that waits goes on behind the piece that completes its header block if there is room
for the head and for what stands behind the block.** -/
theorem live_pump_unsent (hs : Waits s) (hfew : s.job.parentRequest ≤ limitInternalRecursion)
    (hp : (ReadAnswer.data p).WellFormed)
    (hn : findHeaderEnd (s.job.resultBuffer.items ++ p) = some n) :
    (s.pump env (.data p)).live = true ↔ s.conn.writeBuffer.Fits (s.headFor p n ++
      encodeChunk ((s.job.resultBuffer.items ++ p).drop n)).length := by
  rw [pump_unsent hs hfew hp hn]
  exact live_relayHead p

/-- A head that is queued found room. -/
theorem fits_of_headersSent (hs : Waits s) (hfew : s.job.parentRequest ≤ limitInternalRecursion)
    (hp : (ReadAnswer.data p).WellFormed)
    (hn : findHeaderEnd (s.job.resultBuffer.items ++ p) = some n)
    (hsent : (s.pump env (.data p)).job.headersSent = true) :
    s.conn.writeBuffer.Fits (s.headFor p n).length := by
  by_contra hfits
  have hrefused : (s.pump env (.data p)).job.headersSent = s.job.headersSent := by
    rw [pump_unsent hs hfew hp hn, job_record, headersSent_relayHead]
    exact hfits
  rw [hrefused, hs.headersSent] at hsent
  cases hsent

/-- Nothing is there to be read. -/
theorem pump_again (hfew : s.job.parentRequest ≤ limitInternalRecursion) :
    s.pump env .again = s.record [] false (.ok (s.conn, s.job) .wait) := by
  cases hreads : readsPipe s.conn s.job with
  | true => exact pump_reads hreads
  | false =>
    have hheld : s.job.headersSent = true ∧ cgiStreamHwm ≤ s.conn.writeBuffer.size := by
      simpa [readsPipe, hfew] using hreads
    exact pump_held hheld.1 hfew hheld.2

/-- Every piece is counted. -/
theorem parentRequest_over {r : Outcome (Connection × CgiJob) CgiFate} (h : Over job r) :
    r.state.2.parentRequest = job.parentRequest := by
  rcases h with ⟨c, rfl⟩ | ⟨c, rfl⟩ <;> rfl

theorem parentRequest_catchBodyLimit (r : Outcome (Connection × CgiJob) CgiFate) :
    (catchBodyLimit env r).state.2.parentRequest = r.state.2.parentRequest := by
  cases r with
  | ok q fate => rfl
  | bodyLimit q => exact parentRequest_over (over_failCgiJob env 413 q.1 q.2)

theorem parentRequest_relayBody (c : Connection) (job : CgiJob) (d : Bytes) :
    (relayBody c job d).state.2.parentRequest = job.parentRequest := by
  unfold relayBody
  cases c.queue (chunkBlocks d) <;> rfl

theorem parentRequest_relayHead (c : Connection) (job : CgiJob) (n : ℕ) :
    (relayHead c job n).state.2.parentRequest = job.parentRequest := by
  unfold relayHead relayLeftover
  split
  · rfl
  · next wb _ _ =>
    have hbody := parentRequest_relayBody (c.setWriteBuffer wb) { job with headersSent := true }
      (job.resultBuffer.items.drop n)
    generalize relayBody (c.setWriteBuffer wb) { job with headersSent := true }
      (job.resultBuffer.items.drop n) = r at hbody ⊢
    cases r <;> exact hbody

theorem parentRequest_cgiData (env : Env) (c : Connection) (job : CgiJob) (d : Bytes) :
    (cgiData env c job d).state.2.parentRequest = job.parentRequest + 1 := by
  unfold cgiData
  dsimp only
  split
  · exact parentRequest_relayBody c _ d
  · cases appendResult job.resultBuffer d with
    | none => rfl
    | some buf =>
      dsimp only
      split
      · split
        · exact parentRequest_over (over_failCgiJob env 502 c _)
        · rfl
      · exact parentRequest_relayHead c _ _

theorem parentRequest_pump (hreads : readsPipe s.conn s.job = true) :
    (s.pump env (.data p)).job.parentRequest = s.job.parentRequest + 1 := by
  rw [pump_reads hreads]
  exact (parentRequest_catchBodyLimit _).trans (parentRequest_cgiData env s.conn s.job p)

/-! ### A chunk that is cut -/

/-- **What is queued of a chunk that is refused carries nothing of it**, with the zero chunk behind
it or without. -/
theorem not_carries_of_refused {wb : ByteQueue} {done : List Bytes} (h : Refused wb d done)
    (rest : Bytes) : ¬ Carries Crlf done.flatten (d ++ rest) ∧
      (¬ NoRoomToEnd (wb.push done.flatten) →
        ¬ Carries Crlf (done.flatten ++ zeroChunk) (d ++ rest)) := by
  obtain ⟨hd, hcases⟩ := h.cases
  have hne : d ++ rest ≠ [] := fun hnil => hd (List.append_eq_nil_iff.mp hnil).1
  have hline : ∀ tail : Bytes, Carries Crlf (sizeLine d ++ tail) (d ++ rest) →
      d.length + 2 ≤ tail.length := fun tail hcarries =>
    hcarries.length_of_sizeLine (sizeLine_hexadecimal d.length) hne
  have hzero : zeroChunk.length = 5 := rfl
  rcases hcases with ⟨rfl, -⟩ | ⟨rfl, -, hstop⟩ | ⟨rfl, -, hstop⟩
  · refine ⟨fun hcarries => hne ?_, fun _ hcarries => hne ?_⟩
    · exact hcarries.unique (Or.inl .nil)
    · exact hcarries.unique (Or.inr (message_lastChunk rfl))
  · simp only [List.flatten_singleton, NoRoomToEnd, Fifo.size_push, Fifo.limit_push]
    refine ⟨fun hcarries => ?_, fun hroom hcarries => ?_⟩
    · have hlen := hline [] (by rwa [List.append_nil])
      rw [List.length_nil] at hlen
      omega
    · -- the data that found no room is longer than the zero chunk that did
      have hlen := hline _ hcarries
      omega
  · simp only [List.flatten_cons, List.flatten_nil, List.append_nil, NoRoomToEnd, Fifo.size_push,
      Fifo.limit_push, List.length_append]
    refine ⟨fun hcarries => ?_, fun hroom => ?_⟩
    · have hlen := hline d hcarries
      omega
    · omega

/-- **The end of a job behind a chunk that is cut does not carry the output on.** -/
theorem SentStep.not_carries {early : Prop} {m s' : CgiStream} {h : Bytes}
    (hstep : SentStep early d m s') (hm : Relays m h n) (hearly : ¬ early) (heof : s'.eof = false)
    (hover : s'.live = false) (hd : d ≠ []) (rest : Bytes) {body : Bytes}
    (hq : s'.queued = h ++ body) : ¬ Carries Crlf body (m.output.drop n ++ (d ++ rest)) := by
  obtain ⟨front, hfront, hchunks⟩ := hm.chunks
  -- the chunks in front carry what was read in front
  have hbehind : ∀ {w : Bytes}, s'.queued = m.queued ++ w →
      ¬ Carries Crlf w (d ++ rest) → ¬ Carries Crlf body (m.output.drop n ++ (d ++ rest)) := by
    intro w hw hno hcarries
    rw [hq, hfront, List.append_assoc] at hw
    rw [List.append_cancel_left hw] at hcarries
    obtain ⟨payload, heq, hcarries⟩ := hchunks.carries_cancel hcarries
    rw [← List.append_cancel_left heq] at hcarries
    exact hno hcarries
  have hlive : s'.isOpen = true → s'.escaped = false → False := by
    intro hopen hesc
    rw [live_iff.mpr ⟨hopen, hesc⟩] at hover
    cases hover
  cases hstep with
  | idle hopen hesc => exact (hlive hopen hesc).elim
  | relayed hopen hesc => exact (hlive hopen hesc).elim
  | finished zero _ _ _ hend =>
    rw [heof] at hend
    cases hend
  | failed hwhy => exact absurd hwhy hearly
  | refused done href hroom _ _ _ _ hq' =>
    rw [List.append_assoc] at hq'
    exact hbehind hq' ((not_carries_of_refused href rest).2 hroom)
  | escaped x done hdone _ _ hq' =>
    apply hbehind hq'
    rcases hdone with rfl | href
    · intro hcarries
      exact hd (List.append_eq_nil_iff.mp (hcarries.unique (Or.inl .nil))).1
    · exact (not_carries_of_refused href rest).1

end

end CgiStream

/-! ### A response that is split -/

/-- The response to the output `out`, split in front of position `e`: this is where the body was
seen to begin, the head that is queued is that of the bytes in front, and the chunks behind the
head carry the rest. -/
structure SplitsAt (s : CgiStream) (req : HttpRequest) (out : Bytes) (e : ℕ) : Prop where
  bodyStart : s.bodyStart = some e
  head : s.head = some (cgiResponseHead (out.take e) req)
  body : ∃ body, s.queued = cgiResponseHead (out.take e) req ++ body ∧
    Carries Crlf body (out.drop e)

namespace CgiStream

section

variable {env : Env} {s t : CgiStream} {a : ReadAnswer} {ev : Event} {es : List Event}
  {req : HttpRequest} {h p out : Bytes} {e n : ℕ}

/-- A response is judged by what was queued. -/
theorem splitsAt_congr {s' : CgiStream} (hq : Quiet s s') :
    SplitsAt s' req out e ↔ SplitsAt s req out e := by
  constructor
  · exact fun hs => ⟨hq.bodyStart.symm.trans hs.bodyStart, hq.head.symm.trans hs.head,
      hq.queued ▸ hs.body⟩
  · exact fun hs => ⟨hq.bodyStart.trans hs.bodyStart, hq.head.trans hs.head,
      hq.queued.symm ▸ hs.body⟩

/-- What is over stays as it is. -/
theorem splitsAt_run_over : ∀ {es : List Event} {s : CgiStream}, s.live = false →
    (SplitsAt (s.run es) req out e ↔ SplitsAt s req out e) := by
  intro es
  induction es with
  | nil => exact fun _ => Iff.rfl
  | cons ev es ih =>
    intro s hover
    have hat : s.atPipe ev = none := by
      cases ev <;> simp [atPipe, hover]
    have hq : Quiet s (s.step ev) := by
      rcases quiet_of_atPipe hat with hq | ⟨-, -, hl, -⟩ | ⟨-, -, -, -, hl, -⟩
      · exact hq
      · rw [hover] at hl
        cases hl
      · rw [hover] at hl
        cases hl
    have hover' : (s.step ev).live = false := by
      rw [← Bool.not_eq_true]
      intro hl
      rw [hq.live hl] at hover
      cases hover
    exact (ih hover').trans (splitsAt_congr hq)

/-- A response that carries the output so far is the right one if nothing is missing. -/
theorem splitsAt_iff_of_carries {done more body : Bytes} (hstart : s.bodyStart = some e)
    (hhead : s.head = some (cgiResponseHead (out.take e) req))
    (hq : s.queued = cgiResponseHead (out.take e) req ++ body)
    (hcarries : Carries Crlf body (done.drop e)) (hle : e ≤ done.length)
    (hout : out = done ++ more) : SplitsAt s req out e ↔ more = [] := by
  have hdrop : out.drop e = done.drop e ++ more := by
    rw [hout, List.drop_append_of_le_length hle]
  constructor
  · rintro ⟨-, -, body', hq', hcarries'⟩
    rw [hq] at hq'
    rw [← List.append_cancel_left hq', hdrop] at hcarries'
    exact List.self_eq_append_right.mp (hcarries.unique hcarries')
  · rintro rfl
    rw [List.append_nil] at hdrop
    exact ⟨hstart, hhead, body, hq, hdrop ▸ hcarries⟩

/-! ### Events and their pieces -/

theorem piece_of_atPipe (hat : s.atPipe ev = some (t, a)) : ev.piece = a.piece := by
  cases ev with
  | readable env a' =>
    simp only [atPipe] at hat
    split at hat
    · cases hat
      rfl
    · cases hat
  | writable env takes a' =>
    simp only [atPipe] at hat
    split at hat
    · cases hat
      rfl
    · cases hat
  | sweep env => cases hat
  | sweepClients env takes a' => cases hat
  | closed => cases hat

theorem ne_eof_of_atPipe (hat : s.atPipe ev = some (t, a)) (hgoes : ev.GoesOn) : a ≠ .eof := by
  cases ev with
  | readable env a' =>
    simp only [atPipe] at hat
    split at hat
    · cases hat
      exact hgoes
    · cases hat
  | writable env takes a' =>
    simp only [atPipe] at hat
    split at hat
    · cases hat
      exact hgoes
    · cases hat
  | sweep env => cases hat
  | sweepClients env takes a' => cases hat
  | closed => cases hat

/-- An event that does not come to the pipe leaves a job what it is. -/
theorem quiet_step (hgoes : ev.GoesOn) (hat : s.atPipe ev = none) : Quiet s (s.step ev) := by
  rcases quiet_of_atPipe hat with hq | ⟨env, rfl, -⟩ | ⟨env, takes, a, rfl, -⟩
  · exact hq
  · exact hgoes.elim
  · exact hgoes.elim

theorem live_step (hgoes : ev.GoesOn) (hlive : s.live = true) (hat : s.atPipe ev = none) :
    (s.step ev).live = true := by
  cases ev with
  | readable env a => simp [atPipe, hlive] at hat
  | writable env takes a =>
    rw [step]
    split
    · next hw =>
      have hhigh : ¬ (s.drain env takes).conn.writeBuffer.size < cgiStreamLwm := by
        intro hlow
        simp [atPipe, hw, hlow, hlive] at hat
      simp only [write, show (s.drain env takes).live = true from hlive, if_true, if_neg hhigh]
      obtain ⟨c, hc⟩ := setWriting_cases (s.drain env takes)
      rw [hc]
      exact hlive
    · exact hlive
  | sweep env => exact hgoes.elim
  | sweepClients env takes a => exact hgoes.elim
  | closed => exact hgoes.elim

/-- An event at the pipe is `_handleCgiEvent`, but for the state of the client. -/
theorem step_eq_pump (hat : s.atPipe ev = some (t, a)) :
    ∃ env c, s.step ev = { t.pump env a with conn := c } := by
  obtain ⟨-, -, -, -, env, hstep | ⟨-, hstep⟩⟩ := step_of_atPipe hat
  · exact ⟨env, (t.pump env a).conn, hstep⟩
  · obtain ⟨c, hc⟩ := setWriting_cases (t.pump env a)
    exact ⟨env, c, hstep.trans hc⟩

theorem pieces_cons_none (hpiece : ev.piece = none) : pieces (ev :: es) = pieces es :=
  List.filterMap_cons_none hpiece

theorem pieces_cons_some (hpiece : ev.piece = some p) : pieces (ev :: es) = p :: pieces es :=
  List.filterMap_cons_some hpiece

/-- No piece is empty. -/
theorem wellFormed_of_piece (hev : ev.WellFormed) (hpiece : ev.piece = some p) :
    (ReadAnswer.data p).WellFormed := by
  have hdata : ∀ {a : ReadAnswer}, a.WellFormed → a.piece = some p →
      (ReadAnswer.data p).WellFormed := by
    intro a ha hp
    cases a with
    | data q =>
      cases hp
      exact ha
    | eof => cases hp
    | again => cases hp
  cases ev with
  | readable env a => exact hdata hev hpiece
  | writable env takes a => exact hdata hev hpiece
  | sweep env => cases hpiece
  | sweepClients env takes a => cases hpiece
  | closed => cases hpiece

theorem pieces_ne_nil : ∀ {es : List Event} {s : CgiStream}, Run.Meets step Reads s es →
    ∀ p ∈ pieces es, p ≠ [] := by
  intro es
  induction es with
  | nil => exact fun _ p hp => absurd hp List.not_mem_nil
  | cons ev es ih =>
    intro s hreads p hp
    cases hpiece : ev.piece with
    | none =>
      rw [pieces_cons_none hpiece] at hp
      exact ih hreads.2 p hp
    | some q =>
      rw [pieces_cons_some hpiece] at hp
      rcases List.mem_cons.mp hp with rfl | hp
      · exact (wellFormed_of_piece hreads.1.1 hpiece).1
      · exact ih hreads.2 p hp

theorem flatten_pieces_eq_nil (hreads : Run.Meets step Reads s es) :
    (pieces es).flatten = [] ↔ pieces es = [] := by
  constructor
  · intro hnil
    rw [List.flatten_eq_nil_iff] at hnil
    exact List.eq_nil_iff_forall_not_mem.mpr fun p hp => pieces_ne_nil hreads p hp (hnil p hp)
  · intro hnil
    rw [hnil, List.flatten_nil]

theorem reads_readable (hp : (ReadAnswer.data p).WellFormed) (h : ¬ Held s) :
    Reads s (.readable env (.data p)) :=
  ⟨hp, nofun, fun _ hlive => ⟨(s, .data p), if_pos hlive, h⟩⟩

theorem roomFor_readable (h : PieceRoom e s p) : RoomFor e s (.readable env (.data p)) := by
  intro q hq ta hta
  cases hq
  simp only [atPipe] at hta
  split at hta
  · cases hta
    exact h
  · cases hta

/-- An event that does not come to the pipe of a job brings no piece. -/
theorem piece_eq_none (hdue : ev.piece ≠ none → s.live = true → ∃ ta ∈ s.atPipe ev, ¬ Held ta.1)
    (hlive : s.live = true) (hat : s.atPipe ev = none) : ev.piece = none := by
  by_contra hsome
  obtain ⟨ta, hta, -⟩ := hdue hsome hlive
  rw [hat] at hta
  cases hta

/-- Where nothing is read there is room for it. -/
theorem roomFor_of_none (hpiece : ev.piece = none) (s : CgiStream) : RoomFor e s ev := by
  intro p hp
  rw [hpiece] at hp
  cases hp

theorem meets_roomFor_of_nil : ∀ {es : List Event} {s : CgiStream}, pieces es = [] →
    Run.Meets step (RoomFor e) s es := by
  intro es
  induction es with
  | nil => exact fun _ => trivial
  | cons ev es ih =>
    intro s hnil
    cases hpiece : ev.piece with
    | none => exact ⟨roomFor_of_none hpiece s, ih (pieces_cons_none hpiece ▸ hnil)⟩
    | some p =>
      rw [pieces_cons_some hpiece] at hnil
      cases hnil

/-! ### A job that relays -/

/-- A piece that goes on. -/
theorem Relays.withConn {c : Connection} (hr : Relays s h n) :
    Relays { s with conn := c } h n :=
  ⟨hr.head, hr.bodyStart, hr.headersSent, hr.eof, hr.terminated, hr.le, hr.body⟩

/-- A pipe that has been read too often: what is queued ends, and carries what has been read. -/
theorem Relays.pump_many (hr : Relays s h n)
    (hmany : limitInternalRecursion < s.job.parentRequest) :
    (s.pump env a).live = false ∧ ∃ body, (s.pump env a).queued = h ++ body ∧
      Carries Crlf body (s.output.drop n) := by
  obtain ⟨front, hfront, hchunks⟩ := hr.chunks
  have hf := filed_record s [] false (failCgiJob env 502 s.conn s.job)
  rw [CgiStream.pump_many hmany]
  refine ⟨live_record_over (over_failCgiJob env 502 s.conn s.job), ?_⟩
  rcases @failCgiJob_sent env 502 s.conn _ hr.headersSent with ⟨-, c, hend, hwb⟩ | ⟨-, hend⟩
  · rw [hend] at hf
    have hmessage := Message.of_chunks_append hchunks (message_lastChunk (D := Crlf) rfl)
    rw [List.append_nil] at hmessage
    rw [hend, hf.queued zeroChunk hwb, hfront, List.append_assoc]
    exact ⟨_, rfl, Or.inr hmessage⟩
  · rw [hend] at hf
    rw [hend, hf.queued [] (Fifo.push_nil _).symm, hfront, List.append_nil]
    exact ⟨front, rfl, Or.inl hchunks⟩

/-- A pipe that has been read too often leads to the right response if nothing is missing. -/
theorem Relays.splitsAt_many {s' : CgiStream} {c : Connection} {more : Bytes}
    (ht : Relays t (cgiResponseHead (out.take e) req) e)
    (hmany : limitInternalRecursion < t.job.parentRequest)
    (hstep : s' = { t.pump env a with conn := c }) (hout : out = t.output ++ more) :
    SplitsAt (s'.run es) req out e ↔ more = [] := by
  obtain ⟨hover, body, hqueued, hcarries⟩ := @Relays.pump_many env t a _ e ht hmany
  have hkept := @kept_pump env a t ht.headersSent
  have hover' : s'.live = false := by rw [hstep]; exact hover
  rw [splitsAt_run_over hover', hstep]
  exact splitsAt_iff_of_carries (hkept.bodyStart.trans ht.bodyStart)
    (hkept.head.trans ht.head) hqueued hcarries ht.le hout

theorem readsPipe_of_not_held (hsent : s.job.headersSent = true)
    (hfew : s.job.parentRequest ≤ limitInternalRecursion) (hdue : ¬ Held s) :
    readsPipe s.conn s.job = true := by
  have hlow : ¬ cgiStreamHwm ≤ s.conn.writeBuffer.size := fun hhigh => hdue ⟨hsent, hhigh⟩
  simp [readsPipe, hlow, hfew]

/-- A piece that finds no room leads to another response. -/
theorem Relays.not_splitsAt_refused {s' : CgiStream} {c : Connection} {more : Bytes}
    (ht : Relays t (cgiResponseHead (out.take e) req) e)
    (hfew : t.job.parentRequest ≤ limitInternalRecursion) (hdue : ¬ Held t) (hp : p ≠ [])
    (hover : (t.pump env (.data p)).live = false)
    (hstep : s' = { t.pump env (.data p) with conn := c }) (hout : out = t.output ++ (p ++ more)) :
    ¬ SplitsAt (s'.run es) req out e := by
  have hreads := readsPipe_of_not_held ht.headersSent hfew hdue
  have hsent := @sentStep_pump env (.data p) t ht.headersSent
  rw [hreads, if_pos rfl] at hsent
  have heof : (t.pump env (.data p)).eof = false := by
    rw [pump_reads hreads]
    exact (Bool.or_false _).trans ht.eof
  have hover' : s'.live = false := by rw [hstep]; exact hover
  rw [splitsAt_run_over hover', hstep]
  rintro ⟨-, -, body, hqueued, hcarries⟩
  rw [hout, List.drop_append_of_le_length ht.le] at hcarries
  exact hsent.not_carries ht (Nat.not_lt.mpr hfew) heof hover hp _ hqueued hcarries

/-- A piece that finds room is relayed. -/
theorem Relays.pump_data (ht : Relays t h n)
    (hfew : t.job.parentRequest ≤ limitInternalRecursion) (hdue : ¬ Held t)
    (hlive : (t.pump env (.data p)).live = true) :
    Relays (t.pump env (.data p)) h n ∧ (t.pump env (.data p)).output = t.output ++ p := by
  have hreads := readsPipe_of_not_held ht.headersSent hfew hdue
  have hsent := @sentStep_pump env (.data p) t ht.headersSent
  rw [hreads, if_pos rfl] at hsent
  obtain ⟨hopen, hesc⟩ := live_iff.mp hlive
  exact ⟨ht.step hsent (kept_pump ht.headersSent) hopen hesc, by rw [pump_reads hreads]; rfl⟩

/-- **When a job that relays goes on to the right response.** -/
theorem splitsAt_iff_of_relays : ∀ {es : List Event} {s : CgiStream},
    Relays s (cgiResponseHead (out.take e) req) e → s.live = true →
    s.job.parentRequest ≤ limitInternalRecursion + 1 → Run.Meets step Reads s es →
    out = s.output ++ (pieces es).flatten →
      (SplitsAt (s.run es) req out e ↔
        s.job.parentRequest + (pieces es).length ≤ limitInternalRecursion + 1 ∧
          Run.Meets step (RoomFor e) s es) := by
  intro es
  induction es with
  | nil =>
    intro s hr _ hcount _ hout
    obtain ⟨body, hq, hchunks⟩ := hr.chunks
    refine iff_of_true ?_ ⟨hcount, trivial⟩
    exact (splitsAt_iff_of_carries hr.bodyStart hr.head hq (Or.inl hchunks) hr.le hout).mpr rfl
  | cons ev es ih =>
    intro s hr hlive hcount hreads hout
    have hnonempty := flatten_pieces_eq_nil hreads
    obtain ⟨⟨hwf, hgoes, hdue⟩, hrest⟩ := hreads
    show SplitsAt ((s.step ev).run es) req out e ↔ _ ∧ RoomFor e s ev ∧ _
    cases hat : s.atPipe ev with
    | none =>
      have hpiece := piece_eq_none hdue hlive hat
      have hq := quiet_step hgoes hat
      have hlive' := live_step hgoes hlive hat
      rw [pieces_cons_none hpiece] at hout ⊢
      have hih := ih (hr.quiet hq) hlive' (hq.job ▸ hcount) hrest (by rw [hq.output, hout])
      rw [hq.job] at hih
      rw [and_iff_right (roomFor_of_none hpiece s)]
      exact hih
    | some ta =>
      obtain ⟨t, a⟩ := ta
      obtain ⟨-, hlive', hq, -, -⟩ := step_of_atPipe hat
      obtain ⟨env, c, hstep⟩ := step_eq_pump hat
      have ht := hr.quiet hq
      rw [← hq.job] at hcount ⊢
      rw [← hq.output] at hout
      by_cases hmany : limitInternalRecursion < t.job.parentRequest
      · -- the job is ended, and whatever has not been read is missing
        rw [ht.splitsAt_many hmany hstep hout, hnonempty]
        constructor
        · intro hnil
          have hroom := @meets_roomFor_of_nil e (ev :: es) s hnil
          exact ⟨by rw [hnil, List.length_nil]; exact hcount, hroom⟩
        · intro hboth
          exact List.eq_nil_of_length_eq_zero (by have hle := hboth.1; omega)
      · have hfew := Nat.not_lt.mp hmany
        have hpiece := piece_of_atPipe hat
        cases a with
        | eof => exact absurd rfl (ne_eof_of_atPipe hat hgoes)
        | again =>
          have hwait := ht.step (@sentStep_wait False [] t)
            (kept_record ht.headersSent ht.headersSent) rfl rfl
          rw [pump_again hfew] at hstep
          rw [pieces_cons_none hpiece] at hout ⊢
          rw [and_iff_right (roomFor_of_none hpiece s)]
          -- the count of the reads stays as it is
          have hnext : Relays (s.step ev) (cgiResponseHead (out.take e) req) e := by
            rw [hstep]
            exact hwait.withConn
          have hih := ih hnext (by rw [hstep]; rfl) (by rw [hstep]; exact hcount) hrest (by
            rw [hstep, hout]
            show _ = t.output ++ [] ++ _
            rw [List.append_nil])
          rwa [show (s.step ev).job = t.job by rw [hstep]; rfl] at hih
        | data p =>
          have hunheld : ¬ Held t := by
            obtain ⟨ta, hta, hno⟩ := hdue (by rw [hpiece]; exact nofun) hlive
            rw [hat, Option.mem_some_iff] at hta
            rwa [← hta] at hno
          have hp := (wellFormed_of_piece hwf hpiece).1
          have hroom : RoomFor e s ev ↔ (t.pump env (.data p)).live = true := by
            rw [live_pump_sent ht.headersSent hfew hunheld hp]
            unfold RoomFor PieceRoom
            rw [hpiece, hat]
            simp [ReadAnswer.piece, ht.le]
          rw [pieces_cons_some hpiece, List.flatten_cons] at hout
          rw [pieces_cons_some hpiece, List.length_cons, hroom]
          cases hl : (t.pump env (.data p)).live with
          | true =>
            -- the piece is relayed, and one more read is counted
            obtain ⟨hnext, hread⟩ := ht.pump_data hfew hunheld hl
            have hnext' := hnext.withConn (c := c)
            rw [← hstep] at hnext'
            have hpr : (s.step ev).job.parentRequest = t.job.parentRequest + 1 := by
              rw [hstep]
              exact parentRequest_pump (readsPipe_of_not_held ht.headersSent hfew hunheld)
            have hih := ih hnext' (by rw [hstep]; exact hl) (by rw [hpr]; omega) hrest (by
              rw [hstep, hout, hread, List.append_assoc])
            rw [hpr, Nat.add_assoc, Nat.add_comm 1] at hih
            rw [hih]
            simp
          | false =>
            exact iff_of_false (ht.not_splitsAt_refused hfew hunheld hp hl hstep hout) (by simp)

/-! ### A job that waits -/

/-- Where the body begins is settled once. -/
theorem bodyStart_run : ∀ {es : List Event} {s : CgiStream}, s.job.headersSent = true →
    Run.Meets step Reads s es → (s.run es).bodyStart = s.bodyStart := by
  intro es
  induction es with
  | nil => exact fun _ _ => rfl
  | cons ev es ih =>
    intro s hsent hreads
    obtain ⟨⟨-, hgoes, -⟩, hrest⟩ := hreads
    have hstep : (s.step ev).job.headersSent = true ∧ (s.step ev).bodyStart = s.bodyStart := by
      cases hat : s.atPipe ev with
      | none =>
        have hq := quiet_step hgoes hat
        exact ⟨hq.job ▸ hsent, hq.bodyStart⟩
      | some ta =>
        obtain ⟨t, a⟩ := ta
        obtain ⟨-, -, hq, -⟩ := step_of_atPipe hat
        obtain ⟨env, c, hstep⟩ := step_eq_pump hat
        have hkept := @kept_pump env a t (hq.job ▸ hsent)
        rw [hstep]
        exact ⟨hkept.headersSent, hkept.bodyStart.trans hq.bodyStart⟩
    exact (ih hstep.1 hrest).trans hstep.2

/-- A job that waits has nothing for the client to take. -/
theorem Waits.atPipe (hs : Waits s) (hat : s.atPipe ev = some (t, a)) :
    t = s ∧ ∃ env, s.step ev = s.pump env a := by
  cases ev with
  | readable env a' =>
    simp only [CgiStream.atPipe] at hat
    split at hat
    · next hl =>
      cases hat
      exact ⟨rfl, env, if_pos hl⟩
    · cases hat
  | writable env takes a' => simp [CgiStream.atPipe, hs.state] at hat
  | sweep env => cases hat
  | sweepClients env takes a' => cases hat
  | closed => cases hat

/-- A header block that is not complete ends further on. -/
theorem lt_of_findHeaderEnd_none {d : Bytes} (hblank : FirstBlankLine (d ++ out) e)
    (hnone : findHeaderEnd d = none) : d.length < e := by
  by_contra hge
  exact findHeaderEnd_ne_none (hblank.of_append (Nat.le_of_not_lt hge)).1 hnone

theorem Waits.length_lt (hs : Waits s) (hblank : FirstBlankLine (s.output ++ out) e) :
    s.output.length < e :=
  lt_of_findHeaderEnd_none hblank (hs.output ▸ hs.noEnd)

/-- A header block that a piece completes ends in that piece. -/
theorem Waits.length_lt_of_end (hs : Waits s) (hn : findHeaderEnd (s.output ++ p) = some n) :
    s.output.length < n := by
  by_contra hge
  have hb := (blankLineAt_append (Nat.le_of_not_lt hge)).mp (blankLineAt_of_findHeaderEnd hn)
  rw [hs.output] at hb
  exact findHeaderEnd_ne_none hb hs.noEnd

/-- A job that is over before its head is queued. -/
theorem not_splitsAt_of_head (hhead : s.head = none) : ¬ SplitsAt s req out e := by
  intro h
  rw [h.head] at hhead
  cases hhead

/-- What stands behind the header block finds no room: the response is another one. -/
theorem not_splitsAt_of_begun (hs : Waits s) (hp : (ReadAnswer.data p).WellFormed)
    (hfew : s.job.parentRequest ≤ limitInternalRecursion)
    (hn : findHeaderEnd (s.output ++ p) = some n)
    (hsent : SentStep False ((s.output ++ p).drop n) (s.begin p n) (s.pump env (.data p)))
    (hkept : Kept (s.begin p n) (s.pump env (.data p)))
    (hbegun : Relays (s.begin p n) (cgiResponseHead (out.take n) req) n)
    (hover : (s.pump env (.data p)).live = false) {more : Bytes}
    (hout : out = s.output ++ p ++ more) :
    ¬ SplitsAt ((s.pump env (.data p)).run es) req out n := by
  have hle := (blankLineAt_of_findHeaderEnd hn).le_length
  have hwhole : (s.begin p n).output ++ (s.output ++ p).drop n = s.output ++ p := by
    show (s.job.resultBuffer.items ++ p).take n ++ _ = _
    rw [← hs.output, List.take_append_drop]
  have heof : (s.pump env (.data p)).eof = false := by
    rw [pump_reads (by simp [readsPipe, hs.headersSent, hfew])]
    exact (Bool.or_false _).trans hs.eof
  have hrest : (s.output ++ p).drop n ≠ [] := by
    intro hnil
    have hfits := fits_of_headersSent hs hfew hp (hs.output ▸ hn) hkept.headersSent
    rw [← Bool.not_eq_true, live_pump_unsent hs hfew hp (hs.output ▸ hn), ← hs.output, hnil,
      encodeChunk, if_pos rfl, List.append_nil] at hover
    exact hover hfits
  have hdrop : out.drop n = (s.begin p n).output.drop n ++ ((s.output ++ p).drop n ++ more) := by
    rw [← List.append_assoc, ← List.drop_append_of_le_length hbegun.le, hwhole, hout,
      List.drop_append_of_le_length hle]
  rw [splitsAt_run_over hover]
  rintro ⟨-, -, body, hqueued, hcarries⟩
  rw [hdrop] at hcarries
  exact hsent.not_carries hbegun id heof hover hrest _ hqueued hcarries

/-- **What becomes of the response once the header block is complete.** -/
theorem splitsAt_iff_of_begun (hs : Waits s) (hp : (ReadAnswer.data p).WellFormed)
    (hfew : s.job.parentRequest ≤ limitInternalRecursion)
    (hn : findHeaderEnd (s.output ++ p) = some n)
    (hsent : SentStep False ((s.output ++ p).drop n) (s.begin p n) (s.pump env (.data p)))
    (hkept : Kept (s.begin p n) (s.pump env (.data p)))
    (hreads : Run.Meets step Reads (s.pump env (.data p)) es)
    (hout : out = s.output ++ p ++ (pieces es).flatten) :
    SplitsAt ((s.pump env (.data p)).run es) s.conn.request out e ↔ n = e ∧
      s.job.parentRequest + 1 + (pieces es).length ≤ limitInternalRecursion + 1 ∧
        PieceRoom e s p ∧ Run.Meets step (RoomFor e) (s.pump env (.data p)) es := by
  have hle := (blankLineAt_of_findHeaderEnd hn).le_length
  have hlt := hs.length_lt_of_end hn
  have htake : out.take n = (s.output ++ p).take n := by
    rw [hout, List.take_append_of_le_length hle]
  have hhead : s.headFor p n = cgiResponseHead (out.take n) s.conn.request := by
    rw [htake, hs.output]
    rfl
  have hbegun : Relays (s.begin p n) (cgiResponseHead (out.take n) s.conn.request) n := by
    rw [← hhead]
    exact relays_begin hs (by rwa [← hs.output])
  have hstart : ((s.pump env (.data p)).run es).bodyStart = some n :=
    (bodyStart_run hkept.headersSent hreads).trans hkept.bodyStart
  by_cases hne : n = e
  · subst hne
    have hreadsPipe : readsPipe s.conn s.job = true := by simp [readsPipe, hs.headersSent, hfew]
    have hroom : PieceRoom n s p ↔ (s.pump env (.data p)).live = true := by
      rw [live_pump_unsent hs hfew hp (hs.output ▸ hn), PieceRoom, if_neg (Nat.not_le.mpr hlt),
        imp_iff_right hle, hs.output]
      exact Iff.rfl
    have hread : (s.pump env (.data p)).output = s.output ++ p := by
      rw [pump_reads hreadsPipe]
      rfl
    rw [hroom, and_iff_right rfl]
    cases hl : (s.pump env (.data p)).live with
    | true =>
      obtain ⟨hopen, hesc⟩ := live_iff.mp hl
      have hpr := @parentRequest_pump env s p hreadsPipe
      have hnext := splitsAt_iff_of_relays (hbegun.step hsent hkept hopen hesc) hl
        (by rw [hpr]; omega) hreads (by rw [hread, hout])
      rw [hpr] at hnext
      rw [hnext, and_iff_right rfl]
    | false =>
      exact iff_of_false (not_splitsAt_of_begun hs hp hfew hn hsent hkept hbegun hl hout) (by simp)
  · refine iff_of_false ?_ (fun h => hne h.1)
    intro h
    exact hne (Option.some.inj (hstart.symm.trans h.bodyStart))

/-- A pipe that has been read too often. -/
theorem not_splitsAt_of_many (hs : Waits s) (ha : a.WellFormed)
    (hmany : limitInternalRecursion < s.job.parentRequest) :
    ¬ SplitsAt ((s.pump env a).run es) req out e := by
  have hstep := @unsentStep_pump env _ _ hs.headersSent hs.output hs.noEnd hs.size ha
  have hreads : readsPipe s.conn s.job = false := by simp [readsPipe, Nat.not_le.mpr hmany]
  rw [hreads] at hstep
  cases hstep with
  | more _ _ _ _ _ _ hfew => exact absurd hmany (Nat.not_lt.mpr hfew)
  | begun n hfew => exact absurd hmany (Nat.not_lt.mpr hfew)
  | failed hover _ _ hhead _ =>
    have hl : (s.pump env a).live = false := by
      rcases hover with h | h <;> simp [live, h]
    rw [splitsAt_run_over hl]
    exact not_splitsAt_of_head (hhead.trans hs.head)

/-- Nothing was there to be read. -/
theorem Waits.again (hs : Waits s) : Waits (s.record [] false (.ok (s.conn, s.job) .wait)) := by
  have hf := filed_record s [] false (.ok (s.conn, s.job) .wait)
  have hout := hf.output
  have hq := (hf.queued [] (Fifo.push_nil _).symm).trans (List.append_nil _)
  have hnone : findHeaderEnd (s.job.resultBuffer.items ++ []) = none := by
    rw [List.append_nil]
    exact hs.noEnd
  refine hs.more rfl hs.headersSent (List.append_nil _).symm hnone (fun h => absurd rfl h) hout
    (hf.eof.trans (Bool.or_false _)) hq ?_ (hf.goesOn rfl) ?_
  · simp [record, hs.headersSent]
  · simp [record, hs.headersSent, hs.noEnd]

/-- **What becomes of the response once the header block has been read.** -/
theorem splitsAt_iff_of_end (hs : Waits s) (hp : (ReadAnswer.data p).WellFormed)
    (hfew : s.job.parentRequest ≤ limitInternalRecursion)
    (hn : findHeaderEnd (s.output ++ p) = some n)
    (hreads : Run.Meets step Reads (s.pump env (.data p)) es)
    (hout : out = s.output ++ p ++ (pieces es).flatten) :
    SplitsAt ((s.pump env (.data p)).run es) s.conn.request out e ↔ n = e ∧
      s.job.parentRequest + 1 + (pieces es).length ≤ limitInternalRecursion + 1 ∧
        PieceRoom e s p ∧ Run.Meets step (RoomFor e) (s.pump env (.data p)) es := by
  have hstep := @unsentStep_pump env _ _ hs.headersSent hs.output hs.noEnd hs.size hp
  have hpipe : readsPipe s.conn s.job = true := by simp [readsPipe, hs.headersSent, hfew]
  rw [hpipe, if_pos rfl, show (ReadAnswer.data p).bytes = p from rfl] at hstep
  cases hstep with
  | more _ _ _ _ _ hnone =>
    rw [← hs.output, hn] at hnone
    cases hnone
  | begun m _ hm hsent hkept =>
    rw [← hs.output] at hm hsent
    obtain rfl := Option.some.inj (hn.symm.trans hm)
    exact splitsAt_iff_of_begun hs hp hfew hn hsent hkept hreads hout
  -- nothing of the response is queued, since its head found no room
  | failed hover _ _ hhead _ =>
    have hl : (s.pump env (.data p)).live = false := by
      rcases hover with h | h <;> simp [live, h]
    rw [splitsAt_run_over hl]
    refine iff_of_false (not_splitsAt_of_head (hhead.trans hs.head)) ?_
    rintro ⟨rfl, -, hroom, -⟩
    rw [← Bool.not_eq_true, live_pump_unsent hs hfew hp (hs.output ▸ hn), ← hs.output] at hl
    have hlt := hs.length_lt_of_end hn
    rw [PieceRoom, if_neg (Nat.not_le.mpr hlt),
      imp_iff_right (blankLineAt_of_findHeaderEnd hn).le_length] at hroom
    rw [headFor, ← hs.output] at hl
    exact hl hroom

/-- A piece of the header block. -/
theorem Waits.pump (hs : Waits s) (hp : (ReadAnswer.data p).WellFormed)
    (hfew : s.job.parentRequest ≤ limitInternalRecursion)
    (hn : findHeaderEnd (s.output ++ p) = none) (hshort : (s.output ++ p).length ≤ fhls) :
    Waits (s.pump env (.data p)) ∧ (s.pump env (.data p)).live = true ∧
      (s.pump env (.data p)).conn = s.conn ∧ (s.pump env (.data p)).output = s.output ++ p ∧
        (s.pump env (.data p)).job.parentRequest = s.job.parentRequest + 1 := by
  have hstep := @unsentStep_pump env _ _ hs.headersSent hs.output hs.noEnd hs.size hp
  have hpipe : readsPipe s.conn s.job = true := by simp [readsPipe, hs.headersSent, hfew]
  rw [hpipe, if_pos rfl, show (ReadAnswer.data p).bytes = p from rfl] at hstep
  rw [hs.output] at hn hshort
  cases hstep with
  | more hopen hesc hconn hsent hbuf hnone _ hsize hcount hout heof hq hhead ht hstart =>
    rw [if_neg hp.1] at hcount
    exact ⟨hs.more hconn hsent hbuf hnone hsize hout heof hq hhead ht hstart,
      live_iff.mpr ⟨hopen, hesc⟩, hconn, hout, hcount⟩
  | begun m _ hm =>
    rw [hn] at hm
    cases hm
  | failed _ _ _ _ _ hlong =>
    have hlt := hlong hp.1 hn
    omega

/-- **When a job that waits goes on to the right response.** -/
theorem splitsAt_iff_of_waits (he : e ≤ fhls) : ∀ {es : List Event} {s : CgiStream},
    Waits s → s.live = true → Run.Meets step Reads s es →
    FirstBlankLine (s.output ++ (pieces es).flatten) e →
      (SplitsAt (s.run es) s.conn.request (s.output ++ (pieces es).flatten) e ↔
        s.job.parentRequest + (pieces es).length ≤ limitInternalRecursion + 1 ∧
          (∀ i, FirstMatch.find crlfcrlf (s.output ++
              (readsUpTo (e - s.output.length) (pieces es)).flatten) = some i → i < e) ∧
            Run.Meets step (RoomFor e) s es) := by
  intro es
  induction es with
  | nil =>
    intro s hs _ _ hblank
    have hlt := hs.length_lt hblank
    have hle := hblank.1.le_length
    rw [show pieces [] = [] from rfl, List.flatten_nil, List.append_nil] at hle
    omega
  | cons ev es ih =>
    intro s hs hlive hreads hblank
    have hlt := hs.length_lt hblank
    obtain ⟨⟨hwf, hgoes, hdue⟩, hrest⟩ := hreads
    show SplitsAt ((s.step ev).run es) _ _ e ↔ _ ∧ _ ∧ RoomFor e s ev ∧ _
    cases hat : s.atPipe ev with
    | none =>
      have hpiece := piece_eq_none hdue hlive hat
      have hq := quiet_step hgoes hat
      have hlive' := live_step hgoes hlive hat
      have hconn := hq.conn hlive' (by rw [hs.state]; decide)
      rw [pieces_cons_none hpiece] at hblank ⊢
      have hih := ih (hs.quiet hq hlive') hlive' hrest (by rwa [hq.output])
      rw [hconn, hq.output, hq.job] at hih
      rw [and_iff_right (roomFor_of_none hpiece s)]
      exact hih
    | some ta =>
      obtain ⟨t, a⟩ := ta
      obtain ⟨rfl, env, hstep⟩ := hs.atPipe hat
      have hpiece := piece_of_atPipe hat
      rw [hstep] at hrest ⊢
      have ha : a.WellFormed := (step_of_atPipe hat).2.2.2.1 hwf
      by_cases hmany : limitInternalRecursion < t.job.parentRequest
      · -- the job is ended before its header block is complete
        refine iff_of_false (not_splitsAt_of_many hs ha hmany) fun hboth => ?_
        have hnil := List.eq_nil_of_length_eq_zero
          (show (pieces (ev :: es)).length = 0 by have hle := hboth.1; omega)
        have hle := hblank.1.le_length
        rw [hnil, List.flatten_nil, List.append_nil] at hle
        omega
      · have hfew := Nat.not_lt.mp hmany
        cases a with
        | eof => exact absurd rfl (ne_eof_of_atPipe hat hgoes)
        | again =>
          rw [pump_again hfew] at hrest ⊢
          rw [pieces_cons_none hpiece] at hblank ⊢
          rw [and_iff_right (roomFor_of_none hpiece t)]
          have hih := ih hs.again rfl hrest (by
            show FirstBlankLine (t.output ++ [] ++ _) e
            rwa [List.append_nil])
          rwa [show (t.record [] false (.ok (t.conn, t.job) .wait)).output = t.output from
            List.append_nil _] at hih
        | data p =>
          rw [pieces_cons_some hpiece, List.flatten_cons, ← List.append_assoc] at hblank
          rw [pieces_cons_some hpiece, List.flatten_cons, readsUpTo_cons (by omega),
            List.length_cons, List.flatten_cons, ← List.append_assoc, ← List.append_assoc]
          have hroom : RoomFor e t ev ↔ PieceRoom e t p := by
            unfold RoomFor
            rw [hpiece, hat]
            simp [ReadAnswer.piece]
          rw [hroom]
          cases hn : findHeaderEnd (t.output ++ p) with
          | none =>
            -- the blank line is still to come: the piece is part of the header block
            have hmore := lt_of_findHeaderEnd_none hblank hn
            obtain ⟨hs', hlive', hconn, hout, hcount⟩ :=
              @Waits.pump env t p hs ha hfew hn (by omega)
            have hfree : PieceRoom e t p := by
              rw [PieceRoom, if_neg (by omega)]
              intro hle
              omega
            have hih := ih hs' hlive' hrest (by rwa [hout])
            rw [hconn, hout, hcount, List.length_append, ← Nat.sub_sub] at hih
            rw [hih, and_iff_right hfree, Nat.add_assoc, Nat.add_comm 1]
          | some n =>
            -- the reads counted end with the one that completes the blank line
            have hblank' := hblank.of_blankLineAt (blankLineAt_of_findHeaderEnd hn)
            have hle := hblank'.1.le_length
            rw [List.length_append] at hle
            rw [show e - t.output.length - p.length = 0 by omega, readsUpTo_zero, List.flatten_nil,
              List.append_nil, ← findHeaderEnd_eq_iff hblank', hn, Option.some_inj,
              splitsAt_iff_of_end hs ha hfew hn hrest rfl, Nat.add_assoc, Nat.add_comm 1]
            exact and_left_comm

end

end CgiStream

/-! ### A job from its start -/

/-- **When the response is that of the output split at its first blank line, over all outputs and
all segmentations**, whatever the client takes in between: there may be no more reads than a job
may make, what the reads bring up to the one that completes the blank line may hold no CR LF CR LF
behind that line, and there is room for what each read is turned into. -/
theorem splitAtBlankLine_iff (c : Connection) (clientFd resultFd maxSize now : ℕ) (timeout : ℤ)
    {es : List CgiStream.Event} {e : ℕ}
    (hreads : Run.Meets CgiStream.step CgiStream.Reads
      (.start c (CgiJob.new clientFd resultFd maxSize timeout now)) es)
    (hblank : FirstBlankLine (CgiStream.pieces es).flatten e) (he : e ≤ fhls) :
    SplitsAt ((CgiStream.start c (CgiJob.new clientFd resultFd maxSize timeout now)).run es)
        c.request (CgiStream.pieces es).flatten e ↔
      (CgiStream.pieces es).length ≤ limitInternalRecursion + 1 ∧
        (∀ i, FirstMatch.find crlfcrlf
          (CgiStream.readsUpTo e (CgiStream.pieces es)).flatten = some i → i < e) ∧
            Run.Meets CgiStream.step (CgiStream.RoomFor e)
              (.start c (CgiJob.new clientFd resultFd maxSize timeout now)) es := by
  have hmain := CgiStream.splitsAt_iff_of_waits he
    (@CgiStream.waits_start c clientFd resultFd maxSize now timeout) rfl hreads hblank
  rwa [show (CgiStream.start c (CgiJob.new clientFd resultFd maxSize timeout now)).output = []
    from rfl, List.nil_append, List.nil_append, List.length_nil, Nat.sub_zero,
    show (CgiStream.start c (CgiJob.new clientFd resultFd maxSize timeout now)).job.parentRequest
      = 0 from rfl, Nat.zero_add] at hmain

/-- A client of a server with room for a response. -/
private def someClient : Connection :=
  Connection.new 5 { Server.empty with clientMaxBodySize := 1000 } 0

/-- An environment without files. -/
private def somewhere : Env := ⟨FileSystem.empty, 0, 0⟩

/-- A header block with bare LF, and a body with an empty line of the other kind. -/
private def looseOutput : Bytes := ascii "A: b\n\nx\r\n\r\ny"

private theorem firstBlankLine_looseOutput : FirstBlankLine looseOutput 6 := by
  refine ⟨Or.inr ⟨4, rfl, by decide⟩, ?_⟩
  intro e' he' h
  have hcut : BlankLineAt (looseOutput.take 5) e' :=
    (blankLineAt_append (r := looseOutput.drop 5)
      (by rw [show (looseOutput.take 5).length = 5 from rfl]; omega)).mp
      (by rwa [List.take_append_drop])
  exact findHeaderEnd_ne_none hcut (by decide)

/-- The output is read in two pieces. -/
private def looseReads : List CgiStream.Event :=
  [.readable somewhere (.data (looseOutput.take 7)),
    .readable somewhere (.data (looseOutput.drop 7))]

/-- Cut behind the blank line, the output is split there. -/
theorem splitAtBlankLine_iff_cut :
    SplitsAt ((CgiStream.start someClient (CgiJob.new 5 6 65536 30 0)).run looseReads)
      someClient.request (CgiStream.pieces looseReads).flatten 6 := by
  have hnone : FirstMatch.find crlfcrlf
      (CgiStream.readsUpTo 6 (CgiStream.pieces looseReads)).flatten = none := by decide
  have hcut : (CgiStream.pieces looseReads).flatten = looseOutput := by decide
  refine (@splitAtBlankLine_iff someClient 5 6 65536 0 30 looseReads 6 ⟨?_, ?_, trivial⟩
    (hcut ▸ firstBlankLine_looseOutput) (by decide)).mpr ⟨by decide, ?_, ?_, ?_, trivial⟩
  · exact CgiStream.reads_readable ⟨by decide, by decide⟩ (by decide +kernel)
  · exact CgiStream.reads_readable ⟨by decide, by decide⟩ (by decide +kernel)
  · intro i hi
    rw [hnone] at hi
    cases hi
  · exact CgiStream.roomFor_readable (by decide +kernel)
  · exact CgiStream.roomFor_readable (by decide +kernel)

/-- Read at once, it is split at the empty line of the body. -/
theorem not_splitsAt_looseOutput :
    FirstBlankLine looseOutput 6 ∧
      ¬ SplitsAt ((CgiStream.start someClient (CgiJob.new 5 6 65536 30 0)).run
          [.readable somewhere (.data looseOutput)]) someClient.request looseOutput 6 := by
  refine ⟨firstBlankLine_looseOutput, ?_⟩
  intro h
  have hstart : ((CgiStream.start someClient (CgiJob.new 5 6 65536 30 0)).run
      [.readable somewhere (.data looseOutput)]).bodyStart = some 11 := by
    decide +kernel
  rw [h.bodyStart] at hstart
  cases hstart

end Webserv
