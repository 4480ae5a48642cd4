import Webserv.Cgi.Refusal
import Webserv.EventLoop.KeepAlive
import Webserv.EventLoop.Loop
import Webserv.HttpParser.Bodyless
import Webserv.HttpParser.Receiving

/-!
# The body limit and the head of a request

The read buffer has the limit of a body, also while it holds the lines of the head.  A request
without a body is answered without a 413 as long as each piece of its head finds room behind the
part of a line that is already there, and its response finds room in the write buffer, or the
beginning of it if a script is answered for.

## Main results

* `not_produces413_iff` — when a request without a body is handled without a 413.
-/

namespace Webserv

open Bytes

/-! ### When a 413 is produced -/

/-- What the system calls answer when a script is to be started: the reading end of a pipe, whether
the mask of the client can be changed, what `startCgi` finds, and the events of the job. -/
structure ScriptAnswers where
  pipe : Option ℕ
  rearms : Bool
  world : ProcessWorld
  events : List CgiStream.Event

/-- A script is started for a client. -/
def jobStarted (env : Env) (c : Connection) (resultFd : ℕ) : CgiStream :=
  .start { c with request := EventLoop.dropBodyFile c.request }
    (CgiJob.new c.fd resultFd cgiHeaderBufLimit c.config.timeoutSeconds env.now)

/-- `_ApiStartCgi` leads to a 413: in the handler of `_handleRead`, if it has a page to send that
finds no room, or while the job is there.  A client whose mask cannot be changed is closed. -/
def ScriptLeads413 (env : Env) (w : ScriptAnswers) (c : Connection) (info : CgiRequestInfo) :
    Prop :=
  match w.pipe with
  | none => (sendError env 500 c).threw = true
  | some resultFd =>
      w.rearms = true ∧
        match startCgi env.fs w.world c.request c.config info with
        | none => (sendError env 502 c).threw = true
        | some _ => ¬ Run.Meets CgiStream.step (fun s ev => ¬ s.Leads413 ev)
            (jobStarted env c resultFd) w.events

/-- A reading has led to a 413, which is the answer to the exception and a verdict of the parser;
or it came to nothing and `later` does, or the script that it starts. -/
def Leads413 (env : Env) (w : ScriptAnswers) (later : Connection → Prop) :
    Outcome Connection ReadFate → Prop
  | .bodyLimit _ => True
  | .ok c .nothing => later c
  | .ok c (.script info) => ScriptLeads413 env w c info
  | .ok c _ => c.request.parseState = .error ∧ c.request.errorCode = 413

/-- A 413 is produced while a request is read and answered: the events of one client, and what
`recv` returns at each of them. -/
def Produces413 (w : ScriptAnswers) (c : Connection) : List (Env × List RecvAnswer) → Prop
  | [] => False
  | (env, answers) :: events =>
      Leads413 env w (fun c => Produces413 w c events) (readLoop env c answers)

/-! ### When there is room -/

/-- The parser on one more piece, whatever the limit of the read buffer. -/
def parsePiece (env : Env) (c : Connection) (d : Bytes) : Connection :=
  (feed env.fs.statAnswer (({ c with lastActive := env.now } : Connection).deliver d)).state

/-- There is room for the page if a script is not started, and for the beginning of its response
if it is. -/
def ScriptHasRoom (env : Env) (w : ScriptAnswers) (c : Connection) (info : CgiRequestInfo) : Prop :=
  match w.pipe with
  | none => PageFits env 500 c
  | some resultFd =>
      w.rearms = true →
        match startCgi env.fs w.world c.request c.config info with
        | none => PageFits env 502 c
        | some _ => Run.Meets CgiStream.step CgiStream.BeginsWithRoom
            (jobStarted env c resultFd) w.events

/-- The response to a request that has been parsed finds room in the write buffer, which has the
limit of the server too. -/
def AnswerHasRoom (env : Env) (w : ScriptAnswers) (c : Connection) : Prop :=
  if c.request.parseState = .error then
    (errorResponse env c.request.errorCode c.config).length ≤ c.config.getMaxBody
  else
    match resolveCgiRequest c.request c.config with
    | some info => ScriptHasRoom env w c.setProcessing info
    | none => (replyTo env c).blocks.flatten.length ≤ c.config.getMaxBody

/-- The pieces of a head, of which `k` bytes have come, find room one after another, up to the one
that ends the parse, and the response does. -/
def HasRoom (w : ScriptAnswers) (r : RequestHead) (c : Connection) (k : ℕ) :
    List (Env × Bytes) → Prop
  | [] => True
  | (env, d) :: pieces =>
      r.held k + d.length ≤ readLimit c ∧
        if (parsePiece env c d).request.parseState.terminal then AnswerHasRoom env w
          (parsePiece env c d)
        else HasRoom w r (parsePiece env c d) (k + d.length) pieces

/-! ### One piece -/

section

variable {env : Env} {a : SpoolAnswers} {c : Connection} {w : ScriptAnswers}
  {K : Connection → Prop} {r : RequestHead} {later : List (Env × Bytes)}

/-- There is nothing to spool. -/
theorem flush_bodyless (h : Bodyless c) : flushRequestBodyToTmpFile env a c = c :=
  if_pos (by simp [Fifo.isEmpty, h.body])

theorem Partway.inHead {r : RequestHead} {k : ℕ} {rest : Bytes} (h : Partway r c k rest) :
    InHead c := by
  refine ⟨?_, h.bodyless.body, h.bodyless.contentLength⟩
  rcases h.parseState with (hstate | hstate) | hstate <;> simp [hstate]

/-- A request that is complete and has no body is dispatched at once. -/
theorem readFed_complete (hb : Bodyless c) (hstate : c.request.parseState = .complete)
    (hmethod : c.request.method ≠ ascii "POST") :
    isBodyFullySpooled c = true ∧ readFed env a c = tryDispatchComplete env a c := by
  have hexpects : c.request.expectsBody = false := by
    simp [HttpRequest.expectsBody, hb.contentLength, hb.chunked, hmethod]
  have hcomplete : maybeCompletePostWithoutLength c = c := if_neg fun h => by simp [hstate] at h
  constructor
  · unfold isBodyFullySpooled
    simp [hexpects]
  · unfold readFed
    rw [if_neg (by simp [hstate])]
    dsimp only
    rw [flush_bodyless hb, ite_self, hcomplete]

/-- A request for a script has it started, and nothing is queued yet. -/
theorem tryDispatchComplete_script (hb : Bodyless c) (hstate : c.request.parseState = .complete)
    (hspooled : isBodyFullySpooled c = true) {info : CgiRequestInfo}
    (hinfo : resolveCgiRequest c.request c.config = some info) :
    tryDispatchComplete env a c = .ok c.setProcessing (.script info) := by
  have hspool : (if pathRequiresCgiBodySpool c.setProcessing.request c.setProcessing.config then
      { c.setProcessing with request := finalizeBodyTmpFile a c.setProcessing.request }
      else c.setProcessing) = c.setProcessing := by
    have hsame : finalizeBodyTmpFile a c.request = c.request := if_pos (by simp [hb.opened])
    have hrequest : c.setProcessing.request = c.request := rfl
    rw [hrequest, hsame, ← hrequest]
    exact ite_self _
  have hinfo' : resolveCgiRequest c.setProcessing.request c.setProcessing.config = some info :=
    hinfo
  have hnone : ¬ (0 < c.setProcessing.request.bodyFileWritten ∧
      c.setProcessing.request.openedFile < 0) := fun h => absurd hb.spooled h.1.ne'
  unfold tryDispatchComplete
  rw [if_neg (by simp [hstate, hspooled])]
  dsimp only
  rw [hspool, hinfo']
  exact if_neg hnone

/-- A script leads to a 413 if and only if there is no room. -/
theorem scriptLeads413_iff {info : CgiRequestInfo} (hw : ∀ ev ∈ w.events, ev.WellFormed) :
    ¬ ScriptLeads413 env w c info ↔ ScriptHasRoom env w c info := by
  have hpage : ∀ code, ¬ (sendError env code c).threw = true ↔ PageFits env code c := by
    intro code
    rw [Bool.not_eq_true]
    exact threw_sendError env code c
  unfold ScriptLeads413 ScriptHasRoom
  cases w.pipe with
  | none => exact hpage 500
  | some resultFd =>
    rw [not_and]
    apply imp_congr_right
    intro _
    cases startCgi env.fs w.world c.request c.config info with
    | none => exact hpage 502
    | some e =>
      rw [not_not]
      exact CgiStream.not_leads413_run (fun _ => Or.inl CgiStream.waits_start) hw

/-- The answer to a request is not a 413 when it finds room, and an exception when it does not. -/
theorem readFed_headEnd (hb : Bodyless c) (hend : HeadEnd c)
    (hw : ∀ ev ∈ w.events, ev.WellFormed) : (∀ c', readFed env a c ≠ .ok c' .nothing) ∧
      (¬ Leads413 env w K (readFed env a c) ↔ AnswerHasRoom env w c) := by
  unfold AnswerHasRoom
  cases hend with
  | refused hstate hcode =>
    have hread : readFed env a c = answer (sendError env c.request.errorCode c) := if_pos hstate
    rw [if_pos hstate, hread]
    -- an error page, in a queue with nothing in it
    have hempty : c.writeBuffer.size = 0 ∧ c.writeBuffer.limit = c.config.getMaxBody := by
      rw [hb.queued]
      exact ⟨rfl, rfl⟩
    by_cases hroom :
        (errorResponse env c.request.errorCode c.config).length ≤ c.config.getMaxBody
    · rw [sendError_ok (by omega)]
      exact ⟨fun _ => nofun, iff_of_true (fun h => hcode h.2) hroom⟩
    · rw [sendError_refused (by omega)]
      exact ⟨fun _ => nofun, iff_of_false (fun h => h trivial) hroom⟩
  | complete hstate hmethod =>
    have hne : c.request.parseState ≠ .error := by simp [hstate]
    obtain ⟨hspooled, hread⟩ := @readFed_complete env a c hb hstate hmethod
    rw [if_neg hne, hread]
    cases hinfo : resolveCgiRequest c.request c.config with
    | some info =>
      -- nothing is queued yet: the question is what the script leads to
      rw [tryDispatchComplete_script hb hstate hspooled hinfo]
      exact ⟨fun _ => nofun, scriptLeads413_iff hw⟩
    | none =>
      -- the answer is queued at once, block after block
      have hscript : pathRequiresCgiBodySpool c.request c.config = false := by
        rw [← isSome_resolveCgiRequest, hinfo]
        rfl
      obtain ⟨c₂, hdispatch, hbuffer, hconfig, hrequest⟩ :=
        @tryDispatchComplete_file env a c ⟨hstate, hspooled⟩ hscript
      obtain ⟨path, hpath⟩ := request_handle env (cleanupBodyTmpFile c.request) c.config
      have hroom : c₂.writeBuffer.size = 0 ∧ c₂.writeBuffer.limit = c.config.getMaxBody := by
        rw [hbuffer, hb.queued]
        exact ⟨rfl, rfl⟩
      have hfits := @Fifo.appendAll_iff_fits _ c₂.writeBuffer (replyTo env c).blocks (by omega)
      rw [hroom.1, hroom.2, Nat.zero_add] at hfits
      have hgood : c₂.request.parseState ≠ .error := by
        rw [hrequest, replyTo, hpath]
        exact hne
      dsimp only
      rw [← hfits, hdispatch]
      cases hall : (c₂.writeBuffer.appendAll (replyTo env c).blocks).2 with
      | true =>
        rw [queue_ok hall]
        exact ⟨fun _ => nofun, iff_of_true (fun h => hgood h.1) rfl⟩
      | false =>
        rw [queue_refused hall]
        exact ⟨fun _ => nofun, iff_of_false (fun h => h trivial) Bool.false_ne_true⟩

/-! ### The pieces -/

/-- What `recv` returned, as the loop of a reading sees it. -/
def asAnswers (pieces : List (Bytes × SpoolAnswers)) : List RecvAnswer :=
  pieces.map fun p => .data p.1 p.2

/-- The pieces of one reading, and of those behind it. -/
theorem leads413_readLoop {rest : Bytes} (hw : ∀ ev ∈ w.events, ev.WellFormed)
    (hlater : ∀ c k, Partway r c k rest → (¬ K c ↔ HasRoom w r c k later)) :
    ∀ (pieces : List (Bytes × SpoolAnswers)) (c : Connection) (k : ℕ), (∀ p ∈ pieces, p.1 ≠ []) →
      Partway r c k ((pieces.map (·.1)).flatten ++ rest) →
      (¬ Leads413 env w K (readLoop env c (asAnswers pieces)) ↔
        HasRoom w r c k (pieces.map (fun p => (env, p.1)) ++ later)) := by
  intro pieces
  induction pieces with
  | nil =>
    intro c k _ h
    have hloop : readLoop env c (asAnswers []) = .ok c .nothing := h.inHead.readAgain
    rw [hloop]
    exact hlater c k h
  | cons p pieces ih =>
    obtain ⟨d, a⟩ := p
    intro c k hne h
    rw [List.map_cons, List.flatten_cons, List.append_assoc] at h
    obtain ⟨hsize, hlimit⟩ := h.readBuffer
    have hloop : readLoop env c (asAnswers ((d, a) :: pieces)) =
        readLoop env c (.data d a :: asAnswers pieces) := rfl
    rw [List.map_cons, List.cons_append, HasRoom, hloop, readLoop_held h.inHead.held, ← hsize,
      ← hlimit]
    -- a piece that does not fit is the exception of the read buffer
    by_cases hfits : c.readBuffer.size + d.length ≤ c.readBuffer.limit
    · obtain ⟨c', hfeed, hb', hend⟩ := @feed_partway r _ k _ env.fs.statAnswer d
        (h.setLastActive env.now)
      have hstep : parsePiece env c d = c' := congrArg Outcome.state hfeed
      have hresume : resumeBodyIfNeeded
        (({ c with lastActive := env.now } : Connection).deliver d) =
          ({ c with lastActive := env.now } : Connection).deliver d := by
        apply if_pos
        rcases h.parseState with (h | h) | h <;> simp [h]
      rw [recv_of_fits hfits, Outcome.andThen_ok, hresume, hfeed, Outcome.andThen_ok, hstep]
      simp only [hfits, true_and]
      rcases hend with hpart | hend
      · -- still in the head: the next piece
        have hlive : ¬ c'.request.parseState.terminal = true := by
          rcases hpart.parseState with (h | h) | h <;> simp [h, ParseState.terminal]
        rw [hpart.inHead.readFed, if_neg hlive]
        exact ih c' _ (fun p hp => hne p (List.mem_cons_of_mem _ hp)) hpart
      · have hdone : c'.request.parseState.terminal = true := by
          cases hend with
          | refused hstate => simp [hstate, ParseState.terminal]
          | complete hstate => simp [hstate, ParseState.terminal]
        obtain ⟨hdecided, hroom⟩ := @readFed_headEnd env a c' w K hb' hend hw
        rw [if_pos hdone, ← hroom]
        -- behind an answer the pieces are not read any more
        cases hread : readFed env a c' with
        | bodyLimit c'' => exact Iff.rfl
        | ok c'' fate =>
          cases fate with
          | nothing => exact absurd hread (hdecided c'')
          | close => exact Iff.rfl
          | answered => exact Iff.rfl
          | script info => exact Iff.rfl
          | stuck => exact Iff.rfl
    · rw [recv_of_full (hne (d, a) List.mem_cons_self) hfits]
      simp [hfits, Leads413]

end

/-! ### A whole request -/

/-- The events of one client, as readings. -/
def readings (events : List (Env × List (Bytes × SpoolAnswers))) : List (Env × List RecvAnswer) :=
  events.map fun e => (e.1, asAnswers e.2)

/-- The pieces that are received at all of them, one after another. -/
def arrivals (events : List (Env × List (Bytes × SpoolAnswers))) : List (Env × Bytes) :=
  events.flatMap fun e => e.2.map fun p => (e.1, p.1)

/-- The bytes that are received. -/
def received (events : List (Env × List (Bytes × SpoolAnswers))) : Bytes :=
  ((arrivals events).map (·.2)).flatten

theorem received_cons (e : Env × List (Bytes × SpoolAnswers))
    (events : List (Env × List (Bytes × SpoolAnswers))) :
    received (e :: events) = (e.2.map (·.1)).flatten ++ received events := by
  simp [received, arrivals, Function.comp_def]

/-- A connection that waits for a request is at the start of its head. -/
theorem Waiting.partway {listener : Server} {servers : List Server} {c : Connection}
    (h : Waiting listener servers c) (r : RequestHead) : Partway r c 0 r.text := by
  have hline : ([] : Bytes).length < r.line.length := by
    have hne : r.line ≠ [] := by
      intro hnil
      have hscan := r.scan_eq
      rw [hnil] at hscan
      cases hscan
    exact List.length_pos_of_ne_nil hne
  cases h with
  | accepted fd connNum now =>
    exact @Partway.requestLine r _ [] r.text ⟨rfl, rfl, rfl, rfl, rfl, rfl, rfl, rfl⟩
      (Or.inl rfl) rfl
      rfl hline rfl
  | @next c c₁ c₂ events fate now hc hread hserves =>
    exact @Partway.requestLine r _ [] r.text ⟨rfl, rfl, rfl, rfl, rfl, rfl, rfl, rfl⟩
      (Or.inl rfl) rfl
      rfl hline rfl

theorem not_produces413_partway {r : RequestHead} {w : ScriptAnswers}
    (hw : ∀ ev ∈ w.events, ev.WellFormed) :
    ∀ (events : List (Env × List (Bytes × SpoolAnswers))) (c : Connection) (k : ℕ),
      (∀ e ∈ events, ∀ p ∈ e.2, p.1 ≠ []) → Partway r c k (received events) →
      (¬ Produces413 w c (readings events) ↔ HasRoom w r c k (arrivals events)) := by
  intro events
  induction events with
  | nil => exact fun c k _ _ => by simp [readings, arrivals, Produces413, HasRoom]
  | cons e events ih =>
    intro c k hne h
    rw [received_cons] at h
    exact leads413_readLoop hw
      (fun c' k' h' => ih c' k' (fun e' he' => hne e' (List.mem_cons_of_mem _ he')) h') e.2 c k
      (hne e List.mem_cons_self) h

/-- **When a request without a body is handled without a 413**, however it is cut: each piece has
room in the read buffer behind the part of a line that is there, and the response has room in the
write buffer, or its beginning if a script is answered for. -/
theorem not_produces413_iff {listener : Server} {servers : List Server} {c : Connection}
    (h : Waiting listener servers c) (r : RequestHead) {w : ScriptAnswers}
    (hw : ∀ ev ∈ w.events, ev.WellFormed) {events : List (Env × List (Bytes × SpoolAnswers))}
    (hne : ∀ e ∈ events, ∀ p ∈ e.2, p.1 ≠ []) (htext : received events = r.text) :
    ¬ Produces413 w c (readings events) ↔ HasRoom w r c 0 (arrivals events) :=
  not_produces413_partway hw events c 0 hne (htext ▸ h.partway r)

/-! ### Two cuts of one request -/

instance (env : Env) (w : ScriptAnswers) (c : Connection) (info : CgiRequestInfo) :
    Decidable (ScriptHasRoom env w c info) := by
  unfold ScriptHasRoom
  cases w.pipe with
  | none => infer_instance
  | some resultFd =>
    dsimp only
    cases startCgi env.fs w.world c.request c.config info <;> infer_instance

instance (env : Env) (w : ScriptAnswers) (c : Connection) : Decidable (AnswerHasRoom env w c) := by
  unfold AnswerHasRoom
  cases resolveCgiRequest c.request c.config <;> infer_instance

instance decidableHasRoom (w : ScriptAnswers) (r : RequestHead) : ∀ (c : Connection) (k : ℕ)
    (pieces : List (Env × Bytes)), Decidable (HasRoom w r c k pieces)
  | _, _, [] => isTrue trivial
  | c, k, (env, d) :: pieces =>
      have := decidableHasRoom w r (parsePiece env c d) (k + d.length) pieces
      inferInstanceAs (Decidable (r.held k + d.length ≤ readLimit c ∧
        if (parsePiece env c d).request.parseState.terminal then AnswerHasRoom env w
          (parsePiece env c d)
        else HasRoom w r (parsePiece env c d) (k + d.length) pieces))

/-- The head of a request with three long header lines. -/
private def longHead : RequestHead where
  line := ascii "GET /a HTTP/1.1\r\n"
  fields := [ascii "Host: x", ascii "A: " ++ List.replicate 150 97,
    ascii "B: " ++ List.replicate 150 97, ascii "C: " ++ List.replicate 150 97]
  scan := ⟨.almostDone, some 0, some 3, some 4, some 6, 1, 1⟩
  scan_eq := by decide +kernel
  plain := by
    have hplain : ∀ l : Bytes, (l ≠ [] ∧ l.length ≤ 8192 ∧ findCrlf (l ++ crlf) = some l.length ∧
        fieldName l ≠ some (ascii "content-length") ∧
        fieldName l ≠ some (ascii "transfer-encoding")) → IsPlainLine l :=
      fun l h => ⟨⟨h.1, h.2.1, h.2.2.1⟩, h.2.2.2.1, h.2.2.2.2⟩
    exact fun l hl => hplain l (by revert l; decide +kernel)

/-- A server that takes bodies of 400 bytes. -/
private def smallLimit : Server := { Server.empty with clientMaxBodySize := 400 }

/-- A client of a server that takes bodies of 400 bytes. -/
private def headClient : Connection := accepted smallLimit [smallLimit] 5 0 0

/-- A file of three bytes is found under every path. -/
private def shortFile : FileSystem :=
  { FileSystem.empty with
    stat := fun _ => .ok ⟨false, true, 3⟩
    openRead := fun _ => .ok (ascii "abc") }

/-- The request comes in two pieces. -/
private def cutAt (n : ℕ) : List (Env × List (Bytes × SpoolAnswers)) :=
  [(⟨shortFile, 0, 0⟩, [(longHead.text.take n, .none)]),
    (⟨shortFile, 0, 0⟩, [(longHead.text.drop n, .none)])]

/-- There are no pipes. -/
private def noScripts : ScriptAnswers where
  pipe := none
  rearms := true
  world := ⟨fun _ => false, fun _ => false, none, false⟩
  events := []

/-- In halves the request is answered. -/
theorem not_produces413_halves : ¬ Produces413 noScripts headClient (readings (cutAt 245)) :=
  (not_produces413_iff (.accepted 5 0 0) longHead (by simp [noScripts]) (by decide +kernel)
    (by decide +kernel)).mpr (by decide +kernel)

/-- **A request without a body may be refused for its size**, by a server that answers it when it
is cut in another place. -/
theorem produces413_longHead : ∃ (r : RequestHead) (listener : Server) (c : Connection)
    (w : ScriptAnswers) (events : List (Env × List (Bytes × SpoolAnswers))),
    Waiting listener [listener] c ∧ r.line.length ≤ 8192 ∧ r.fields.length ≤ 100 ∧
    received events = r.text ∧ (∀ e ∈ events, ∀ p ∈ e.2, p.1 ≠ [] ∧ p.1.length ≤ 16384) ∧
    Produces413 w c (readings events) := by
  have htext : received (cutAt 450) = longHead.text := by decide +kernel
  have hfull : ¬ HasRoom noScripts longHead headClient 0 (arrivals (cutAt 450)) := by
    decide +kernel
  have hstart : Partway longHead headClient 0 (received (cutAt 450)) := by
    rw [htext]
    exact Waiting.partway (.accepted 5 0 0) longHead
  refine ⟨longHead, smallLimit, headClient, noScripts, cutAt 450, .accepted 5 0 0,
    by decide +kernel, by decide +kernel, htext, by decide +kernel, ?_⟩
  by_contra hgood
  exact hfull ((not_produces413_partway (by simp [noScripts]) (cutAt 450) headClient 0
    (by decide +kernel) hstart).mp hgood)

end Webserv
