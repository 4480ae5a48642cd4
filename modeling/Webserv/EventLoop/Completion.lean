import Webserv.EventLoop.Spool

/-!
# The dispatch of a parsed request

The parser says when a request is complete, and `isBodyFullySpooled` says once more when its
body is there as a whole.  Only when both agree `_tryDispatchComplete` answers the request or
starts its script; otherwise `_handleRead` waits for bytes.

## Main results

* `goesOut_iff` — when a request that is complete is dispatched at once.
-/

namespace Webserv

open Bytes

/-- Behind the spool step the request is there as a whole, and is answered or its script is
started in the same call. -/
def GoesOut (env : Env) (a : SpoolAnswers) (s : Spool) : Prop :=
  isBodyFullySpooled (s.fed env a).conn = true ∧
    ∀ c, tryDispatchComplete env a (s.fed env a).conn ≠ .ok c .nothing

/-- The body is for a script, and its only chunk is the last one. -/
def EmptyForScript (c : Connection) : Prop :=
  pathRequiresCgiBodySpool c.request c.config = true ∧ c.request.chunked = true ∧
    c.request.written = 0

instance (c : Connection) : Decidable (EmptyForScript c) :=
  inferInstanceAs (Decidable (_ ∧ _ ∧ _))

section

variable {c c₀ p : Connection} {s : Spool} {env : Env} {a : SpoolAnswers}

/-- What the spool step leaves alone. -/
theorem emptyForScript_fed : EmptyForScript (s.fed env a).conn ↔ EmptyForScript s.conn := by
  have hopen : ∀ req : HttpRequest, (openSpoolFile env a s.conn.connNum req).path = req.path ∧
      (openSpoolFile env a s.conn.connNum req).chunked = req.chunked ∧
      (openSpoolFile env a s.conn.connNum req).written = req.written := by
    intro req
    unfold openSpoolFile
    split
    · exact ⟨rfl, rfl, rfl⟩
    · split <;> exact ⟨rfl, rfl, rfl⟩
  have hflush : EmptyForScript (s.flush env a).conn ↔ EmptyForScript s.conn := by
    obtain ⟨hpath, hchunked, hwritten⟩ := hopen s.conn.request
    unfold EmptyForScript Spool.flush flushRequestBodyToTmpFile pathRequiresCgiBodySpool
    dsimp only
    split
    · rfl
    · split
      · rfl
      · split
        · simp only [HttpRequest.fail, hpath, hchunked, hwritten]
        · simp only [hpath, hchunked, hwritten]
  have hcomplete : ∀ c : Connection,
      EmptyForScript (maybeCompletePostWithoutLength c) ↔ EmptyForScript c := by
    intro c
    unfold maybeCompletePostWithoutLength
    dsimp only
    split <;> rfl
  unfold Spool.fed
  dsimp only
  rw [hcomplete]
  split
  · exact hflush
  · rfl

/-- **When a parsed request is dispatched**: behind the spool step, if that meets no error, every
complete request is, but for one that sends an empty body in chunks to a script. -/
theorem goesOut_iff (hc₀ : c₀.Fresh) (h : Reception c₀ .parsed s p)
    (hcomplete : s.conn.request.parseState = .complete)
    (ha : pathRequiresCgiBodySpool s.conn.request s.conn.config = true →
      a.Accepts s.conn.request) : GoesOut env a s ↔ ¬ EmptyForScript s.conn := by
  have hspools := h.spools hc₀
  have hfed : Spools .head (s.fed env a) p := hspools.fed (by rw [hcomplete]; nofun) ha
  have hstate : (s.fed env a).conn.request.parseState = .complete := by
    rw [← hfed.parseState, hspools.parseState, hcomplete]
  rw [← (emptyForScript_fed : EmptyForScript (s.fed env a).conn ↔ _)]
  refine Iff.trans ?_ (hfed.dispatchable_iff hstate)
  constructor
  · exact fun hout => ⟨hstate, hout.1⟩
  · exact fun hd => ⟨hd.2, fun c => tryDispatchComplete_ne_nothing hd⟩

end

/-! ### A body that is empty -/

/-- The head of a request to a script that sends its body in chunks. -/
def postHead : Bytes :=
  ascii "POST /cgi/x.py HTTP/1.1\r\nHost: x\r\nTransfer-Encoding: chunked\r\n\r\n"

private theorem parsed_post (body : Bytes)
    (hfeed : (feed spoolEnv.fs.statAnswer (resumeBodyIfNeeded
      (spoolClient.conn.recv (postHead ++ body) 0).state)).threw = false)
    (hrecv : (spoolClient.conn.recv (postHead ++ body) 0).threw = false) :
    Reception spoolClient.conn .parsed (spoolClient.parse spoolEnv (postHead ++ body))
      (feedPiece spoolEnv.fs.statAnswer spoolClient.conn (postHead ++ body)) :=
  Reception.start.parse (by decide +kernel) hrecv hfeed

/-- A body of one byte goes out. -/
theorem goesOut_oneByte : GoesOut spoolEnv ⟨some 9, [1], none, 1, 0⟩
    (spoolClient.parse spoolEnv (postHead ++ ascii "1\r\na\r\n0\r\n\r\n")) :=
  (goesOut_iff (Connection.fresh_new 5 spoolServer 0)
    (parsed_post (ascii "1\r\na\r\n0\r\n\r\n") (by decide +kernel) (by decide +kernel))
    (by decide +kernel) (by decide +kernel)).mpr (by decide +kernel)

/-- **A complete request that is never dispatched**: its body is empty, and `_handleRead` waits
for more of it. -/
theorem not_goesOut : ∃ c₀ s p, c₀.Fresh ∧ Reception c₀ .parsed s p ∧
    s.conn.request.parseState = .complete ∧ ¬ GoesOut spoolEnv SpoolAnswers.none s := by
  refine ⟨_, _, _, Connection.fresh_new 5 spoolServer 0,
    parsed_post (ascii "0\r\n\r\n") (by decide +kernel) (by decide +kernel),
    by decide +kernel, fun hout => ?_⟩
  have hstill : isBodyFullySpooled ((spoolClient.parse spoolEnv
      (postHead ++ ascii "0\r\n\r\n")).fed spoolEnv SpoolAnswers.none).conn = false := by
    decide +kernel
  exact absurd (hstill.symm.trans hout.1) nofun

end Webserv
