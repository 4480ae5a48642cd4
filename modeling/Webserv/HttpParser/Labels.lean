import Webserv.HttpParser.Feed

/-!
# What the parser does not look at

A connection has a descriptor, a number and a time stamp, and its request a spool file with a
name, a descriptor and a length.  `refile` takes all of this from another connection, and the
parser does the same under it; `relabel` takes the labels of the connection and the name of the
file alone.

## Main results

* `feed_refile` — the parser on a connection with other labels and another spool file.
* `refile_feed` — the parser leaves them as they are.
-/

namespace Webserv

open Bytes

/-- The request with the spool file of another. -/
def HttpRequest.refile (req q : HttpRequest) : HttpRequest :=
  { req with
    opened := q.opened
    openedFile := q.openedFile
    tmpBodyPath := q.tmpBodyPath
    bodyFileWritten := q.bodyFileWritten }

/-- The connection with the labels and the spool file of another. -/
def Connection.refile (c k : Connection) : Connection :=
  { c with
    fd := k.fd
    connNum := k.connNum
    lastActive := k.lastActive
    closeAnnounced := k.closeAnnounced
    request := c.request.refile k.request }

/-- The request with another name for its spool file. -/
def HttpRequest.rename (req : HttpRequest) (name : Bytes) : HttpRequest :=
  { req with tmpBodyPath := name }

/-- The connection with the labels of another. -/
def Connection.relabel (c k : Connection) : Connection :=
  { c with
    fd := k.fd
    connNum := k.connNum
    lastActive := k.lastActive
    closeAnnounced := k.closeAnnounced
    request := c.request.rename k.request.tmpBodyPath }

section

variable (req : HttpRequest) (name : Bytes)

@[simp] theorem method_rename : (req.rename name).method = req.method := rfl
@[simp] theorem headers_rename : (req.rename name).headers = req.headers := rfl
@[simp] theorem body_rename : (req.rename name).body = req.body := rfl
@[simp] theorem parseState_rename : (req.rename name).parseState = req.parseState := rfl
@[simp] theorem contentLength_rename : (req.rename name).contentLength = req.contentLength := rfl
@[simp] theorem chunked_rename : (req.rename name).chunked = req.chunked := rfl
@[simp] theorem maxBodySize_rename : (req.rename name).maxBodySize = req.maxBodySize := rfl
@[simp] theorem chunkSize_rename : (req.rename name).chunkSize = req.chunkSize := rfl
@[simp] theorem chunkTrailing_rename : (req.rename name).chunkTrailing = req.chunkTrailing := rfl
@[simp] theorem chunkDone_rename : (req.rename name).chunkDone = req.chunkDone := rfl
@[simp] theorem openedFile_rename : (req.rename name).openedFile = req.openedFile := rfl
@[simp] theorem written_rename : (req.rename name).written = req.written := rfl
@[simp] theorem bodyFileWritten_rename : (req.rename name).bodyFileWritten =
    req.bodyFileWritten := rfl

end

section

variable (c k : Connection)

@[simp] theorem request_relabel :
    (c.relabel k).request = c.request.rename k.request.tmpBodyPath := rfl
@[simp] theorem config_relabel : (c.relabel k).config = c.config := rfl
@[simp] theorem readBuffer_relabel : (c.relabel k).readBuffer = c.readBuffer := rfl
@[simp] theorem writeBuffer_relabel : (c.relabel k).writeBuffer = c.writeBuffer := rfl
@[simp] theorem configuration_relabel : (c.relabel k).configuration = c.configuration := rfl

end

/-! ### The request line -/

/-- The fields of an accepted line do not depend on the labels. -/
theorem acceptRequestLine_refile (stat : StatAnswer) (c k : Connection) (req : HttpRequest)
    (rawUri : Bytes) (major minor : ℤ) (p : ℕ) :
    acceptRequestLine stat (c.refile k) (req.refile k.request) rawUri major minor p =
      (acceptRequestLine stat c req rawUri major minor p).refile k := by
  unfold acceptRequestLine
  extract_lets c₁ _ req₁ c₂ _ req₂
  have hpath : validatePath c₁ = validatePath c₂ := rfl
  have hreq : req₁ = req₂.refile k.request := by
    dsimp only [req₁, req₂]
    rw [hpath]
    cases stat (cStr (validatePath c₂)) with
    | none => rfl
    | some e => cases e <;> rfl
  rw [hreq]
  rfl

theorem finishRequestLine_refile (stat : StatAnswer) (bs : Bytes) (sc : RLScan) (p : ℕ)
    (c k : Connection) :
    finishRequestLine stat bs sc p (c.refile k) = (finishRequestLine stat bs sc p c).refile k := by
  unfold finishRequestLine
  dsimp only
  split
  · next methodStart methodEnd uriStart _ _ _ =>
    have haccept := acceptRequestLine_refile stat c k
      { c.request with method := slice bs methodStart methodEnd }
      (slice bs uriStart (sc.uriEnd.getD p)) sc.httpMajor sc.httpMinor p
    split_ifs
    · rfl
    · rfl
    · rfl
    · rfl
    · rfl
    · exact haccept
  · rfl

theorem parseRequestLine_refile (stat : StatAnswer) (c k : Connection) :
    parseRequestLine stat (c.refile k) = (parseRequestLine stat c).refile k := by
  have hitems : (c.refile k).readBuffer.items = c.readBuffer.items := rfl
  unfold parseRequestLine
  rw [hitems]
  dsimp only
  split
  · rfl
  · cases rlScan RLScan.init 0 c.readBuffer.items with
    | more => rfl
    | error code => rfl
    | line sc p => exact finishRequestLine_refile stat _ sc p c k

theorem applyLocationBodyLimit_refile (c k : Connection) :
    applyLocationBodyLimit (c.refile k) = (applyLocationBodyLimit c).refile k := by
  unfold applyLocationBodyLimit
  show (if c.request.path.isEmpty then c.refile k else _) = _
  split
  · rfl
  · rfl

/-- The state of the parser is no label. -/
theorem parseState_refile (c k : Connection) :
    (c.refile k).request.parseState = c.request.parseState := rfl

theorem requestLineStage_refile (stat : StatAnswer) (c k : Connection) :
    requestLineStage stat (c.refile k) = (requestLineStage stat c).refile k := by
  have hstart : ∀ c₁ : Connection,
      (if c₁.request.parseState = .requestLine then
        (if (parseRequestLine stat (c₁.refile k)).request.parseState = .requestLine then
          parseRequestLine stat (c₁.refile k)
        else applyLocationBodyLimit (parseRequestLine stat (c₁.refile k)))
      else c₁.refile k) =
      (if c₁.request.parseState = .requestLine then
        (if (parseRequestLine stat c₁).request.parseState = .requestLine then
          parseRequestLine stat c₁
        else applyLocationBodyLimit (parseRequestLine stat c₁))
      else c₁).refile k := by
    intro c₁
    rw [parseRequestLine_refile, parseState_refile, applyLocationBodyLimit_refile]
    split_ifs <;> rfl
  by_cases hidle : c.request.parseState = .idle
  · have hc := hstart { c with request := { c.request with parseState := .requestLine } }
    unfold requestLineStage
    rw [parseState_refile]
    simp only [hidle, if_true]
    exact hc
  · have hc := hstart c
    unfold requestLineStage
    rw [parseState_refile]
    simp only [hidle, if_false]
    exact hc

/-! ### The headers -/

theorem headerLine_refile (req : HttpRequest) (line : Bytes) (q : HttpRequest) :
    headerLine (req.refile q) line = (headerLine req line).refile q := by
  have hheaders : (req.refile q).headers = req.headers := rfl
  unfold headerLine
  rw [hheaders]
  cases line.findIdx? (· == COLON) with
  | none => rfl
  | some colon =>
    dsimp only
    split
    · rfl
    · cases req.headers[strTolower (strTrim (line.take colon))]? with
      | none =>
        dsimp only
        split <;> rfl
      | some old =>
        dsimp only
        split_ifs <;> rfl

/-- One round of the loop over the lines. -/
theorem headerRound_refile (q : HttpRequest) (s : ByteQueue × HttpRequest) :
    headerRound (s.1, s.2.refile q) =
      (headerRound s).map (fun s => (s.1, s.2.refile q))
        (fun r => ((r.1.1, r.1.2.refile q), r.2)) := by
  obtain ⟨buf, req⟩ := s
  unfold headerRound
  dsimp only
  cases findCrlf buf.items with
  | none => rfl
  | some pos =>
    dsimp only
    have hstate : (headerLine (req.refile q) (buf.items.take pos)).parseState =
        (headerLine req (buf.items.take pos)).parseState := by
      rw [headerLine_refile]
      rfl
    rw [hstate, headerLine_refile]
    split_ifs <;> rfl

theorem headerLoop_refile (q : HttpRequest) (buf : ByteQueue) (req : HttpRequest) :
    headerLoop (buf, req.refile q) =
      (((headerLoop (buf, req)).1.1, (headerLoop (buf, req)).1.2.refile q),
        (headerLoop (buf, req)).2) :=
  WhileLoop.loop_map (fun s : ByteQueue × HttpRequest => (s.1, s.2.refile q))
    (fun r : (ByteQueue × HttpRequest) × Bool => ((r.1.1, r.1.2.refile q), r.2))
    (fun _ => rfl) (headerRound_refile q) (fun _ => rfl) (buf, req)

theorem overrideHost_refile (c k : Connection) (host : Bytes) :
    overrideHost (c.refile k) host = (overrideHost c host).refile k := by
  have hservers : (c.refile k).configuration = c.configuration := rfl
  unfold overrideHost
  rw [hservers]
  split <;> rfl

theorem hostChecks_refile (c k : Connection) :
    hostChecks (c.refile k) = (hostChecks c).refile k := by
  have hheaders : (c.refile k).request.headers = c.request.headers := rfl
  have hversion : (c.refile k).request.version = c.request.version := rfl
  unfold hostChecks
  dsimp only
  rw [hheaders, hversion]
  split
  · split <;> rfl
  · split
    · rfl
    · rw [overrideHost_refile]
      rfl

theorem framing_refile (maxBody : ℕ) (req : HttpRequest) (q : HttpRequest) :
    framing maxBody (req.refile q) = (framing maxBody req).refile q := by
  have hheaders : (req.refile q).headers = req.headers := rfl
  have hlength : (req.refile q).contentLength = req.contentLength := rfl
  have hmethod : (req.refile q).method = req.method := rfl
  have hchunked : (req.refile q).chunked = req.chunked := rfl
  unfold framing
  dsimp only
  rw [hheaders, hlength]
  split
  · rfl
  · split
    · rfl
    · simp only [hmethod, hchunked]
      split_ifs <;> rfl

/-- What follows the loop, with another spool file. -/
theorem finishHeaders_refile (c k : Connection) :
    finishHeaders (c.refile k) = (finishHeaders c).refile k := by
  have hstate : ∀ c : Connection, (c.refile k).request.parseState = c.request.parseState :=
    fun _ => rfl
  unfold finishHeaders
  dsimp only
  rw [hostChecks_refile, hstate]
  split
  · rfl
  · have hframing := framing_refile (hostChecks c).config.getMaxBody (hostChecks c).request
      k.request
    exact congrArg (fun req => { (hostChecks c).refile k with request := req }) hframing

theorem parseHeaders_refile (c k : Connection) :
    parseHeaders (c.refile k) = (parseHeaders c).refile k := by
  have hloop := headerLoop_refile k.request c.readBuffer c.request
  have hafter : ∀ (s : ByteQueue × HttpRequest) (done : Bool),
      afterHeaderLoop (c.refile k) ((s.1, s.2.refile k.request), done) =
        (afterHeaderLoop c (s, done)).refile k := by
    intro s done
    unfold afterHeaderLoop
    cases done with
    | false => rfl
    | true => exact finishHeaders_refile { c with readBuffer := s.1, request := s.2 } k
  unfold parseHeaders
  exact (congrArg (afterHeaderLoop (c.refile k)) hloop).trans (hafter _ _)

theorem headerStage_refile (c k : Connection) :
    headerStage (c.refile k) = (headerStage c).refile k := by
  unfold headerStage
  rw [parseState_refile, parseHeaders_refile]
  split <;> rfl

/-! ### The body -/

theorem takeBody_refile (buf : ByteQueue) (req : HttpRequest) (n : ℕ) (q : HttpRequest) :
    takeBody buf (req.refile q) n =
      (takeBody buf req n).mapState fun s => (s.1, s.2.refile q) := by
  have hbody : (req.refile q).body = req.body := rfl
  unfold takeBody
  rw [hbody]
  split <;> rfl

theorem endOfBody_refile (s : ByteQueue × HttpRequest) (q : HttpRequest) :
    endOfBody s.1 (s.2.refile q) =
      ((endOfBody s.1 s.2).1, (endOfBody s.1 s.2).2.refile q) := by
  have hwritten : (s.2.refile q).written = s.2.written := rfl
  have hlength : (s.2.refile q).contentLength = s.2.contentLength := rfl
  unfold endOfBody
  rw [hwritten, hlength]
  split <;> rfl

theorem parseBody_refile (buf : ByteQueue) (req : HttpRequest) (q : HttpRequest) :
    parseBody buf (req.refile q) =
      (parseBody buf req).mapState fun s => (s.1, s.2.refile q) := by
  have htake : ∀ n, takeBody buf (req.refile q) n = _ := fun n => takeBody_refile buf req n q
  have hwritten : (req.refile q).written = req.written := rfl
  have hlength : (req.refile q).contentLength = req.contentLength := rfl
  have hchunked : (req.refile q).chunked = req.chunked := rfl
  have hmax : (req.refile q).maxBodySize = req.maxBodySize := rfl
  unfold parseBody
  dsimp only
  rw [hwritten, hlength, hchunked, hmax, htake, htake]
  split
  · rfl
  · split
    · split <;> rfl
    · split
      · rfl
      · cases takeBody buf req (min (req.contentLength - req.written) buf.size) with
        | bodyLimit s => rfl
        | ok s _ => exact congrArg (fun r => Outcome.ok r ()) (endOfBody_refile s q)

/-- One stage of the loop over the chunks. -/
theorem chunkRound_refile (q : HttpRequest) (s : ByteQueue × HttpRequest) :
    chunkRound (s.1, s.2.refile q) =
      (chunkRound s).map (fun s => (s.1, s.2.refile q))
        (fun o => o.mapState fun s => (s.1, s.2.refile q)) := by
  obtain ⟨buf, req⟩ := s
  have htake : ∀ n, takeBody buf (req.refile q) n = _ := fun n => takeBody_refile buf req n q
  have hwritten : (req.refile q).written = req.written := rfl
  have hmax : (req.refile q).maxBodySize = req.maxBodySize := rfl
  have htrailing : (req.refile q).chunkTrailing = req.chunkTrailing := rfl
  have hdone : (req.refile q).chunkDone = req.chunkDone := rfl
  have hsize : (req.refile q).chunkSize = req.chunkSize := rfl
  unfold chunkRound
  dsimp only
  rw [hwritten, hmax, htrailing, hdone, hsize, htake]
  split
  · split_ifs <;> rfl
  · split
    · split
      · rfl
      · split <;> rfl
    · split
      · rfl
      · split
        · rfl
        · cases takeBody buf req (min req.chunkSize buf.size) with
          | bodyLimit s => rfl
          | ok s _ =>
            have hleft : (s.2.refile q).chunkSize = s.2.chunkSize := rfl
            rw [Outcome.mapState_ok]
            dsimp only
            rw [hleft]
            split <;> rfl

theorem parseChunked_refile (buf : ByteQueue) (req : HttpRequest) (q : HttpRequest) :
    parseChunked buf (req.refile q) =
      (parseChunked buf req).mapState fun s => (s.1, s.2.refile q) := by
  unfold parseChunked
  let f := fun s : ByteQueue × HttpRequest => (s.1, s.2.refile q)
  let out := fun s : ByteQueue × HttpRequest => (Outcome.ok s () : Outcome _ Unit)
  exact @WhileLoop.loop_map _ _ (fun s => s.1.size) chunkRound out _ _ (fun s => s.1.size)
    chunkRound out f (fun o => o.mapState f) (fun _ => rfl) (chunkRound_refile q) (fun _ => rfl)
    (buf, req)

theorem feedBody_refile (c k : Connection) :
    feedBody (c.refile k) = (feedBody c).mapState (·.refile k) := by
  have hread : (if c.request.chunked then parseChunked else parseBody) c.readBuffer
      (c.request.refile k.request) =
        ((if c.request.chunked then parseChunked else parseBody) c.readBuffer c.request).mapState
          fun s => (s.1, s.2.refile k.request) := by
    split
    · exact parseChunked_refile _ _ _
    · exact parseBody_refile _ _ _
  unfold feedBody
  rw [parseState_refile]
  split
  · have hmap : ∀ o : Outcome (ByteQueue × HttpRequest) Unit,
        (o.mapState fun s => (s.1, s.2.refile k.request)).mapState
            (fun s => { c.refile k with readBuffer := s.1, request := s.2 }) =
          (o.mapState fun s => { c with readBuffer := s.1, request := s.2 }).mapState
            (·.refile k) := by
      intro o
      cases o <;> rfl
    exact (congrArg (fun o => o.mapState fun s : ByteQueue × HttpRequest =>
      { c.refile k with readBuffer := s.1, request := s.2 }) hread).trans (hmap _)
  · rfl

/-- **The parser does not look at the labels.** -/
theorem feed_refile (stat : StatAnswer) (c k : Connection) :
    feed stat (c.refile k) = (feed stat c).mapState (·.refile k) := by
  unfold feed
  rw [parseState_refile, requestLineStage_refile, headerStage_refile,
    applyLocationBodyLimit_refile, feedBody_refile]
  split <;> rfl

/-- **The parser leaves the labels and the spool file as they are.** -/
theorem refile_feed (stat : StatAnswer) (c : Connection) :
    (feed stat c).state.refile c = (feed stat c).state := by
  have hfeed := congrArg Outcome.state (feed_refile stat c c)
  cases ho : feed stat c with
  | ok c' u => rw [show c.refile c = c from rfl, ho] at hfeed; exact hfeed.symm
  | bodyLimit c' => rw [show c.refile c = c from rfl, ho] at hfeed; exact hfeed.symm

/-- Other labels are those of another connection that has the spool file of `c`. -/
theorem refile_eq_relabel {c c' : Connection} (k : Connection) (h : c'.refile c = c') :
    c'.refile { k with request := c.request.rename k.request.tmpBodyPath } = c'.relabel k := by
  rw [← h]
  rfl

/-- The same for the labels alone. -/
theorem feed_relabel (stat : StatAnswer) (c k : Connection) :
    feed stat (c.relabel k) = (feed stat c).mapState (·.relabel k) := by
  have hkept := refile_feed stat c
  have hlabels : c.refile { k with request := c.request.rename k.request.tmpBodyPath } =
      c.relabel k := refile_eq_relabel k rfl
  rw [← hlabels, feed_refile]
  cases ho : feed stat c with
  | ok c' u =>
    rw [ho] at hkept
    exact congrArg (Outcome.ok · u) (refile_eq_relabel k hkept)
  | bodyLimit c' =>
    rw [ho] at hkept
    exact congrArg Outcome.bodyLimit (refile_eq_relabel k hkept)

end Webserv
