import Webserv.EventLoop.Answered
import Webserv.EventLoop.Gate
import Webserv.EventLoop.KeepAlive
import Webserv.HttpParser.Prefixes
import Webserv.ResponseHandler.Reads

/-!
# A request comes in

A client sends a request of the grammar, in any pieces, and `_handleRead` is called as often as it
takes.  As long as bytes are missing the connection waits; with the last one the request is
dispatched, and what is read of it is what it says.

## Main definitions

* `Connection.Awaits` — a connection that waits for a request, with nothing left of another one.
* `RequestParts.Served` — a request of the grammar that is not for a script, and has room.
* `Coming` — the connection while the request comes in.

## Main results

* `Coming.readLoop_waits` — a readable event that leaves bytes missing.
* `Coming.readLoop_last` — **the readable event that brings the last byte.**
-/

namespace Webserv

open Bytes

/-- A connection that waits for a request, with nothing left of another one. -/
structure Connection.Awaits (c : Connection) : Prop where
  fresh : c.Fresh
  state : c.state = .reading
  readLimit : c.readBuffer.limit = c.config.getMaxBody
  writeBuffer : c.writeBuffer = Fifo.new c.config.getMaxBody
  halfClosed : c.peerHalfClosed = false

theorem awaits_accepted (config : Server) (servers : List Server) (fd connNum now : ℕ) :
    (accepted config servers fd connNum now).Awaits :=
  ⟨⟨⟨_, rfl⟩, rfl⟩, rfl, rfl, rfl, rfl⟩

/-- A connection that is set to reading has forgotten everything but its server. -/
theorem awaits_setReading (c : Connection) (now : ℕ) : (c.setReading now).Awaits :=
  ⟨⟨⟨_, rfl⟩, rfl⟩, rfl, rfl, rfl, rfl⟩

/-- A request of the grammar that the handler serves, for which the buffers have room. -/
structure RequestParts.Served (p : RequestParts) (stat : StatAnswer) (c : Connection) : Prop where
  accepted : p.Accepted stat c
  limits : ∀ s ∈ c.config :: c.configuration, s.getMaxBody ≤ 2147483647
  /-- The read buffer has the limit of the listener, of its location, or of the location of the
  server that the request is for. -/
  room : p.text.length ≤ c.config.getMaxBody ∧
    p.text.length ≤ effectiveLimit c.config (requestPath p.uri) ∧ p.text.length ≤ p.limit c
  noScript : pathRequiresCgiBodySpool p.received.request (p.server c) = false

/-- The connection `c'` has come from `c` by the pieces of a request, none of which was spooled. -/
structure Coming (stat : StatAnswer) (c : Connection) (pt : Point) (pieces : List Bytes)
    (c' : Connection) : Prop where
  reception : Reception c pt ⟨c', []⟩ (pieces.foldl (feedPiece stat) c)
  receives : c.Receives c'
  onServer : OnServer c.config c.configuration c'
  limit : c'.writeBuffer.limit = c'.config.getMaxBody

section

variable {stat : StatAnswer} {env : Env} {a : SpoolAnswers} {c c' : Connection} {p : RequestParts}
  {pieces : List Bytes} {d more : Bytes}

theorem coming_start (hc : c.Awaits) : Coming stat c .head [] c where
  reception := .start
  receives := .refl c
  onServer := (onServer_fresh hc.fresh []).congr rfl rfl rfl rfl
  limit := by
    rw [hc.writeBuffer]
    rfl

/-- As long as the parser waits, the two connections differ in the time alone. -/
theorem Coming.conn_eq {pt : Point} (hc : c.Awaits) (h : Coming stat c pt pieces c')
    (hwaits : (pieces.foldl (feedPiece stat) c).request.parseState.terminal = false) :
    pieces.foldl (feedPiece stat) c = c'.refile (pieces.foldl (feedPiece stat) c) := by
  have hspools := h.reception.spools hc.fresh
  exact hspools.conn (hspools.parseState.symm ▸ hwaits)

/-- **One piece of a request** is received and parsed. -/
theorem Coming.piece (hc : c.Awaits) (hp : p.Served stat c) (h : Coming stat c .head pieces c')
    (hpieces : ∀ q ∈ pieces, q ≠ []) (hd : d ≠ [])
    (htext : p.text = pieces.flatten ++ (d ++ more)) (henv : env.fs.statAnswer = stat) :
    ∃ c₁ c₂, c'.request.erased = false ∧ c'.recv d env.now = .ok c₁ () ∧
      feed env.fs.statAnswer (resumeBodyIfNeeded c₁) = .ok c₂ () ∧
        Coming stat c .parsed (pieces ++ [d]) c₂ := by
  subst henv
  obtain ⟨hlistener, hlocation, hserver⟩ := hp.room
  have hunderway := hp.accepted.underway_pieces hc.fresh hp.limits hpieces (by simp [hd]) htext
  have heq := h.conn_eq hc hunderway.waits
  have hresumable := (h.reception.spools hc.fresh).resumable
  have hheld := (h.reception.spools hc.fresh).held hunderway.waits
  have hlast : (pieces ++ [d]).foldl (feedPiece env.fs.statAnswer) c =
      feedPiece env.fs.statAnswer (pieces.foldl (feedPiece env.fs.statAnswer) c) d := by
    rw [List.foldl_append, List.foldl_cons, List.foldl_nil]
  have hreception := h.reception
  generalize pieces.foldl (feedPiece env.fs.statAnswer) c = p₀ at *
  have hstate : c'.request.parseState.terminal = false := by
    rw [← hunderway.waits, heq]
    rfl
  have hroom : c'.readBuffer.size + d.length ≤ c'.readBuffer.limit := by
    have hbuffer : p₀.readBuffer = c'.readBuffer := by
      rw [heq]
      rfl
    have hsize := hunderway.size_le
    have hlen := congrArg List.length htext
    rw [List.length_append, List.length_append] at hlen
    rw [← hbuffer]
    rcases hunderway.limit with hlimit | hlimit | hlimit
    · rw [hlimit, hc.readLimit]
      omega
    · rw [hlimit]
      omega
    · rw [hlimit]
      omega
  have hrecv : c'.recv d env.now = .ok { c' with
      readBuffer := c'.readBuffer.push d
      lastActive := env.now } () := by
    unfold Connection.recv
    rw [Fifo.append_eq_some_iff.mpr ⟨Or.inr hroom, rfl⟩]
  generalize hc₁ : ({ c' with
    readBuffer := c'.readBuffer.push d
    lastActive := env.now } : Connection) = c₁ at hrecv
  have hrequest : c₁.request = c'.request := by rw [← hc₁]
  have hresume : resumeBodyIfNeeded c₁ = c₁ := by
    unfold resumeBodyIfNeeded
    apply if_pos
    rw [hrequest]
    intro hcomplete
    rw [hcomplete] at hstate
    cases hstate
  have hfeed : feed env.fs.statAnswer (resumeBodyIfNeeded c₁) =
      .ok (feed env.fs.statAnswer c₁).state () := by
    -- the parser does not throw, whatever the time is
    have hdeliver : p₀.deliver d = c₁.refile p₀ := by
      rw [← hc₁]
      conv_lhs => rw [heq]
      rfl
    have hthrew := (@feed_resume env.fs.statAnswer (p₀.deliver d) [0] (by simp)
      (hresumable.deliver d) hunderway.waits).1
    rw [hdeliver, feed_refile] at hthrew
    rw [hresume]
    cases hfed : feed env.fs.statAnswer c₁ with
    | ok c₂ u => rfl
    | bodyLimit c₂ =>
      rw [hfed] at hthrew
      cases hthrew
  have hpending : ¬ Dispatchable c' := by
    rintro ⟨hcomplete, -⟩
    rw [hcomplete] at hstate
    cases hstate
  refine ⟨c₁, _, hheld, hrecv, hfeed, ?_, ?_, ?_, ?_⟩
  · rw [hlast]
    exact hreception.parsed hpending hrecv hfeed
  · have hreceived := receives_recv c' d env.now
    rw [hrecv] at hreceived
    exact (h.receives.trans hreceived).trans (receives_feed _ c₁)
  · have hserver' : OnServer c.config c.configuration c₁ := by
      rw [← hc₁]
      exact h.onServer.congr rfl rfl rfl rfl
    exact hserver'.feed _
  · apply (consumes_feed env.fs.statAnswer c₁).limit
    rw [← hc₁]
    exact h.limit

theorem RequestParts.Served.notForScript (hp : p.Served stat c)
    (hconfig : c'.config = p.server c) (hpath : c'.request.path = requestPath p.uri) :
    pathRequiresCgiBodySpool c'.request c'.config = false := by
  have hplain := hp.noScript
  unfold pathRequiresCgiBodySpool at hplain ⊢
  rw [hconfig, hpath]
  exact hplain

/-- Nothing is spooled of a request that is not for a script. -/
theorem Coming.spooled (hc : c.Awaits) (h : Coming stat c .parsed pieces c')
    (hgood : c'.request.parseState ≠ .error)
    (hplain : c'.request.parseState = .body ∨ c'.request.parseState = .complete →
      pathRequiresCgiBodySpool c'.request c'.config = false) (env : Env) (a : SpoolAnswers) :
    pieceSpooled env a c' = c' ∧ Coming stat c .head pieces c' := by
  have hspools := h.reception.spools hc.fresh
  have hfed : Spool.fed env a ⟨c', []⟩ = ⟨c', []⟩ := by
    have hcomplete := hspools.maybeComplete_eq
    unfold Spool.fed
    dsimp only at hcomplete ⊢
    rw [if_neg fun h => Bool.false_ne_true ((hplain h.1).symm.trans h.2), hcomplete]
  refine ⟨congrArg Spool.conn hfed, ?_, h.receives, h.onServer, h.limit⟩
  rw [← hfed]
  refine h.reception.spooled hgood fun hscript hbody => absurd ?_ hbody
  -- the parser is in front of the body
  have hfront : c'.request.parseState ≠ .body ∧ c'.request.parseState ≠ .complete := by
    rw [← not_or]
    exact fun h => Bool.false_ne_true ((hplain h).symm.trans hscript)
  have hwritten := hspools.resumable.written_eq
  have hsize := hspools.size_eq
  rw [hspools.parseState, hspools.written] at hwritten
  have hzero := hwritten (by
    cases hstate : c'.request.parseState <;> simp_all)
  apply List.eq_nil_of_length_eq_zero
  rw [← Fifo.size_eq]
  omega

/-- Where a request is underway, nothing happens when nothing more has come. -/
theorem Coming.readAgain_eq (hc : c.Awaits) (h : Coming stat c .head pieces c')
    (hwaits : c'.request.parseState.terminal = false) : readAgain env a c' = .ok c' .nothing := by
  have hspools := h.reception.spools hc.fresh
  have hagain : Spool.again env a ⟨c', []⟩ = ⟨c', []⟩ := by
    have hcomplete := hspools.maybeComplete_eq
    unfold Spool.again
    dsimp only at hcomplete ⊢
    rw [hcomplete]
    split
    · next hscript =>
      have hempty := (Fifo.isEmpty_iff _).mpr (hspools.flushed rfl hscript)
      unfold Spool.flush flushRequestBodyToTmpFile fileBehindFlush
      dsimp only at hempty ⊢
      rw [if_pos hempty, if_pos hempty]
    · rfl
  have hidle : ¬ Dispatchable c' := by
    rintro ⟨hcomplete, -⟩
    rw [hcomplete] at hwaits
    cases hwaits
  have heq := Webserv.readAgain_eq env a ⟨c', []⟩
  rw [hagain] at heq
  exact heq.trans (tryDispatchComplete_of_not hidle)

/-- Before the last byte the connection waits. -/
theorem Coming.waits {pt : Point} (hc : c.Awaits) (hp : p.Served stat c)
    (h : Coming stat c pt pieces c') (hpieces : ∀ q ∈ pieces, q ≠ []) (hmore : more ≠ [])
    (htext : p.text = pieces.flatten ++ more) :
    c'.request.parseState.terminal = false ∧ (c'.request.parseState = .body →
      pathRequiresCgiBodySpool c'.request c'.config = false) := by
  have hunderway := hp.accepted.underway_pieces hc.fresh hp.limits hpieces hmore htext
  have heq := h.conn_eq hc hunderway.waits
  have hstate : (pieces.foldl (feedPiece stat) c).request.parseState = c'.request.parseState := by
    rw [heq]
    rfl
  refine ⟨hstate ▸ hunderway.waits, fun hbody => ?_⟩
  obtain ⟨hconfig, hpath⟩ := hunderway.atBody (hstate.trans hbody)
  rw [heq] at hconfig hpath
  exact hp.notForScript hconfig hpath

theorem pieces_snoc (hpieces : ∀ q ∈ pieces, q ≠ []) (hd : d ≠ []) :
    ∀ q ∈ pieces ++ [d], q ≠ [] := by
  simp only [List.mem_append, List.mem_singleton]
  rintro q (hq | rfl)
  · exact hpieces q hq
  · exact hd

/-- **One piece of many**: the loop goes on to the next one. -/
theorem Coming.readLoop_data (hc : c.Awaits) (hp : p.Served stat c)
    (h : Coming stat c .head pieces c') (hpieces : ∀ q ∈ pieces, q ≠ []) (hd : d ≠ [])
    (hmore : more ≠ []) (htext : p.text = (pieces ++ [d]).flatten ++ more)
    (henv : env.fs.statAnswer = stat) (a : SpoolAnswers) (rest : List RecvAnswer) :
    ∃ c₂, readLoop env c' (.data d a :: rest) = readLoop env c₂ rest ∧
      Coming stat c .head (pieces ++ [d]) c₂ := by
  have hflat : (pieces ++ [d]).flatten ++ more = pieces.flatten ++ (d ++ more) := by
    rw [List.flatten_append, List.flatten_singleton, List.append_assoc]
  obtain ⟨c₁, c₂, hheld, hrecv, hfeed, hparsed⟩ :=
    h.piece hc hp hpieces hd (htext.trans hflat) henv
  obtain ⟨hwaits, hplain⟩ := hparsed.waits hc hp (pieces_snoc hpieces hd) hmore htext
  have hgood : c₂.request.parseState ≠ .error := by
    intro herror
    rw [herror] at hwaits
    cases hwaits
  have hidle : ¬ Dispatchable c₂ := by
    rintro ⟨hcomplete, -⟩
    rw [hcomplete] at hwaits
    cases hwaits
  obtain ⟨hsame, hhead⟩ := hparsed.spooled hc hgood (by
    rintro (hbody | hcomplete)
    · exact hplain hbody
    · rw [hcomplete] at hwaits
      cases hwaits) env a
  refine ⟨c₂, ?_, hhead⟩
  rw [Webserv.readLoop_data hheld hrecv hfeed, if_neg hgood, hsame, if_neg hidle]

/-- The kernel has these pieces, one after another, and then nothing for now. -/
def Brings (answers : List RecvAnswer) (ds : List Bytes) : Prop :=
  List.Forall₂ (fun r d => d ≠ [] ∧ ∃ a, r = .data d a) answers ds

theorem Brings.ne_nil {answers : List RecvAnswer} {ds : List Bytes} (h : Brings answers ds) :
    ∀ d ∈ ds, d ≠ [] := by
  induction h with
  | nil => exact fun d hd => absurd hd List.not_mem_nil
  | cons hr _ ih =>
    intro d hd
    rcases List.mem_cons.mp hd with rfl | hd
    · exact hr.1
    · exact ih d hd

/-- **A readable event that leaves bytes missing**: the client goes on waiting. -/
theorem Coming.readLoop_waits (hc : c.Awaits) (hp : p.Served stat c)
    (henv : env.fs.statAnswer = stat) (hmore : more ≠ []) {answers : List RecvAnswer}
    {ds : List Bytes} (hbrings : Brings answers ds) : ∀ {pieces : List Bytes} {c' : Connection},
      Coming stat c .head pieces c' → (∀ q ∈ pieces, q ≠ []) →
      p.text = (pieces ++ ds).flatten ++ more →
      ∃ c'', readLoop env c' answers = .ok c'' .nothing ∧
        Coming stat c .head (pieces ++ ds) c'' := by
  induction hbrings with
  | nil =>
    intro pieces c' h hpieces htext
    rw [List.append_nil] at htext ⊢
    exact ⟨c', h.readAgain_eq hc (h.waits hc hp hpieces hmore htext).1, h⟩
  | @cons r d answers ds hr _ ih =>
    intro pieces c' h hpieces htext
    obtain ⟨hd, a, rfl⟩ := hr
    rw [List.append_cons] at htext ⊢
    have htext' : p.text = (pieces ++ [d]).flatten ++ (ds.flatten ++ more) := by
      rw [htext, List.flatten_append, List.append_assoc]
    obtain ⟨c₂, hnext, hhead⟩ := h.readLoop_data hc hp hpieces hd (by simp [hmore]) htext' henv a
      answers
    rw [hnext]
    exact ih hhead (pieces_snoc hpieces hd) htext

/-- The request has come as a whole. -/
structure Arrived (p : RequestParts) (c c' : Connection) : Prop where
  dispatchable : Dispatchable c'
  received : c'.request.received = p.received
  config : c'.config = p.server c
  servers : c'.configuration = c.configuration
  writeBuffer : c'.writeBuffer = Fifo.new (p.server c).getMaxBody
  halfClosed : c'.peerHalfClosed = false
  isFile : pathRequiresCgiBodySpool c'.request c'.config = false

/-- With its last byte the request is there. -/
theorem Coming.arrived (hc : c.Awaits) (hp : p.Served stat c)
    (h : Coming stat c .parsed pieces c') (hne : pieces ≠ []) (hpieces : ∀ q ∈ pieces, q ≠ [])
    (htext : p.text = pieces.flatten) (env : Env) (a : SpoolAnswers) :
    c'.request.parseState ≠ .error ∧ pieceSpooled env a c' = c' ∧ Arrived p c c' := by
  have hspools := h.reception.spools hc.fresh
  obtain ⟨hend, hread⟩ := hp.accepted.foldl_complete hc.fresh hp.limits hne hpieces htext.symm
  have hcomplete : c'.request.parseState = .complete := hspools.parseState.symm.trans hend
  have hreceived : c'.request.received = p.received := by
    rw [← hread, hspools.request]
    rfl
  have hconfig : c'.config = p.server c := by
    have hserver := h.onServer
    unfold OnServer at hserver
    rw [hcomplete] at hserver
    have hheaders : c'.request.headers = p.headers.insert (ascii "host") p.host :=
      congrArg Received.headers hreceived
    rw [hserver.2, hheaders, Std.TreeMap.getElem?_insert_self]
    rfl
  have hplain := hp.notForScript hconfig (congrArg Received.path hreceived)
  have hgood : c'.request.parseState ≠ .error := by
    rw [hcomplete]
    decide
  obtain ⟨hsame, hhead⟩ := h.spooled hc hgood (fun _ => hplain) env a
  refine ⟨hgood, hsame, ?_, hreceived, hconfig, h.receives.servers, ?_, ?_, hplain⟩
  · apply ((hhead.reception.spools hc.fresh).dispatchable_iff hcomplete).mpr
    rintro ⟨hscript, -⟩
    exact Bool.false_ne_true (hplain.symm.trans hscript)
  · apply Fifo.ext
    · rw [h.receives.queued, hc.writeBuffer]
      rfl
    · rw [h.limit, hconfig]
      rfl
  · rw [h.receives.halfClosed, hc.halfClosed]

/-- **The readable event that brings the last byte**: the request is dispatched. -/
theorem Coming.readLoop_last (hc : c.Awaits) (hp : p.Served stat c)
    (henv : env.fs.statAnswer = stat) {answers : List RecvAnswer} {ds : List Bytes}
    (hbrings : Brings answers ds) (hne : ds ≠ []) : ∀ {pieces : List Bytes} {c' : Connection},
      Coming stat c .head pieces c' → (∀ q ∈ pieces, q ≠ []) → p.text = (pieces ++ ds).flatten →
      ∃ a c'', readLoop env c' answers = tryDispatchComplete env a c'' ∧ Arrived p c c'' := by
  induction hbrings with
  | nil => exact absurd rfl hne
  | @cons r d answers ds hr hrest ih =>
    intro pieces c' h hpieces htext
    obtain ⟨hd, a, rfl⟩ := hr
    rw [List.append_cons] at htext
    cases hrest with
    | nil =>
      -- the last piece
      rw [List.append_nil] at htext
      have hflat : p.text = pieces.flatten ++ (d ++ []) := by
        rw [htext, List.flatten_append, List.flatten_singleton, List.append_nil]
      obtain ⟨c₁, c₂, hheld, hrecv, hfeed, hparsed⟩ := h.piece hc hp hpieces hd hflat henv
      obtain ⟨hgood, hsame, harrived⟩ := hparsed.arrived hc hp (by simp) (pieces_snoc hpieces hd)
        htext env a
      refine ⟨a, c₂, ?_, harrived⟩
      rw [Webserv.readLoop_data hheld hrecv hfeed, if_neg hgood, hsame,
        if_pos harrived.dispatchable]
    | @cons r' d' answers ds hr' _ =>
      have htext' : p.text = (pieces ++ [d]).flatten ++ (d' :: ds).flatten := by
        rw [htext, List.flatten_append]
      obtain ⟨c₂, hnext, hhead⟩ := h.readLoop_data hc hp hpieces hd (by simp [hr'.1]) htext' henv a
        _
      rw [hnext]
      exact ih (by simp) hhead (pieces_snoc hpieces hd) htext

/-! ### The answer -/

/-- The answer to a request: what the handler makes of what has been read of it. -/
def RequestParts.answer (p : RequestParts) (env : Env) (c : Connection) : Bytes :=
  (handle env p.received.request (p.server c)).blocks.flatten

/-- The connection `c'` has the answer to the request to write, of which `rest` is left. -/
structure Answering (p : RequestParts) (c : Connection) (rest : Bytes) (c' : Connection) :
    Prop where
  queued : c'.writeBuffer.items = rest
  keepAlive : c'.request.keepAlive = p.received.request.keepAlive
  config : c'.config = p.server c
  servers : c'.configuration = c.configuration
  halfClosed : c'.peerHalfClosed = false

/-- **The request is answered**, if there is room for its answer. -/
theorem Arrived.answered (h : Arrived p c c')
    (hfits : (p.answer env c).length ≤ (p.server c).getMaxBody) (a : SpoolAnswers) :
    ∃ c'', tryDispatchComplete env a c' = .ok c'' .answered ∧
      Answering p c (p.answer env c) c'' := by
  have hspooled : Webserv.spooled a c' = c'.setProcessing := by
    rw [Webserv.spooled, if_neg (by simp [h.isFile])]
  have hblocks : (replyTo env c').blocks.flatten = p.answer env c := by
    have hreceived : (cleanupBodyTmpFile c'.request).received = p.received := h.received
    rw [replyTo, blocks_handle hreceived, h.config]
    rfl
  have hkeep : (replyTo env c').request.keepAlive = p.received.request.keepAlive := by
    obtain ⟨path, hrequest⟩ := request_handle env (cleanupBodyTmpFile c'.request) c'.config
    rw [replyTo, hrequest, ← h.received]
    rfl
  set c₁ : Connection := { c'.setProcessing with request := (replyTo env c').request } with hc₁
  have hroom : (c₁.writeBuffer.appendAll (replyTo env c').blocks).2 = true := by
    have hbuffer : c₁.writeBuffer = Fifo.new (p.server c).getMaxBody := h.writeBuffer
    rw [hbuffer, Fifo.appendAll_of_fits]
    rw [hblocks]
    simpa [Fifo.size_eq, Fifo.new] using hfits
  refine ⟨(c₁.setWriteBuffer (c₁.writeBuffer.push (replyTo env c').blocks.flatten)).setWriting,
    ?_, ?_, hkeep, h.config, h.servers, h.halfClosed⟩
  · rw [tryDispatchComplete_eq env a h.dispatchable, deed_file env a h.isFile, hspooled]
    show answer (c₁.queue (replyTo env c').blocks) = _
    rw [queue_ok hroom]
    rfl
  · show c'.writeBuffer.items ++ (replyTo env c').blocks.flatten = _
    rw [h.writeBuffer, hblocks]
    rfl

end

end Webserv
