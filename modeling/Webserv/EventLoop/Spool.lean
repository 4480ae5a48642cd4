import Webserv.HttpParser.Spooled
import Webserv.EventLoop.Reading

/-!
# The spool file

The body of a request for a script goes from the body buffer into a file, piece by piece,
while the parser fills the buffer.  A `Spool` is the connection together with what its file
contains; `Reception` are the points that the loop of `_handleRead` comes to while it reads one
request, next to the connection of a parser that is given the same pieces and spools nothing.

## Main results

* `Reception.spools` — **the two connections differ in the file alone**.
* `Reception.conserves` — the file and the body buffer are the body.
* `Reception.readLoop` — the loop of `_handleRead` goes through these points.
-/

namespace Webserv

open Bytes

/-! ### The file -/

/-- A connection, and what the spool file of its request contains. -/
structure Spool where
  conn : Connection
  file : Bytes

/-- How many of `left` bytes the `write` loop brings into the file, failure or not. -/
def bytesWritten : List ℤ → ℕ → ℕ
  | _, 0 => 0
  | [], _ + 1 => 0
  | n :: ns, left + 1 =>
      if n ≤ 0 then 0 else n.toNat + bytesWritten ns (left + 1 - n.toNat)

/-- Every call of `write` takes at least a byte, and no more than it was given, until nothing is
left. -/
def ShortWrites : List ℤ → ℕ → Prop
  | _, 0 => True
  | [], _ + 1 => False
  | n :: ns, left + 1 => 0 < n ∧ n.toNat ≤ left + 1 ∧ ShortWrites ns (left + 1 - n.toNat)

instance ShortWrites.decidable : ∀ ns left, Decidable (ShortWrites ns left)
  | [], 0 => isTrue trivial
  | _ :: _, 0 => isTrue trivial
  | [], _ + 1 => isFalse id
  | n :: ns, left + 1 =>
      @instDecidableAnd (0 < n) _ _
        (@instDecidableAnd (n.toNat ≤ left + 1) _ _ (decidable ns (left + 1 - n.toNat)))

theorem ShortWrites.all : ∀ {ns : List ℤ} {left : ℕ}, ShortWrites ns left →
    (∀ written, spoolWrites written ns left = some (written + left)) ∧
      bytesWritten ns left = left := by
  intro ns
  induction ns with
  | nil =>
    intro left h
    cases left with
    | zero => exact ⟨fun _ => rfl, rfl⟩
    | succ left => exact h.elim
  | cons n ns ih =>
    intro left h
    cases left with
    | zero => exact ⟨fun _ => rfl, rfl⟩
    | succ left =>
      obtain ⟨hpos, hle, hrest⟩ := h
      obtain ⟨hwrites, hbytes⟩ := ih hrest
      constructor
      · intro written
        rw [spoolWrites, if_neg (by omega), if_neg (by omega), hwrites]
        exact congrArg some (by omega)
      · rw [bytesWritten, if_neg (by omega), hbytes]
        omega

/-- The kernel opens the file, and writes the body into it without an error; where there is no
body it is not asked. -/
def SpoolAnswers.Accepts (a : SpoolAnswers) (req : HttpRequest) : Prop :=
  req.body.items ≠ [] →
    (req.opened = false → a.openFd.isSome = true) ∧ ShortWrites a.writes req.body.size

instance (a : SpoolAnswers) (req : HttpRequest) : Decidable (a.Accepts req) :=
  inferInstanceAs (Decidable (_ → _ ∧ _))

/-- What `flushRequestBodyToTmpFile` leaves in the file; one that it opens is new. -/
def fileBehindFlush (env : Env) (a : SpoolAnswers) (s : Spool) : Bytes :=
  let req := s.conn.request
  if req.body.isEmpty then s.file
  else if 0 < req.maxBodySize ∧ req.bodyFileWritten + req.body.size > req.maxBodySize then s.file
  else
    let file := if req.opened then s.file else []
    if (openSpoolFile env a s.conn.connNum req).openedFile < 0 then file
    else file ++ req.body.items.take (bytesWritten a.writes req.body.size)

namespace Spool

/-- `flushRequestBodyToTmpFile`. -/
def flush (env : Env) (a : SpoolAnswers) (s : Spool) : Spool :=
  ⟨flushRequestBodyToTmpFile env a s.conn, fileBehindFlush env a s⟩

/-- What `_handleRead` does between the parser and the dispatch. -/
def fed (env : Env) (a : SpoolAnswers) (s : Spool) : Spool :=
  let s := if (s.conn.request.parseState = .body ∨ s.conn.request.parseState = .complete) ∧
      pathRequiresCgiBodySpool s.conn.request s.conn.config then s.flush env a else s
  { s with conn := maybeCompletePostWithoutLength s.conn }

/-- What it does when nothing more has come. -/
def again (env : Env) (a : SpoolAnswers) (s : Spool) : Spool :=
  let s := { s with conn := maybeCompletePostWithoutLength s.conn }
  if pathRequiresCgiBodySpool s.conn.request s.conn.config then s.flush env a else s

/-- What it does at the end of file. -/
def eof (env : Env) (a : SpoolAnswers) (s : Spool) : Spool :=
  let req := s.conn.request
  if req.parseState = .body ∧ !req.chunked ∧ req.contentLength = 0 ∧ 0 < req.written ∧
      pathRequiresCgiBodySpool req s.conn.config then
    let s := s.flush env a
    { s with conn := { s.conn with request := { s.conn.request with parseState := .complete } } }
  else s

end Spool

/-- Behind the parser, the loop of `_handleRead` goes on with `Spool.fed`. -/
theorem readFed_eq (env : Env) (a : SpoolAnswers) (s : Spool) :
    readFed env a s.conn = if s.conn.request.parseState = .error then
        answer (sendError env s.conn.request.errorCode s.conn)
      else tryDispatchComplete env a (s.fed env a).conn := by
  unfold readFed Spool.fed
  dsimp only
  rw [apply_ite Spool.conn]
  rfl

theorem readAgain_eq (env : Env) (a : SpoolAnswers) (s : Spool) :
    readAgain env a s.conn = tryDispatchComplete env a (s.again env a).conn := by
  unfold readAgain Spool.again
  dsimp only
  rw [apply_ite Spool.conn]
  rfl

/-! ### Reading one request -/

/-- Where `_handleRead` is: at the head of its loop, or behind the parser. -/
inductive Point where
  | head
  | parsed
  deriving DecidableEq, Repr

/-- The points that the loop of `_handleRead` comes to while it reads one request, in as many
calls as it takes, with the connection of a parser that is given the same pieces and spools
nothing.  Every body that is spooled is written without an error. -/
inductive Reception (c₀ : Connection) : Point → Spool → Connection → Prop
  | start : Reception c₀ .head ⟨c₀, []⟩ c₀
  | parsed {s : Spool} {p c c' : Connection} {env : Env} {d : Bytes} :
      Reception c₀ .head s p → ¬ Dispatchable s.conn → s.conn.recv d env.now = .ok c () →
      feed env.fs.statAnswer (resumeBodyIfNeeded c) = .ok c' () →
      Reception c₀ .parsed ⟨c', s.file⟩ (feedPiece env.fs.statAnswer p d)
  | spooled {s : Spool} {p : Connection} {env : Env} {a : SpoolAnswers} :
      Reception c₀ .parsed s p → s.conn.request.parseState ≠ .error →
      (pathRequiresCgiBodySpool s.conn.request s.conn.config = true → a.Accepts s.conn.request) →
      Reception c₀ .head (s.fed env a) p
  | again {s : Spool} {p : Connection} {env : Env} {a : SpoolAnswers} :
      Reception c₀ .head s p → ¬ Dispatchable s.conn →
      (pathRequiresCgiBodySpool s.conn.request s.conn.config = true → a.Accepts s.conn.request) →
      Reception c₀ .head (s.again env a) p
  | eof {s : Spool} {p : Connection} {env : Env} {a : SpoolAnswers} :
      Reception c₀ .head s p → ¬ Dispatchable s.conn →
      (pathRequiresCgiBodySpool s.conn.request s.conn.config = true → a.Accepts s.conn.request) →
      Reception c₀ .head (s.eof env a) p

/-- The connection `p` of a parser that does not spool is the connection with its file. -/
structure Spools (pt : Point) (s : Spool) (p : Connection) : Prop where
  request : p.request = (s.conn.request.prepend s.file).refile p.request
  conn : s.conn.request.parseState.terminal = false → p = (s.conn.prepend s.file).refile p
  resumable : Resumable p
  counted : Counted p.request
  length : s.conn.request.bodyFileWritten = s.file.length
  unopened : s.conn.request.opened = false → s.file = []
  openedFile : s.conn.request.opened = true → 0 ≤ s.conn.request.openedFile
  /-- On the path of a script nothing stays in the buffer. -/
  flushed : pt = .head → pathRequiresCgiBodySpool s.conn.request s.conn.config = true →
    s.conn.request.body.items = []

section

variable {pt : Point} {s : Spool} {p c c' : Connection} {env : Env} {a : SpoolAnswers} {d : Bytes}

/-! ### What the parser has counted -/

theorem Spools.parseState (h : Spools pt s p) :
    p.request.parseState = s.conn.request.parseState := by rw [h.request]; rfl

theorem Spools.written (h : Spools pt s p) : p.request.written = s.conn.request.written := by
  rw [h.request]; rfl

theorem Spools.chunked (h : Spools pt s p) : p.request.chunked = s.conn.request.chunked := by
  rw [h.request]; rfl

theorem Spools.method (h : Spools pt s p) : p.request.method = s.conn.request.method := by
  rw [h.request]; rfl

theorem Spools.contentLength (h : Spools pt s p) :
    p.request.contentLength = s.conn.request.contentLength := by rw [h.request]; rfl

theorem Spools.maxBodySize (h : Spools pt s p) :
    p.request.maxBodySize = s.conn.request.maxBodySize := by rw [h.request]; rfl

/-- **The file and the buffer are the body.** -/
theorem Spools.items (h : Spools pt s p) :
    p.request.body.items = s.file ++ s.conn.request.body.items := by rw [h.request]; rfl

theorem Spools.size_eq (h : Spools pt s p) :
    s.file.length + s.conn.request.body.size = s.conn.request.written := by
  have hsize := h.counted.size_eq
  rw [Fifo.size_eq, h.items, List.length_append, h.written] at hsize
  exact hsize

theorem Spools.written_le (h : Spools pt s p) :
    s.conn.request.written ≤ s.conn.request.maxBodySize := by
  have hle := h.counted.written_le
  rwa [h.written, h.maxBodySize] at hle

/-- The check of `flushRequestBodyToTmpFile` against the limit. -/
def OverLimit (req : HttpRequest) : Prop :=
  0 < req.maxBodySize ∧ req.bodyFileWritten + req.body.size > req.maxBodySize

theorem Spools.not_overLimit (h : Spools pt s p) : ¬ OverLimit s.conn.request := by
  rintro ⟨-, hover⟩
  have hsize := h.size_eq
  have hle := h.written_le
  have hlength := h.length
  omega

/-- While the request is read, the storage of the read buffer has not been given away. -/
theorem Spools.held (h : Spools pt s p) (hopen : p.request.parseState.terminal = false) :
    s.conn.request.erased = false := by
  rw [← h.resumable.held hopen, HttpRequest.erased, HttpRequest.erased, h.contentLength,
    h.chunked, h.written]

/-! ### Steps that change nothing -/

/-- A body without a length and without chunks is not read. -/
theorem Spools.framed (h : Spools pt s p) (hbody : s.conn.request.parseState = .body)
    (hplain : s.conn.request.chunked = false) : s.conn.request.contentLength ≠ 0 := by
  have hread := h.resumable.read (h.parseState.trans hbody)
  rw [← h.contentLength]
  exact hread.contentLength_ne (h.chunked.trans hplain)

theorem Spools.maybeComplete_eq (h : Spools pt s p) :
    maybeCompletePostWithoutLength s.conn = s.conn := by
  unfold maybeCompletePostWithoutLength
  dsimp only
  rw [if_neg]
  rintro ⟨hbody, hplain, hlength, -⟩
  exact h.framed hbody (by simpa using hplain) hlength

theorem Spools.eof_eq (h : Spools pt s p) : s.eof env a = s := by
  unfold Spool.eof
  dsimp only
  rw [if_neg]
  rintro ⟨hbody, hplain, hlength, -⟩
  exact h.framed hbody (by simpa using hplain) hlength

/-- **When a complete request is there as a whole**: unless it is for a script and its chunks are
empty. -/
theorem Spools.dispatchable_iff (h : Spools .head s p)
    (hcomplete : s.conn.request.parseState = .complete) :
    Dispatchable s.conn ↔ ¬ (pathRequiresCgiBodySpool s.conn.request s.conn.config = true ∧
      s.conn.request.chunked = true ∧ s.conn.request.written = 0) := by
  have hplain : s.conn.request.chunked = false →
      s.conn.request.contentLength = s.conn.request.written ∧
        (s.conn.request.contentLength = 0 → s.conn.request.method ≠ ascii "POST") := by
    intro hplain
    have hended := h.counted.ended (h.parseState.trans hcomplete) (h.chunked.trans hplain)
    rwa [h.contentLength, h.written, h.method] at hended
  have hcoded : s.conn.request.chunked = true → s.conn.request.contentLength = 0 := by
    intro hchunked
    rw [← h.contentLength]
    exact h.counted.coded (h.chunked.trans hchunked)
  have hsize := h.size_eq
  have hlength := h.length
  unfold Dispatchable isBodyFullySpooled HttpRequest.expectsBody
  dsimp only
  cases hscript : pathRequiresCgiBodySpool s.conn.request s.conn.config with
  | true =>
    have hempty := h.flushed rfl hscript
    have hsize₀ : s.conn.request.body.size = 0 := by rw [Fifo.size_eq, hempty]; rfl
    have hempty' : s.conn.request.body.isEmpty = true := (Fifo.isEmpty_iff _).mpr hempty
    cases hchunked : s.conn.request.chunked with
    | true =>
      have hzero := hcoded hchunked
      simp [hcomplete, hempty', hzero]
      omega
    | false =>
      obtain ⟨hwritten, hmethod⟩ := hplain hchunked
      -- its length was announced, unless no body is expected
      by_cases hzero : s.conn.request.contentLength = 0
      · simp [hcomplete, hzero, hmethod hzero]
      · simp [hcomplete, hempty', Nat.pos_of_ne_zero hzero]
        omega
  | false =>
    cases hchunked : s.conn.request.chunked with
    | true => simp [hcomplete]
    | false =>
      obtain ⟨hwritten, hmethod⟩ := hplain hchunked
      by_cases hzero : s.conn.request.contentLength = 0
      · simp [hcomplete, hzero, hmethod hzero]
      · have hpos : 0 < s.conn.request.written := by omega
        simp [hcomplete, hwritten, hpos]

/-- A complete request that waits is not parsed again. -/
theorem Spools.resume_eq (h : Spools .head s p) (hpending : ¬ Dispatchable s.conn)
    (hrequest : c.request = s.conn.request) : resumeBodyIfNeeded c = c := by
  unfold resumeBodyIfNeeded
  dsimp only
  rw [hrequest]
  split
  · rfl
  · next hstate =>
    rw [not_not] at hstate
    obtain ⟨-, hchunked, -⟩ := not_not.mp ((h.dispatchable_iff hstate).not.mp hpending)
    have hzero := h.counted.coded (h.chunked.trans hchunked)
    rw [h.contentLength] at hzero
    rw [if_neg (by omega), if_neg (by simp [hchunked])]

/-! ### Steps -/

theorem spools_start (hc : c.Fresh) : Spools .head ⟨c, []⟩ c where
  request := rfl
  conn := fun _ => rfl
  resumable := hc.resumable
  counted := hc.counted
  length := by
    obtain ⟨⟨limit, hreq⟩, -⟩ := hc
    rw [hreq]
    rfl
  unopened := fun _ => rfl
  openedFile := by
    obtain ⟨⟨limit, hreq⟩, -⟩ := hc
    rw [hreq]
    nofun
  flushed := by
    obtain ⟨⟨limit, hreq⟩, -⟩ := hc
    rw [hreq]
    exact fun _ _ => rfl

/-- What the parser does to the request in a piece, it does to the one that is not spooled. -/
theorem Spools.feed_eq (h : Spools pt s p) (hterm : s.conn.request.parseState.terminal = false)
    (hrequest : c.request = s.conn.request) (hconfig : c.config = s.conn.config)
    (hlimit : c.readBuffer.limit = s.conn.readBuffer.limit) (stat : StatAnswer) :
    feed stat (c.prepend s.file) = (feed stat c).mapState (·.prepend s.file) := by
  have hsize := h.size_eq
  by_cases hbody : s.conn.request.parseState = .body
  · have hlim := h.resumable.limit (Or.inr (h.parseState.trans hbody))
    rw [h.conn hterm] at hlim
    refine feed_prepend stat (by rw [hrequest]; exact hbody) ⟨?_, ?_, ?_, ?_⟩ ?_
    · rw [hrequest]; exact hlim.path_ne
    · rw [hrequest, hconfig]; exact hlim.maxBodySize
    · rw [hrequest, hconfig]; exact hlim.body
    · rw [hrequest, hconfig, hlimit]; exact hlim.readBuffer
    · rw [hrequest]; exact hsize.le
  · -- nothing of the body has come
    have hwritten := h.resumable.written_eq
    rw [h.parseState, h.written] at hwritten
    have hnil : s.file = [] := by
      apply List.eq_nil_of_length_eq_zero
      have hzero := hwritten (by
        cases hp : s.conn.request.parseState <;> simp_all [ParseState.terminal])
      omega
    rw [hnil, prepend_nil]
    cases feed stat c with
    | ok c' u => rfl
    | bodyLimit c' => rfl

theorem Spools.parsed (h : Spools .head s p) (hpending : ¬ Dispatchable s.conn)
    (hrecv : s.conn.recv d env.now = .ok c ())
    (hfeed : feed env.fs.statAnswer (resumeBodyIfNeeded c) = .ok c' ()) :
    Spools .parsed ⟨c', s.file⟩ (feedPiece env.fs.statAnswer p d) := by
  have hc : c = { s.conn with readBuffer := s.conn.readBuffer.push d, lastActive := env.now } := by
    unfold Connection.recv at hrecv
    split at hrecv
    · cases hrecv
    · next rb hrb =>
      cases hrecv
      rw [(Fifo.append_eq_some_iff.mp hrb).2]
  have hrequest : c.request = s.conn.request := by rw [hc]
  rw [h.resume_eq hpending hrequest] at hfeed
  -- the parser leaves the fields of the file alone
  have hkept := refile_feed env.fs.statAnswer c
  rw [hfeed, Outcome.state_ok] at hkept
  have hopened : c'.request.opened = s.conn.request.opened := by rw [← hkept, ← hrequest]; rfl
  have hfile : c'.request.openedFile = s.conn.request.openedFile := by rw [← hkept, ← hrequest]; rfl
  have hlength : c'.request.bodyFileWritten = s.conn.request.bodyFileWritten := by
    rw [← hkept, ← hrequest]
    rfl
  have hkeeps := (feedPiece_law env.fs.statAnswer).keeps p d h.resumable
  unfold feedPiece at hkeeps ⊢
  rw [h.parseState] at hkeeps ⊢
  cases hterm : s.conn.request.parseState.terminal with
  | true =>
    -- a complete request takes no more
    rw [hterm] at hkeeps
    rw [feed, if_pos (by rw [hrequest]; exact hterm)] at hfeed
    cases hfeed
    refine ⟨?_, ?_, hkeeps, h.counted, hlength.trans h.length, ?_, ?_, by simp⟩
    · rw [if_pos rfl]
      dsimp only
      rw [hrequest]
      exact h.request
    · dsimp only
      rw [hrequest, hterm]
      exact fun hopen => absurd hopen (by simp)
    · dsimp only
      rw [hopened]
      exact h.unopened
    · dsimp only
      rw [hopened, hfile]
      exact h.openedFile
  | false =>
    rw [hterm] at hkeeps
    rw [if_neg (by simp)] at hkeeps ⊢
    have hp : p.deliver d = (c.prepend s.file).refile (p.deliver d) := by
      rw [hc]
      conv_lhs => rw [h.conn hterm]
      rfl
    have hfeed' : feed env.fs.statAnswer (p.deliver d) =
        .ok ((c'.prepend s.file).refile (p.deliver d)) () := by
      rw [hp, feed_refile, h.feed_eq hterm hrequest (by rw [hc]) (by rw [hc]; rfl), hfeed]
      rfl
    have hcounted := counted_feed env.fs.statAnswer (h.resumable.deliver d)
      (by rw [request_deliver]; exact h.counted)
    rw [hfeed', Outcome.state_ok] at hkeeps hcounted ⊢
    refine ⟨rfl, fun _ => rfl, hkeeps, hcounted, hlength.trans h.length, ?_, ?_, by simp⟩
    · dsimp only
      rw [hopened]
      exact h.unopened
    · dsimp only
      rw [hopened, hfile]
      exact h.openedFile

/-- A flush that meets no error: the body is behind what was in the file. -/
theorem Spools.flush_eq (h : Spools pt s p) (env : Env) (ha : a.Accepts s.conn.request) :
    s.conn.request.body.items = [] ∧ s.flush env a = s ∨
    ∃ q : HttpRequest, q.opened = true ∧ 0 ≤ q.openedFile ∧
      q.bodyFileWritten = (s.file ++ s.conn.request.body.items).length ∧
      s.flush env a = ⟨{ s.conn with request :=
        { s.conn.request.refile q with body := s.conn.request.body.clear } },
        s.file ++ s.conn.request.body.items⟩ := by
  have hover := h.not_overLimit
  have hlength := h.length
  have htake : s.conn.request.body.items.take s.conn.request.body.size =
      s.conn.request.body.items := by
    rw [Fifo.size_eq, List.take_length]
  unfold Spool.flush flushRequestBodyToTmpFile fileBehindFlush
  dsimp only
  cases hempty : s.conn.request.body.isEmpty with
  | true => exact Or.inl ⟨(Fifo.isEmpty_iff _).mp hempty, rfl⟩
  | false =>
    right
    obtain ⟨hopen, hshort⟩ := ha fun hnil => by
      rw [(Fifo.isEmpty_iff _).mpr hnil] at hempty
      cases hempty
    obtain ⟨hwrites, hbytes⟩ := hshort.all
    rw [OverLimit] at hover
    rw [if_neg Bool.false_ne_true, if_neg hover, if_neg Bool.false_ne_true, if_neg hover, hbytes,
      htake]
    cases hopened : s.conn.request.opened with
    | true =>
      -- the file is open: the body goes behind what it has
      have hfd := h.openedFile hopened
      have hsame : openSpoolFile env a s.conn.connNum s.conn.request = s.conn.request := by
        rw [openSpoolFile, if_pos hopened]
      refine ⟨{ s.conn.request with bodyFileWritten :=
        s.conn.request.bodyFileWritten + s.conn.request.body.size }, hopened, hfd, ?_, ?_⟩
      · rw [List.length_append]
        show s.conn.request.bodyFileWritten + s.conn.request.body.size = _
        rw [hlength, Fifo.size_eq]
      · rw [hsame, if_neg (by omega), if_neg (by omega), hwrites, Nat.zero_add, if_pos rfl]
        rfl
    | false =>
      -- the file is new, and empty
      obtain ⟨fd, hfd⟩ := Option.isSome_iff_exists.mp (hopen hopened)
      have hnil := h.unopened hopened
      have hnew : openSpoolFile env a s.conn.connNum s.conn.request = { s.conn.request with
          opened := true
          openedFile := fd
          tmpBodyPath := ascii "/tmp/webserv_" ++ decimal a.counter ++ ascii "_" ++
            decimal s.conn.connNum ++ ascii "_" ++ decimal env.now } := by
        rw [openSpoolFile, hopened, if_neg Bool.false_ne_true, hfd]
      refine ⟨{ openSpoolFile env a s.conn.connNum s.conn.request with bodyFileWritten :=
        s.conn.request.bodyFileWritten + s.conn.request.body.size }, ?_, ?_, ?_, ?_⟩
      · rw [hnew]
      · rw [hnew]
        exact Int.natCast_nonneg fd
      · rw [List.length_append]
        show s.conn.request.bodyFileWritten + s.conn.request.body.size = _
        rw [hlength, Fifo.size_eq]
      · rw [hnew, hnil]
        dsimp only
        rw [if_neg (by omega), if_neg (by omega), hwrites, Nat.zero_add, if_neg Bool.false_ne_true]
        rfl

theorem Spools.flush (h : Spools pt s p) (ha : a.Accepts s.conn.request) :
    Spools .head (s.flush env a) p := by
  rcases h.flush_eq env ha with ⟨hempty, heq⟩ | ⟨q, hopened, hfd, hlength, heq⟩
  · rw [heq]
    exact { h with flushed := fun _ _ => hempty }
  · rw [heq]
    refine ⟨?_, ?_, h.resumable, h.counted, hlength, ?_, fun _ => hfd, fun _ _ => rfl⟩
    · rw [h.request]
      simp [HttpRequest.prepend, HttpRequest.refile]
    · intro hterm
      rw [h.conn hterm]
      simp [Connection.prepend, Connection.refile, HttpRequest.prepend, HttpRequest.refile]
    · exact fun hunopened => absurd (hopened.symm.trans hunopened) (by simp)

theorem Spools.fed (h : Spools .parsed s p) (hstate : s.conn.request.parseState ≠ .error)
    (ha : pathRequiresCgiBodySpool s.conn.request s.conn.config = true →
      a.Accepts s.conn.request) : Spools .head (s.fed env a) p := by
  have hflushed : Spools .head (if (s.conn.request.parseState = .body ∨
      s.conn.request.parseState = .complete) ∧
      pathRequiresCgiBodySpool s.conn.request s.conn.config then s.flush env a else s) p := by
    split
    · next hspool => exact h.flush (ha hspool.2)
    · next hspool =>
      refine { h with flushed := fun _ hscript => ?_ }
      -- the parser is in front of the body
      have hwritten := h.resumable.written_eq
      have hsize := h.size_eq
      rw [h.parseState, h.written] at hwritten
      apply List.eq_nil_of_length_eq_zero
      rw [← Fifo.size_eq]
      have hzero := hwritten (by
        cases hp : s.conn.request.parseState <;> simp_all)
      omega
  unfold Spool.fed
  dsimp only
  rw [hflushed.maybeComplete_eq]
  exact hflushed

theorem Spools.again (h : Spools .head s p)
    (ha : pathRequiresCgiBodySpool s.conn.request s.conn.config = true →
      a.Accepts s.conn.request) : Spools .head (s.again env a) p := by
  unfold Spool.again
  rw [h.maybeComplete_eq]
  dsimp only
  split
  · next hscript => exact h.flush (ha hscript)
  · exact h

/-- **Where the loop of `_handleRead` comes, the parser that does not spool has read what is in
the file and in the buffer.** -/
theorem Reception.spools {c₀ : Connection} (hc₀ : c₀.Fresh) (h : Reception c₀ pt s p) :
    Spools pt s p := by
  induction h with
  | start => exact spools_start hc₀
  | parsed _ hpending hrecv hfeed ih => exact ih.parsed hpending hrecv hfeed
  | spooled _ hstate ha ih => exact ih.fed hstate ha
  | again _ _ ha ih => exact ih.again ha
  | eof _ _ _ ih =>
    rw [ih.eof_eq]
    exact ih

/-! ### The loop -/

/-- Every body that the loop spools while it receives `answers` is written without an error. -/
def Spool.Writable (env : Env) : Spool → List RecvAnswer → Prop
  | _, [] => True
  | s, .eof a :: _ => pathRequiresCgiBodySpool s.conn.request s.conn.config = true →
      a.Accepts s.conn.request
  | s, .again a :: _ => pathRequiresCgiBodySpool s.conn.request s.conn.config = true →
      a.Accepts s.conn.request
  | s, .data d a :: rest => ∀ c c' : Connection, s.conn.recv d env.now = .ok c () →
      feed env.fs.statAnswer (resumeBodyIfNeeded c) = .ok c' () →
      (pathRequiresCgiBodySpool c'.request c'.config = true → a.Accepts c'.request) ∧
        Writable env (Spool.fed env a ⟨c', s.file⟩) rest

/-- A dispatch that comes to nothing leaves a request that is not there as a whole. -/
theorem eq_of_tryDispatchComplete (h : tryDispatchComplete env a c = .ok c' .nothing) :
    c' = c ∧ ¬ Dispatchable c := by
  by_cases hd : Dispatchable c
  · exact absurd h (tryDispatchComplete_ne_nothing hd)
  · rw [tryDispatchComplete_of_not hd] at h
    cases h
    exact ⟨rfl, hd⟩

theorem readEof_ne_nothing : readEof env a c ≠ .ok c' .nothing := by
  unfold readEof
  dsimp only
  split
  · generalize tryDispatchComplete env a _ = o
    cases o with
    | bodyLimit c => nofun
    | ok c fate => cases fate <;> nofun
  · nofun

/-- **The loop of `_handleRead` goes through the points of the reception**: where it leaves the
client to wait for more, it has come to the head of the loop once more. -/
theorem Reception.readLoop {c₀ : Connection} (hc₀ : c₀.Fresh) :
    ∀ (answers : List RecvAnswer) (s : Spool) (p : Connection), Reception c₀ .head s p →
      ¬ Dispatchable s.conn → s.Writable env answers →
      readLoop env s.conn answers = .ok c .nothing →
      ∃ s' p', s'.conn = c ∧ Reception c₀ .head s' p' ∧ ¬ Dispatchable c := by
  intro answers
  induction answers with
  | nil =>
    intro s p h hpending _ hread
    rw [Webserv.readLoop, readAgain_eq] at hread
    obtain ⟨rfl, hstill⟩ := eq_of_tryDispatchComplete hread
    refine ⟨_, p, rfl, h.again hpending fun hscript => ?_, hstill⟩
    exact fun hbody => absurd ((h.spools hc₀).flushed rfl hscript) hbody
  | cons r rest ih =>
    intro s p h hpending hwritable hread
    cases r with
    | eof a => exact absurd hread readEof_ne_nothing
    | again a =>
      rw [Webserv.readLoop, readAgain_eq] at hread
      obtain ⟨rfl, hstill⟩ := eq_of_tryDispatchComplete hread
      exact ⟨_, p, rfl, h.again hpending hwritable, hstill⟩
    | data d a =>
      -- one more piece: received, parsed, spooled, and dispatched if it is the last
      cases herased : s.conn.request.erased with
      | true =>
        -- a call that does not return is no reason to wait either
        rw [readLoop_erased herased] at hread
        exact absurd hread recvErased_ne_nothing
      | false =>
        rw [readLoop_held herased] at hread
        cases hrecv : s.conn.recv d env.now with
        | bodyLimit c₁ =>
          rw [hrecv] at hread
          cases hread
        | ok c₁ _ =>
          rw [hrecv, Outcome.andThen_ok] at hread
          cases hfeed : feed env.fs.statAnswer (resumeBodyIfNeeded c₁) with
          | bodyLimit c₂ =>
            rw [hfeed] at hread
            cases hread
          | ok c₂ _ =>
            rw [hfeed, Outcome.andThen_ok] at hread
            obtain ⟨haccepts, hrest⟩ := hwritable c₁ c₂ hrecv hfeed
            have hparsed := h.parsed hpending hrecv hfeed
            have heq := readFed_eq env a ⟨c₂, s.file⟩
            dsimp only at heq
            rw [heq] at hread
            by_cases herror : c₂.request.parseState = .error
            · -- an answer is no reason to wait
              rw [if_pos herror] at hread
              cases ho : sendError env c₂.request.errorCode c₂ with
              | bodyLimit c₃ =>
                rw [ho] at hread
                cases hread
              | ok c₃ _ =>
                rw [ho] at hread
                cases hread
            · rw [if_neg herror] at hread
              have hspooled : Reception c₀ .head (Spool.fed env a ⟨c₂, s.file⟩) _ :=
                hparsed.spooled herror haccepts
              -- a request that is dispatched is no reason to wait either
              by_cases hd : Dispatchable (Spool.fed env a ⟨c₂, s.file⟩).conn
              · cases ho : tryDispatchComplete env a (Spool.fed env a ⟨c₂, s.file⟩).conn with
                | bodyLimit c₃ =>
                  rw [ho] at hread
                  cases hread
                | ok c₃ fate =>
                  rw [ho] at hread
                  cases fate with
                  | nothing => exact absurd ho (tryDispatchComplete_ne_nothing hd)
                  | close => cases hread
                  | answered => cases hread
                  | script info => cases hread
                  | stuck => cases hread
              · rw [tryDispatchComplete_of_not hd, Outcome.andThen_ok] at hread
                exact ih _ _ hspooled hd hrest hread

end

/-! ### Conservation -/

/-- What is spooled and what is in the buffer is what was decoded, and was counted. -/
structure Conserves (s : Spool) (decoded : Bytes) : Prop where
  items : s.file ++ s.conn.request.body.items = decoded
  length : s.conn.request.bodyFileWritten = s.file.length
  counted : s.conn.request.bodyFileWritten + s.conn.request.body.size = s.conn.request.written
  limited : s.conn.request.written ≤ s.conn.request.maxBodySize
  /-- `flushRequestBodyToTmpFile` does not find the body too large. -/
  admitted : ¬ OverLimit s.conn.request

/-- **The spool file and the body buffer are the body received so far**, wherever the loop of
`_handleRead` comes while it reads a request. -/
theorem Reception.conserves {c₀ : Connection} (hc₀ : c₀.Fresh) {pt : Point} {s : Spool}
    {p : Connection} (h : Reception c₀ pt s p) : Conserves s p.request.body.items where
  items := (h.spools hc₀).items.symm
  length := (h.spools hc₀).length
  counted := by
    rw [(h.spools hc₀).length]
    exact (h.spools hc₀).size_eq
  limited := (h.spools hc₀).written_le
  admitted := (h.spools hc₀).not_overLimit

/-- A piece that is received and parsed. -/
def Spool.parse (env : Env) (d : Bytes) (s : Spool) : Spool :=
  ⟨(feed env.fs.statAnswer (resumeBodyIfNeeded (s.conn.recv d env.now).state)).state, s.file⟩

theorem Reception.parse {c₀ : Connection} {s : Spool} {p : Connection} {env : Env} {d : Bytes}
    (h : Reception c₀ .head s p) (hpending : ¬ Dispatchable s.conn)
    (hrecv : (s.conn.recv d env.now).threw = false)
    (hfeed : (feed env.fs.statAnswer
      (resumeBodyIfNeeded (s.conn.recv d env.now).state)).threw = false) :
    Reception c₀ .parsed (s.parse env d) (feedPiece env.fs.statAnswer p d) :=
  h.parsed hpending (Outcome.eq_ok_of_threw hrecv) (Outcome.eq_ok_of_threw hfeed)

instance (c : Connection) : Decidable (Dispatchable c) := inferInstanceAs (Decidable (_ ∧ _))

/-- A server with one script directory. -/
def spoolServer : Server :=
  { Server.empty with
    clientMaxBodySize := 1000
    locations := [{ Location.empty with
      path := ascii "/cgi"
      cgiMap := Std.TreeMap.ofList [(ascii ".py", ascii "/usr/bin/python3")] }] }

/-- Every path is that of an empty file. -/
def spoolEnv : Env :=
  ⟨{ FileSystem.empty with stat := fun _ => .ok ⟨false, true, 0⟩ }, 0, 0⟩

/-- The file is opened as descriptor 9, and the first call of `write` takes one byte. -/
def oneByteFirst (n : ℤ) : SpoolAnswers := ⟨some 9, [1, n], none, 1, 0⟩

/-- A client of the server, before and behind the two pieces of a body in two chunks. -/
def spoolClient : Spool := ⟨Connection.new 5 spoolServer 0, []⟩

/-- The head, the first chunk size, and its data. -/
def firstPiece : Bytes :=
  ascii "POST /cgi/x.py HTTP/1.1\r\nHost: x\r\nTransfer-Encoding: chunked\r\n\r\n3\r\nhel"

/-- The rest of the body. -/
def secondPiece : Bytes := ascii "\r\n2\r\nlo\r\n0\r\n\r\n"

/-- The spool behind the first piece. -/
private def firstHalf : Spool :=
  (spoolClient.parse spoolEnv firstPiece).fed spoolEnv (oneByteFirst 2)

/-- The spool behind both pieces. -/
private def bothHalves : Spool :=
  (firstHalf.parse spoolEnv secondPiece).fed spoolEnv (oneByteFirst 1)

private theorem reception_bothHalves : ∃ p, Reception spoolClient.conn .head bothHalves p := by
  have hfirst : Reception spoolClient.conn .head firstHalf _ :=
    (Reception.start.parse (by decide +kernel) (by decide +kernel) (by decide +kernel)).spooled
      (by decide +kernel) (by decide +kernel)
  have hsecond : Reception spoolClient.conn .head bothHalves _ :=
    (hfirst.parse (by decide +kernel) (by decide +kernel) (by decide +kernel)).spooled
      (by decide +kernel) (by decide +kernel)
  exact ⟨_, hsecond⟩

/-- A body that came in two pieces is in the file as a whole. -/
theorem conserves_bothHalves : ∃ s p, Reception spoolClient.conn .head s p ∧
    s.file = ascii "hello" ∧ Conserves s p.request.body.items := by
  obtain ⟨p, h⟩ := reception_bothHalves
  exact ⟨_, p, h, by decide +kernel, h.conserves (Connection.fresh_new 5 spoolServer 0)⟩

end Webserv
