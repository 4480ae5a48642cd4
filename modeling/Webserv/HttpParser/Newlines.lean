import Webserv.HttpParser.Behind
import Webserv.HttpParser.Head
import Webserv.HttpParser.RequestLineGrammar

/-!
# Newlines in front of a request

The scan of the request line passes over the newlines in front of it.  They stay in the read
buffer, and take room there, until the line is complete; nothing else that the parser does
depends on them.

## Main results

* `rlScan_newlines` — the scan is the one without them, that many places later.
* `feed_newlines` — **what the parser does with newlines in front of a request.**
-/

namespace Webserv

open Bytes

/-- The bytes that the scan passes over in front of a request line. -/
def IsNewline (b : UInt8) : Prop := b = CR ∨ b = LF

instance (b : UInt8) : Decidable (IsNewline b) := inferInstanceAs (Decidable (_ ∨ _))

/-! ### The scan -/

/-- The marks of a scan that has begun `k` places later. -/
@[reducible] def RLScan.shift (k : ℕ) (sc : RLScan) : RLScan :=
  { sc with
    methodStart := sc.methodStart.map (· + k)
    methodEnd := sc.methodEnd.map (· + k)
    uriStart := sc.uriStart.map (· + k)
    uriEnd := sc.uriEnd.map (· + k) }

/-- What a character leads to, `k` places later. -/
def RLNext.shift (k : ℕ) : RLNext → RLNext
  | .goOn sc => .goOn (sc.shift k)
  | .done sc => .done (sc.shift k)
  | .error code => .error code

/-- How a scan ends, `k` places later. -/
def RLEnd.shift (k : ℕ) : RLEnd → RLEnd
  | .more => .more
  | .line sc p => .line (sc.shift k) (p + k)
  | .error code => .error code

theorem rlStep_shift (k : ℕ) (sc : RLScan) (p : ℕ) (ch : UInt8) :
    rlStep (sc.shift k) (p + k) ch = (rlStep sc p ch).shift k := by
  obtain ⟨state, ms, me, us, ue, major, minor⟩ := sc
  unfold rlStep rlExpect
  cases state <;> dsimp only [RLScan.shift] <;> split_ifs <;> rfl

/-- A scan does not know where it has begun. -/
theorem rlScan_shift (k : ℕ) : ∀ (bs : Bytes) (sc : RLScan) (p : ℕ),
    rlScan (sc.shift k) (p + k) bs = (rlScan sc p bs).shift k := by
  intro bs
  induction bs with
  | nil => exact fun _ _ => rfl
  | cons ch rest ih =>
    intro sc p
    rw [rlScan, rlScan, rlStep_shift]
    cases rlStep sc p ch with
    | goOn sc' =>
      have hplace : p + k + 1 = p + 1 + k := by omega
      exact hplace ▸ ih sc' (p + 1)
    | done sc' =>
      have hplace : p + k + 1 = p + 1 + k := by omega
      exact congrArg (RLEnd.line (sc'.shift k)) hplace
    | error code => rfl

/-- **Newlines in front move the scan, and change nothing else.** -/
theorem rlScan_newlines {x : Bytes} (hx : ∀ b ∈ x, IsNewline b) (bs : Bytes) :
    rlScan RLScan.init 0 (x ++ bs) = (rlScan RLScan.init 0 bs).shift x.length := by
  have hpass : ∀ b ∈ x, ∀ p, rlStep RLScan.init p b = .goOn RLScan.init := by
    intro b hb p
    rcases hx b hb with rfl | rfl <;> rfl
  rw [rlScan_loop hpass, ← rlScan_shift]
  rfl

/-- A scan that has begun, or is given a character that is no newline, has begun. -/
theorem state_of_goOn {sc sc' : RLScan} {p : ℕ} {ch : UInt8} (h : rlStep sc p ch = .goOn sc')
    (hbegun : sc.state ≠ .start ∨ ¬ IsNewline ch) : sc'.state ≠ .start := by
  obtain ⟨state, ms, me, us, ue, major, minor⟩ := sc
  unfold rlStep rlExpect at h
  cases state <;> dsimp only at h <;> split_ifs at h <;> cases h <;> simp_all [IsNewline]

theorem rlScan_begun_from : ∀ (xs : Bytes) (sc : RLScan) (p : ℕ), rlScan sc p xs = .more →
    sc.state ≠ .start ∨ (∃ b ∈ xs, ¬ IsNewline b) → ∃ sc' : RLScan, sc'.state ≠ .start ∧
      ∀ rest, rlScan sc p (xs ++ rest) = rlScan sc' (p + xs.length) rest := by
  intro xs
  induction xs with
  | nil =>
    rintro sc p _ (hbegun | ⟨b, hb, -⟩)
    · exact ⟨sc, hbegun, fun _ => rfl⟩
    · cases hb
  | cons ch xs ih =>
    intro sc p h hbegun
    rw [rlScan] at h
    cases hs : rlStep sc p ch with
    | done sc' => rw [hs] at h; cases h
    | error code => rw [hs] at h; cases h
    | goOn sc' =>
      rw [hs] at h
      -- it begins with this character, or with one behind it
      have hnext : sc'.state ≠ .start ∨ ∃ b ∈ xs, ¬ IsNewline b := by
        rcases hbegun with hbegun | ⟨b, hb, hno⟩
        · exact Or.inl (state_of_goOn hs (Or.inl hbegun))
        · rcases List.mem_cons.mp hb with rfl | hb
          · exact Or.inl (state_of_goOn hs (Or.inr hno))
          · exact Or.inr ⟨b, hb, hno⟩
      obtain ⟨sc'', hstate, hrest⟩ := ih sc' (p + 1) h hnext
      refine ⟨sc'', hstate, fun rest => ?_⟩
      rw [List.cons_append, rlScan_goOn _ hs, hrest, List.length_cons]
      congr 1
      omega

/-- Behind a byte that is no newline the scan waits no longer for the first one. -/
theorem rlScan_begun {x : Bytes} (hx : ∃ b ∈ x, ¬ IsNewline b)
    (hmore : rlScan RLScan.init 0 x = .more) : ∃ sc : RLScan, sc.state ≠ .start ∧
      ∀ rest, rlScan RLScan.init 0 (x ++ rest) = rlScan sc x.length rest := by
  obtain ⟨sc, hstate, hrest⟩ := rlScan_begun_from x RLScan.init 0 hmore (Or.inr hx)
  exact ⟨sc, hstate, fun rest => by rw [hrest, Nat.zero_add]⟩

/-- A request line that has begun goes on with a space, or is refused with a newline. -/
theorem rlStep_begun {sc : RLScan} (h : sc.state ≠ .start) (p : ℕ) :
    (∃ sc', rlStep sc p SP = .goOn sc') ∨ ∃ code, rlStep sc p CR = .error code := by
  obtain ⟨state, ms, me, us, ue, major, minor⟩ := sc
  cases state
  case start => exact absurd rfl h
  case httpH | httpHT | httpHTT | httpHTTP | firstMajor | major | firstMinor | almostDone =>
    exact Or.inr ⟨400, rfl⟩
  all_goals exact Or.inl ⟨_, rfl⟩

/-! ### The complete line -/

theorem slice_front (x bs : Bytes) (s e : ℕ) :
    slice (x ++ bs) (s + x.length) (e + x.length) = slice bs s e := by
  unfold slice
  rw [Nat.add_sub_add_right, Nat.add_comm s, List.drop_length_add_append]

section

variable {stat : StatAnswer} {c : Connection} {rb : ByteQueue} {x : Bytes}

/-- A line that is complete is read the same with newlines in front; they are consumed with it. -/
theorem finishRequestLine_front {sc : RLScan} {p : ℕ} (hitems : c.readBuffer.items = x ++ rb.items)
    (hlimit : c.readBuffer.limit = rb.limit) : ∃ rb',
      finishRequestLine stat (x ++ rb.items) (sc.shift x.length) (p + x.length) c =
        (finishRequestLine stat rb.items sc p (c.setReadBuffer rb)).setReadBuffer rb' ∧
      ((finishRequestLine stat rb.items sc p (c.setReadBuffer rb)).request.parseState = .headers →
        rb' = (finishRequestLine stat rb.items sc p (c.setReadBuffer rb)).readBuffer) := by
  have hrefused : ∀ (req : HttpRequest) (code : ℕ), ∃ rb',
      ({ c with request := req.fail code } : Connection) =
        ({ c.setReadBuffer rb with request := req.fail code } : Connection).setReadBuffer rb' ∧
      ((req.fail code).parseState = .headers → rb' = rb) :=
    fun req code => ⟨c.readBuffer, rfl, fun h => nomatch h⟩
  have hconsume : c.readBuffer.consume (p + x.length) = rb.consume p := by
    refine Fifo.ext ?_ hlimit
    rw [Fifo.items_consume, hitems, Nat.add_comm p, List.drop_length_add_append]
    rfl
  have huri : (sc.uriEnd.map (· + x.length)).getD (p + x.length) =
      sc.uriEnd.getD p + x.length := by
    cases sc.uriEnd <;> rfl
  unfold finishRequestLine
  cases hms : sc.methodStart with
  | none => simpa [RLScan.shift, hms] using hrefused c.request 400
  | some ms =>
    cases hme : sc.methodEnd with
    | none => simpa [RLScan.shift, hms, hme] using hrefused c.request 400
    | some me =>
      cases hus : sc.uriStart with
      | none => simpa [RLScan.shift, hms, hme, hus] using hrefused c.request 400
      | some us =>
        dsimp only [RLScan.shift]
        rw [hms, hme, hus]
        dsimp only [Option.map_some]
        rw [huri, slice_front, slice_front, Nat.add_sub_add_right]
        simp only [Nat.add_lt_add_iff_right]
        split_ifs
        · exact hrefused c.request 400
        · exact hrefused c.request 400
        · exact hrefused c.request 505
        · exact hrefused c.request 414
        · exact hrefused _ 501
        · -- the line is accepted, and consumed with what is in front of it
          refine ⟨rb.consume p, ?_, fun _ => rfl⟩
          unfold acceptRequestLine
          dsimp only
          rw [hconsume]
          rfl

/-! ### Feeding the parser -/

/-- The request line is refused in the middle. -/
theorem feed_requestLine_error {code : ℕ} (h : AtRequestLine c) (hpath : c.request.path = [])
    (hscan : rlScan RLScan.init 0 c.readBuffer.items = .error code) :
    feed stat c = .ok { c with request := c.request.fail code } () := by
  have hne : ¬ (intoRequestLine c).readBuffer.items.isEmpty = true := by
    intro hnil
    have hnil' : c.readBuffer.items = [] := List.isEmpty_iff.mp hnil
    rw [hnil'] at hscan
    cases hscan
  have hparse : parseRequestLine stat (intoRequestLine c) =
      { c with request := c.request.fail code } := by
    have hscan' : rlScan RLScan.init 0 (intoRequestLine c).readBuffer.items = .error code := hscan
    unfold parseRequestLine
    dsimp only
    rw [if_neg hne, hscan']
    rfl
  have hlimit : applyLocationBodyLimit { c with request := c.request.fail code } =
      { c with request := c.request.fail code } := if_pos (by simp [HttpRequest.fail, hpath])
  have hlive : ¬ c.request.parseState.terminal = true := by
    rcases h with h | h <;> simp [h, ParseState.terminal]
  have herror : ¬ ({ c with request := c.request.fail code } : Connection).request.parseState =
      .requestLine := by simp
  rw [feed, if_neg hlive, requestLineStage_eq h, hparse, if_neg herror, hlimit,
    feedBody_of_error rfl, hlimit]

theorem applyLocationBodyLimit_setReadBuffer (c : Connection) (rb : ByteQueue) :
    ∃ rb', applyLocationBodyLimit (c.setReadBuffer rb) =
      (applyLocationBodyLimit c).setReadBuffer rb' := by
  unfold applyLocationBodyLimit
  rw [request_setReadBuffer]
  split
  · exact ⟨rb, rfl⟩
  · exact ⟨rb.setLimit (effectiveLimit c.config c.request.path), rfl⟩

/-- **What the parser does with newlines in front of a request**: the request line is not complete
with them nor without them, or the request is refused and only the read buffer is another one, or
they are gone. -/
theorem feed_newlines (hx : ∀ b ∈ x, IsNewline b) (h : AtRequestLine c)
    (hpath : c.request.path = []) (hitems : c.readBuffer.items = x ++ rb.items)
    (hlimit : c.readBuffer.limit = rb.limit) :
    (feed stat c = .ok (intoRequestLine c) () ∧
        feed stat (c.setReadBuffer rb) = .ok (intoRequestLine (c.setReadBuffer rb)) ()) ∨
      (∃ c₁ rb', feed stat c = .ok (c₁.setReadBuffer rb') () ∧
        feed stat (c.setReadBuffer rb) = .ok c₁ () ∧ c₁.request.parseState = .error) ∨
      feed stat c = feed stat (c.setReadBuffer rb) := by
  have h' : AtRequestLine (c.setReadBuffer rb) := h
  have hscan : rlScan RLScan.init 0 c.readBuffer.items =
      (rlScan RLScan.init 0 rb.items).shift x.length := by
    rw [hitems, rlScan_newlines hx]
  -- the scan comes to the same end behind the newlines
  cases hend : rlScan RLScan.init 0 rb.items with
  | more =>
    rw [hend] at hscan
    exact Or.inl ⟨feed_requestLine_more h hpath hscan, feed_requestLine_more h' hpath hend⟩
  | error code =>
    rw [hend] at hscan
    refine Or.inr (Or.inl ⟨_, c.readBuffer, ?_, feed_requestLine_error h' hpath hend, rfl⟩)
    exact feed_requestLine_error h hpath hscan
  | line sc p =>
    rw [hend] at hscan
    obtain ⟨rb', hfront, hsame⟩ := @finishRequestLine_front stat (intoRequestLine c) rb x sc p
      hitems hlimit
    have hinto : (intoRequestLine c).setReadBuffer rb = intoRequestLine (c.setReadBuffer rb) := rfl
    rw [hinto] at hfront hsame
    have hfeed := @feed_requestLine stat c _ _ h hscan
    have hfeed' := @feed_requestLine stat (c.setReadBuffer rb) sc p h' hend
    rw [hitems, hfront] at hfeed
    have hbuffer : (c.setReadBuffer rb).readBuffer.items = rb.items := rfl
    rw [hbuffer] at hfeed'
    rcases (finishRequestLine_cases stat rb.items sc p
      (intoRequestLine (c.setReadBuffer rb))).2.2.2 with herror | ⟨hheaders, -⟩
    · -- an error: the buffers differ by the newlines, and are left as they are
      generalize finishRequestLine stat rb.items sc p (intoRequestLine (c.setReadBuffer rb)) = c₂
        at hfeed hfeed' herror
      obtain ⟨rb₁, hrb₁⟩ := applyLocationBodyLimit_setReadBuffer c₂ rb'
      have hstate := (applyLocationBodyLimit_frame c₂).1.parseState.trans herror
      obtain ⟨rb₂, hrb₂⟩ := applyLocationBodyLimit_setReadBuffer (applyLocationBodyLimit c₂) rb₁
      rw [feedBody_of_error hstate] at hfeed'
      have hstate' : ((applyLocationBodyLimit c₂).setReadBuffer rb₁).request.parseState = .error :=
        hstate
      rw [hrb₁, feedBody_of_error hstate', hrb₂] at hfeed
      refine Or.inr (Or.inl ⟨_, rb₂, hfeed, hfeed', ?_⟩)
      exact (applyLocationBodyLimit_frame _).1.parseState.trans hstate
    · -- the line is taken off the buffer, and the newlines with it
      rw [hsame hheaders] at hfeed
      exact Or.inr (Or.inr (hfeed.trans hfeed'.symm))

end

end Webserv
