import Webserv.Config
import Webserv.Lib.Fifo

/-!
# The request record

`HttpRequest` is what the parser fills in and the handlers read, with `reset`,
`header`, `expectsBody` and `keepAlive`.  A buffer of the program is a
`ByteQueue`: the bytes that are readable in it, and its limit.

A call that may be left by a `BodyLimitException` yields an `Outcome`, which
keeps the state the exception leaves behind.
-/

namespace Webserv

open Bytes

/-- A `Buffer`, as the queue of its readable bytes. -/
abbrev ByteQueue := Fifo UInt8

/-! ### Calls that may throw -/

/-- How a call ends: with a result, or by a `BodyLimitException` that leaves the
state `s` behind. -/
inductive Outcome (σ α : Type) where
  | ok (s : σ) (a : α)
  | bodyLimit (s : σ)

namespace Outcome

variable {σ ρ α β : Type}

/-- The state left behind, whichever way the call ended. -/
def state : Outcome σ α → σ
  | ok s _ => s
  | bodyLimit s => s

/-- Did an exception leave the call? -/
def threw : Outcome σ α → Bool
  | ok _ _ => false
  | bodyLimit _ => true

/-- Go on after a call that returned; an exception passes through. -/
def andThen (o : Outcome σ α) (f : σ → α → Outcome σ β) : Outcome σ β :=
  match o with
  | ok s a => f s a
  | bodyLimit s => bodyLimit s

/-- The call made on a part of a larger state. -/
def mapState (f : σ → ρ) : Outcome σ α → Outcome ρ α
  | ok s a => ok (f s) a
  | bodyLimit s => bodyLimit (f s)

@[simp] theorem state_ok (s : σ) (a : α) : (ok s a).state = s := rfl
@[simp] theorem state_bodyLimit (s : σ) : (bodyLimit s : Outcome σ α).state = s := rfl
@[simp] theorem threw_ok (s : σ) (a : α) : (ok s a).threw = false := rfl
@[simp] theorem threw_bodyLimit (s : σ) : (bodyLimit s : Outcome σ α).threw = true := rfl
@[simp] theorem andThen_ok (s : σ) (a : α) (f : σ → α → Outcome σ β) :
    (ok s a).andThen f = f s a := rfl
@[simp] theorem andThen_bodyLimit (s : σ) (f : σ → α → Outcome σ β) :
    (bodyLimit s : Outcome σ α).andThen f = bodyLimit s := rfl
@[simp] theorem mapState_ok (f : σ → ρ) (s : σ) (a : α) :
    (ok s a).mapState f = ok (f s) a := rfl
@[simp] theorem mapState_bodyLimit (f : σ → ρ) (s : σ) :
    (bodyLimit s : Outcome σ α).mapState f = bodyLimit (f s) := rfl

/-- A call that did not throw has returned. -/
theorem eq_ok_of_threw {o : Outcome σ Unit} (h : o.threw = false) : o = ok o.state () := by
  cases o with
  | ok s a => rfl
  | bodyLimit s => cases h

/-- The call has returned, with what passes a test. -/
def returns (p : σ → α → Bool) : Outcome σ α → Bool
  | ok s a => p s a
  | bodyLimit _ => false

theorem exists_of_returns {p : σ → α → Bool} {o : Outcome σ α} (h : o.returns p = true) :
    ∃ s a, o = ok s a ∧ p s a = true := by
  cases o with
  | ok s a => exact ⟨s, a, rfl, h⟩
  | bodyLimit s => cases h

/-- Two calls have ended the same way, in states that are related. -/
inductive Rel (R : σ → σ → Prop) : Outcome σ α → Outcome σ α → Prop
  | ok {s s' : σ} (a : α) (h : R s s') : Rel R (.ok s a) (.ok s' a)
  | bodyLimit {s s' : σ} (h : R s s') : Rel R (.bodyLimit s) (.bodyLimit s')

/-- Related calls go on in a related way. -/
theorem Rel.andThen {R : σ → σ → Prop} {o o' : Outcome σ α} {f : σ → α → Outcome σ β}
    (h : o.Rel R o') (hf : ∀ s s' a, R s s' → (f s a).Rel R (f s' a)) :
    (o.andThen f).Rel R (o'.andThen f) := by
  cases h with
  | ok a h => exact hf _ _ a h
  | bodyLimit h => exact .bodyLimit h

end Outcome

/-- `Buffer::append` of several blocks one after another. -/
def appendBlocks (wb : ByteQueue) (blocks : List Bytes) : Outcome ByteQueue Unit :=
  match wb.appendAll blocks with
  | (wb', true) => .ok wb' ()
  | (wb', false) => .bodyLimit wb'

theorem appendBlocks_of_true {wb : ByteQueue} {blocks : List Bytes}
    (h : (wb.appendAll blocks).2 = true) :
    appendBlocks wb blocks = .ok (wb.push blocks.flatten) () := by
  obtain ⟨done, rest, rfl, hq, htrue, -⟩ := wb.appendAll_spec blocks
  have hrest := htrue h
  rw [hrest, List.append_nil] at hq h ⊢
  unfold appendBlocks
  rw [show wb.appendAll done = (wb.push done.flatten, true) from Prod.ext hq h]

theorem appendBlocks_of_false {wb : ByteQueue} {blocks : List Bytes}
    (h : (wb.appendAll blocks).2 = false) :
    appendBlocks wb blocks = .bodyLimit (wb.appendAll blocks).1 := by
  unfold appendBlocks
  rw [show wb.appendAll blocks = ((wb.appendAll blocks).1, false) from Prod.ext rfl h]

/-! ### The request -/

/-- `ParseState`. -/
inductive ParseState where
  | idle
  | requestLine
  | headers
  | body
  | complete
  | error
  deriving DecidableEq, Repr

/-- `HttpRequest`. -/
structure HttpRequest where
  method : Bytes
  path : Bytes
  queryString : Bytes
  version : Bytes
  headers : Std.TreeMap Bytes Bytes
  body : ByteQueue
  parseState : ParseState
  contentLength : ℕ
  chunked : Bool
  maxBodySize : ℕ
  errorCode : ℕ
  chunkSize : ℕ
  chunkTrailing : Bool
  chunkDone : Bool
  opened : Bool
  openedFile : ℤ
  tmpBodyPath : Bytes
  written : ℕ
  bodyFileWritten : ℕ

namespace HttpRequest

/-- `HttpRequest(client_max_body_size)`. -/
def new (clientMaxBodySize : ℕ) : HttpRequest where
  method := []
  path := []
  queryString := []
  version := []
  headers := ∅
  body := Fifo.new clientMaxBodySize
  parseState := .idle
  contentLength := 0
  chunked := false
  maxBodySize := 0
  errorCode := 0
  chunkSize := 0
  chunkTrailing := false
  chunkDone := false
  opened := false
  openedFile := -1
  tmpBodyPath := []
  written := 0
  bodyFileWritten := 0

/-- `reset`: a new request, but for the limit of the body buffer. -/
def reset (req : HttpRequest) : HttpRequest := new req.body.limit

/-- `header`: the value of a header, or the empty string. -/
def header (req : HttpRequest) (key : Bytes) : Bytes := req.headers.getD key []

/-- `expectsBody`. -/
def expectsBody (req : HttpRequest) : Bool :=
  0 < req.contentLength || req.chunked || req.method == ascii "POST"

/-- `keepAlive`. -/
def keepAlive (req : HttpRequest) : Bool :=
  let conn := (req.header (ascii "connection")).map toLower
  if req.version = ascii "HTTP/1.1" then conn != ascii "close"
  else conn == ascii "keep-alive"

/-- The parser reports an error. -/
def fail (req : HttpRequest) (code : ℕ) : HttpRequest :=
  { req with parseState := .error, errorCode := code }

@[simp] theorem parseState_fail (req : HttpRequest) (code : ℕ) :
    (req.fail code).parseState = .error := rfl

end HttpRequest

end Webserv
