import Webserv.HttpRequest

/-!
# A client connection

`Connection` with its buffers, its request and its state.  The system calls made
on the socket are answered from outside: `recv` is given the bytes that arrived,
`send` the number of bytes the socket took, and both the time.
-/

namespace Webserv

open Bytes

/-- `ConnectionState`. -/
inductive ConnectionState where
  | reading
  | processing
  | cgiRunning
  | writing
  | closing
  deriving DecidableEq, Repr

/-- The bits of an epoll event, and the mask a descriptor is registered with. -/
structure EpollBits where
  epollIn : Bool := false
  epollOut : Bool := false
  epollRdhup : Bool := false
  epollErr : Bool := false
  epollHup : Bool := false
  deriving DecidableEq, Repr

/-- `Connection`. -/
structure Connection where
  connNum : ℕ
  fd : ℕ
  config : Server
  readBuffer : ByteQueue
  writeBuffer : ByteQueue
  request : HttpRequest
  state : ConnectionState
  lastActive : ℕ
  peerHalfClosed : Bool
  /-- All server blocks, among which the Host header chooses. -/
  configuration : List Server
  /-- Ghost: `sendError` has queued a response, which says `Connection: close`.  No
  function reads it. -/
  closeAnnounced : Bool

namespace Connection

/-- `Connection(fd, config)`. -/
def new (fd : ℕ) (config : Server) (now : ℕ) : Connection where
  connNum := 0
  fd := fd
  config := config
  readBuffer := Fifo.new config.getMaxBody
  writeBuffer := Fifo.new config.getMaxBody
  request := HttpRequest.new config.getMaxBody
  state := .reading
  lastActive := now
  peerHalfClosed := false
  configuration := []
  closeAnnounced := false

/-- `recv` when the socket had `data`. -/
def recv (c : Connection) (data : Bytes) (now : ℕ) : Outcome Connection Unit :=
  match c.readBuffer.append data with
  | none => .bodyLimit c
  | some rb => .ok { c with readBuffer := rb, lastActive := now } ()

/-- `send` when the socket took `n` bytes. -/
def send (c : Connection) (n : ℕ) (now : ℕ) : Connection :=
  if n = 0 then c else { c with writeBuffer := c.writeBuffer.consume n, lastActive := now }

/-- The `send` loop of `_handleWrite`: how many bytes the socket takes at each call;
when the answers run out it takes no more. -/
def sendLoop (c : Connection) (now : ℕ) : List ℕ → Connection
  | [] => c
  | n :: takes => if c.writeBuffer.isEmpty then c else sendLoop (c.send n now) now takes

/-- `reset`. -/
def reset (c : Connection) (now : ℕ) : Connection :=
  let serverDefault := c.config.getMaxBody
  { c with
    readBuffer := Fifo.new serverDefault
    writeBuffer := Fifo.new serverDefault
    request := { c.request.reset with body := Fifo.new serverDefault }
    state := .reading
    peerHalfClosed := false
    lastActive := now }

/-- `isTimedOut`. -/
def isTimedOut (c : Connection) (timeoutSeconds : ℤ) (now : ℕ) : Bool :=
  (now : ℤ) - c.lastActive > timeoutSeconds

/-- `setProcessing`. -/
def setProcessing (c : Connection) : Connection := { c with state := .processing }

/-- `setWriting`. -/
def setWriting (c : Connection) : Connection := { c with state := .writing }

/-- `setCgiRunning`. -/
def setCgiRunning (c : Connection) : Connection := { c with state := .cgiRunning }

/-- `setReading`. -/
def setReading (c : Connection) (now : ℕ) : Connection := { c.reset now with state := .reading }

/-- `setPeerHalfClosed`. -/
def setPeerHalfClosed (c : Connection) : Connection := { c with peerHalfClosed := true }

/-- `overide_conf`. -/
def overideConf (c : Connection) (s : Server) : Connection := { c with config := s }

/-- `resize_buffers`. -/
def resizeBuffers (c : Connection) : Connection :=
  let limit := c.config.getMaxBody
  { c with
    readBuffer := c.readBuffer.setLimit limit
    writeBuffer := c.writeBuffer.setLimit limit
    request := { c.request with body := c.request.body.setLimit limit } }

/-- The connection with another content of its write buffer. -/
def setWriteBuffer (c : Connection) (wb : ByteQueue) : Connection := { c with writeBuffer := wb }

@[simp] theorem writeBuffer_setWriteBuffer (c : Connection) (wb : ByteQueue) :
    (c.setWriteBuffer wb).writeBuffer = wb := rfl
@[simp] theorem request_setWriteBuffer (c : Connection) (wb : ByteQueue) :
    (c.setWriteBuffer wb).request = c.request := rfl

/-- Blocks appended to the write buffer one after another. -/
def queue (c : Connection) (blocks : List Bytes) : Outcome Connection Unit :=
  (appendBlocks c.writeBuffer blocks).mapState c.setWriteBuffer

/-- The events of `buildEpollEvent`. -/
def buildEpollEvent (c : Connection) : EpollBits :=
  match c.state with
  | .reading => { epollRdhup := true, epollIn := true }
  | .writing => { epollRdhup := true, epollOut := true }
  | _ => { epollRdhup := true }

/-- The request as it is before its first byte has been parsed. -/
def Fresh (c : Connection) : Prop :=
  (∃ limit, c.request = HttpRequest.new limit) ∧ c.readBuffer.items = []

theorem fresh_new (fd : ℕ) (config : Server) (now : ℕ) : (new fd config now).Fresh :=
  ⟨⟨_, rfl⟩, rfl⟩

end Connection

theorem queue_ok {c : Connection} {blocks : List Bytes}
    (h : (c.writeBuffer.appendAll blocks).2 = true) :
    c.queue blocks = .ok (c.setWriteBuffer (c.writeBuffer.push blocks.flatten)) () := by
  rw [Connection.queue, appendBlocks_of_true h]
  rfl

theorem queue_refused {c : Connection} {blocks : List Bytes}
    (h : (c.writeBuffer.appendAll blocks).2 = false) :
    c.queue blocks = .bodyLimit (c.setWriteBuffer (c.writeBuffer.appendAll blocks).1) := by
  rw [Connection.queue, appendBlocks_of_false h]
  rfl

/-- What has been queued when `queue` returns. -/
theorem eq_of_queue_ok {c c' : Connection} {blocks : List Bytes} {u : Unit}
    (h : c.queue blocks = .ok c' u) :
    c' = c.setWriteBuffer (c.writeBuffer.push blocks.flatten) := by
  cases hall : (c.writeBuffer.appendAll blocks).2 with
  | true =>
    rw [queue_ok hall] at h
    cases h
    rfl
  | false =>
    rw [queue_refused hall] at h
    cases h

end Webserv
