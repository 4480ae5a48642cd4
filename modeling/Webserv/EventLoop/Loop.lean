import Webserv.Lib.Table
import Webserv.EventLoop.KeepAlive
import Webserv.EventLoop.Listeners

/-!
# The event loop

The whole program as a state machine: the tables of the event loop, and what it does with one
event of `epoll_wait` and with the sweeps that follow a batch of events.  What it does with one
client or one script's job is `readLoop`, `cgiEvent` and the other functions of the modules
before; this one has the bookkeeping around them, in the order of the source.

A pointer to a connection or to a job is the number it is filed under, so that a call that may
free a connection is followed by a lookup.  A `BodyLimitException` that leaves a handler is the
`bodyLimit` of its outcome; nothing above `run` catches it, and the program ends.
-/

namespace Webserv

open Bytes

/-- `EventKind`. -/
inductive EventKind where
  | server
  | client
  | cgi
  | invalid
  deriving DecidableEq, Repr

/-- `EventRef`. -/
structure EventRef where
  kind : EventKind
  fd : ℕ
  /-- Which of the references made so far it is. -/
  serial : ℕ
  /-- The mask that its descriptor is registered with. -/
  events : EpollBits
  deriving DecidableEq, Repr

/-- The places where a mask is changed. -/
inductive Rearming where
  /-- A response is queued. -/
  | answer
  /-- A script is started. -/
  | run
  /-- A job has done something for its client. -/
  | relay
  /-- The pipe of a script is looked at again. -/
  | pipe
  /-- The client has been written to. -/
  | write
  deriving DecidableEq, Repr

/-- What the system calls answer during one event. -/
structure KernelAnswers where
  env : Env
  world : ProcessWorld
  /-- The descriptors that `accept` returns until it fails. -/
  clients : List ℕ
  recvs : List RecvAnswer
  /-- The reading end of the pipe for a script, if the pipe can be made and set up. -/
  pipe : Option ℕ
  /-- What the socket of a client takes. -/
  takes : ℕ → List ℕ
  /-- What `read` from a pipe returns. -/
  reads : ℕ → ReadAnswer
  /-- Does `epoll_ctl` change the mask of the descriptor? -/
  modifies : Rearming → ℕ → Bool

/-- The tables of `EventLoop` and of `ConnectionManager`. -/
structure EventLoop where
  listeners : List Listener
  connections : Table Connection
  cgiJobs : Table CgiJob
  eventRefs : Table EventRef
  staleRefs : List EventRef
  /-- How many connections have been accepted. -/
  counter : ℕ
  /-- How many references have been made. -/
  serial : ℕ
  /-- Ghost: the number of the connection whose request started the job on a pipe.  No
  function reads it. -/
  startedBy : ℕ → ℕ

namespace EventLoop

/-! ### The tables -/

/-- `_registerEventFd`. -/
def registerEventFd (l : EventLoop) (fd : ℕ) (kind : EventKind) (events : EpollBits) : EventLoop :=
  { l with
    eventRefs := l.eventRefs.insert fd ⟨kind, fd, l.serial, events⟩
    serial := l.serial + 1 }

/-- `_unregisterEventFd`. -/
def unregisterEventFd (l : EventLoop) (fd : ℕ) : EventLoop :=
  match l.eventRefs[fd]? with
  | none => l
  | some ref => { l with
      eventRefs := l.eventRefs.erase fd
      staleRefs := l.staleRefs ++ [{ ref with kind := .invalid }] }

/-- The connection is filed under its descriptor. -/
def putConnection (l : EventLoop) (fd : ℕ) (c : Connection) : EventLoop :=
  { l with connections := l.connections.insert fd c }

/-- The jobs with one of them changed. -/
def putJob (l : EventLoop) (resultFd : ℕ) (job : CgiJob) : EventLoop :=
  { l with cgiJobs := l.cgiJobs.insert resultFd job }

/-- `ConnectionManager::closeConnection`. -/
def closeConnection (l : EventLoop) (fd : ℕ) : EventLoop :=
  { l with connections := l.connections.erase fd }

/-- `_modifyEventFd`; a connection whose mask cannot be changed is closed. -/
def modifyEventFd (l : EventLoop) (modifies : Bool) (fd : ℕ) (events : EpollBits) : EventLoop :=
  match l.eventRefs[fd]? with
  | none => l
  | some ref =>
      if ref.kind = .invalid then l
      else if modifies then
        { l with eventRefs := l.eventRefs.insert fd { ref with events := events } }
      else l.closeConnection fd

/-- `_rearmClient`. -/
def rearmClient (l : EventLoop) (modifies : Bool) (fd : ℕ) : EventLoop :=
  match l.connections[fd]? with
  | none => l
  | some c => l.modifyEventFd modifies fd c.buildEpollEvent

/-- `_closeCgiJob`. -/
def closeCgiJob (l : EventLoop) (resultFd : ℕ) : EventLoop :=
  match l.cgiJobs[resultFd]? with
  | none => l
  | some _ => { l.unregisterEventFd resultFd with cgiJobs := l.cgiJobs.erase resultFd }

/-- `_closeCgiJobsForClient`. -/
def closeCgiJobsForClient (l : EventLoop) (fd : ℕ) : EventLoop :=
  (l.cgiJobs.keysWhere fun job => job.clientFd = fd).foldl closeCgiJob l

/-- `_closeClient`. -/
def closeClient (l : EventLoop) (fd : ℕ) : EventLoop :=
  ((l.closeCgiJobsForClient fd).unregisterEventFd fd).closeConnection fd

/-- The first job of the client, as `_handleWrite` and `_handleClientEvent` look for it. -/
def activeCgi (l : EventLoop) (fd : ℕ) : Option ℕ :=
  l.cgiJobs.findKey fun job => job.clientFd = fd

/-! ### Responses -/

/-- The connection is filed as it is now, and rearmed. -/
def rearmAs (l : EventLoop) (modifies : Bool) (fd : ℕ) (c : Connection) : EventLoop :=
  (l.putConnection fd c).rearmClient modifies fd

/-- `sendError`, `setWriting` and `_rearmClient`. -/
def refuse (l : EventLoop) (a : KernelAnswers) (fd : ℕ) (c : Connection) (code : ℕ) :
    Outcome EventLoop Unit :=
  match sendError a.env code c with
  | .bodyLimit c => .bodyLimit (l.putConnection fd c)
  | .ok c _ => .ok (l.rearmAs (a.modifies .answer fd) fd c.setWriting) ()

/-! ### Scripts -/

/-- The mask of a pipe. -/
def cgiEvents : EpollBits := { epollIn := true, epollHup := true, epollErr := true }

/-- `_ApiStartCgi` closes and removes the file with the body. -/
def dropBodyFile (req : HttpRequest) : HttpRequest :=
  let req := if 0 ≤ req.openedFile then { req with openedFile := -1, opened := false } else req
  { req with tmpBodyPath := [] }

/-- A new job is filed under its pipe, and the pipe is registered. -/
def addCgiJob (l : EventLoop) (fd resultFd : ℕ) (c : Connection) (now : ℕ) : EventLoop :=
  let job := CgiJob.new fd resultFd cgiHeaderBufLimit c.config.timeoutSeconds now
  { (l.registerEventFd resultFd .cgi cgiEvents).putJob resultFd job with
    startedBy := Function.update l.startedBy resultFd c.connNum }

/-- `_ApiStartCgi`. -/
def apiStartCgi (l : EventLoop) (a : KernelAnswers) (fd : ℕ) (c : Connection)
    (info : CgiRequestInfo) : Outcome EventLoop Unit :=
  match a.pipe with
  | none => l.refuse a fd c 500
  | some resultFd =>
      let l := (l.addCgiJob fd resultFd c a.env.now).rearmAs (a.modifies .run fd) fd c.setCgiRunning
      match l.connections[fd]? with
      -- the source goes on with a connection that has been freed
      | none => .ok l ()
      | some c =>
          let started := startCgi a.env.fs a.world c.request c.config info
          let c := { c with request := dropBodyFile c.request }
          match started with
          | some _ => .ok (l.putConnection fd c) ()
          | none => (l.closeCgiJob resultFd).refuse a fd c 502

/-- What `_tryDispatchComplete` does behind `_ApiStartCgi`. -/
def forgetBodyFile (l : EventLoop) (fd : ℕ) : EventLoop :=
  match l.connections[fd]? with
  | none => l
  | some c =>
      l.putConnection fd { c with request := { c.request with
        opened := false
        openedFile := if 0 < c.request.openedFile then -1 else c.request.openedFile } }

/-- What a call has done for the job and for its client is filed. -/
def settle (l : EventLoop) (a : KernelAnswers) (resultFd fd : ℕ) :
    Outcome (Connection × CgiJob) CgiFate → Outcome EventLoop Unit
  | .bodyLimit s => .bodyLimit ((l.putConnection fd s.1).putJob resultFd s.2)
  | .ok s fate =>
      let l := l.putJob resultFd s.2
      match fate with
      | .wait => .ok (l.putConnection fd s.1) ()
      | .streamed => .ok (l.rearmAs (a.modifies .relay fd) fd s.1) ()
      | .ended => .ok ((l.rearmAs (a.modifies .relay fd) fd s.1).closeCgiJob resultFd) ()

/-- `_handleCgiEvent`. -/
def handleCgiEvent (l : EventLoop) (a : KernelAnswers) (resultFd : ℕ) : Outcome EventLoop Unit :=
  match l.cgiJobs[resultFd]? with
  | none => .ok l ()
  | some job =>
      match l.connections[job.clientFd]? with
      | none => .ok (l.closeCgiJob resultFd) ()
      | some c => l.settle a resultFd job.clientFd (cgiEvent a.env c job (a.reads resultFd))

/-! ### Clients -/

/-- The `try` block of `_handleRead`.  A call that is stuck is the last of the program; the state
it is stuck in is kept, and what is said of the states behind an event is said of it too. -/
def tryRead (l : EventLoop) (a : KernelAnswers) (fd : ℕ) (c : Connection) :
    Outcome EventLoop Unit :=
  match readLoop a.env c a.recvs with
  | .bodyLimit c => .bodyLimit (l.putConnection fd c)
  | .ok c .nothing | .ok c .stuck => .ok (l.putConnection fd c) ()
  | .ok c .close => .ok ((l.putConnection fd c).closeClient fd) ()
  | .ok c .answered => .ok (l.rearmAs (a.modifies .answer fd) fd c) ()
  | .ok c (.script info) =>
      (l.apiStartCgi a fd c info).andThen fun l _ => .ok (l.forgetBodyFile fd) ()

/-- The handler of the `try` block. -/
def catchTryRead (a : KernelAnswers) (fd : ℕ) : Outcome EventLoop Unit → Outcome EventLoop Unit
  | .ok l _ => .ok l ()
  | .bodyLimit l =>
      match l.connections[fd]? with
      | none => .ok l ()
      | some c =>
          let req := { c.request with
            headers := c.request.headers.insert (ascii "connection") (ascii "close") }
          l.refuse a fd { c with request := req } 413

/-- `_handleRead`. -/
def handleRead (l : EventLoop) (a : KernelAnswers) (fd : ℕ) : Outcome EventLoop Unit :=
  match l.connections[fd]? with
  | none => .ok l ()
  | some c => if c.state = .cgiRunning then .ok l () else catchTryRead a fd (l.tryRead a fd c)

/-- The end of `_handleWrite` for a client that has no job. -/
def afterWrite (l : EventLoop) (a : KernelAnswers) (fd : ℕ) (c : Connection) : EventLoop :=
  if c.writeBuffer.isEmpty then
    if !c.peerHalfClosed && c.request.keepAlive then
      l.rearmAs (a.modifies .write fd) fd (c.setReading a.env.now)
    else l.closeClient fd
  else l.rearmAs (a.modifies .write fd) fd c.setWriting

/-- The end of `_handleWrite` for the client of a job. -/
def afterRelay (l : EventLoop) (a : KernelAnswers) (fd : ℕ) : EventLoop :=
  match l.connections[fd]? with
  | none => l
  | some c => l.rearmAs (a.modifies .write fd) fd c.setWriting

/-- `_handleWrite`. -/
def handleWrite (l : EventLoop) (a : KernelAnswers) (fd : ℕ) : Outcome EventLoop Unit :=
  match l.connections[fd]? with
  | none => .ok l ()
  | some c =>
      let c := c.sendLoop a.env.now (a.takes fd)
      let l := l.putConnection fd c
      match l.activeCgi fd with
      | some resultFd =>
          if c.writeBuffer.size < cgiStreamLwm then
            ((l.modifyEventFd (a.modifies .pipe resultFd) resultFd cgiEvents).handleCgiEvent a
              resultFd).andThen fun l _ => .ok (l.afterRelay a fd) ()
          else .ok (l.afterRelay a fd) ()
      | none => .ok (l.afterWrite a fd c) ()

/-- `_handleClientEvent`. -/
def handleClientEvent (l : EventLoop) (a : KernelAnswers) (fd : ℕ) (events : EpollBits) :
    Outcome EventLoop Unit :=
  match l.connections[fd]? with
  | none => .ok l ()
  | some c =>
      if events.epollErr || events.epollHup then .ok (l.closeClient fd) ()
      else if events.epollRdhup then
        if c.writeBuffer.isEmpty || (l.activeCgi fd).isSome then .ok (l.closeClient fd) ()
        else .ok (l.putConnection fd c.setPeerHalfClosed) ()
      else if events.epollIn then l.handleRead a fd
      else if events.epollOut then l.handleWrite a fd
      else .ok l ()

/-! ### Listening sockets -/

/-- `addServerSocket`. -/
def addServerSocket (l : EventLoop) (listener : Listener) : EventLoop :=
  ({ l with listeners := l.listeners ++ [listener] } : EventLoop).registerEventFd listener.fd
    .server { epollIn := true }

/-- `EventLoop()`, and the sockets that it is to listen to. -/
def start (listeners : List Listener) : EventLoop :=
  listeners.foldl addServerSocket ⟨[], ∅, ∅, ∅, [], 0, 0, fun _ => 0⟩

/-- `addConnection`, and what `_handleAccept` does with the client. -/
def addConnection (l : EventLoop) (a : KernelAnswers) (server : Server) (fd : ℕ) : EventLoop :=
  let c := accepted server (l.listeners.map (·.server)) fd l.counter a.env.now
  ({ l with counter := l.counter + 1 }.putConnection fd c).registerEventFd fd .client
    { epollIn := true, epollRdhup := true }

/-- `_handleAccept`. -/
def handleAccept (l : EventLoop) (a : KernelAnswers) (serverFd : ℕ) : EventLoop :=
  match (configForServer l.listeners serverFd).bind fun i => l.listeners[i]? with
  | none => l
  | some listener => a.clients.foldl (fun l fd => l.addConnection a listener.server fd) l

/-! ### The loop -/

/-- `_dispatch`, for an event whose reference is the one filed for the descriptor; an event
with a stale reference does nothing. -/
def dispatch (l : EventLoop) (a : KernelAnswers) (fd : ℕ) (events : EpollBits) :
    Outcome EventLoop Unit :=
  match l.eventRefs[fd]? with
  | none => .ok l ()
  | some ref =>
      match ref.kind with
      | .invalid => .ok l ()
      | .server => .ok (l.handleAccept a ref.fd) ()
      | .cgi => l.handleCgiEvent a ref.fd
      | .client => l.handleClientEvent a ref.fd events

/-- A sweep over some descriptors, one after another. -/
def forEach (f : EventLoop → ℕ → Outcome EventLoop Unit) :
    List ℕ → EventLoop → Outcome EventLoop Unit
  | [], l => .ok l ()
  | fd :: fds, l => (f l fd).andThen fun l _ => forEach f fds l

/-- `ConnectionManager::getTimedOutFds`; no connection is without a configuration. -/
def getTimedOutFds (l : EventLoop) (now : ℕ) : List ℕ :=
  l.connections.keysWhere fun c =>
    c.state ≠ .cgiRunning && c.isTimedOut c.config.timeoutSeconds now

/-- The end of a client in `_closeTimedOutClients`. -/
def closeTimedOutClient (a : KernelAnswers) (l : EventLoop) (fd : ℕ) : Outcome EventLoop Unit :=
  match l.connections[fd]? with
  | none => .ok l ()
  | some c =>
      match sendError a.env 408 c with
      | .bodyLimit c => .bodyLimit (l.putConnection fd c)
      | .ok c _ => ((l.putConnection fd c).handleWrite a fd).andThen fun l _ =>
          .ok (l.closeClient fd) ()

/-- `_closeTimedOutClients`. -/
def closeTimedOutClients (l : EventLoop) (a : KernelAnswers) : Outcome EventLoop Unit :=
  forEach (closeTimedOutClient a) (l.getTimedOutFds a.env.now) l

/-- The end of a job in `_closeTimedOutCgiJobs`: `_failCgiJob`. -/
def closeTimedOutCgiJob (a : KernelAnswers) (l : EventLoop) (resultFd : ℕ) :
    Outcome EventLoop Unit :=
  match l.cgiJobs[resultFd]? with
  | none => .ok l ()
  | some job =>
      match l.connections[job.clientFd]? with
      | none => .ok (l.closeCgiJob resultFd) ()
      | some c => l.settle a resultFd job.clientFd (failCgiJob a.env 504 c job)

/-- `_closeTimedOutCgiJobs`. -/
def closeTimedOutCgiJobs (l : EventLoop) (a : KernelAnswers) : Outcome EventLoop Unit :=
  forEach (closeTimedOutCgiJob a) (l.cgiJobs.keysWhere (·.isTimedOut a.env.now)) l

/-- What `run` does: it dispatches an event, or goes through the sweeps behind a batch. -/
inductive Event where
  | dispatch (fd : ℕ) (events : EpollBits) (a : KernelAnswers)
  | sweep (a : KernelAnswers)

/-- The stale references go, then the sweeps. -/
def sweep (l : EventLoop) (a : KernelAnswers) : Outcome EventLoop Unit :=
  (closeTimedOutClients { l with staleRefs := [] } a).andThen fun l _ => l.closeTimedOutCgiJobs a

/-- What the loop does with an event. -/
def step (l : EventLoop) : Event → Outcome EventLoop Unit
  | .dispatch fd events a => l.dispatch a fd events
  | .sweep a => l.sweep a

end EventLoop

end Webserv
