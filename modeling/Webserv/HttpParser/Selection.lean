import Webserv.HttpParser.Feed
import Webserv.HttpParser.VirtualHost
import Webserv.HttpParser.Resume

/-!
# The server a request is on

A connection has the configuration of its listener until the header section has been read;
from then on it has that of the server which the Host header selects.

## Main results

* `OnServer.feed` — the parser keeps this.
-/

namespace Webserv

open Bytes

/-- The server that a request with this Host header is for. -/
def hostServer (listener : Server) (servers : List Server) (host : Option Bytes) : Server :=
  (host.bind fun name => servers.find? fun s => s.serverName == name).getD listener

/-- The connection stands on its listener before the header section has been read, and on the
server of the Host header behind it.  A request that is refused may stand on either. -/
def OnServer (listener : Server) (servers : List Server) (c : Connection) : Prop :=
  c.configuration = servers ∧
    match c.request.parseState with
    | .idle | .requestLine | .headers => c.config = listener
    | .body | .complete =>
        c.config = hostServer listener servers c.request.headers[ascii "host"]?
    | .error => True

/-- Only the configurations, the state of the parser and the Host header count. -/
theorem OnServer.congr {listener : Server} {servers : List Server} {c c' : Connection}
    (h : OnServer listener servers c) (hservers : c'.configuration = c.configuration)
    (hconfig : c'.config = c.config) (hstate : c'.request.parseState = c.request.parseState)
    (hhost : c'.request.headers[ascii "host"]? = c.request.headers[ascii "host"]?) :
    OnServer listener servers c' := by
  unfold OnServer at h ⊢
  rw [hservers, hconfig, hstate, hhost]
  exact h

/-- A refused request. -/
theorem OnServer.of_error {listener : Server} {servers : List Server} {c : Connection}
    (hservers : c.configuration = servers) (h : c.request.parseState = .error) :
    OnServer listener servers c := by
  unfold OnServer
  rw [h]
  exact ⟨hservers, trivial⟩

section

variable {listener : Server} {servers : List Server} {c : Connection}

/-! ### Up to the blank line -/

/-- The request line does not choose. -/
theorem parseRequestLine_server (stat : StatAnswer) (c : Connection) :
    (parseRequestLine stat c).configuration = c.configuration ∧
      (parseRequestLine stat c).config = c.config ∧
      ((parseRequestLine stat c).request.parseState = c.request.parseState ∨
        (parseRequestLine stat c).request.parseState = .headers ∨
        (parseRequestLine stat c).request.parseState = .error) := by
  unfold parseRequestLine
  dsimp only
  split
  · exact ⟨rfl, rfl, Or.inl rfl⟩
  · split
    · exact ⟨rfl, rfl, Or.inl rfl⟩
    · exact ⟨rfl, rfl, Or.inr (Or.inr rfl)⟩
    · next sc p _ =>
      obtain ⟨-, -, -, hstate⟩ := finishRequestLine_cases stat c.readBuffer.items sc p c
      have hconfig : (finishRequestLine stat c.readBuffer.items sc p c).configuration =
          c.configuration ∧
            (finishRequestLine stat c.readBuffer.items sc p c).config = c.config := by
        unfold finishRequestLine
        dsimp only
        split
        · split_ifs
          all_goals exact ⟨rfl, rfl⟩
        · exact ⟨rfl, rfl⟩
      rcases hstate with hstate | ⟨hstate, -⟩
      · exact ⟨hconfig.1, hconfig.2, Or.inr (Or.inr hstate)⟩
      · exact ⟨hconfig.1, hconfig.2, Or.inr (Or.inl hstate)⟩

theorem applyLocationBodyLimit_server (c : Connection) :
    (applyLocationBodyLimit c).configuration = c.configuration ∧
      (applyLocationBodyLimit c).config = c.config ∧
      (applyLocationBodyLimit c).request.parseState = c.request.parseState ∧
      (applyLocationBodyLimit c).request.headers = c.request.headers := by
  unfold applyLocationBodyLimit
  split
  · exact ⟨rfl, rfl, rfl, rfl⟩
  · exact ⟨rfl, rfl, rfl, rfl⟩

theorem OnServer.applyLocationBodyLimit (h : OnServer listener servers c) :
    OnServer listener servers (applyLocationBodyLimit c) := by
  obtain ⟨hservers, hconfig, hstate, hheaders⟩ := applyLocationBodyLimit_server c
  exact h.congr hservers hconfig hstate (by rw [hheaders])

theorem OnServer.requestLineStage (h : OnServer listener servers c) (stat : StatAnswer) :
    OnServer listener servers (requestLineStage stat c) := by
  unfold Webserv.requestLineStage
  extract_lets _ c₁
  have hstart : OnServer listener servers c₁ := by
    dsimp only [c₁]
    split
    · next hidle =>
      unfold OnServer at h ⊢
      rw [hidle] at h
      exact h
    · exact h
  clear_value c₁
  split
  · next hline =>
    have hparsed : OnServer listener servers (parseRequestLine stat c₁) := by
      obtain ⟨hservers, hconfig, hstate⟩ := parseRequestLine_server stat c₁
      unfold OnServer at hstart ⊢
      rw [hline] at hstart hstate
      rw [hservers, hconfig]
      rcases hstate with hstate | hstate | hstate <;> rw [hstate]
      · exact hstart
      · exact hstart
      · exact ⟨hstart.1, trivial⟩
    split
    · exact hparsed
    · exact hparsed.applyLocationBodyLimit
  · exact hstart

/-- The server that the checks on Host choose. -/
theorem config_hostChecks (c : Connection) :
    (hostChecks c).configuration = c.configuration ∧
      ((hostChecks c).request.parseState = .error ∨
        (hostChecks c).config =
          hostServer c.config c.configuration (hostChecks c).request.headers[ascii "host"]?) := by
  have hserver : ∀ name, (overrideHost c name).configuration = c.configuration ∧
      (overrideHost c name).config = hostServer c.config c.configuration (some name) := by
    intro name
    unfold overrideHost hostServer
    rw [Option.bind_some]
    cases c.configuration.find? (fun s => s.serverName == name) with
    | none => exact ⟨rfl, rfl⟩
    | some s => exact ⟨rfl, rfl⟩
  unfold hostChecks
  dsimp only
  cases hhost : c.request.headers[ascii "host"]? with
  | none =>
    dsimp only
    split
    · exact ⟨rfl, Or.inl rfl⟩
    · rw [hhost]
      exact ⟨rfl, Or.inr rfl⟩
  | some value =>
    dsimp only
    cases validateHost value with
    | none => exact ⟨rfl, Or.inl rfl⟩
    | some v =>
      obtain ⟨hservers, hconfig⟩ := hserver v.1
      refine ⟨hservers, Or.inr ?_⟩
      rw [Std.TreeMap.getElem?_insert_self]
      exact hconfig

theorem headers_framing (maxBody : ℕ) (req : HttpRequest) :
    (framing maxBody req).headers = req.headers := by
  simp only [framing]
  split
  · rfl
  · split
    · rfl
    · split_ifs <;> rfl

/-- Behind the blank line the connection is on the server that the Host header selects. -/
theorem onServer_finishHeaders (hservers : c.configuration = servers)
    (hconfig : c.config = listener) :
    OnServer listener servers (finishHeaders c) := by
  obtain ⟨hservers', hchosen⟩ := config_hostChecks c
  unfold finishHeaders
  dsimp only
  split
  · next herror => exact .of_error (hservers'.trans hservers) herror
  · next herror =>
    have hchosen := hchosen.resolve_left herror
    rw [hservers, hconfig] at hchosen
    obtain ⟨-, -, -, hstate⟩ := framing_cases (hostChecks c).config.getMaxBody
      (hostChecks c).request
    have hheaders := headers_framing (hostChecks c).config.getMaxBody (hostChecks c).request
    generalize framing (hostChecks c).config.getMaxBody (hostChecks c).request =
      req at hstate hheaders
    unfold OnServer
    dsimp only
    rcases hstate with hstate | ⟨hstate, -⟩ | ⟨hstate, -⟩ <;> rw [hstate]
    · exact ⟨hservers'.trans hservers, trivial⟩
    · rw [hheaders]
      exact ⟨hservers'.trans hservers, hchosen⟩
    · rw [hheaders]
      exact ⟨hservers'.trans hservers, hchosen⟩

theorem OnServer.headerStage (h : OnServer listener servers c) :
    OnServer listener servers (headerStage c) := by
  unfold Webserv.headerStage
  split
  · next hstate =>
    unfold OnServer at h
    rw [hstate] at h
    obtain ⟨hservers, hconfig⟩ := h
    obtain ⟨-, headers, state, code, hloop, hst⟩ := headerLoop_frame (c.readBuffer, c.request)
    unfold parseHeaders afterHeaderLoop
    dsimp only
    split
    · exact onServer_finishHeaders hservers hconfig
    · rw [hloop]
      rcases hst with rfl | rfl
      · exact .of_error hservers rfl
      · unfold OnServer
        dsimp only
        rw [hstate]
        exact ⟨hservers, hconfig⟩
  · exact h

/-! ### The body -/

/-- What reading a body does to the request: nothing to its headers, and it goes on or ends. -/
structure KeepsHeaders (req req' : HttpRequest) : Prop where
  headers : req'.headers = req.headers
  state : req'.parseState = req.parseState ∨ req'.parseState = .complete ∨
    req'.parseState = .error

theorem keepsHeaders_takeBody (buf : ByteQueue) (req : HttpRequest) (n : ℕ) :
    KeepsHeaders req (takeBody buf req n).state.2 := by
  unfold takeBody
  split
  · exact ⟨rfl, Or.inl rfl⟩
  · exact ⟨rfl, Or.inl rfl⟩

theorem keepsHeaders_parseBody (buf : ByteQueue) (req : HttpRequest) :
    KeepsHeaders req (parseBody buf req).state.2 := by
  unfold parseBody
  dsimp only
  split
  · exact ⟨rfl, Or.inl rfl⟩
  · split
    · split
      · exact ⟨rfl, Or.inr (Or.inr rfl)⟩
      · exact keepsHeaders_takeBody buf req _
    · split
      · exact ⟨rfl, Or.inr (Or.inr rfl)⟩
      · have htake := keepsHeaders_takeBody buf req (min (req.contentLength - req.written) buf.size)
        cases ht : takeBody buf req (min (req.contentLength - req.written) buf.size) with
        | bodyLimit s =>
          rw [ht] at htake
          exact htake
        | ok s _ =>
          rw [ht] at htake
          rw [Outcome.andThen_ok, Outcome.state_ok]
          unfold endOfBody
          split
          · exact ⟨htake.headers, Or.inr (Or.inl rfl)⟩
          · exact htake

/-- One stage of the loop over the chunks. -/
theorem keepsHeaders_chunkRound (s : ByteQueue × HttpRequest) :
    match chunkRound s with
    | .inl s' => s'.2.headers = s.2.headers ∧ s'.2.parseState = s.2.parseState
    | .inr o => KeepsHeaders s.2 o.state.2 := by
  obtain ⟨buf, req⟩ := s
  unfold chunkRound
  dsimp only
  by_cases htrailing : req.chunkTrailing = true
  · rw [if_pos htrailing]
    split_ifs
    · exact ⟨rfl, Or.inl rfl⟩
    · exact ⟨rfl, Or.inr (Or.inl rfl)⟩
    · exact ⟨rfl, rfl⟩
  · rw [if_neg htrailing]
    by_cases hsize : req.chunkSize = 0
    · rw [if_pos hsize]
      cases findCrlf buf.items with
      | none => exact ⟨rfl, Or.inl rfl⟩
      | some pos =>
        dsimp only
        split
        · next ho => split at ho <;> cases ho <;> exact ⟨rfl, rfl⟩
        · next ho => split at ho <;> cases ho; exact ⟨rfl, Or.inr (Or.inr rfl)⟩
    · rw [if_neg hsize]
      split_ifs
      · exact ⟨rfl, Or.inl rfl⟩
      · exact ⟨rfl, Or.inr (Or.inr rfl)⟩
      · unfold takeBody
        cases req.body.append (buf.items.take (min req.chunkSize buf.size)) with
        | none => exact ⟨rfl, Or.inl rfl⟩
        | some body =>
          dsimp only
          split_ifs
          · exact ⟨rfl, rfl⟩
          · exact ⟨rfl, rfl⟩

theorem keepsHeaders_parseChunked (buf : ByteQueue) (req : HttpRequest) :
    KeepsHeaders req (parseChunked buf req).state.2 := by
  unfold parseChunked
  refine WhileLoop.loop_induction chunkRound_decreasing
    (P := fun s o => KeepsHeaders s.2 o.state.2) ?leave ?round (buf, req)
  case leave =>
    intro s o ho
    have hround := keepsHeaders_chunkRound s
    rwa [ho] at hround
  case round =>
    intro s s' hs ih
    have hround := keepsHeaders_chunkRound s
    rw [hs] at hround
    exact ⟨ih.headers.trans hround.1, by rw [← hround.2]; exact ih.state⟩

theorem OnServer.feedBody (h : OnServer listener servers c) :
    OnServer listener servers (feedBody c).state := by
  unfold Webserv.feedBody
  split
  · next hbody =>
    dsimp only
    have hkeeps : KeepsHeaders c.request
        ((if c.request.chunked then parseChunked else parseBody)
          c.readBuffer c.request).state.2 := by
      split
      · exact keepsHeaders_parseChunked _ _
      · exact keepsHeaders_parseBody _ _
    unfold OnServer at h
    rw [hbody] at h
    obtain ⟨hservers, hconfig⟩ := h
    have hread : ∀ s : ByteQueue × HttpRequest, KeepsHeaders c.request s.2 →
        OnServer listener servers { c with readBuffer := s.1, request := s.2 } := by
      intro s hs
      unfold OnServer
      dsimp only
      rw [hs.headers]
      rcases hs.state with hstate | hstate | hstate <;> rw [hstate]
      · rw [hbody]
        exact ⟨hservers, hconfig⟩
      · exact ⟨hservers, hconfig⟩
      · exact ⟨hservers, trivial⟩
    cases hr : (if c.request.chunked then parseChunked else parseBody) c.readBuffer c.request with
    | ok s _ =>
      rw [hr] at hkeeps
      exact hread s hkeeps
    | bodyLimit s =>
      rw [hr] at hkeeps
      exact hread s hkeeps
  · exact h

/-- **The parser keeps a connection on its server.** -/
theorem OnServer.feed (h : OnServer listener servers c) (stat : StatAnswer) :
    OnServer listener servers (feed stat c).state := by
  unfold Webserv.feed
  split
  · exact h
  · exact (h.requestLineStage stat).headerStage.applyLocationBodyLimit.feedBody

end

end Webserv
