import Webserv.Cgi.Environment

/-!
# The name of the server in the environment

The parser takes the port off a Host value by its grammar, and the environment takes a port off
once more, by the last colon.  The second cut finds a colon only inside of an address literal.

## Main results

* `lookup_metaVariable` — what a script finds under the name of a variable that is no header.
* `serverName_iff` — **when `SERVER_NAME` is the host that was validated.**
-/

namespace Webserv

open Bytes Assignments

/-! ### One variable -/

/-- The variable of a header is found under no other name. -/
theorem nameOf_httpVariable (key value : Bytes) :
    ascii "HTTP_" <+: nameOf 61 (entry 61 (httpVariable key) value) := by
  have hplain : ∀ b ∈ ascii "HTTP_", decide (b ≠ 61) = true :=
    List.all_eq_true.mp (by decide)
  rw [nameOf, entry, httpVariable, List.append_assoc, List.takeWhile_append_of_pos hplain]
  exact List.prefix_append _ _

/-- **A variable that is no header** is found once, with its value. -/
theorem lookup_metaVariable {req : HttpRequest} {server : Server} {scriptPath clientIp : Bytes}
    {p : Bytes × Bytes} (hp : p ∈ metaVariables req server scriptPath clientIp) :
    lookup 61 (buildCgiEnvironment req server scriptPath clientIp) p.1 = [p.2] := by
  have hsublist := metaVariables_sublist req server scriptPath clientIp
  have hname : ∀ q ∈ metaVariables req server scriptPath clientIp, q.1 ∈ metaNames :=
    fun q hq => hsublist.subset (List.mem_map_of_mem hq)
  have hheaders : lookup 61 (((ownHeaders req).map fun header =>
      (httpVariable header.1, header.2)).map fun q => entry 61 q.1 q.2) p.1 = [] := by
    refine lookup_eq_nil ?_
    simp only [List.forall_mem_map]
    intro header _ heq
    refine (metaNames_spec.2 p.1 (hname p hp)).2 ?_
    rw [← heq]
    exact nameOf_httpVariable header.1 header.2
  rw [buildCgiEnvironment, List.map_append, lookup_append, hheaders, List.append_nil]
  exact lookup_entry (fun q hq => (metaNames_spec.2 q.1 (hname q hq)).1)
    (metaNames_spec.1.sublist hsublist) hp

theorem lookup_serverName (req : HttpRequest) (server : Server) (scriptPath clientIp : Bytes) :
    lookup 61 (buildCgiEnvironment req server scriptPath clientIp) (ascii "SERVER_NAME") =
      [cgiServerName req server] := by
  refine lookup_metaVariable (p := (ascii "SERVER_NAME", cgiServerName req server)) ?_
  simp [metaVariables]

/-! ### The host that is stored -/

/-- A Host value that is an address literal with a colon in it, whatever the port. -/
def IsColonLiteral (raw : Bytes) : Prop :=
  ∃ s text, raw = LBRACKET :: s ++ RBRACKET :: text ∧ RBRACKET ∉ s ∧ COLON ∈ s

/-- The host that a value is made into has a colon in it only where the value is such a literal. -/
theorem colon_mem_host_iff {raw host : Bytes} {port : ℕ}
    (hvalid : validateHost raw = some (host, port)) : COLON ∈ host ↔ IsColonLiteral raw := by
  obtain ⟨name, text, rfl, hhost, -, -, rfl⟩ := validateHost_iff.mp hvalid
  have hlower : ∀ s, COLON ∈ strTolower s ↔ COLON ∈ s := by
    intro s
    simp [strTolower, toLower_eq_COLON_iff]
  rw [hlower]
  cases hhost with
  | @literal s hchars _ =>
    have hclose := RBRACKET_notMem hchars
    have hmem : COLON ∈ LBRACKET :: s ++ [RBRACKET] ↔ COLON ∈ s := by
      simp [show COLON ≠ LBRACKET by decide, show COLON ≠ RBRACKET by decide]
    rw [dropFinalDot_literal, hmem]
    constructor
    · exact fun h => ⟨s, text, by simp, hclose, h⟩
    · rintro ⟨s', text', heq, hclose', hcolon⟩
      -- the first closing bracket is the same one
      have heq' : entry RBRACKET s text = entry RBRACKET s' text' := by simpa [entry] using heq
      have hsame := congrArg (nameOf RBRACKET) heq'
      rw [nameOf_entry hclose, nameOf_entry hclose'] at hsame
      rwa [hsame]
  | name hchars _ hne =>
    constructor
    · intro h
      have hcolon := hchars COLON ((prefix_dropFinalDot name).subset h)
      rw [isHostChar_COLON] at hcolon
      cases hcolon
    · rintro ⟨s, rest, heq, -, -⟩
      -- a name does not begin with a bracket
      obtain ⟨b, t, rfl⟩ := List.exists_cons_of_ne_nil (l := name) fun h => hne (by rw [h]; rfl)
      have hb := hchars b List.mem_cons_self
      rw [List.cons_append, List.cons_append, List.cons.injEq] at heq
      rw [heq.1, isHostChar_LBRACKET] at hb
      cases hb

/-- What `_parseHeaders` stores of a Host value that is valid. -/
theorem header_host_parseHeaders {c : Connection} {raw host : Bytes} {port : ℕ}
    (hblank : (headerLoop (c.readBuffer, c.request)).2 = true)
    (hraw : (headerLoop (c.readBuffer, c.request)).1.2.headers[ascii "host"]? = some raw)
    (hvalid : validateHost raw = some (host, port)) :
    (parseHeaders c).request.headers[ascii "host"]? = some host := by
  have hchecks : ∀ c' : Connection, c'.request.headers[ascii "host"]? = some raw →
      (hostChecks c').request.headers[ascii "host"]? = some host := by
    intro c' hraw'
    unfold hostChecks
    simp only [hraw', hvalid]
    exact Std.TreeMap.getElem?_insert_self
  unfold parseHeaders afterHeaderLoop
  rw [if_pos hblank]
  unfold finishHeaders
  dsimp only
  split
  · exact hchecks _ hraw
  · dsimp only
    rw [headers_framing]
    exact hchecks _ hraw

/-! ### The name -/

/-- The name of the server is the host when no colon is in it. -/
theorem cgiServerName_eq_iff {req : HttpRequest} {host : Bytes}
    (hhost : req.header (ascii "host") = host) (hne : host ≠ []) (server : Server) :
    cgiServerName req server = host ↔ COLON ∉ host := by
  have hfull : host.isEmpty = false := by simpa using hne
  unfold cgiServerName
  simp only [hhost, hfull, Bool.false_eq_true, if_false]
  cases hcolon : findLast COLON host with
  | none => simp [findLast_eq_none_iff.mp hcolon]
  | some i =>
    obtain ⟨front, t, rfl, -, rfl⟩ := findLast_eq_some_iff.mp hcolon
    simp

/-- **When `SERVER_NAME` is the host that was validated.** -/
theorem serverName_iff {c : Connection} {raw host : Bytes} {port : ℕ}
    (hblank : (headerLoop (c.readBuffer, c.request)).2 = true)
    (hraw : (headerLoop (c.readBuffer, c.request)).1.2.headers[ascii "host"]? = some raw)
    (hvalid : validateHost raw = some (host, port)) {req : HttpRequest}
    (hreq : req.headers = (parseHeaders c).request.headers) (server : Server)
    (scriptPath clientIp : Bytes) :
    lookup 61 (buildCgiEnvironment req server scriptPath clientIp) (ascii "SERVER_NAME") = [host] ↔
      ¬ IsColonLiteral raw := by
  have hstored : req.header (ascii "host") = host := by
    rw [HttpRequest.header, hreq, Std.TreeMap.getD_eq_getD_getElem?,
      header_host_parseHeaders hblank hraw hvalid]
    rfl
  have hne : host ≠ [] := by
    obtain ⟨name, text, -, hhost, -, -, rfl⟩ := validateHost_iff.mp hvalid
    rw [strTolower, ne_eq, List.map_eq_nil_iff]
    exact hhost.dropFinalDot_ne_nil
  rw [lookup_serverName, List.singleton_inj, cgiServerName_eq_iff hstored hne,
    colon_mem_host_iff hvalid]

/-- A request for a script on a host. -/
private def askingHost (host : String) : Connection :=
  { Connection.new 5 Server.empty 0 with
    readBuffer := ⟨fieldText [ascii "Host: " ++ ascii host] ++ crlf, 8192⟩
    request := { HttpRequest.new 10 with
      parseState := .headers, method := ascii "GET", version := ascii "HTTP/1.1" } }

theorem serverName_name :
    lookup 61 (buildCgiEnvironment (parseHeaders (askingHost "A.example:8080")).request
      Server.empty (ascii "/cgi/a.py") (ascii "10.0.0.1")) (ascii "SERVER_NAME") =
        [ascii "a.example"] := by
  refine (@serverName_iff (askingHost "A.example:8080") (ascii "A.example:8080") _ 8080
    ?_ ?_ ?_ _ rfl _ _ _).mpr ?_
  · decide +kernel
  · decide +kernel
  · decide
  · rintro ⟨s, text, heq, -, -⟩
    have hhead := congrArg List.head? heq
    rw [List.cons_append, List.head?_cons] at hhead
    exact absurd hhead (by decide)

/-- **The address of a literal is cut**: for the Host value `[::1]` the variable is `[:`. -/
theorem not_serverName : ¬ ∀ (c : Connection) (raw host : Bytes) (port : ℕ) (server : Server)
    (scriptPath clientIp : Bytes), (headerLoop (c.readBuffer, c.request)).2 = true →
      (headerLoop (c.readBuffer, c.request)).1.2.headers[ascii "host"]? = some raw →
        validateHost raw = some (host, port) →
          lookup 61 (buildCgiEnvironment (parseHeaders c).request server scriptPath clientIp)
            (ascii "SERVER_NAME") = [host] := by
  intro h
  have hname := h (askingHost "[::1]") (ascii "[::1]") (ascii "[::1]") 0 Server.empty
    (ascii "/cgi/a.py") (ascii "10.0.0.1") (by decide +kernel) (by decide +kernel) (by decide)
  exact absurd hname (by decide +kernel)

end Webserv
