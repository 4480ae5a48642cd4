import Webserv.HttpParser.Headers

/-!
# Choosing a server by its name

The Host header of a request chooses among all server blocks of the program, those of
other listeners included.  `validate_final_config` has made sure that no two blocks with
one port have one name.

## Main results

* `hostSelectsHere_iff` — when the Host header leaves a connection on its listener.
-/

namespace Webserv

open Bytes

/-- The check of `validate_final_config` on ports and names; `seen` are the pairs that have
been there. -/
def virtualServersUnique (seen : List (ℤ × Bytes)) : List Server → Bool
  | [] => true
  | s :: servers =>
      !seen.contains (s.port, s.serverName) &&
        virtualServersUnique ((s.port, s.serverName) :: seen) servers

/-- Servers with one port and one name are one server. -/
theorem eq_of_virtualServersUnique : ∀ {servers : List Server} {seen : List (ℤ × Bytes)},
    virtualServersUnique seen servers = true →
      (∀ s ∈ servers, (s.port, s.serverName) ∉ seen) ∧
        ∀ s ∈ servers, ∀ t ∈ servers, s.port = t.port → s.serverName = t.serverName → s = t := by
  intro servers
  induction servers with
  | nil => exact fun _ => ⟨fun s hs => absurd hs List.not_mem_nil, fun s hs =>
    absurd hs List.not_mem_nil⟩
  | cons s servers ih =>
    intro seen h
    rw [virtualServersUnique, Bool.and_eq_true, Bool.not_eq_true'] at h
    obtain ⟨hseen, hrest⟩ := h
    have hs : (s.port, s.serverName) ∉ seen := by
      rw [← List.contains_iff_mem, hseen]
      exact Bool.false_ne_true
    obtain ⟨hfresh, hunique⟩ := ih hrest
    -- none of the others has the pair of the first
    have hother : ∀ t ∈ servers, s.port = t.port → s.serverName ≠ t.serverName := by
      intro t ht hport hname
      apply hfresh t ht
      rw [← hport, ← hname]
      exact List.mem_cons_self
    constructor
    · intro t ht
      rcases List.mem_cons.mp ht with rfl | ht
      · exact hs
      · exact fun hmem => hfresh t ht (List.mem_cons_of_mem _ hmem)
    · intro t ht u hu hport hname
      rcases List.mem_cons.mp ht with rfl | ht'
      · rcases List.mem_cons.mp hu with rfl | hu'
        · rfl
        · exact absurd hname (hother u hu' hport)
      · rcases List.mem_cons.mp hu with rfl | hu'
        · exact absurd hname.symm (hother t ht' hport.symm)
        · exact hunique t ht' u hu' hport hname

/-- The Host header selects the server with its name on the host and port of the
connection, and otherwise leaves the configuration as it is. -/
structure HostSelectsHere (c : Connection) (name : Bytes) : Prop where
  host : (overrideHost c name).config.host = c.config.host
  port : (overrideHost c name).config.port = c.config.port
  selected : ∀ s ∈ c.configuration, s.host = c.config.host → s.port = c.config.port →
    s.serverName = name → (overrideHost c name).config = s
  unchanged : (∀ s ∈ c.configuration, s.host = c.config.host → s.port = c.config.port →
    s.serverName ≠ name) → (overrideHost c name).config = c.config

/-- The server is the first that is declared with the name. -/
def FirstNamed (servers : List Server) (name : Bytes) (s : Server) : Prop :=
  ∃ before behind, servers = before ++ s :: behind ∧ s.serverName = name ∧
    ∀ t ∈ before, t.serverName ≠ name

/-- What `override_host` does. -/
theorem config_overrideHost (c : Connection) (name : Bytes) :
    (∃ s, FirstNamed c.configuration name s ∧ (overrideHost c name).config = s) ∨
      (∀ s ∈ c.configuration, s.serverName ≠ name) ∧ (overrideHost c name).config = c.config := by
  unfold overrideHost
  cases h : c.configuration.find? (fun s => s.serverName == name) with
  | none =>
    right
    refine ⟨fun s hs => ?_, rfl⟩
    have hno := List.find?_eq_none.mp h s hs
    simpa using hno
  | some s =>
    left
    obtain ⟨hname, before, behind, heq, hbefore⟩ := List.find?_eq_some_iff_append.mp h
    refine ⟨s, ⟨before, behind, heq, by simpa using hname, fun t ht => ?_⟩, rfl⟩
    have hno := hbefore t ht
    simpa using hno

/-- **When the Host header leaves a connection on its listener**: when the first server
that is declared with the name stands on the connection's host and port. -/
theorem hostSelectsHere_iff {c : Connection}
    (hunique : virtualServersUnique [] c.configuration = true)
    (name : Bytes) :
    HostSelectsHere c name ↔
      ∀ s, FirstNamed c.configuration name s → s.host = c.config.host ∧ s.port = c.config.port := by
  have hsame := (eq_of_virtualServersUnique hunique).2
  constructor
  · rintro h s ⟨before, behind, heq, hname, hbefore⟩
    rcases config_overrideHost c name with
      ⟨t, ⟨before', behind', heq', hname', hbefore'⟩, hconfig⟩ |
        ⟨hnone, -⟩
    · -- the first server with the name is one
      have hfind : ∀ {before s behind}, c.configuration = before ++ s :: behind →
          s.serverName = name → (∀ t ∈ before, t.serverName ≠ name) →
            c.configuration.find? (fun s => s.serverName == name) = some s := by
        intro before s behind heq hname hbefore
        exact List.find?_eq_some_iff_append.mpr
          ⟨by simpa using hname, before, behind, heq, fun t ht => by simpa using hbefore t ht⟩
      have hst : some s = some t := (hfind heq hname hbefore).symm.trans
        (hfind heq' hname' hbefore')
      rw [Option.some.inj hst, ← hconfig]
      exact ⟨h.host, h.port⟩
    · exact absurd hname (hnone s (by rw [heq]; exact List.mem_append_right _ List.mem_cons_self))
  · intro h
    rcases config_overrideHost c name with ⟨s, hfirst, hconfig⟩ | ⟨hnone, hconfig⟩
    · obtain ⟨hhost, hport⟩ := h s hfirst
      obtain ⟨before, behind, heq, hname, -⟩ := hfirst
      have hmem : s ∈ c.configuration := by
        rw [heq]
        exact List.mem_append_right _ List.mem_cons_self
      constructor
      · rw [hconfig, hhost]
      · rw [hconfig, hport]
      · intro t ht _ hport' hname'
        rw [hconfig]
        exact hsame s hmem t ht (hport.trans hport'.symm) (hname.trans hname'.symm)
      · intro hnone
        exact absurd hname (hnone s hmem hhost hport)
    · constructor
      · rw [hconfig]
      · rw [hconfig]
      · intro t ht _ _ hname
        exact absurd hname (hnone t ht)
      · exact fun _ => hconfig

/-- A server with a name on a port. -/
private def named (name : String) (port : ℤ) : Server :=
  { Server.empty with host := ascii "127.0.0.1", port := port, serverName := ascii name }

/-- A connection to port 80, of a program with three servers. -/
private def onPort80 : Connection :=
  { Connection.new 5 (named "a" 80) 0 with
    configuration := [named "a" 80, named "b" 8080, named "b" 80] }

/-- A name that is first declared on the connection's port. -/
theorem hostSelectsHere_first : HostSelectsHere onPort80 (ascii "a") := by
  refine (hostSelectsHere_iff (by decide) _).mpr ?_
  rintro s ⟨before, behind, heq, hname, hbefore⟩
  cases before with
  | nil =>
    obtain ⟨rfl, -⟩ := List.cons.inj heq
    exact ⟨rfl, rfl⟩
  | cons t before =>
    obtain ⟨rfl, -⟩ := List.cons.inj heq
    exact absurd rfl (hbefore _ List.mem_cons_self)

/-- **A name that is also there on another port** takes the connection away from its own. -/
theorem not_hostSelectsHere_port : virtualServersUnique [] onPort80.configuration = true ∧
    (overrideHost onPort80 (ascii "b")).config.port = 8080 ∧
    ¬ HostSelectsHere onPort80 (ascii "b") := by
  have hport : (overrideHost onPort80 (ascii "b")).config.port = 8080 := by decide
  refine ⟨by decide, hport, fun h => ?_⟩
  have hkept := h.port
  rw [hport] at hkept
  exact absurd hkept (by decide)

end Webserv
