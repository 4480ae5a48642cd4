import Mathlib.Tactic.Linarith
import Webserv.Lib.Bytes

/-!
# Server and location configuration

The values the configuration parser hands to the server, `Location` and `Server`,
with the accessors that compute: the body limits, which are stored signed and
read as `size_t`, and `matchLocation`, which picks the location of a path.
-/

namespace Webserv

open Bytes

/-- A signed 64-bit value read as a `size_t`. -/
def sizeOfSigned (n : ℤ) : ℕ := (n % 2 ^ 64).toNat

/-- A `location` block. -/
structure Location where
  path : Bytes
  root : Bytes
  indexFiles : List Bytes
  autoindex : Bool
  allowedMethods : List Bytes
  /-- Interpreter by extension. -/
  cgiMap : Std.TreeMap Bytes Bytes
  upload : Bytes
  returnCode : ℤ
  returnValue : Bytes
  clientMaxBodySize : ℤ
  redirectEnabled : Bool

/-- A `server` block, `ServerConfig` to the rest of the program. -/
structure Server where
  host : Bytes
  port : ℤ
  timeoutSeconds : ℤ
  root : Bytes
  clientMaxBodySize : ℤ
  indexFiles : List Bytes
  serverName : Bytes
  /-- Error page file by status code. -/
  errorPage : Std.TreeMap ℕ Bytes
  locations : List Location

/-- `Location()`. -/
def Location.empty : Location where
  path := []
  root := []
  indexFiles := []
  autoindex := false
  allowedMethods := []
  cgiMap := ∅
  upload := []
  returnCode := -1
  returnValue := []
  clientMaxBodySize := 0
  redirectEnabled := false

/-- `Server()`. -/
def Server.empty : Server where
  host := []
  port := -1
  timeoutSeconds := 0
  root := []
  clientMaxBodySize := 0
  indexFiles := []
  serverName := []
  errorPage := ∅
  locations := []

/-- `Location::getClientMaxBodySize`. -/
def Location.getClientMaxBodySize (l : Location) : ℕ := sizeOfSigned l.clientMaxBodySize

/-- `Server::getMaxBody`. -/
def Server.getMaxBody (s : Server) : ℕ := sizeOfSigned s.clientMaxBodySize

/-! ### Choosing a location -/

/-- A path without its trailing slash, unless it is that slash alone. -/
def dropTrailingSlash (p : Bytes) : Bytes :=
  if 1 < p.length && p.getLast? = some SLASH then p.dropLast else p

/-- The test `matchLocation` makes for one location. -/
def Location.covers (l : Location) (path : Bytes) : Bool :=
  let locPath := dropTrailingSlash l.path
  let reqPath := dropTrailingSlash path
  !l.path.isEmpty &&
    (reqPath == locPath ||
      (locPath.isPrefixOf reqPath && reqPath[locPath.length]? == some SLASH))

/-- `Server::matchLocation`: of the locations that cover the path, the first
whose path is longest. -/
def Server.matchLocation (s : Server) (path : Bytes) : Option Location :=
  s.locations.foldl
    (fun best l =>
      if l.covers path && (best.elim 0 fun b => b.path.length) < l.path.length then some l
      else best)
    none

/-- A location that is chosen is one of the server's, and covers the path. -/
theorem Server.mem_of_matchLocation {s : Server} {path : Bytes} {l : Location}
    (h : s.matchLocation path = some l) : l ∈ s.locations ∧ l.covers path = true := by
  have hfold : ∀ (ls : List Location) (best : Option Location),
      ls.foldl (fun best l =>
        if l.covers path && (best.elim 0 fun b => b.path.length) < l.path.length then some l
        else best) best = some l →
      (l ∈ ls ∧ l.covers path = true) ∨ best = some l := by
    intro ls
    induction ls with
    | nil => intro best hb; exact Or.inr hb
    | cons x ls ih =>
      intro best hb
      rw [List.foldl_cons] at hb
      rcases ih _ hb with ⟨hmem, hcov⟩ | hstep
      · exact Or.inl ⟨List.mem_cons_of_mem _ hmem, hcov⟩
      · split at hstep
        · next hx =>
          rw [Option.some.injEq] at hstep
          subst hstep
          rw [Bool.and_eq_true] at hx
          exact Or.inl ⟨List.mem_cons_self, hx.1⟩
        · exact Or.inr hstep
  rcases hfold s.locations none h with h | h
  · exact h
  · exact absurd h (by simp)

end Webserv
