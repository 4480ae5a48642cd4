import Webserv.Config

/-!
# Listeners and their servers

Every server block has a listening socket of its own, in the order of declaration.  A
connection starts under the server that `_configForServer` finds for the socket it was
accepted on.  The search compares hosts and goes on after a match, so that it ends at
the last server before the socket's own that has its host.

## Main results

* `configForServer_eq` — where the search ends.
* `ownDefaults_iff` — when every socket has the default server of its host and port.
-/

namespace Webserv

/-! ### A loop that overwrites its result -/

/-- A loop over the numbers below `n` that overwrites its result at every match. -/
def overwrite {β : Type} (p : ℕ → Bool) (f : ℕ → β) (init : β) (n : ℕ) : β :=
  (List.range n).foldl (fun found j => if p j then f j else found) init

theorem overwrite_succ {β : Type} (p : ℕ → Bool) (f : ℕ → β) (init : β) (n : ℕ) :
    overwrite p f init (n + 1) = if p n then f n else overwrite p f init n := by
  unfold overwrite
  rw [List.range_succ, List.foldl_append]
  rfl

/-- The result is that of the last match. -/
theorem overwrite_cases {β : Type} (p : ℕ → Bool) (f : ℕ → β) (init : β) (n : ℕ) :
    (overwrite p f init n = init ∧ ∀ j < n, p j = false) ∨
      ∃ m < n, overwrite p f init n = f m ∧ p m = true ∧ ∀ j < n, p j = true → j ≤ m := by
  induction n with
  | zero => exact Or.inl ⟨rfl, fun j hj => absurd hj (Nat.not_lt_zero j)⟩
  | succ n ih =>
    rw [overwrite_succ]
    split
    · next hp => exact Or.inr ⟨n, Nat.lt_succ_self n, rfl, hp, fun j hj _ => Nat.le_of_lt_succ hj⟩
    · next hp =>
      rcases ih with ⟨hinit, hnone⟩ | ⟨m, hm, hf, hpm, hlast⟩
      · left
        refine ⟨hinit, fun j hj => ?_⟩
        rcases Nat.lt_succ_iff_lt_or_eq.mp hj with hj | rfl
        · exact hnone j hj
        · exact Bool.eq_false_iff.mpr hp
      · right
        refine ⟨m, Nat.lt_succ_of_lt hm, hf, hpm, fun j hj hpj => ?_⟩
        rcases Nat.lt_succ_iff_lt_or_eq.mp hj with hj | rfl
        · exact hlast j hj hpj
        · exact absurd hpj hp

/-! ### The search -/

/-- A listening socket, and the server block it was registered with. -/
structure Listener where
  fd : ℕ
  server : Server

/-- The two have one host. -/
def sameHost (ls : List Listener) (i j : ℕ) : Prop :=
  (ls[i]?).map (·.server.host) = (ls[j]?).map (·.server.host)

/-- The two have one port. -/
def samePort (ls : List Listener) (i j : ℕ) : Prop :=
  (ls[i]?).map (·.server.port) = (ls[j]?).map (·.server.port)

instance (ls : List Listener) (i j : ℕ) : Decidable (sameHost ls i j) :=
  inferInstanceAs (Decidable (_ = _))

instance (ls : List Listener) (i j : ℕ) : Decidable (samePort ls i j) :=
  inferInstanceAs (Decidable (_ = _))

/-- `_configForServer`: the index of the server whose configuration it returns. -/
def configForServer (ls : List Listener) (fd : ℕ) : Option ℕ :=
  overwrite (fun i => (ls[i]?).map (·.fd) = some fd)
    (fun i => some (overwrite (fun j => i ≠ j ∧ sameHost ls i j ∧ j < i) id i ls.length))
    none ls.length

/-- The first server in the order of declaration that has the host and the port of
the `i`-th. -/
def defaultServer (ls : List Listener) (i : ℕ) : ℕ :=
  (List.range ls.length).findIdx fun j => sameHost ls i j ∧ samePort ls i j

/-- Every socket has the default server of its host and port; sockets on different ports
have different servers, and those on one host and port the same. -/
structure OwnDefaults (ls : List Listener) : Prop where
  default : ∀ i (hi : i < ls.length), configForServer ls ls[i].fd = some (defaultServer ls i)
  ports : ∀ i j (hi : i < ls.length) (hj : j < ls.length), ¬ samePort ls i j →
    configForServer ls ls[i].fd ≠ configForServer ls ls[j].fd
  shared : ∀ i j (hi : i < ls.length) (hj : j < ls.length), sameHost ls i j → samePort ls i j →
    configForServer ls ls[i].fd = configForServer ls ls[j].fd

/-- Two servers with one host have one port, and no third server has the host. -/
def HostsApart (ls : List Listener) : Prop :=
  ∀ i j, i < j → j < ls.length → sameHost ls i j →
    samePort ls i j ∧ ∀ k < ls.length, sameHost ls i k → k = i ∨ k = j

/-- **Where the search ends**: at the last server in front that has the host, or, if there
is none, at the socket's own. -/
theorem configForServer_eq {ls : List Listener} (hfds : (ls.map (·.fd)).Nodup) {i : ℕ}
    (hi : i < ls.length) :
    (configForServer ls ls[i].fd = some i ∧ ∀ j < i, ¬ sameHost ls i j) ∨
      ∃ m < i, configForServer ls ls[i].fd = some m ∧ sameHost ls i m ∧
        ∀ j < i, sameHost ls i j → j ≤ m := by
  have hget : ∀ j (hj : j < ls.length), (ls[j]?).map (·.fd) = some ls[i].fd → j = i := by
    intro j hj h
    rw [List.getElem?_eq_getElem hj, Option.map_some, Option.some.injEq] at h
    have hj' : j < (ls.map (·.fd)).length := by simpa using hj
    have hi' : i < (ls.map (·.fd)).length := by simpa using hi
    have hmap : (ls.map (·.fd))[j] = (ls.map (·.fd))[i] := by simpa using h
    exact (List.Nodup.getElem_inj_iff hfds).mp hmap
  -- the socket is found once
  have houter : configForServer ls ls[i].fd =
      some (overwrite (fun j => i ≠ j ∧ sameHost ls i j ∧ j < i) id i ls.length) := by
    unfold configForServer
    rcases overwrite_cases (fun j => (ls[j]?).map (·.fd) = some ls[i].fd)
      (fun i => some (overwrite (fun j => i ≠ j ∧ sameHost ls i j ∧ j < i) id i ls.length))
      none ls.length with ⟨-, hnone⟩ | ⟨m, hm, heq, hp, -⟩
    · have hself := hnone i hi
      simp [hi] at hself
    · rw [decide_eq_true_eq] at hp
      rw [heq, hget m hm hp]
  rw [houter]
  rcases overwrite_cases (fun j => i ≠ j ∧ sameHost ls i j ∧ j < i) id i ls.length with
    ⟨heq, hnone⟩ | ⟨m, hm, heq, hp, hlast⟩
  · left
    refine ⟨by rw [heq], fun j hj hsame => ?_⟩
    have hno := hnone j (hj.trans hi)
    rw [decide_eq_false_iff_not] at hno
    exact hno ⟨Nat.ne_of_gt hj, hsame, hj⟩
  · right
    rw [decide_eq_true_eq] at hp
    refine ⟨m, hp.2.2, by rw [heq]; rfl, hp.2.1, fun j hj hsame => ?_⟩
    exact hlast j (hj.trans hi) (decide_eq_true ⟨Nat.ne_of_gt hj, hsame, hj⟩)

/-! ### The default server -/

/-- What `defaultServer` finds. -/
theorem defaultServer_spec {ls : List Listener} {i : ℕ} (hi : i < ls.length) :
    defaultServer ls i ≤ i ∧ sameHost ls i (defaultServer ls i) ∧
      samePort ls i (defaultServer ls i) ∧
      ∀ j, sameHost ls i j → samePort ls i j → defaultServer ls i ≤ j := by
  have hself : sameHost ls i i ∧ samePort ls i i := ⟨rfl, rfl⟩
  have hleast : ∀ j < ls.length, sameHost ls i j → samePort ls i j → defaultServer ls i ≤ j := by
    intro j hj hhost hport
    by_contra hlt
    have hnot := List.not_of_lt_findIdx (Nat.lt_of_not_le hlt)
    rw [List.getElem_range] at hnot
    exact of_decide_eq_false hnot ⟨hhost, hport⟩
  have hle := hleast i hi hself.1 hself.2
  have hlength : defaultServer ls i < (List.range ls.length).length := by
    rw [List.length_range]
    exact Nat.lt_of_le_of_lt hle hi
  have hfound : decide (sameHost ls i (List.range ls.length)[defaultServer ls i] ∧
      samePort ls i (List.range ls.length)[defaultServer ls i]) = true :=
    @List.findIdx_getElem _ (fun j => decide (sameHost ls i j ∧ samePort ls i j)) _ hlength
  rw [List.getElem_range, decide_eq_true_eq] at hfound
  refine ⟨hle, hfound.1, hfound.2, fun j hhost hport => ?_⟩
  by_cases hj : j < ls.length
  · exact hleast j hj hhost hport
  · exact hle.trans (hi.le.trans (Nat.le_of_not_lt hj))

/-- Hosts that keep apart are found again by their own sockets. -/
theorem OwnDefaults.of_hostsApart {ls : List Listener} (hfds : (ls.map (·.fd)).Nodup)
    (h : HostsApart ls) : OwnDefaults ls := by
  have hdefault : ∀ i (hi : i < ls.length),
      configForServer ls ls[i].fd = some (defaultServer ls i) := by
    intro i hi
    obtain ⟨hle, hhost, hport, hleast⟩ := defaultServer_spec hi
    rcases configForServer_eq hfds hi with ⟨heq, hnone⟩ | ⟨m, hm, heq, hsame, -⟩
    · -- no server in front has the host
      rcases Nat.lt_or_eq_of_le hle with hlt | hself
      · exact absurd hhost (hnone _ hlt)
      · rw [heq, hself]
    · obtain ⟨hports, honly⟩ := h m i hm hi hsame.symm
      have hfront := hleast m hsame hports.symm
      rcases honly _ (Nat.lt_of_le_of_lt hle hi) (hsame.symm.trans hhost) with hself | hself
      · rw [heq, hself]
      · omega
  refine ⟨hdefault, ?_, ?_⟩
  · intro i j hi hj hports heq
    rw [hdefault i hi, hdefault j hj, Option.some.injEq] at heq
    have hi' := (defaultServer_spec hi).2.2.1
    rw [heq] at hi'
    exact hports (hi'.trans (defaultServer_spec hj).2.2.1.symm)
  · intro i j hi hj hhost hport
    obtain ⟨-, hhosti, hporti, hleasti⟩ := defaultServer_spec hi
    obtain ⟨-, hhostj, hportj, hleastj⟩ := defaultServer_spec hj
    rw [hdefault i hi, hdefault j hj, Option.some.injEq]
    exact Nat.le_antisymm (hleasti _ (hhost.trans hhostj) (hport.trans hportj))
      (hleastj _ (hhost.symm.trans hhosti) (hport.symm.trans hporti))

/-- Of three servers with one host, the last has not its own default. -/
theorem OwnDefaults.not_three {ls : List Listener} (hfds : (ls.map (·.fd)).Nodup)
    (h : OwnDefaults ls) {a b c : ℕ} (hab : a < b) (hbc : b < c) (hc : c < ls.length)
    (hb : sameHost ls a b) (hac : sameHost ls a c) : False := by
  -- the search for `c` ends at `m`, in front of `c` and not in front of `b`
  have hback : sameHost ls c b := hac.symm.trans hb
  obtain ⟨m, hm, heq, hsame, hlast⟩ := (configForServer_eq hfds hc).resolve_left
    fun hnone => hnone.2 b hbc hback
  rw [h.default c hc, Option.some.injEq] at heq
  obtain ⟨-, -, hport, hleast⟩ := defaultServer_spec hc
  rw [heq] at hport hleast
  have hbm := hlast b hbc hback
  -- so `a` is in front of `m`, and the search for `m` ends at another server of its port
  have hml : m < ls.length := hm.trans hc
  have hma : sameHost ls m a := hsame.symm.trans hac.symm
  obtain ⟨m', hm', heq', hsame', -⟩ := (configForServer_eq hfds hml).resolve_left
    fun hnone => hnone.2 a (by omega) hma
  rw [h.default m hml, Option.some.injEq] at heq'
  have hport' := (defaultServer_spec hml).2.2.1
  rw [heq'] at hport'
  have hfront := hleast m' (hsame.trans hsame') (hport.trans hport')
  omega

/-- **When every socket has the default server of its host and port**: when no three
servers share a host, and two that do share the port. -/
theorem ownDefaults_iff {ls : List Listener} (hfds : (ls.map (·.fd)).Nodup) :
    OwnDefaults ls ↔ HostsApart ls := by
  constructor
  · intro h i j hij hj hsame
    have hthird : ∀ k < ls.length, sameHost ls i k → k = i ∨ k = j := by
      intro k hk hik
      by_contra hne
      rw [not_or] at hne
      rcases Nat.lt_or_gt_of_ne hne.1 with hki | hki
      · exact h.not_three hfds hki hij hj hik.symm (hik.symm.trans hsame)
      · rcases Nat.lt_or_gt_of_ne hne.2 with hkj | hkj
        · exact h.not_three hfds hki hkj hj hik hsame
        · exact h.not_three hfds hij hkj hk hsame hik
    refine ⟨?_, hthird⟩
    -- the search for `j` ends at `i`, which is then the default of `j`
    obtain ⟨m, hm, heq, hjm, -⟩ := (configForServer_eq hfds hj).resolve_left
      fun hnone => hnone.2 i hij hsame.symm
    rw [h.default j hj, Option.some.injEq] at heq
    have hport := (defaultServer_spec hj).2.2.1
    rw [heq] at hport
    rcases hthird m (hm.trans hj) (hsame.trans hjm) with rfl | rfl
    · exact hport.symm
    · exact absurd hm (Nat.lt_irrefl _)
  · exact OwnDefaults.of_hostsApart hfds

/-- A server at an address. -/
private def on (host : String) (port : ℤ) : Server :=
  { Server.empty with host := Bytes.ascii host, port := port }

/-- Two hosts, one of them with two servers on one port. -/
private def twoHosts : List Listener :=
  [⟨3, on "127.0.0.1" 80⟩, ⟨4, on "127.0.0.1" 80⟩, ⟨5, on "::1" 8080⟩]

theorem ownDefaults_two : OwnDefaults twoHosts := by
  have hpair : ∀ j < 3, ∀ i < j, sameHost twoHosts i j → i = 0 ∧ j = 1 := by decide
  have honly : ∀ k < 3, sameHost twoHosts 0 k → k = 0 ∨ k = 1 := by decide
  refine (ownDefaults_iff (by decide)).mpr fun i j hij hj hsame => ?_
  obtain ⟨rfl, rfl⟩ := hpair j hj i hij hsame
  exact ⟨by decide, honly⟩

/-- **One host on two ports**: the socket of the second is given the server of the first. -/
theorem not_ownDefaults_ports :
    configForServer [⟨3, on "127.0.0.1" 80⟩, ⟨4, on "127.0.0.1" 8080⟩] 4 = some 0 ∧
      ¬ OwnDefaults [⟨3, on "127.0.0.1" 80⟩, ⟨4, on "127.0.0.1" 8080⟩] := by
  refine ⟨by decide, fun h => ?_⟩
  have hdefault := h.default 1 (by decide)
  revert hdefault
  decide

end Webserv
