import Webserv.EventLoop.Response

/-!
# Methods and redirects

`handle` looks at the methods that a location allows and at its redirect before it does
anything.  A request for a script never comes to `handle`: the dispatch starts the script
first.  `Deed` says what a dispatch does.

## Main results

* `tryDispatchComplete_eq` — a dispatch does its deed.
* `gateKept_iff` — when methods and redirects are respected.
-/

namespace Webserv

open Bytes

/-! ### What a dispatch does -/

/-- What is done with a request. -/
inductive Deed where
  | script (info : CgiRequestInfo)
  /-- The file with the body of the request is lost, and an error page is sent. -/
  | lost (code : ℕ)
  | reply (r : Reply)

/-- The connection when the dispatch has closed the spool file. -/
def spooled (a : SpoolAnswers) (c : Connection) : Connection :=
  if pathRequiresCgiBodySpool c.request c.config then
    { c.setProcessing with request := finalizeBodyTmpFile a c.request }
  else c.setProcessing

/-- What the dispatch does with the request of a client. -/
def deed (env : Env) (a : SpoolAnswers) (c : Connection) : Deed :=
  match resolveCgiRequest (spooled a c).request c.config with
  | some info =>
      if 0 < (spooled a c).request.bodyFileWritten ∧ (spooled a c).request.openedFile < 0 then
        .lost (spooled a c).request.errorCode
      else .script info
  | none => .reply (replyTo env c)

/-- The deed is done. -/
def Deed.perform (env : Env) (c : Connection) : Deed → Outcome Connection ReadFate
  | .script info => .ok c (.script info)
  | .lost code => answer (sendError env code c)
  | .reply r => answer (({ c with request := r.request } : Connection).queue r.blocks)

/-- The spool file has nothing to do with the path. -/
theorem path_finalizeBodyTmpFile (a : SpoolAnswers) (req : HttpRequest) :
    (finalizeBodyTmpFile a req).path = req.path := by
  unfold finalizeBodyTmpFile
  split
  · rfl
  · split <;> rfl

theorem isSome_resolveCgiRequest_spooled (a : SpoolAnswers) (c : Connection) :
    (resolveCgiRequest (spooled a c).request c.config).isSome =
      pathRequiresCgiBodySpool c.request c.config := by
  have hpath : (spooled a c).request.path = c.request.path := by
    unfold spooled
    split
    · exact path_finalizeBodyTmpFile a c.request
    · rfl
  rw [isSome_resolveCgiRequest, pathRequiresCgiBodySpool, pathRequiresCgiBodySpool, hpath]

/-- A request for a script: it is started, or its body is lost. -/
theorem deed_script (env : Env) (a : SpoolAnswers) {c : Connection}
    (h : pathRequiresCgiBodySpool c.request c.config = true) :
    deed env a c = .lost (finalizeBodyTmpFile a c.request).errorCode ∧
      0 < (finalizeBodyTmpFile a c.request).bodyFileWritten ∧
      (finalizeBodyTmpFile a c.request).openedFile < 0 ∨
    (∃ info, deed env a c = .script info) ∧
      ¬ (0 < (finalizeBodyTmpFile a c.request).bodyFileWritten ∧
        (finalizeBodyTmpFile a c.request).openedFile < 0) := by
  have hsome := isSome_resolveCgiRequest_spooled a c
  rw [h] at hsome
  obtain ⟨info, hinfo⟩ := Option.isSome_iff_exists.mp hsome
  have hreq : (spooled a c).request = finalizeBodyTmpFile a c.request := by
    rw [spooled, if_pos h]
  unfold deed
  rw [hinfo, hreq]
  dsimp only
  split
  · next hlost => exact Or.inl ⟨rfl, hlost⟩
  · next hlost => exact Or.inr ⟨⟨info, rfl⟩, hlost⟩

/-- Any other request is handled. -/
theorem deed_file (env : Env) (a : SpoolAnswers) {c : Connection}
    (h : pathRequiresCgiBodySpool c.request c.config = false) :
    deed env a c = .reply (replyTo env c) := by
  have hsome := isSome_resolveCgiRequest_spooled a c
  rw [h, Option.isSome_eq_false_iff, Option.isNone_iff_eq_none] at hsome
  unfold deed
  rw [hsome]

/-- **A dispatch does its deed.** -/
theorem tryDispatchComplete_eq (env : Env) (a : SpoolAnswers) {c : Connection}
    (h : Dispatchable c) :
    tryDispatchComplete env a c = (deed env a c).perform env (spooled a c) := by
  -- only a script's request has been changed by the spool
  have hreply : replyTo env (spooled a c) = replyTo env c ∨
      pathRequiresCgiBodySpool c.request c.config = true := by
    cases hcgi : pathRequiresCgiBodySpool c.request c.config with
    | true => exact Or.inr rfl
    | false =>
      rw [spooled, if_neg (by simp [hcgi])]
      exact Or.inl rfl
  have hconfig : (spooled a c).config = c.config := by
    unfold spooled
    split <;> rfl
  have hunfold : tryDispatchComplete env a c =
      match resolveCgiRequest (spooled a c).request (spooled a c).config with
      | some info =>
          if 0 < (spooled a c).request.bodyFileWritten ∧ (spooled a c).request.openedFile < 0 then
            answer (sendError env (spooled a c).request.errorCode (spooled a c))
          else .ok (spooled a c) (.script info)
      | none => respond env (spooled a c) := by
    unfold tryDispatchComplete
    rw [if_neg (by simp [h.1, h.2])]
    rfl
  have hsome := isSome_resolveCgiRequest_spooled a c
  rw [hunfold, hconfig]
  unfold deed
  cases hinfo : resolveCgiRequest (spooled a c).request c.config with
  | some info =>
    dsimp only
    split
    · rfl
    · rfl
  | none =>
    rw [hinfo] at hsome
    rcases hreply with hreply | hreply
    · show answer (({ spooled a c with request := (replyTo env (spooled a c)).request } :
        Connection).queue (replyTo env (spooled a c)).blocks) = _
      rw [hreply]
      rfl
    · rw [hreply] at hsome
      cases hsome

/-! ### The gate -/

/-- The location that the dispatch matches: for a script with the path as it is, otherwise
with the resolved one. -/
def dispatchedLocation (c : Connection) : Option Location :=
  if pathRequiresCgiBodySpool c.request c.config then c.config.matchLocation c.request.path
  else c.config.matchLocation (normalizePath c.request.path)

/-- The method is not for this location, or for none. -/
def Denied (loc : Option Location) (method : Bytes) : Prop :=
  method = ascii "HEAD" ∨
    match loc with
    | some l => l.allowedMethods ≠ [] ∧ method ∉ l.allowedMethods
    | none => method ≠ ascii "GET"

instance (loc : Option Location) (method : Bytes) : Decidable (Denied loc method) := by
  unfold Denied
  cases loc with
  | none => exact inferInstanceAs (Decidable (_ ∨ _))
  | some l => exact inferInstanceAs (Decidable (_ ∨ _))

/-- A call that leaves the file system another one. -/
def FsCall.changes : FsCall → Bool
  | .create _ => true
  | .remove _ => true
  | _ => false

/-- The answer is 405, and nothing is started, written or removed. -/
def Refuses (env : Env) (c : Connection) : Deed → Prop
  | .script _ => False
  | .lost code => code = 405
  | .reply r => r.blocks = [sendErrorInternal env 405 c.request c.config] ∧
      ∀ call ∈ r.calls, call.changes = false

/-- The answer is the redirect of the location, and nothing else is done. -/
def Redirects (env : Env) (c : Connection) (l : Location) : Deed → Prop
  | .script _ => False
  | .lost _ => False
  | .reply r => r.blocks = (sendRedirect env l.returnCode l.returnValue c.request).blocks ∧
      r.calls = []

/-- Methods and redirects are respected in the dispatch of a request. -/
def GateKept (env : Env) (a : SpoolAnswers) (c : Connection) : Prop :=
  (Denied (dispatchedLocation c) c.request.method → Refuses env c (deed env a c)) ∧
    (¬ Denied (dispatchedLocation c) c.request.method → ∀ l ∈ dispatchedLocation c,
      l.redirectEnabled = true → Redirects env c l (deed env a c))

/-- The request is not for a script, and its path is resolved if its method is denied; or it
is for a script of a location that allows the method and has no redirect.  (A script whose
body is lost is not started: it counts when the error on record is 405.) -/
def GateStands (a : SpoolAnswers) (c : Connection) : Prop :=
  if pathRequiresCgiBodySpool c.request c.config then
    if Denied (dispatchedLocation c) c.request.method then
      0 < (finalizeBodyTmpFile a c.request).bodyFileWritten ∧
        (finalizeBodyTmpFile a c.request).openedFile < 0 ∧
        (finalizeBodyTmpFile a c.request).errorCode = 405
    else ∀ l ∈ dispatchedLocation c, l.redirectEnabled = false
  else Denied (dispatchedLocation c) c.request.method → normalizePath c.request.path ≠ []

instance (a : SpoolAnswers) (c : Connection) : Decidable (GateStands a c) := by
  unfold GateStands
  infer_instance

/-- A path that leads out of the root is answered with 400, whatever the method. -/
theorem handle_of_unresolved {env : Env} {req : HttpRequest} {cfg : Server}
    (h : normalizePath req.path = []) : handle env req cfg = .error env 400 req cfg [] := by
  unfold handle
  dsimp only
  rw [h]
  rfl

/-- **The handler refuses a method that is denied.** -/
theorem handle_of_denied {env : Env} {req : HttpRequest} {cfg : Server}
    (hpath : normalizePath req.path ≠ [])
    (h : Denied (cfg.matchLocation (normalizePath req.path)) req.method) :
    handle env req cfg = .error env 405 { req with path := normalizePath req.path } cfg [] := by
  unfold handle
  dsimp only
  rw [if_neg (List.isEmpty_iff.not.mpr hpath)]
  split
  · rfl
  · next hhead =>
    rcases h with h | h
    · exact absurd h hhead
    · cases hloc : cfg.matchLocation (normalizePath req.path) with
      | none =>
        rw [hloc] at h
        exact if_pos h
      | some l =>
        rw [hloc] at h
        exact if_pos (by simpa using h)

/-- **The handler follows a redirect before it does anything else.** -/
theorem handle_of_redirect {env : Env} {req : HttpRequest} {cfg : Server} {l : Location}
    (hpath : normalizePath req.path ≠ [])
    (h : ¬ Denied (cfg.matchLocation (normalizePath req.path)) req.method)
    (hloc : cfg.matchLocation (normalizePath req.path) = some l) (hl : l.redirectEnabled = true) :
    handle env req cfg =
      sendRedirect env l.returnCode l.returnValue { req with path := normalizePath req.path } := by
  rw [hloc] at h
  obtain ⟨hhead, hmethod⟩ := not_or.mp h
  have hallowed : (!l.allowedMethods.isEmpty && !l.allowedMethods.contains req.method) = false := by
    rw [Bool.eq_false_iff]
    exact fun hne => hmethod (by simpa using hne)
  unfold handle
  dsimp only
  rw [if_neg (List.isEmpty_iff.not.mpr hpath), if_neg hhead, hloc]
  dsimp only
  rw [if_neg (by simp only [hallowed]; decide), if_pos hl]

/-- The handler goes to the file system when nothing stands in the way. -/
theorem handle_of_allowed {env : Env} {req : HttpRequest} {cfg : Server}
    (hpath : normalizePath req.path ≠ [])
    (h : ¬ Denied (cfg.matchLocation (normalizePath req.path)) req.method)
    (hloc : (cfg.matchLocation (normalizePath req.path)).filter (·.redirectEnabled) = none) :
    handle env req cfg = handleFile env { req with path := normalizePath req.path }
      (cfg.matchLocation (normalizePath req.path)) cfg := by
  obtain ⟨hhead, hmethod⟩ := not_or.mp h
  unfold handle
  dsimp only
  rw [if_neg (List.isEmpty_iff.not.mpr hpath), if_neg hhead]
  cases hl : cfg.matchLocation (normalizePath req.path) with
  | none =>
    rw [hl] at hmethod
    exact if_neg hmethod
  | some l =>
    rw [hl] at hmethod hloc
    have hallowed :
        (!l.allowedMethods.isEmpty && !l.allowedMethods.contains req.method) = false := by
      rw [Bool.eq_false_iff]
      exact fun hne => hmethod (by simpa using hne)
    have hredirect : ¬ l.redirectEnabled = true := by
      intro h
      simp [h] at hloc
    dsimp only
    rw [if_neg (by simp only [hallowed]; decide), if_neg hredirect]

/-- The pages of two codes of three digits are told apart by their status lines. -/
theorem sendErrorInternal_ne (env : Env) (req : HttpRequest) (cfg : Server) :
    sendErrorInternal env 400 req cfg ≠ sendErrorInternal env 405 req cfg := by
  have hfront : ∀ code, ∃ rest, sendErrorInternal env code req cfg =
      ascii "HTTP/1.1 " ++ (decimal code ++ rest) := by
    intro code
    apply Exists.intro
    unfold sendErrorInternal errorHeaders
    simp only [List.append_assoc]
    rfl
  obtain ⟨rest₀, h₀⟩ := hfront 400
  obtain ⟨rest₅, h₅⟩ := hfront 405
  rw [h₀, h₅]
  intro h
  have hcodes := (List.append_inj (List.append_cancel_left h) (by decide)).1
  exact absurd hcodes (by decide)

/-- No location is for the empty path. -/
theorem matchLocation_nil (cfg : Server) : cfg.matchLocation [] = none := by
  cases h : cfg.matchLocation [] with
  | none => rfl
  | some l =>
    have hcovers := (Server.mem_of_matchLocation h).2
    have hdrop : dropTrailingSlash [] = [] := by decide
    have hne : l.path ≠ [] → dropTrailingSlash l.path ≠ [] := by
      intro hl
      unfold dropTrailingSlash
      split
      · next hlong =>
        rw [Bool.and_eq_true, decide_eq_true_eq] at hlong
        intro hnil
        have hlength := congrArg List.length hnil
        rw [List.length_dropLast, List.length_nil] at hlength
        omega
      · exact hl
    unfold Location.covers at hcovers
    simp only [hdrop, Bool.and_eq_true, Bool.not_eq_true', List.isEmpty_eq_false_iff,
      Bool.or_eq_true, beq_iff_eq, List.isPrefixOf_iff_prefix, List.prefix_nil,
      List.getElem?_nil, reduceCtorEq, and_false, or_false] at hcovers
    exact absurd hcovers.2.symm (hne hcovers.1)

/-- The gate for a request that is handled. -/
theorem gateKept_file_iff (env : Env) (a : SpoolAnswers) {c : Connection}
    (h : pathRequiresCgiBodySpool c.request c.config = false) :
    GateKept env a c ↔
      (Denied (c.config.matchLocation (normalizePath c.request.path)) c.request.method →
        normalizePath c.request.path ≠ []) := by
  have hloc : dispatchedLocation c = c.config.matchLocation (normalizePath c.request.path) := by
    rw [dispatchedLocation, if_neg (by simp [h])]
  unfold GateKept
  rw [hloc, deed_file env a h]
  by_cases hpath : normalizePath c.request.path = []
  · have hreply : replyTo env c = .error env 400 (cleanupBodyTmpFile c.request) c.config [] :=
      handle_of_unresolved hpath
    simp only [hpath, matchLocation_nil, ne_eq, not_true_eq_false, imp_false]
    constructor
    · intro hkept hdenied
      have hblocks := (hkept.1 hdenied).1
      rw [hreply] at hblocks
      exact sendErrorInternal_ne env c.request c.config (List.singleton_inj.mp hblocks)
    · intro hnot
      exact ⟨fun hdenied => absurd hdenied hnot, fun _ l hl => by cases hl⟩
  · simp only [ne_eq, hpath, not_false_eq_true, implies_true, iff_true]
    constructor
    · intro hdenied
      have hreply : replyTo env c = .error env 405 { cleanupBodyTmpFile c.request with
          path := normalizePath c.request.path } c.config [] := handle_of_denied hpath hdenied
      rw [hreply]
      exact ⟨rfl, by simp [Reply.error]⟩
    · intro hdenied l hl hredirect
      have hreply : replyTo env c = sendRedirect env l.returnCode l.returnValue
          { cleanupBodyTmpFile c.request with path := normalizePath c.request.path } :=
        handle_of_redirect hpath hdenied hl hredirect
      rw [hreply]
      exact ⟨rfl, rfl⟩

/-- **When methods and redirects are respected.**  The dispatch of a complete request does
its deed, and keeps the gate exactly where the gate stands in its way. -/
theorem gateKept_iff (env : Env) (a : SpoolAnswers) {c : Connection} (h : Dispatchable c) :
    tryDispatchComplete env a c = (deed env a c).perform env (spooled a c) ∧
      (GateKept env a c ↔ GateStands a c) := by
  refine ⟨tryDispatchComplete_eq env a h, ?_⟩
  cases hcgi : pathRequiresCgiBodySpool c.request c.config with
  | false =>
    have hloc : dispatchedLocation c = c.config.matchLocation (normalizePath c.request.path) := by
      rw [dispatchedLocation, if_neg (by simp [hcgi])]
    rw [gateKept_file_iff env a hcgi, GateStands, if_neg (by simp [hcgi]), hloc]
  | true =>
    unfold GateKept GateStands
    rw [if_pos hcgi]
    -- a script is not started only when its body is lost
    rcases deed_script env a hcgi with ⟨hdeed, hlost⟩ | ⟨⟨info, hdeed⟩, hlost⟩
    · rw [hdeed]
      split
      · next hdenied => simp [hdenied, Refuses, hlost.1, hlost.2]
      · next hdenied => simp [hdenied, Redirects]
    · rw [hdeed]
      split
      · next hdenied =>
        simp only [hdenied, Refuses, imp_false, not_true_eq_false, false_and, false_iff]
        exact fun h => hlost ⟨h.1, h.2.1⟩
      · next hdenied => simp [hdenied, Redirects]

/-- A location for scripts that are only to be got. -/
private def getOnlyServer : Server :=
  { Server.empty with
    root := ascii "/www"
    clientMaxBodySize := 1000
    locations := [{ Location.empty with
      path := ascii "/cgi"
      allowedMethods := [ascii "GET"]
      cgiMap := Std.TreeMap.ofList [(ascii ".py", ascii "/usr/bin/python3")] }] }

/-- A client of that server that has sent a request to remove something. -/
private def removing (target : String) : Connection :=
  (feed oneFile.statAnswer ((Connection.new 5 getOnlyServer 0).recv
    (ascii "DELETE " ++ ascii target ++ ascii " HTTP/1.1\r\nHost: x\r\n\r\n") 0).state).state

/-- A request for a file with a method that is denied is refused. -/
theorem gateKept_file :
    tryDispatchComplete ⟨oneFile, 0, 0⟩ .none (removing "/cgi/x") =
      (deed ⟨oneFile, 0, 0⟩ .none (removing "/cgi/x")).perform ⟨oneFile, 0, 0⟩
        (spooled .none (removing "/cgi/x")) ∧
      GateKept ⟨oneFile, 0, 0⟩ .none (removing "/cgi/x") := by
  have h := @gateKept_iff ⟨oneFile, 0, 0⟩ .none (removing "/cgi/x")
    ⟨by decide +kernel, by decide +kernel⟩
  exact ⟨h.1, h.2.mpr (by decide +kernel)⟩

/-- **A script is started for a method that its location does not allow.** -/
theorem not_gateKept_script : ∃ env a c, Dispatchable c ∧
    Denied (dispatchedLocation c) c.request.method ∧
    (∃ info, deed env a c = .script info) ∧ ¬ GateKept env a c := by
  have hdenied : Denied (dispatchedLocation (removing "/cgi/x.py"))
      (removing "/cgi/x.py").request.method := by decide +kernel
  refine ⟨⟨oneFile, 0, 0⟩, .none, removing "/cgi/x.py",
    ⟨by decide +kernel, by decide +kernel⟩, hdenied, ?_⟩
  rcases @deed_script ⟨oneFile, 0, 0⟩ .none (removing "/cgi/x.py") (by decide +kernel) with
    ⟨-, hlost, -⟩ | ⟨⟨info, hinfo⟩, -⟩
  · exact absurd hlost (by decide +kernel)
  · refine ⟨⟨info, hinfo⟩, ?_⟩
    intro hkept
    have hrefused := hkept.1 hdenied
    rw [hinfo] at hrefused
    exact hrefused

end Webserv
