import Webserv.Lib.Bytes
import Webserv.Lib.Cursor

/-!
# The tokens of a configuration

A token is a word of the text with the kind that the table of the grammar gives it.  The functions
of the parser share one index into the vector of tokens.

## Main results

* `reads_consumeUntilSemicolon` — the values of a directive and the semicolon behind them.
-/

namespace Webserv

open Bytes Cursor

/-! ### Tokens -/

/-- `t_token_type`. -/
inductive TokenType where
  | context
  | directive
  | value
  | lbrace
  | rbrace
  | semicolon
  | error
  | «end»
  deriving DecidableEq, Repr

/-- A token, `Lexer`. -/
structure Lexer where
  type : TokenType
  value : Bytes
  deriving DecidableEq, Repr

namespace Lexer

/-- The words of the blocks. -/
def contexts : List Bytes := ["events", "http", "server", "location"].map ascii

/-- The words of the directives. -/
def directives : List Bytes :=
  ["worker_connections", "event_model", "listen", "host", "server_name", "root", "index",
    "client_max_body_size", "error_page", "allowed_methods", "autoindex", "return", "upload_path",
    "timeout", "cgi_path", "cgi_ext"].map ascii

/-- `identify`, with the table of `init_grammar`. -/
def identify (s : Bytes) : TokenType :=
  if contexts.contains s then .context
  else if directives.contains s then .directive
  else if s = ascii "\x7b" then .lbrace
  else if s = ascii "\x7d" then .rbrace
  else if s = ascii ";" then .semicolon
  else .value

end Lexer

/-- The vector that `API_conf` makes of the words. -/
def streamOf (tokens : List Bytes) : List Lexer :=
  tokens.map (fun s => ⟨Lexer.identify s, s⟩) ++ [⟨.end, []⟩]

/-! ### Errors -/

/-- What `report_parse_error` is called with: the text of the exception, and the place that it
prints. -/
structure Report where
  msg : Bytes
  place : Bytes
  deriving DecidableEq, Repr

/-- A report, from its text and its place. -/
def Report.of (msg place : String) : Report := ⟨ascii msg, ascii place⟩

/-- How a function of the parser ends without a result. -/
abbrev ParseStop := Stop Report

variable {τ : Type}

/-- A token that is printed if there is one. -/
def printToken (stream : List Lexer) (shown : Bool) (i : ℕ) : Except ParseStop Unit :=
  if shown then (tokenAt stream i).map fun _ => () else .ok ()

/-- `report_parse_error`: prints the token, the one in front and the next one, and throws. -/
def reportParseError (stream : List Lexer) (i : ℕ) (r : Report) : Except ParseStop τ := do
  printToken stream (i < stream.length) i
  printToken stream (0 < i) (i - 1)
  printToken stream (i + 1 < stream.length) (i + 1)
  .error (.threw r)

/-- A check that is reported at `i`. -/
def reported (stream : List Lexer) (i : ℕ) : Except Report τ → Except ParseStop τ
  | .ok t => .ok t
  | .error r => reportParseError stream i r

/-- A check that throws without a report. -/
def thrown : Except Report τ → Except ParseStop τ
  | .ok t => .ok t
  | .error r => .error (.threw r)

theorem printToken_of_lt {stream : List Lexer} {shown : Bool} {i : ℕ}
    (h : shown = true → i < stream.length) : printToken stream shown i = .ok () := by
  unfold printToken
  split
  · next hshown =>
    rw [tokenAt_eq (List.getElem?_eq_getElem (h hshown))]
    rfl
  · rfl

/-- **An error is reported in range** where the index is not behind the end. -/
theorem reportParseError_eq {stream : List Lexer} {i : ℕ} (hi : i ≤ stream.length) (r : Report) :
    reportParseError (τ := τ) stream i r = .error (.threw r) := by
  rw [reportParseError, printToken_of_lt of_decide_eq_true, printToken_of_lt fun h => ?_,
    printToken_of_lt of_decide_eq_true]
  · rfl
  · have hpos : 0 < i := of_decide_eq_true h
    omega

theorem reported_eq {stream : List Lexer} {i : ℕ} (hi : i ≤ stream.length) (c : Except Report τ) :
    reported stream i c = thrown c := by
  cases c with
  | ok t => rfl
  | error r => exact reportParseError_eq hi r

/-! ### Values -/

/-- The token at the index is of a type, or the error is reported. -/
def requireType (stream : List Lexer) (i : ℕ) (type : TokenType) (r : Report) :
    Except ParseStop Unit := do
  let found ← test stream (·.type = type) i
  if found then .ok () else reportParseError stream i r

/-- The loop over the values of a directive. -/
def valuesFrom (stream : List Lexer) (values : List Bytes) (i : ℕ) :
    Except ParseStop (List Bytes × ℕ) :=
  whileReading (·.type ≠ .value) (fun t values i => .ok (values ++ [t.value], i + 1)) stream
    (values, i)

/-- `consumeValues`, and `consumeValuesLenient` for the events: the values behind the directive at
the index, and the semicolon. -/
def consumeUntilSemicolon (missing ended : Report) (stream : List Lexer) (i : ℕ) :
    Except ParseStop (List Bytes × ℕ) := do
  let (values, i) ← valuesFrom stream [] (i + 1)
  if i < stream.length then do
    let t ← tokenAt stream i
    if t.type = .semicolon then .ok (values, i + 1) else reportParseError stream i missing
  else reportParseError stream (i - 1) ended

/-- `consumeValues`. -/
def consumeValues : List Lexer → ℕ → Except ParseStop (List Bytes × ℕ) :=
  consumeUntilSemicolon (.of "Missing semicolon after directive value" "consumeValues")
    (.of "Unexpected end of file: expected ';' after value" "consumeValues")

/-- `consumeValuesLenient`. -/
def consumeValuesLenient : List Lexer → ℕ → Except ParseStop (List Bytes × ℕ) :=
  consumeUntilSemicolon (.of "Missing ';' after events directive" "consumeValuesLenient")
    (.of "Unexpected end of file: expected ';' after events directive" "consumeValuesLenient")

/-! ### What is read -/

variable {stream : List Lexer} {i j : ℕ}

theorem requireType_cases (hi : i ≤ stream.length) (type : TokenType) (r : Report) :
    (∃ t, stream[i]? = some t ∧ t.type = type ∧ requireType stream i type r = .ok ()) ∨
      requireType stream i type r = .error (.threw r) := by
  unfold requireType
  rw [test_eq]
  cases ht : stream[i]? with
  | none => exact .inr (reportParseError_eq hi r)
  | some t =>
    by_cases htype : t.type = type
    · refine .inl ⟨t, rfl, htype, ?_⟩
      change (if decide (t.type = type) then _ else _) = _
      rw [if_pos (decide_eq_true htype)]
    · right
      change (if decide (t.type = type) then _ else _) = _
      rw [if_neg (by rwa [decide_eq_true_eq]), reportParseError_eq hi]

theorem requireType_ok {type : TokenType} {t : Lexer} (ht : stream[i]? = some t)
    (htype : t.type = type) (r : Report) : requireType stream i type r = .ok () := by
  rw [requireType, test_eq, ht]
  change (if decide (t.type = type) then _ else _) = _
  rw [if_pos (decide_eq_true htype)]

/-- The words behind a directive and the semicolon. -/
structure IsValues (u : List Lexer) (values : List Bytes) (semicolon : Lexer) : Prop where
  plain : ∀ t ∈ u, t.type = .value
  texts : values = u.map (·.value)
  ends : semicolon.type = .semicolon

theorem readsItems_values (stream : List Lexer) :
    ReadsItems (ε := Report) (·.type ≠ .value)
      (fun t values i => .ok (values ++ [t.value], i + 1)) stream
      fun u values values' => ∃ t : Lexer, t.type = .value ∧ u = [t] ∧
        values' = values ++ [t.value] := by
  intro t values i ht htype
  have hvalue : t.type = .value := by simpa using htype
  exact .ok (Span.single ht) ⟨List.cons_ne_nil t [], t, hvalue, rfl, rfl⟩

theorem Items.values {u : List Lexer} {values values' : List Bytes}
    (h : Items (fun u values values' => ∃ t : Lexer, t.type = .value ∧ u = [t] ∧
      values' = values ++ [t.value]) u values values') :
    (∀ t ∈ u, t.type = .value) ∧ values' = values ++ u.map (·.value) := by
  induction h with
  | nil values => simp
  | cons hitem _ ih =>
    obtain ⟨t, htype, rfl, rfl⟩ := hitem
    obtain ⟨hvalues, rfl⟩ := ih
    refine ⟨?_, by simp⟩
    intro t' ht'
    rcases List.mem_cons.mp ht' with rfl | ht'
    · exact htype
    · exact hvalues t' ht'

/-- **A directive is read up to its semicolon.** -/
theorem reads_consumeUntilSemicolon (missing ended : Report) {d : Lexer}
    (hd : stream[i]? = some d) :
    Reads stream i
      (fun u values => ∃ vs semicolon, u = d :: (vs ++ [semicolon]) ∧ IsValues vs values semicolon)
      (consumeUntilSemicolon missing ended stream i) := by
  have hlt := (List.getElem?_eq_some_iff.mp hd).1
  refine .after (Span.single hd) (.bind hlt (reads_whileReading (readsItems_values stream) [] hlt)
    fun values j u hj hspan hitems => ?_)
  obtain ⟨hvalues, htexts⟩ := Items.values hitems
  dsimp only
  split
  · next hjlt =>
    have hsome := List.getElem?_eq_getElem hjlt
    rw [tokenAt_eq hsome]
    change Reads stream j _ (if _ then _ else _)
    split
    · next hsemi =>
      exact .ok (Span.single hsome) ⟨u, _, rfl, hvalues, htexts, hsemi⟩
    · rw [reportParseError_eq hj]
      exact .threw missing
  · rw [reportParseError_eq (by omega)]
    exact .threw ended

theorem foldlM_values (vs values : List Bytes) :
    values.foldlM (fun vs v => Except.ok (ε := Report) (vs ++ [v])) vs = .ok (vs ++ values) := by
  induction values generalizing vs with
  | nil => rw [List.append_nil]; rfl
  | cons v values ih =>
    rw [List.foldlM_cons]
    change values.foldlM _ (vs ++ [v]) = _
    rw [ih, List.append_assoc, List.singleton_append]

/-- **What the values of a directive are.** -/
theorem consumeUntilSemicolon_eq (missing ended : Report) {d semicolon : Lexer}
    {values : List Bytes} (hsemi : semicolon.type = .semicolon)
    (hspan : Span stream i j (d :: (values.map (⟨.value, ·⟩) ++ [semicolon]))) :
    consumeUntilSemicolon missing ended stream i = .ok (values, j) := by
  have hbehind := hspan.tail.right
  have hsome := hbehind.head
  have hj : i + 1 + (values.map (Lexer.mk .value)).length + 1 = j := hbehind.1
  have hvalues : Span stream (i + 1) (i + 1 + (values.map (Lexer.mk .value)).length)
      (values.flatMap fun v => [⟨.value, v⟩]) := by
    rw [← List.map_eq_flatMap]
    exact hspan.tail.left
  have hloop : valuesFrom stream [] (i + 1) =
      .ok (values, i + 1 + (values.map (Lexer.mk .value)).length) := by
    rw [valuesFrom, whileReading_flatMap (fun vs v => .ok (vs ++ [v])) (readsItems_values stream) ?_
      (b := semicolon) ?_ values [] _ hvalues hsome, foldlM_values]
    · rfl
    · intro v vs i j hv
      refine ⟨⟨.value, v⟩, hv.head, rfl, ?_⟩
      rw [← hv.1]
      rfl
    · simp [hsemi]
  rw [consumeUntilSemicolon, hloop]
  change (if _ then _ else _) = _
  rw [if_pos (List.getElem?_eq_some_iff.mp hsome).1, tokenAt_eq hsome]
  change (if _ then _ else _) = _
  rw [if_pos hsemi, hj]

end Webserv
