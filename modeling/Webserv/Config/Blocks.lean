import Webserv.Config.Grammar

/-!
# What a server block means

A server block is a list of statements.  What the parser makes of its tokens is a fold over the
statements, which does not know of indices.

## Main results

* `parsLocation_eq` — the location of a location block.
* `parsServer_eq` — **the server of a server block.**
* `exists_block_of_parsServer` — what is accepted as a server is such a list.
-/

namespace Webserv

open Bytes Cursor

/-! ### Statements -/

/-- A directive with its values. -/
structure Directive where
  name : Bytes
  values : List Bytes

/-- A statement of a server block. -/
inductive Statement where
  | directive (d : Directive)
  | location (path : Bytes) (body : List Directive)

/-- The tokens of a directive. -/
def Directive.tokens (d : Directive) : List Lexer :=
  ⟨.directive, d.name⟩ :: (d.values.map (⟨.value, ·⟩) ++ [⟨.semicolon, ascii ";"⟩])

/-- A body in its braces. -/
def bracedTokens (body : List Lexer) : List Lexer :=
  ⟨.lbrace, ascii "\x7b"⟩ :: (body ++ [⟨.rbrace, ascii "\x7d"⟩])

/-- The tokens of a directive or of a location in a server. -/
def Statement.tokens : Statement → List Lexer
  | directive d => d.tokens
  | location path body =>
      ⟨.context, ascii "location"⟩ :: ⟨.value, path⟩ :: bracedTokens (body.flatMap Directive.tokens)

/-- The tokens of a server block. -/
def serverTokens (block : List Statement) : List Lexer :=
  ⟨.context, ascii "server"⟩ :: bracedTokens (block.flatMap Statement.tokens)

/-! ### Meanings -/

/-- A directive of a location. -/
def locationStatement (sz : Bytes → ℤ) (x : LocationConf × List Bytes) (d : Directive) :
    Except Report (LocationConf × List Bytes) := do
  let seen ← seenOnce locationUnique "Duplicate directive in location" x.2 d.name
  let l ← locationDirective sz x.1 d.name d.values
  .ok (l, seen)

/-- A location block. -/
def locationOf (sz : Bytes → ℤ) (l : LocationConf) (path : Bytes) (body : List Directive) :
    Except Report LocationConf := do
  checkLocationPath path
  let x ← body.foldlM (locationStatement sz) ({ l with path }, [])
  .ok x.1

/-- A statement of a server. -/
def serverStatement (sz : Bytes → ℤ) (x : ServerConf × List Bytes) :
    Statement → Except Report (ServerConf × List Bytes)
  | .directive d => do
    let seen ← seenOnce serverUnique "Duplicate directive in server" x.2 d.name
    let s ← serverDirective sz x.1 d.name d.values
    .ok (s, seen)
  | .location path body => do
    let l ← locationOf sz (.ofServer x.1) path body
    .ok ({ x.1 with locations := x.1.locations ++ [l.checkForAllowedMethods] }, x.2)

/-- The locations after the second pass. -/
def ServerConf.close (s : ServerConf) : ServerConf :=
  { s with locations := s.locations.map (LocationConf.inherit s) }

/-- The checks at the end of a server block. -/
def closedServer (s : ServerConf) : Except Report ServerConf := do
  requireDirectives s
  validateLocations s.close.locations
  verifyingPaths [] s.close.locations
  .ok s.close

/-- A server block. -/
def serverBlock (sz : Bytes → ℤ) (s : ServerConf) (block : List Statement) :
    Except Report ServerConf := do
  let x ← block.foldlM (serverStatement sz) (s, [])
  closedServer x.1

/-! ### The parser -/

variable {sz : Bytes → ℤ} {stream : List Lexer} {i j : ℕ}

theorem reported_bind {σ τ : Type} (hi : i ≤ stream.length) (c : Except Report σ)
    (f : σ → Except Report τ) {g : σ → Except ParseStop (τ × ℕ)}
    (hg : ∀ a, c = .ok a → g a = atCursor j (f a)) :
    reported stream i c >>= g = atCursor j (c >>= f) := by
  rw [reported_eq hi]
  cases c with
  | ok a => exact hg a rfl
  | error r => rfl

/-- A directive that is read, and what is made of its values. -/
theorem directive_eq {σ τ : Type} {d : Directive} (hspan : Span stream i j d.tokens)
    (act : List Bytes → Except Report σ) (f : σ → τ) (hj : j ≤ stream.length) :
    (do
      let (values, j) ← consumeValues stream i
      let a ← reported stream j (act values)
      .ok (f a, j)) = atCursor j (act d.values >>= fun a => .ok (f a)) := by
  have hvalues : consumeValues stream i = .ok (d.values, j) :=
    consumeUntilSemicolon_eq _ _ rfl hspan
  rw [hvalues]
  exact reported_bind hj _ _ fun a _ => rfl

/-- **A directive of a location.** -/
theorem locationItem_eq {d : Directive} (hspan : Span stream i j d.tokens)
    (x : LocationConf × List Bytes) :
    locationItem sz stream ⟨.directive, d.name⟩ x i = atCursor j (locationStatement sz x d) := by
  have hlt := (List.getElem?_eq_some_iff.mp hspan.head).1
  rw [locationItem, if_pos rfl]
  exact reported_bind (Nat.le_of_lt hlt) _ _ fun seen _ =>
    directive_eq hspan _ (fun l => (l, seen)) (hspan.le (Nat.le_of_lt hlt))

/-- **A body in braces**, whose parts are read as they are meant. -/
theorem braced_eq {σ τ π : Type} {item : Lexer → σ → ℕ → Except ParseStop (σ × ℕ)}
    {Item : List Lexer → σ → σ → Prop} {render : π → List Lexer} (sem : σ → π → Except Report σ)
    (hreads : ReadsItems (·.type = .rbrace) item stream Item) (rl rr : Report)
    (hitem : ∀ p t i j, Span stream i j (render p) →
      ∃ a : Lexer, stream[i]? = some a ∧ decide (a.type = .rbrace) = false ∧
        item a t i = atCursor j (sem t p)) {parts : List π}
    (hspan : Span stream i j (bracedTokens (parts.flatMap render))) (t : σ)
    (f : σ → ℕ → Except ParseStop (τ × ℕ)) (g : σ → Except Report τ)
    (hf : ∀ t k, k + 1 = j → k ≤ stream.length → f t k = atCursor j (g t)) :
    (do
      requireType stream i .lbrace rl
      let (t', k) ← whileReading (·.type = .rbrace) item stream (t, i + 1)
      requireType stream k .rbrace rr
      f t' k) = atCursor j (parts.foldlM sem t >>= g) := by
  have hclose := hspan.tail.right.head
  have hj : i + 1 + (parts.flatMap render).length + 1 = j := hspan.tail.right.1
  have hlt := Nat.le_of_lt (List.getElem?_eq_some_iff.mp hclose).1
  have hbody := whileReading_flatMap sem hreads hitem (b := ⟨.rbrace, ascii "\x7d"⟩) rfl parts t _
    hspan.tail.left hclose
  rw [requireType_ok hspan.head rfl, hbody]
  cases parts.foldlM sem t with
  | error r => rfl
  | ok t' =>
    change (requireType stream _ .rbrace rr >>= fun _ => f t' _) = _
    rw [requireType_ok hclose rfl]
    exact hf t' _ hj hlt

theorem locationPath_eq {path : Bytes} (hpath : stream[i]? = some ⟨.value, path⟩) :
    locationPath stream i = atCursor (i + 1) (checkLocationPath path >>= fun _ => .ok path) := by
  have hlt := (List.getElem?_eq_some_iff.mp hpath).1
  rw [locationPath, test_eq, hpath, tokenAt_eq hpath]
  exact reported_bind (Nat.le_of_lt hlt) _ _ fun _ _ => rfl

/-- **A location block.** -/
theorem parsLocation_eq {path : Bytes} {body : List Directive}
    (hspan : Span stream i j (Statement.location path body).tokens) (l : LocationConf) :
    parsLocation sz l stream i = atCursor j (locationOf sz l path body) := by
  have hskip : test (ε := Report) stream (·.value = ascii "location") i = .ok true := by
    rw [test_eq, hspan.head]
    rfl
  rw [parsLocation, hskip]
  change locationPath stream (i + 1) >>= _ = _
  rw [locationPath_eq hspan.tail.head, locationOf]
  cases checkLocationPath path with
  | error r => rfl
  | ok _ =>
    refine braced_eq (locationStatement sz) (readsItems_location sz stream) _ _
      (fun d x i j hd => ⟨_, hd.head, rfl, locationItem_eq hd x⟩) hspan.tail.tail _
      (fun x k => .ok (x.1, k + 1)) (fun x => .ok x.1) fun x k hk _ => ?_
    rw [hk]
    rfl

/-- **A statement of a server.** -/
theorem serverItem_eq {st : Statement} (hspan : Span stream i j st.tokens)
    (x : ServerConf × List Bytes) :
    ∃ a : Lexer, stream[i]? = some a ∧ decide (a.type = .rbrace) = false ∧
      serverItem sz stream a x i = atCursor j (serverStatement sz x st) := by
  cases st with
  | directive d =>
    have hlt := Nat.le_of_lt (List.getElem?_eq_some_iff.mp (Span.head hspan)).1
    refine ⟨_, Span.head hspan, rfl, ?_⟩
    rw [serverItem, if_neg (by simp), if_pos rfl]
    exact reported_bind hlt _ _ fun seen _ =>
      directive_eq hspan _ (fun s => (s, seen)) (hspan.le hlt)
  | location path body =>
    refine ⟨_, Span.head hspan, rfl, ?_⟩
    rw [serverItem, if_pos ⟨rfl, rfl⟩, parsLocation_eq hspan, serverStatement]
    cases locationOf sz (.ofServer x.1) path body with
    | error r => rfl
    | ok l => rfl

theorem closeServer_eq (hi : i ≤ stream.length) (s : ServerConf) :
    closeServer s stream i = atCursor (i + 1) (closedServer s) := by
  refine reported_bind hi _ _ fun _ _ => reported_bind hi _ _ fun _ _ => ?_
  change thrown (verifyingPaths [] s.close.locations) >>= _ = _
  cases verifyingPaths [] s.close.locations with
  | error r => rfl
  | ok _ => rfl

/-- **A server block.** -/
theorem parsServer_eq {block : List Statement} (hspan : Span stream i j (serverTokens block))
    (s : ServerConf) : parsServer sz s stream i = atCursor j (serverBlock sz s block) := by
  refine braced_eq (serverStatement sz) (readsItems_server sz stream) _ _
    (fun st x i j hst => serverItem_eq hst x) hspan.tail _ (fun x k => closeServer x.1 stream k)
    (fun x => closedServer x.1) fun x k hk hle => ?_
  rw [closeServer_eq hle, hk]

/-! ### The blocks that are accepted -/

/-- A token whose type gives its text, for the types that have one text. -/
def HasText (t : Lexer) : Prop :=
  (t.type = .semicolon → t.value = ascii ";") ∧ (t.type = .lbrace → t.value = ascii "\x7b") ∧
    (t.type = .rbrace → t.value = ascii "\x7d")

theorem identify_hasText (s : Bytes) : HasText ⟨Lexer.identify s, s⟩ := by
  unfold HasText Lexer.identify
  split_ifs with hcontext hdirective hl hr hsemi <;> simp_all

theorem hasText_of_mem_streamOf {tokens : List Bytes} {t : Lexer} (h : t ∈ streamOf tokens) :
    HasText t := by
  rcases List.mem_append.mp h with h | h
  · obtain ⟨s, -, rfl⟩ := List.mem_map.mp h
    exact identify_hasText s
  · rw [List.mem_singleton.mp h]
    simp [HasText]

theorem Lexer.eq_mk {t : Lexer} {type : TokenType} {value : Bytes} (htype : t.type = type)
    (hvalue : t.value = value) : t = ⟨type, value⟩ := by
  rw [← htype, ← hvalue]

/-- A directive word, words behind it and a semicolon are the tokens of a directive. -/
theorem exists_directive_tokens {d semicolon : Lexer} {vs : List Lexer} (hd : d.type = .directive)
    (hvs : ∀ v ∈ vs, v.type = .value) (hsemi : semicolon.type = .semicolon)
    (htext : HasText semicolon) : ∃ e : Directive, d :: (vs ++ [semicolon]) = e.tokens := by
  refine ⟨⟨d.value, vs.map (·.value)⟩, ?_⟩
  have hvalues : vs = (vs.map (·.value)).map (⟨.value, ·⟩) := by
    rw [List.map_map]
    have hmk : ∀ v ∈ vs, v = ⟨.value, v.value⟩ := fun v hv => Lexer.eq_mk (hvs v hv) rfl
    exact (List.map_id vs).symm.trans (List.map_congr_left hmk)
  rw [Directive.tokens, ← hvalues, ← Lexer.eq_mk hd rfl, ← Lexer.eq_mk hsemi (htext.1 hsemi)]

theorem IsDirective.exists_tokens {u : List Lexer} (h : IsDirective u) (ht : ∀ t ∈ u, HasText t) :
    ∃ d : Directive, u = d.tokens := by
  obtain ⟨d, vs, semicolon, rfl, hd, -, hvs, hsemi⟩ := h
  exact exists_directive_tokens hd hvs hsemi (ht semicolon (by simp))

theorem Sequence.exists_flatMap {π : Type} {P : List Lexer → Prop} {render : π → List Lexer}
    {u : List Lexer} (h : Sequence P u) (ht : ∀ t ∈ u, HasText t)
    (hP : ∀ v, P v → (∀ t ∈ v, HasText t) → ∃ x, v = render x) :
    ∃ parts : List π, u = parts.flatMap render := by
  obtain ⟨pieces, rfl, hpieces⟩ := h
  induction pieces with
  | nil => exact ⟨[], rfl⟩
  | cons v pieces ih =>
    rw [List.forall_mem_cons] at hpieces
    rw [List.flatten_cons, List.forall_mem_append] at ht
    obtain ⟨x, hx⟩ := hP v hpieces.1 ht.1
    obtain ⟨parts, hparts⟩ := ih hpieces.2 ht.2
    exact ⟨x :: parts, by rw [List.flatten_cons, hparts, hx, List.flatMap_cons]⟩

theorem Braced.exists_bracedTokens {Body : List Lexer → Prop} {u : List Lexer}
    (h : Braced Body u) (ht : ∀ t ∈ u, HasText t) :
    ∃ body, u = bracedTokens body ∧ Body body ∧ ∀ t ∈ body, HasText t := by
  obtain ⟨l, body, r, rfl, hl, hbody, hr⟩ := h
  refine ⟨body, ?_, hbody, fun t hmem => ht t (by simp [hmem])⟩
  rw [bracedTokens, ← Lexer.eq_mk hl ((ht l (by simp)).2.1 hl),
    ← Lexer.eq_mk hr ((ht r (by simp)).2.2 hr)]

theorem IsLocation.exists_tokens {u : List Lexer} (h : IsLocation u) (ht : ∀ t ∈ u, HasText t) :
    ∃ path body, u = (Statement.location path body).tokens := by
  obtain ⟨w, path, v, rfl, hw, hpath, hv⟩ := h
  obtain ⟨body, rfl, hbody, htext⟩ :=
    hv.exists_bracedTokens fun t hmem => ht t (by simp [hmem])
  obtain ⟨ds, rfl⟩ := hbody.exists_flatMap htext fun _ hd htd => hd.exists_tokens htd
  refine ⟨path.value, ds, ?_⟩
  rw [Statement.tokens, ← Lexer.eq_mk hw.1 hw.2, ← Lexer.eq_mk hpath rfl]

/-- **A server of the grammar** is a list of statements. -/
theorem IsServer.exists_tokens {u : List Lexer} (h : IsServer u) (ht : ∀ t ∈ u, HasText t) :
    ∃ block, u = serverTokens block := by
  obtain ⟨w, v, rfl, hw, hv⟩ := h
  obtain ⟨body, rfl, hbody, htext⟩ :=
    hv.exists_bracedTokens fun t hmem => ht t (by simp [hmem])
  have hstatement : ∀ p, IsDirective p ∨ IsLocation p → (∀ t ∈ p, HasText t) →
      ∃ st : Statement, p = st.tokens := by
    rintro p (hp | hp) htp
    · obtain ⟨d, rfl⟩ := hp.exists_tokens htp
      exact ⟨.directive d, rfl⟩
    · obtain ⟨path, body, rfl⟩ := hp.exists_tokens htp
      exact ⟨.location path body, rfl⟩
  obtain ⟨block, rfl⟩ := hbody.exists_flatMap htext hstatement
  exact ⟨block, by rw [serverTokens, ← Lexer.eq_mk hw.1 hw.2]⟩

/-- **What is accepted as a server** is the tokens of a list of statements. -/
theorem exists_block_of_parsServer {tokens : List Bytes} {w : Lexer} {s c : ServerConf} {n : ℕ}
    (hw : (streamOf tokens)[i]? = some w) (hword : IsWord "server" w)
    (hok : parsServer sz s (streamOf tokens) i = .ok (c, n)) :
    ∃ block, Span (streamOf tokens) i n (serverTokens block) := by
  have hreads : Reads (streamOf tokens) i _ (parsServer sz s _ i) := reads_parsServer hw hword s
  rw [hok] at hreads
  cases hreads with
  | ok hspan hserver =>
    have hmem : ∀ t ∈ _, t ∈ streamOf tokens :=
      fun t ht => List.mem_of_mem_drop (hspan.2.subset ht)
    obtain ⟨block, rfl⟩ := hserver.exists_tokens fun t ht => hasText_of_mem_streamOf (hmem t ht)
    exact ⟨block, hspan⟩

end Webserv
