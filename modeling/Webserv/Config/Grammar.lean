import Webserv.Config.Parser

/-!
# The grammar of a configuration

The functions of the parser share one index, which some of them move by more than one token.  Each
of them ends, reads no token out of range, and has read a piece that the grammar describes when it
does not throw.

## Main results

* `reads_parsServer`, `reads_parsHttp`, `reads_parseEvents` — what the blocks are.
* `parsingLexems_grammar` — **what is accepted is a configuration.**
-/

namespace Webserv

open Bytes Cursor

/-! ### The grammar -/

/-- A directive word, its values, and a semicolon. -/
def IsDirective (u : List Lexer) : Prop :=
  ∃ d vs semicolon, u = d :: (vs ++ [semicolon]) ∧ d.type = .directive ∧ vs ≠ [] ∧
    (∀ v ∈ vs, v.type = .value) ∧ semicolon.type = .semicolon

/-- Pieces that are put together. -/
def Sequence (P : List Lexer → Prop) (u : List Lexer) : Prop :=
  ∃ pieces : List (List Lexer), u = pieces.flatten ∧ ∀ v ∈ pieces, P v

/-- A body in braces. -/
def Braced (Body : List Lexer → Prop) (u : List Lexer) : Prop :=
  ∃ l body r, u = l :: (body ++ [r]) ∧ l.type = .lbrace ∧ Body body ∧ r.type = .rbrace

/-- A token is a given word of the blocks. -/
def IsWord (word : String) (t : Lexer) : Prop := t.type = .context ∧ t.value = ascii word

/-- A location: the word, its path, and directives. -/
def IsLocation (u : List Lexer) : Prop :=
  ∃ w path v, u = w :: path :: v ∧ IsWord "location" w ∧ path.type = .value ∧
    Braced (Sequence IsDirective) v

/-- A server: the word, and directives and locations. -/
def IsServer (u : List Lexer) : Prop :=
  ∃ w v, u = w :: v ∧ IsWord "server" w ∧
    Braced (Sequence fun p => IsDirective p ∨ IsLocation p) v

/-- The http block: the word, and directives and servers. -/
def IsHttp (u : List Lexer) : Prop :=
  ∃ w v, u = w :: v ∧ IsWord "http" w ∧ Braced (Sequence fun p => IsDirective p ∨ IsServer p) v

/-- A block of events: the word, and tokens without braces. -/
def IsEvents (u : List Lexer) : Prop :=
  ∃ w v, u = w :: v ∧ IsWord "events" w ∧
    Braced (fun body => ∀ t ∈ body, t.type ≠ .lbrace ∧ t.type ≠ .rbrace) v

/-- Blocks of events, with at most one http block. -/
def IsConfig (u : List Lexer) : Prop :=
  Sequence IsEvents u ∨ ∃ front http back, u = front ++ http ++ back ∧ Sequence IsEvents front ∧
    IsHttp http ∧ Sequence IsEvents back

theorem Sequence.nil (P : List Lexer → Prop) : Sequence P [] := ⟨[], rfl, by simp⟩

theorem Sequence.cons {P : List Lexer → Prop} {u v : List Lexer} (hu : P u) (hv : Sequence P v) :
    Sequence P (u ++ v) := by
  obtain ⟨pieces, rfl, hpieces⟩ := hv
  exact ⟨u :: pieces, rfl, List.forall_mem_cons.mpr ⟨hu, hpieces⟩⟩

theorem Sequence.of_items {σ : Type} {Item : List Lexer → σ → σ → Prop} {P : List Lexer → Prop}
    {u : List Lexer} {t t' : σ} (h : Items Item u t t') (hP : ∀ u t t', Item u t t' → P u) :
    Sequence P u := by
  induction h with
  | nil t => exact .nil P
  | cons hitem _ ih => exact .cons (hP _ _ _ hitem) ih

/-! ### Blocks -/

variable {σ τ : Type} {stream : List Lexer} {i j : ℕ}

theorem reads_reported {G : List Lexer → τ → Prop} (hi : i ≤ stream.length) (c : Except Report σ)
    {f : σ → Except ParseStop (τ × ℕ)} (hf : ∀ a, c = .ok a → Reads stream i G (f a)) :
    Reads stream i G (reported stream i c >>= f) := by
  rw [reported_eq hi]
  cases c with
  | ok a => exact hf a rfl
  | error r => exact .threw r

theorem reads_reportParseError {G : List Lexer → τ → Prop} (hi : i ≤ stream.length) (r : Report) :
    Reads stream i G (reportParseError stream i r) := by
  rw [reportParseError_eq hi]
  exact .threw r

/-- **A body in braces**, and what is done at the closing brace. -/
theorem reads_braced {item : Lexer → σ → ℕ → Except ParseStop (σ × ℕ)}
    {Item : List Lexer → σ → σ → Prop} {G : List Lexer → τ → Prop} (hi : i ≤ stream.length)
    (rl rr : Report) (hitem : ReadsItems (·.type = .rbrace) item stream Item) (t : σ)
    (f : σ → ℕ → Except ParseStop (τ × ℕ))
    (hf : ∀ t' j l body r, stream[j]? = some r → l.type = .lbrace → r.type = .rbrace →
      Items Item body t t' → Reads stream j (fun v y => G (l :: (body ++ v)) y) (f t' j)) :
    Reads stream i G (do
      requireType stream i .lbrace rl
      let (t', j) ← whileReading (·.type = .rbrace) item stream (t, i + 1)
      requireType stream j .rbrace rr
      f t' j) := by
  refine .check ?_
  rcases requireType_cases hi .lbrace rl with ⟨l, hl, hltype, hok⟩ | herror
  · refine .inl ⟨(), hok, .after (Span.single hl) ?_⟩
    have hlt := (List.getElem?_eq_some_iff.mp hl).1
    refine .bind hlt (reads_whileReading hitem t hlt) fun t' j body hj _ hbody => .check ?_
    rcases requireType_cases hj .rbrace rr with ⟨r, hr, hrtype, hok⟩ | herror
    · exact .inl ⟨(), hok, hf t' j l body r hr hltype hrtype hbody⟩
    · exact .inr ⟨rr, herror⟩
  · exact .inr ⟨rl, herror⟩

/-! ### Directives -/

/-- **A directive**, and what is made of its values: a directive without values is refused. -/
theorem reads_directive {d : Lexer} (hd : stream[i]? = some d) (htype : d.type = .directive)
    (missing ended : Report) (act : List Bytes → Except Report σ)
    (hact : ∀ values a, act values = .ok a → values ≠ []) (f : σ → τ) :
    Reads stream i (fun u y => IsDirective u ∧ ∃ a, y = f a) (do
      let (values, j) ← consumeUntilSemicolon missing ended stream i
      let a ← reported stream j (act values)
      .ok (f a, j)) := by
  refine .bind (Nat.le_of_lt (List.getElem?_eq_some_iff.mp hd).1)
    (reads_consumeUntilSemicolon missing ended hd) fun values j u hj _ hu => ?_
  obtain ⟨vs, semicolon, rfl, hvs, rfl, hsemi⟩ := hu
  refine reads_reported hj _ fun a ha => .ok (Span.nil stream j) ⟨?_, a, rfl⟩
  refine ⟨d, vs, semicolon, by rw [List.append_nil], htype, ?_, hvs, hsemi⟩
  rintro rfl
  exact hact _ a ha rfl

variable {sz : Bytes → ℤ}

theorem values_of_locationDirective {l l' : LocationConf} {d : Bytes} (values : List Bytes)
    (h : locationDirective sz l d values = .ok l') : values ≠ [] := by
  rintro rfl
  rw [locationDirective, if_pos List.isEmpty_nil] at h
  cases h

theorem values_of_serverDirective {s s' : ServerConf} {d : Bytes} (values : List Bytes)
    (h : serverDirective sz s d values = .ok s') : values ≠ [] := by
  rintro rfl
  rw [serverDirective, if_pos List.isEmpty_nil] at h
  cases h

theorem values_of_httpDirective {http http' : HttpConf} {d : Bytes} (values : List Bytes)
    (h : httpDirective sz http d values = .ok http') : values ≠ [] := by
  rintro rfl
  rw [httpDirective, if_pos List.isEmpty_nil] at h
  cases h

/-- An item that is read is there. -/
theorem IsDirective.ne_nil {u : List Lexer} (h : IsDirective u) : u ≠ [] := by
  obtain ⟨d, vs, semicolon, rfl, -⟩ := h
  exact List.cons_ne_nil d _

/-! ### The blocks -/

theorem readsItems_location (sz : Bytes → ℤ) (stream : List Lexer) :
    ReadsItems (·.type = .rbrace) (locationItem sz stream) stream fun u _ _ => IsDirective u := by
  intro t x i ht _
  have hi := Nat.le_of_lt (List.getElem?_eq_some_iff.mp ht).1
  unfold locationItem
  split
  · next htype =>
    refine reads_reported hi _ fun seen _ => ?_
    refine (reads_directive ht htype _ _ _ (fun values a => values_of_locationDirective values)
      fun l => (l, seen)).imp fun u y hu => ?_
    exact ⟨hu.1.ne_nil, hu.1⟩
  · exact reads_reportParseError hi _

/-- **The path of a location** is one word. -/
theorem reads_locationPath (hi : i ≤ stream.length) :
    Reads stream i (fun u _ => ∃ path, u = [path] ∧ path.type = .value)
      (locationPath stream i) := by
  unfold locationPath
  rw [test_eq, test_eq]
  cases ht : stream[i]? with
  | none => exact reads_reportParseError hi _
  | some t =>
    rw [tokenAt_eq ht]
    change Reads stream i _ (if _ then _ else _)
    split
    · next htype =>
      have hvalue : t.type = .value := of_decide_eq_true htype
      exact reads_reported hi _ fun _ _ => .ok (Span.single ht) ⟨t, rfl, hvalue⟩
    · change Reads stream i _ (if _ then _ else _)
      split
      · exact reads_reportParseError hi _
      · exact reads_reportParseError hi _

/-- **A location.** -/
theorem reads_parsLocation {w : Lexer} (hw : stream[i]? = some w) (hword : IsWord "location" w)
    (l : LocationConf) : Reads stream i (fun u _ => IsLocation u) (parsLocation sz l stream i) := by
  have hlt := (List.getElem?_eq_some_iff.mp hw).1
  have hskip : test (ε := Report) stream (·.value = ascii "location") i = .ok true := by
    rw [test_eq, hw]
    exact congrArg _ (decide_eq_true hword.2)
  unfold parsLocation
  rw [hskip]
  change Reads stream i _ (locationPath stream (i + 1) >>= _)
  refine .after (Span.single hw) (.bind hlt (reads_locationPath hlt) fun path j u hj _ hu => ?_)
  obtain ⟨t, rfl, htype⟩ := hu
  refine reads_braced hj _ _ (readsItems_location sz stream) _
    (fun x j => Except.ok (x.1, j + 1)) fun x j l body r hr hl hrtype hbody => ?_
  exact .ok (Span.single hr) ⟨w, t, _, rfl, hword, htype, l, body, r, rfl, hl,
    .of_items hbody fun _ _ _ h => h, hrtype⟩

theorem IsLocation.ne_nil {u : List Lexer} (h : IsLocation u) : u ≠ [] := by
  obtain ⟨w, path, v, rfl, -⟩ := h
  exact List.cons_ne_nil w _

theorem readsItems_server (sz : Bytes → ℤ) (stream : List Lexer) :
    ReadsItems (·.type = .rbrace) (serverItem sz stream) stream
      fun u _ _ => IsDirective u ∨ IsLocation u := by
  intro t x i ht _
  have hi := Nat.le_of_lt (List.getElem?_eq_some_iff.mp ht).1
  unfold serverItem
  split
  · next hword =>
    refine .bind hi (reads_parsLocation ht hword _) fun l j u _ _ hu => ?_
    refine .ok (Span.nil stream j) ?_
    rw [List.append_nil]
    exact ⟨hu.ne_nil, .inr hu⟩
  · split
    · next htype =>
      refine reads_reported hi _ fun seen _ => ?_
      refine (reads_directive ht htype _ _ _ (fun values a => values_of_serverDirective values)
        fun s => (s, seen)).imp fun u y hu => ?_
      exact ⟨hu.1.ne_nil, .inl hu.1⟩
    · exact reads_reportParseError hi _

/-- **A server.** -/
theorem reads_parsServer {w : Lexer} (hw : stream[i]? = some w) (hword : IsWord "server" w)
    (s : ServerConf) : Reads stream i (fun u _ => IsServer u) (parsServer sz s stream i) := by
  have hlt := (List.getElem?_eq_some_iff.mp hw).1
  refine .after (Span.single hw) ?_
  refine reads_braced hlt _ _ (readsItems_server sz stream) _
    (fun x j => closeServer x.1 stream j) fun x j l body r hr hl hrtype hbody => ?_
  have hj := Nat.le_of_lt (List.getElem?_eq_some_iff.mp hr).1
  refine reads_reported hj _ fun _ _ => reads_reported hj _ fun _ _ => .check ?_
  cases verifyingPaths [] (x.1.locations.map (LocationConf.inherit x.1)) with
  | error r => exact .inr ⟨r, rfl⟩
  | ok _ =>
    exact .inl ⟨(), rfl, .ok (Span.single hr) ⟨w, _, rfl, hword, l, body, r, rfl, hl,
      .of_items hbody fun _ _ _ h => h, hrtype⟩⟩

theorem IsServer.ne_nil {u : List Lexer} (h : IsServer u) : u ≠ [] := by
  obtain ⟨w, v, rfl, -⟩ := h
  exact List.cons_ne_nil w _

theorem readsItems_http (sz : Bytes → ℤ) (stream : List Lexer) :
    ReadsItems (·.type = .rbrace) (httpItem sz stream) stream
      fun u p p' => (IsDirective u ∨ IsServer u) ∧ p'.existHttp = p.existHttp := by
  intro t p i ht _
  have hi := Nat.le_of_lt (List.getElem?_eq_some_iff.mp ht).1
  unfold httpItem
  split
  · next hword =>
    refine .bind hi (reads_parsServer ht hword _) fun s j u _ _ hu => ?_
    refine .ok (Span.nil stream j) ?_
    rw [List.append_nil]
    exact ⟨hu.ne_nil, .inr hu, rfl⟩
  · split
    · next htype =>
      refine (reads_directive ht htype _ _ _ (fun values a => values_of_httpDirective values)
        fun http => { p with http := http }).imp fun u y hu => ?_
      obtain ⟨hu, http, rfl⟩ := hu
      exact ⟨hu.ne_nil, .inl hu, rfl⟩
    · exact reads_reportParseError hi _

/-- **The http block.** -/
theorem reads_parsHttp {w : Lexer} (hw : stream[i]? = some w) (hword : IsWord "http" w)
    (p : ParserConf) :
    Reads stream i (fun u p' => IsHttp u ∧ p'.existHttp = p.existHttp)
      (parsHttp sz p stream i) := by
  have hlt := (List.getElem?_eq_some_iff.mp hw).1
  refine .after (Span.single hw) ?_
  refine reads_braced hlt _ _ (readsItems_http sz stream) _ (fun p j => Except.ok (p, j + 1))
    fun p' j l body r hr hl hrtype hbody => .ok (Span.single hr) ⟨⟨w, _, rfl, hword, l, body, r,
      rfl, hl, .of_items hbody fun _ _ _ h => h.1, hrtype⟩, ?_⟩
  induction hbody with
  | nil p => rfl
  | cons hitem _ ih => exact (ih).trans hitem.2

/-! ### Events -/

theorem readsItems_events (stream : List Lexer) :
    ReadsItems (·.type = .rbrace) (eventsItem stream) stream
      fun u _ _ => ∀ t ∈ u, t.type ≠ .lbrace ∧ t.type ≠ .rbrace := by
  intro t events i ht hstop
  have hi := Nat.le_of_lt (List.getElem?_eq_some_iff.mp ht).1
  have hrbrace : t.type ≠ .rbrace := of_decide_eq_false hstop
  unfold eventsItem
  split
  · exact reads_reportParseError hi _
  · next hlbrace =>
    split
    · refine .bind hi (reads_consumeUntilSemicolon _ _ ht) fun values j u _ _ hu => ?_
      obtain ⟨vs, semicolon, rfl, hvs, -, hsemi⟩ := hu
      refine .ok (Span.nil stream j) ?_
      rw [List.append_nil]
      refine ⟨List.cons_ne_nil t _, List.forall_mem_cons.mpr ⟨⟨hlbrace, hrbrace⟩, ?_⟩⟩
      intro t' ht'
      rcases List.mem_append.mp ht' with ht' | ht'
      · rw [hvs t' ht']
        exact ⟨by decide, by decide⟩
      · rw [List.mem_singleton.mp ht', hsemi]
        exact ⟨by decide, by decide⟩
    · refine .ok (Span.single ht) ⟨List.cons_ne_nil t _, fun t' ht' => ?_⟩
      rw [List.mem_singleton.mp ht']
      exact ⟨hlbrace, hrbrace⟩

/-- **A block of events.** -/
theorem reads_parseEvents {w : Lexer} (hw : stream[i]? = some w) (hword : IsWord "events" w)
    (events : EventsConf) :
    Reads stream i (fun u _ => IsEvents u) (parseEvents events stream i) := by
  have hlt := (List.getElem?_eq_some_iff.mp hw).1
  refine .after (Span.single hw) ?_
  refine reads_braced hlt _ _ (readsItems_events stream) _
    (fun events j => Except.ok (events, j + 1)) fun events' j l body r hr hl hrtype hbody =>
      .ok (Span.single hr) ⟨w, _, rfl, hword, l, body, r, rfl, hl, ?_, hrtype⟩
  induction hbody with
  | nil events => simp
  | cons hitem _ ih =>
    intro t ht
    rcases List.mem_append.mp ht with ht | ht
    · exact hitem t ht
    · exact ih t ht

/-! ### The top level -/

/-- A block of the top level, and whether there has been an http block. -/
def TopBlock (u : List Lexer) (p p' : ParserConf) : Prop :=
  IsEvents u ∧ p'.existHttp = p.existHttp ∨
    IsHttp u ∧ p.existHttp = false ∧ p'.existHttp = true

/-- The last token is a closing brace. -/
def EndsWithBrace (u : List Lexer) : Prop := ∃ v r, u = v ++ [r] ∧ r.type = .rbrace

theorem Braced.endsWithBrace {Body : List Lexer → Prop} {u : List Lexer} (w : Lexer)
    (h : Braced Body u) : EndsWithBrace (w :: u) := by
  obtain ⟨l, body, r, rfl, -, -, hr⟩ := h
  exact ⟨w :: l :: body, r, by simp, hr⟩

theorem TopBlock.endsWithBrace {u : List Lexer} {p p' : ParserConf} (h : TopBlock u p p') :
    EndsWithBrace u := by
  rcases h with ⟨⟨w, v, rfl, -, hv⟩, -⟩ | ⟨⟨w, v, rfl, -, hv⟩, -⟩
  · exact hv.endsWithBrace w
  · exact hv.endsWithBrace w

theorem readsItems_top (sz : Bytes → ℤ) (stream : List Lexer) :
    ReadsItems (·.type = .«end») (topItem sz stream) stream TopBlock := by
  intro t p i ht _
  have hi := Nat.le_of_lt (List.getElem?_eq_some_iff.mp ht).1
  have hne : ∀ {u : List Lexer} {p' : ParserConf}, TopBlock u p p' → u ≠ [] ∧ TopBlock u p p' := by
    intro u p' h
    obtain ⟨v, r, rfl, -⟩ := h.endsWithBrace
    exact ⟨List.append_ne_nil_of_right_ne_nil v (List.cons_ne_nil r []), h⟩
  unfold topItem
  split
  · next hword =>
    refine .bind hi (reads_parseEvents ht hword _) fun events j u _ _ hu => ?_
    refine .ok (Span.nil stream j) ?_
    rw [List.append_nil]
    exact hne (.inl ⟨hu, rfl⟩)
  · split
    · next hword =>
      split
      · exact reads_reportParseError hi _
      · next hfirst =>
        refine (reads_parsHttp ht hword _).imp fun u p' hu => hne (.inr ⟨hu.1, ?_, hu.2⟩)
        exact Bool.not_eq_true _ ▸ hfirst
    · exact reads_reportParseError hi _

theorem endsWithBrace_of_items {u : List Lexer} {p p' : ParserConf} (h : Items TopBlock u p p') :
    u = [] ∨ EndsWithBrace u := by
  induction h with
  | nil p => exact .inl rfl
  | cons hitem _ ih =>
    right
    rcases ih with rfl | ⟨v, r, rfl, hr⟩
    · rw [List.append_nil]
      exact hitem.endsWithBrace
    · exact ⟨_ ++ v, r, (List.append_assoc _ _ _).symm, hr⟩

/-- **At most one http block**: behind it there are events, in front of it there may be one. -/
theorem isConfig_of_items {u : List Lexer} {p p' : ParserConf} (h : Items TopBlock u p p') :
    (p.existHttp = true → Sequence IsEvents u) ∧ IsConfig u := by
  induction h with
  | nil p => exact ⟨fun _ => .nil _, .inl (.nil _)⟩
  | cons hitem _ ih =>
    rcases hitem with ⟨hevents, hsame⟩ | ⟨hhttp, hfirst, hthere⟩
    · refine ⟨fun hp => .cons hevents (ih.1 (hsame.trans hp)), ?_⟩
      rcases ih.2 with hrest | ⟨front, http, back, rfl, hfront, hhttp, hback⟩
      · exact .inl (.cons hevents hrest)
      · refine .inr ⟨_ ++ front, http, back, ?_, .cons hevents hfront, hhttp, hback⟩
        simp only [List.append_assoc]
    · refine ⟨fun hp => absurd (hfirst.symm.trans hp) Bool.false_ne_true, ?_⟩
      exact .inr ⟨[], _, _, rfl, .nil _, hhttp, ih.1 hthere⟩

/-- **What is accepted is a configuration.**  On a vector with `TYPE_END` behind it the parser ends
and reads no token out of range; when it does not throw, it has come to a `TYPE_END`, and what
stands in front of that is made of the blocks of the grammar. -/
theorem parsingLexems_grammar (sz : Bytes → ℤ) (front : List Lexer) (text : Bytes) :
    (∃ r, parsingLexems sz .empty (front ++ [⟨.«end», text⟩]) = .error (.threw r)) ∨
      ∃ p consumed rest text', parsingLexems sz .empty (front ++ [⟨.«end», text⟩]) =
          .ok (p, consumed.length) ∧
        front ++ [⟨.«end», text⟩] = consumed ++ ⟨.«end», text'⟩ :: rest ∧ IsConfig consumed ∧
        ((∀ t ∈ front, t.type ≠ .«end») → consumed = front) := by
  rcases whileReading_cases (readsItems_top sz (front ++ [⟨.«end», text⟩])) .empty
    (Nat.zero_le _) with ⟨r, hr⟩ | ⟨p, j, u, hr, hspan, hitems, hstop⟩
  · exact .inl ⟨r, hr⟩
  · right
    obtain ⟨hj, w, hw⟩ := hspan
    rw [Nat.zero_add] at hj
    rw [List.drop_zero] at hw
    cases w with
    | nil =>
      -- the last token ends no block
      rw [List.append_nil] at hw
      rcases endsWithBrace_of_items hitems with rfl | ⟨v, r, rfl, hrtype⟩
      · exact absurd hw.symm (List.append_ne_nil_of_right_ne_nil front (List.cons_ne_nil _ []))
      · obtain ⟨-, hlast⟩ := List.append_inj' hw rfl
        rw [(List.cons.inj hlast).1] at hrtype
        cases hrtype
    | cons t rest =>
      have ht : (front ++ [⟨.«end», text⟩])[j]? = some t := by
        rw [← hw, ← hj, List.getElem?_append_right (Nat.le_refl _), Nat.sub_self]
        rfl
      have htype : t.type = .«end» := of_decide_eq_true (hstop t ht)
      have hmk : t = ⟨.«end», t.value⟩ := by rw [← htype]
      refine ⟨p, u, rest, t.value, by rw [hj]; exact hr, ?_, (isConfig_of_items hitems).2, ?_⟩
      · rw [← hmk]
        exact hw.symm
      · intro hfront
        cases rest using List.reverseRecOn with
        | nil => exact (List.append_inj' hw rfl).1
        | append_singleton rest x =>
          rw [← List.cons_append, ← List.append_assoc] at hw
          have hmem : t ∈ front := by
            rw [← (List.append_inj' hw rfl).1]
            exact List.mem_append_right u List.mem_cons_self
          exact absurd htype (hfront t hmem)

end Webserv
