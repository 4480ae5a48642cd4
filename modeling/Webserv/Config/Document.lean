import Webserv.Config.Blocks
import Webserv.Config.Layout

/-!
# What a configuration means

A configuration is a list of blocks of events and at most one http block, whose statements are
directives and servers.  What the parser makes of it is a fold over the blocks, which knows neither
of indices nor of tokens.

## Main results

* `parsingLexems_eq` — **what the parser makes of a document.**
* `exists_document` — what the parser accepts is a document.
-/

namespace Webserv

open Bytes Cursor

/-! ### Documents -/

/-- A token that a block of events passes over. -/
abbrev StrayToken := { t : Lexer // t.type ≠ .lbrace ∧ t.type ≠ .rbrace ∧ t.type ≠ .directive }

/-- A part of a block of events. -/
inductive EventsPart where
  | directive (d : Directive)
  | stray (t : StrayToken)

/-- A part of the http block. -/
inductive HttpPart where
  | directive (d : Directive)
  | server (block : List Statement)

/-- A block of the top level. -/
inductive TopBlock.Part where
  | events (body : List EventsPart)
  | http (body : List HttpPart)

/-- A configuration. -/
abbrev Document := List TopBlock.Part

/-- The tokens of a part of `events`. -/
def EventsPart.tokens : EventsPart → List Lexer
  | directive d => d.tokens
  | stray t => [t.1]

/-- The tokens of a part of `http`. -/
def HttpPart.tokens : HttpPart → List Lexer
  | directive d => d.tokens
  | server block => serverTokens block

/-- The tokens of a block at the top. -/
def TopBlock.Part.tokens : TopBlock.Part → List Lexer
  | .events body => ⟨.context, ascii "events"⟩ :: bracedTokens (body.flatMap EventsPart.tokens)
  | .http body => ⟨.context, ascii "http"⟩ :: bracedTokens (body.flatMap HttpPart.tokens)

/-- The tokens of a document. -/
def Document.tokens (doc : Document) : List Lexer := doc.flatMap TopBlock.Part.tokens

/-! ### Meanings -/

/-- A part of a block of events; what is wrong with it is a warning. -/
def eventsPart (events : EventsConf) : EventsPart → Except Report EventsConf
  | .directive d => .ok (eventsDirective events d.name d.values)
  | .stray _ => .ok events

/-- A part of the http block: a server starts from what the block has said so far. -/
def httpPart (sz : Bytes → ℤ) (p : ParserConf) : HttpPart → Except Report ParserConf
  | .directive d => do
    let http ← httpDirective sz p.http d.name d.values
    .ok { p with http := http }
  | .server block => do
    let s ← serverBlock sz (.ofHttp p.http) block
    .ok { p with http.servers := p.http.servers ++ [s], existServer := true }

/-- A block of the top level. -/
def topBlock (sz : Bytes → ℤ) (p : ParserConf) : TopBlock.Part → Except Report ParserConf
  | .events body => do
    let events ← body.foldlM eventsPart ⟨0, []⟩
    .ok { p with events }
  | .http body =>
    if p.existHttp then .error (.of "Duplicate block: http" "parsing_lexems")
    else body.foldlM (httpPart sz) { p with existHttp := true }

/-- A configuration. -/
def Document.conf (sz : Bytes → ℤ) (doc : Document) : Except Report ParserConf :=
  doc.foldlM (topBlock sz) .empty

/-! ### The parser -/

variable {sz : Bytes → ℤ} {stream : List Lexer} {i j : ℕ}

theorem bind_ok {σ : Type} (c : Except Report σ) : (c >>= fun a => Except.ok a) = c := by
  cases c <;> rfl

theorem eventsItem_eq {part : EventsPart} (hspan : Span stream i j part.tokens)
    (events : EventsConf) :
    ∃ a : Lexer, stream[i]? = some a ∧ decide (a.type = .rbrace) = false ∧
      eventsItem stream a events i = atCursor j (eventsPart events part) := by
  cases part with
  | directive d =>
    refine ⟨_, Span.head hspan, rfl, ?_⟩
    have hvalues : consumeValuesLenient stream i = .ok (d.values, j) :=
      consumeUntilSemicolon_eq _ _ rfl hspan
    rw [eventsItem, if_neg (by simp), if_pos rfl, hvalues]
    rfl
  | stray t =>
    obtain ⟨hlbrace, hrbrace, hdirective⟩ := t.2
    refine ⟨t.1, Span.head hspan, decide_eq_false hrbrace, ?_⟩
    rw [eventsItem, if_neg hlbrace, if_neg hdirective, ← hspan.1]
    rfl

/-- **A block of events.** -/
theorem parseEvents_eq {body : List EventsPart}
    (hspan : Span stream i j (TopBlock.Part.events body).tokens) (events : EventsConf) :
    parseEvents events stream i = atCursor j (body.foldlM eventsPart events) := by
  have hbraced := braced_eq eventsPart (readsItems_events stream)
    (.of "Expected '\x7b' after events" "parseEvents")
    (.of "Syntax Error: Unclosed events block" "parseEvents")
    (fun part events i j hpart => eventsItem_eq hpart events) hspan.tail events
    (fun events k => .ok (events, k + 1)) (fun events => .ok events) fun events k hk _ => by
      rw [hk]
      rfl
  exact hbraced.trans (congrArg _ (bind_ok _))

theorem httpItem_eq {part : HttpPart} (hspan : Span stream i j part.tokens) (p : ParserConf) :
    ∃ a : Lexer, stream[i]? = some a ∧ decide (a.type = .rbrace) = false ∧
      httpItem sz stream a p i = atCursor j (httpPart sz p part) := by
  cases part with
  | directive d =>
    have hlt := Nat.le_of_lt (List.getElem?_eq_some_iff.mp (Span.head hspan)).1
    refine ⟨_, Span.head hspan, rfl, ?_⟩
    rw [httpItem, if_neg (by simp), if_pos rfl]
    exact directive_eq hspan _ (fun http => { p with http := http }) (hspan.le hlt)
  | server block =>
    refine ⟨_, Span.head hspan, rfl, ?_⟩
    rw [httpItem, if_pos ⟨rfl, rfl⟩, parsServer_eq hspan, httpPart]
    cases serverBlock sz (.ofHttp p.http) block with
    | error r => rfl
    | ok s => rfl

/-- **The http block.** -/
theorem parsHttp_eq {body : List HttpPart}
    (hspan : Span stream i j (TopBlock.Part.http body).tokens) (p : ParserConf) :
    parsHttp sz p stream i = atCursor j (body.foldlM (httpPart sz) p) := by
  have hbraced := braced_eq (httpPart sz) (readsItems_http sz stream)
    (parserReport "'Expected '\x7b' after http' in parsHTTP")
    (parserReport "'Unclosed http block' in parsHTTP")
    (fun part p i j hpart => httpItem_eq hpart p) hspan.tail p
    (fun p k => .ok (p, k + 1)) (fun p => .ok p) fun p k hk _ => by
      rw [hk]
      rfl
  exact hbraced.trans (congrArg _ (bind_ok _))

theorem topItem_eq {part : TopBlock.Part} (hspan : Span stream i j part.tokens) (p : ParserConf) :
    ∃ a : Lexer, stream[i]? = some a ∧ decide (a.type = .«end») = false ∧
      topItem sz stream a p i = atCursor j (topBlock sz p part) := by
  cases part with
  | events body =>
    refine ⟨_, Span.head hspan, rfl, ?_⟩
    rw [topItem, if_pos ⟨rfl, rfl⟩, parseEvents_eq hspan, topBlock]
    cases body.foldlM eventsPart ⟨0, []⟩ with
    | error r => rfl
    | ok events => rfl
  | http body =>
    have hlt := Nat.le_of_lt (List.getElem?_eq_some_iff.mp (Span.head hspan)).1
    have hword : ¬ ((⟨.context, ascii "http"⟩ : Lexer).type = .context ∧
        (⟨.context, ascii "http"⟩ : Lexer).value = ascii "events") := by decide
    refine ⟨_, Span.head hspan, rfl, ?_⟩
    rw [topItem, if_neg hword, if_pos ⟨rfl, rfl⟩, topBlock]
    split
    · exact reportParseError_eq hlt _
    · exact parsHttp_eq hspan _

/-- **What the parser makes of a document.** -/
theorem parsingLexems_eq (sz : Bytes → ℤ) (doc : Document) (text : Bytes) :
    parsingLexems sz .empty (doc.tokens ++ [⟨.«end», text⟩]) =
      atCursor doc.tokens.length (doc.conf sz) := by
  have hspan := Span.between [] doc.tokens [⟨.«end», text⟩]
  rw [List.nil_append, List.length_nil, Nat.zero_add] at hspan
  have hend : (doc.tokens ++ [⟨.«end», text⟩])[doc.tokens.length]? = some ⟨.«end», text⟩ := by
    rw [List.getElem?_append_right (Nat.le_refl _), Nat.sub_self]
    rfl
  exact whileReading_flatMap (topBlock sz) (readsItems_top sz _)
    (fun part p i j hpart => topItem_eq hpart p) rfl doc .empty 0 hspan hend

/-! ### What is accepted -/

/-- A piece of a block of events. -/
def IsEventsPart (u : List Lexer) : Prop :=
  (∃ d vs semicolon, u = d :: (vs ++ [semicolon]) ∧ d.type = .directive ∧
    (∀ v ∈ vs, v.type = .value) ∧ semicolon.type = .semicolon) ∨ ∃ t : StrayToken, u = [t.1]

theorem readsItems_eventsParts (stream : List Lexer) :
    ReadsItems (·.type = .rbrace) (eventsItem stream) stream fun u _ _ => IsEventsPart u := by
  intro t events i ht hstop
  have hi := Nat.le_of_lt (List.getElem?_eq_some_iff.mp ht).1
  unfold eventsItem
  split
  · exact reads_reportParseError hi _
  · next hlbrace =>
    split
    · next htype =>
      refine .bind hi (reads_consumeUntilSemicolon _ _ ht) fun values j u _ _ hu => ?_
      obtain ⟨vs, semicolon, rfl, hvs, -, hsemi⟩ := hu
      refine .ok (Span.nil stream j) ?_
      rw [List.append_nil]
      exact ⟨List.cons_ne_nil t _, .inl ⟨t, vs, semicolon, rfl, htype, hvs, hsemi⟩⟩
    · next htype =>
      exact .ok (Span.single ht) ⟨List.cons_ne_nil t _,
        .inr ⟨⟨t, hlbrace, of_decide_eq_false hstop, htype⟩, rfl⟩⟩

theorem IsEventsPart.exists_part {u : List Lexer} (h : IsEventsPart u)
    (ht : ∀ t ∈ u, HasText t) : ∃ part : EventsPart, u = part.tokens := by
  rcases h with ⟨d, vs, semicolon, rfl, hd, hvs, hsemi⟩ | ⟨t, rfl⟩
  · obtain ⟨e, he⟩ := exists_directive_tokens hd hvs hsemi (ht semicolon (by simp))
    exact ⟨.directive e, he⟩
  · exact ⟨.stray t, rfl⟩

/-- The blocks of events that are accepted. -/
theorem reads_eventsParts {w : Lexer} (hw : stream[i]? = some w) (hword : IsWord "events" w)
    (htext : ∀ t ∈ stream, HasText t) (events : EventsConf) :
    Cursor.Reads stream i (fun u _ => ∃ body, u = (TopBlock.Part.events body).tokens)
      (parseEvents events stream i) := by
  have hlt := (List.getElem?_eq_some_iff.mp hw).1
  have hreads : Cursor.Reads stream i
      (fun u (_ : EventsConf) => ∃ v, u = w :: v ∧ Braced (Sequence IsEventsPart) v)
      (parseEvents events stream i) := by
    refine .after (Span.single hw) ?_
    exact reads_braced hlt _ _ (readsItems_eventsParts stream) _
      (fun events j => Except.ok (events, j + 1)) fun events' j l body r hr hl hrtype hbody =>
        .ok (Span.single hr) ⟨_, rfl, l, body, r, rfl, hl, .of_items hbody fun _ _ _ h => h, hrtype⟩
  refine hreads.mem.imp ?_
  rintro u events ⟨⟨v, rfl, hv⟩, hmem⟩
  have ht : ∀ t ∈ v, HasText t := fun t hmem' => htext t (hmem t (List.mem_cons_of_mem w hmem'))
  obtain ⟨body, rfl, hbody, hbodytext⟩ := hv.exists_bracedTokens ht
  obtain ⟨parts, rfl⟩ := hbody.exists_flatMap hbodytext fun _ hpart htp => hpart.exists_part htp
  exact ⟨parts, by rw [TopBlock.Part.tokens, ← Lexer.eq_mk hword.1 hword.2]⟩

theorem IsHttp.exists_tokens {u : List Lexer} (h : IsHttp u) (ht : ∀ t ∈ u, HasText t) :
    ∃ body, u = (TopBlock.Part.http body).tokens := by
  obtain ⟨w, v, rfl, hw, hv⟩ := h
  obtain ⟨body, rfl, hbody, htext⟩ :=
    hv.exists_bracedTokens fun t hmem => ht t (by simp [hmem])
  have hpart : ∀ p, IsDirective p ∨ IsServer p → (∀ t ∈ p, HasText t) →
      ∃ part : HttpPart, p = part.tokens := by
    rintro p (hp | hp) htp
    · obtain ⟨d, rfl⟩ := hp.exists_tokens htp
      exact ⟨.directive d, rfl⟩
    · obtain ⟨block, rfl⟩ := hp.exists_tokens htp
      exact ⟨.server block, rfl⟩
  obtain ⟨parts, rfl⟩ := hbody.exists_flatMap htext hpart
  exact ⟨parts, by rw [TopBlock.Part.tokens, ← Lexer.eq_mk hw.1 hw.2]⟩

theorem readsItems_document (sz : Bytes → ℤ) (htext : ∀ t ∈ stream, HasText t) :
    ReadsItems (·.type = .«end») (topItem sz stream) stream
      fun u _ _ => ∃ part : TopBlock.Part, u = part.tokens := by
  intro t p i ht _
  have hi := Nat.le_of_lt (List.getElem?_eq_some_iff.mp ht).1
  have hne : ∀ part : TopBlock.Part,
      part.tokens ≠ [] ∧ ∃ part' : TopBlock.Part, part.tokens = part'.tokens := by
    intro part
    refine ⟨?_, part, rfl⟩
    cases part <;> exact List.cons_ne_nil _ _
  unfold topItem
  split
  · next hword =>
    refine .bind hi (reads_eventsParts ht hword htext _) fun events j u _ _ hu => ?_
    obtain ⟨body, rfl⟩ := hu
    refine .ok (Span.nil stream j) ?_
    rw [List.append_nil]
    exact hne _
  · split
    · next hword =>
      split
      · exact reads_reportParseError hi _
      · refine (reads_parsHttp ht hword _).mem.imp ?_
        rintro u p' ⟨⟨hhttp, -⟩, hmem⟩
        obtain ⟨body, rfl⟩ := hhttp.exists_tokens fun t hmem' => htext t (hmem t hmem')
        exact hne _
    · exact reads_reportParseError hi _

/-- Parts that have been read one behind the other. -/
theorem exists_flatMap_of_items {σ π : Type} {render : π → List Lexer} {u : List Lexer} {t t' : σ}
    (h : Items (fun u (_ _ : σ) => ∃ part, u = render part) u t t') :
    ∃ parts : List π, u = parts.flatMap render := by
  induction h with
  | nil t => exact ⟨[], rfl⟩
  | cons hitem _ ih =>
    obtain ⟨part, rfl⟩ := hitem
    obtain ⟨parts, rfl⟩ := ih
    exact ⟨part :: parts, by rw [List.flatMap_cons]⟩

theorem identify_ne_end (s : Bytes) : Lexer.identify s ≠ .«end» := by
  unfold Lexer.identify
  split_ifs <;> decide

/-- The one `TYPE_END` of the vector is its last token. -/
theorem eq_of_end {tokens : List Bytes} {u rest : List Lexer} {t : Lexer} (ht : t.type = .«end»)
    (h : streamOf tokens = u ++ t :: rest) : streamOf tokens = u ++ [⟨.«end», []⟩] := by
  have hfront : ∀ t ∈ tokens.map fun s => (⟨Lexer.identify s, s⟩ : Lexer), t.type ≠ .«end» := by
    intro t ht
    obtain ⟨s, -, rfl⟩ := List.mem_map.mp ht
    exact identify_ne_end s
  rw [streamOf] at h ⊢
  cases rest using List.reverseRecOn with
  | nil => rw [(List.append_inj' h rfl).1]
  | append_singleton rest x =>
    rw [← List.cons_append, ← List.append_assoc] at h
    have hmem : t ∈ tokens.map fun s => (⟨Lexer.identify s, s⟩ : Lexer) := by
      rw [(List.append_inj' h rfl).1]
      exact List.mem_append_right u List.mem_cons_self
    exact absurd ht (hfront t hmem)

theorem TopBlock.Part.exists_rbrace (part : TopBlock.Part) :
    ∃ v, part.tokens = v ++ [⟨.rbrace, ascii "\x7d"⟩] := by
  cases part with
  | events body => exact ⟨⟨.context, ascii "events"⟩ :: ⟨.lbrace, ascii "\x7b"⟩ :: _, rfl⟩
  | http body => exact ⟨⟨.context, ascii "http"⟩ :: ⟨.lbrace, ascii "\x7b"⟩ :: _, rfl⟩

/-- A document does not end with `TYPE_END`. -/
theorem Document.tokens_ne_concat (doc : Document) {u : List Lexer} {t : Lexer}
    (ht : t.type = .«end») : doc.tokens ≠ u ++ [t] := by
  intro h
  cases doc using List.reverseRecOn with
  | nil => exact absurd h.symm (List.append_ne_nil_of_right_ne_nil u (List.cons_ne_nil t []))
  | append_singleton doc part =>
    obtain ⟨v, hv⟩ := part.exists_rbrace
    rw [Document.tokens, List.flatMap_append, List.flatMap_singleton, hv, ← List.append_assoc] at h
    rw [← (List.cons.inj (List.append_inj' h rfl).2).1] at ht
    cases ht

/-- **What the parser accepts is a document**, and it makes of it what it means. -/
theorem exists_document {tokens : List Bytes} {p : ParserConf} {n : ℕ}
    (h : parsingLexems sz .empty (streamOf tokens) = .ok (p, n)) :
    ∃ doc : Document, streamOf tokens = doc.tokens ++ [⟨.«end», []⟩] ∧ doc.conf sz = .ok p := by
  have htext : ∀ t ∈ streamOf tokens, HasText t := fun t ht => hasText_of_mem_streamOf ht
  have hreads := readsItems_document sz htext
  rcases whileReading_cases hreads .empty (Nat.zero_le _) with
    ⟨r, hr⟩ | ⟨q, j, u, hr, hspan, hitems, hstop⟩
  · rw [parsingLexems, hr] at h
    cases h
  · obtain ⟨doc, rfl⟩ := exists_flatMap_of_items hitems
    obtain ⟨hj, w, hw⟩ := hspan
    rw [Nat.zero_add] at hj
    rw [List.drop_zero] at hw
    have hstream : streamOf tokens = Document.tokens doc ++ [⟨.«end», []⟩] := by
      cases w with
      | nil =>
        rw [List.append_nil, streamOf] at hw
        exact absurd hw (Document.tokens_ne_concat doc rfl)
      | cons t rest =>
        have ht : (streamOf tokens)[j]? = some t := by
          rw [← hw, ← hj, List.getElem?_append_right (Nat.le_refl _), Nat.sub_self]
          rfl
        exact eq_of_end (of_decide_eq_true (hstop t ht)) hw.symm
    refine ⟨doc, hstream, ?_⟩
    rw [hstream, parsingLexems_eq, atCursor_eq_ok_iff] at h
    exact h.1

end Webserv
