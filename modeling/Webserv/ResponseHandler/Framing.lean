import Webserv.Lib.HeaderSection
import Webserv.ResponseHandler.Handle

/-!
# Replies as responses

A reader of responses cuts off the header section and takes as much of what follows
as the first Content-Length announces.  `OneResponse` says that this is all there is.
The replies of the handler are of this kind but for those to HEAD, which announce a
body and have none, and those whose Location has an empty line in it, so that the
header section ends there.

## Main results

* `answers_handle` — what the handler may answer.
* `oneResponse_flatten_iff` — when an answer is one response.
-/

namespace Webserv

open Bytes HeaderSection

/-! ### One response -/

/-- The first Content-Length among the lines of a header section. -/
def announced (lines : List Bytes) : Option Bytes :=
  (lines.find? fun l => (ascii "Content-Length: ").isPrefixOf l).map (·.drop 16)

/-- A header section that announces what follows it, or a 204 with nothing behind it. -/
def OneResponse (bs : Bytes) : Prop :=
  ∃ lines body, readSection [] bs = some (lines, body) ∧
    (announced lines = some (decimal body.length) ∨
      announced lines = none ∧ (∃ l ∈ lines.head?, ascii "HTTP/1.1 204 " <+: l) ∧ body = [])

instance (bs : Bytes) : Decidable (OneResponse bs) :=
  match h : readSection [] bs with
  | none => isFalse fun ⟨_, _, h', _⟩ => by rw [h] at h'; cases h'
  | some (lines, body) =>
      decidable_of_iff
        (announced lines = some (decimal body.length) ∨ announced lines = none ∧
          (lines.head?.any fun l => (ascii "HTTP/1.1 204 ").isPrefixOf l) = true ∧ body = []) <| by
        unfold OneResponse
        simp [h, Option.any_eq_true]

/-! ### Texts without line ends -/

theorem CR_notMem_ite {c : Prop} [Decidable c] {a b : Bytes} (ha : CR ∉ a) (hb : CR ∉ b) :
    CR ∉ if c then a else b := by
  cases Decidable.em c with
  | inl h => rwa [if_pos h]
  | inr h => rwa [if_neg h]

theorem CR_notMem_reasonPhrase (code : ℤ) : CR ∉ reasonPhrase code := by
  unfold reasonPhrase
  iterate 27 refine CR_notMem_ite (by decide) ?_
  decide

theorem CR_notMem_twoDigits (n : ℕ) : CR ∉ twoDigits n := by
  unfold twoDigits
  split
  · rw [List.mem_cons, not_or]
    exact ⟨by decide, CR_notMem_decimal n⟩
  · exact CR_notMem_decimal n

theorem CR_notMem_httpDate (now : ℕ) : CR ∉ httpDate now := by
  have hnames : ∀ (names : List Bytes) (i : ℕ), (∀ l ∈ names, CR ∉ l) → CR ∉ names.getD i [] := by
    intro names i h
    rw [List.getD_eq_getElem?_getD]
    cases hi : names[i]? with
    | none => simp
    | some l => exact h l (List.mem_of_getElem? hi)
  have hdays := fun i => hnames weekdayNames i (by decide)
  have hmonths := fun i => hnames monthNames i (by decide)
  have hcomma : CR ∉ ascii ", " := by decide
  have hgmt : CR ∉ ascii " GMT" := by decide
  have hsp : CR ≠ SP := by decide
  have hcolon : CR ≠ COLON := by decide
  simp only [httpDate, List.mem_append, List.mem_singleton, hdays, hmonths, hcomma,
    hgmt, hsp, hcolon,
    CR_notMem_twoDigits, CR_notMem_decimal, or_self, not_false_eq_true]

theorem CR_notMem_connectionHeader (req : HttpRequest) : CR ∉ connectionHeader req := by
  unfold connectionHeader
  split <;> decide

theorem CR_notMem_getMimeType (path : Bytes) : CR ∉ getMimeType path := by
  have htable : ∀ e ∈ mimeTypes, CR ∉ e.2 := by decide
  unfold getMimeType
  split
  · decide
  · next i _ =>
    cases h : mimeTypes.lookup ((path.drop i).map toLower) with
    | none => decide
    | some ct =>
      obtain ⟨l₁, l₂, hl, -⟩ := List.lookup_eq_some_iff.mp h
      apply htable (_, ct)
      rw [hl]
      exact List.mem_append_right _ List.mem_cons_self

/-! ### Header sections -/

/-- The lines in front of what a response says about its location. -/
def frontLines (env : Env) (code : ℤ) (server ct : Bytes) (cl : ℕ) : List Bytes :=
  [ascii "HTTP/1.1 " ++ decimalInt code ++ [SP] ++ reasonPhrase code,
    ascii "Server: " ++ server,
    ascii "Date: " ++ httpDate env.now,
    ascii "Content-Type: " ++ ct,
    ascii "Content-Length: " ++ decimal cl]

/-- Lines with their ends. -/
def ended (lines : List Bytes) : Bytes := (lines.map (· ++ crlf)).flatten

/-- Lines with no line end in them are read as they are. -/
theorem readSection_ended_of_unbroken {lines : List Bytes}
    (h : ∀ l ∈ lines, ¬ crlf <:+: l ∧ l ≠ []) (rest : Bytes) :
    readSection [] (ended lines ++ rest) =
      (readSection [] rest).map fun r => (lines ++ r.1, r.2) := by
  induction lines with
  | nil =>
    show readSection [] rest = _
    cases readSection [] rest <;> rfl
  | cons l lines ih =>
    have hl := h l List.mem_cons_self
    have ih := ih fun l' hl' => h l' (List.mem_cons_of_mem _ hl')
    rw [ended, List.map_cons, List.flatten_cons, ← ended, List.append_assoc (l ++ crlf),
      readSection_line_of_unbroken hl.1 hl.2, ih, Option.map_map]
    rfl

theorem readSection_ended {lines : List Bytes} (h : ∀ l ∈ lines, CR ∉ l ∧ l ≠ []) (rest : Bytes) :
    readSection [] (ended lines ++ rest) =
      (readSection [] rest).map fun r => (lines ++ r.1, r.2) := by
  refine readSection_ended_of_unbroken (fun l hl => ⟨fun hwithin => ?_, (h l hl).2⟩) rest
  exact (h l hl).1 (hwithin.subset List.mem_cons_self)

/-- A line that begins with a text. -/
theorem text_append {s : String} {l : Bytes} (hs : CR ∉ ascii s ∧ ascii s ≠ []) (hl : CR ∉ l) :
    CR ∉ ascii s ++ l ∧ ascii s ++ l ≠ [] := by
  constructor
  · rw [List.mem_append, not_or]
    exact ⟨hs.1, hl⟩
  · exact List.append_ne_nil_of_left_ne_nil hs.2 l

theorem frontLines_text (env : Env) (code : ℤ) {server ct : Bytes} (cl : ℕ) (hserver : CR ∉ server)
    (hct : CR ∉ ct) : ∀ l ∈ frontLines env code server ct cl, CR ∉ l ∧ l ≠ [] := by
  have hstatus : CR ∉ decimalInt code ++ ([SP] ++ reasonPhrase code) := by
    rw [List.mem_append, List.mem_append, not_or, not_or]
    exact ⟨notMem_decimalInt (by decide) (by decide) code, by decide,
      CR_notMem_reasonPhrase code⟩
  intro l hl
  simp only [frontLines, List.mem_cons, List.not_mem_nil, or_false, List.append_assoc] at hl
  rcases hl with rfl | rfl | rfl | rfl | rfl
  · exact text_append (by decide) hstatus
  · exact text_append (by decide) hserver
  · exact text_append (by decide) (CR_notMem_httpDate _)
  · exact text_append (by decide) hct
  · exact text_append (by decide) (CR_notMem_decimal _)

/-- `_writeHeaders` in its lines. -/
theorem writeHeaders_eq (env : Env) (code : ℤ) (ct : Bytes) (cl : ℕ) (extra : Bytes)
    (req : HttpRequest) :
    writeHeaders env code ct cl extra req =
      ended (frontLines env code (ascii "webserv/1.1") ct cl) ++
        (extra ++ (ended [ascii "Connection: " ++ connectionHeader req] ++ crlf)) := by
  have hserver : ascii "Server: webserv/1.1\r\n" =
      ascii "Server: " ++ (ascii "webserv/1.1" ++ crlf) := by decide
  unfold writeHeaders ended frontLines
  rw [hserver]
  simp only [List.map_cons, List.map_nil, List.flatten_cons, List.flatten_nil, List.append_assoc,
    List.append_nil]

/-- The header section of an error page in its lines. -/
theorem errorHeaders_eq (env : Env) (code cl : ℕ) (connection : Bytes) :
    errorHeaders env code cl connection =
      ended (frontLines env code (ascii "webserv/1.0") (ascii "text/html") cl) ++
        (ended [ascii "Connection: " ++ connection] ++ crlf) := by
  have hserver : ascii "Server: webserv/1.0\r\n" =
      ascii "Server: " ++ (ascii "webserv/1.0" ++ crlf) := by decide
  have htype : ascii "Content-Type: text/html\r\n" =
      ascii "Content-Type: " ++ (ascii "text/html" ++ crlf) := by decide
  have hcode : decimalInt (code : ℤ) = decimal code := by
    rw [decimalInt, if_neg (by omega), Int.natAbs_natCast]
  unfold errorHeaders ended frontLines
  rw [hserver, htype, hcode]
  simp only [List.map_cons, List.map_nil, List.flatten_cons, List.flatten_nil, List.append_assoc,
    List.append_nil]

/-- A text that neither begins with `p` nor is the beginning of it. -/
theorem not_isPrefixOf_append {p q : Bytes} (h : ¬ p <+: q) (h' : ¬ q <+: p) (rest : Bytes) :
    p.isPrefixOf (q ++ rest) = false := by
  rw [Bool.eq_false_iff, ne_eq, List.isPrefixOf_iff_prefix]
  intro hp
  rcases List.prefix_or_prefix_of_prefix hp (List.prefix_append q rest) with hpq | hqp
  · exact h hpq
  · exact h' hqp

/-- The fifth line is the first that announces a length. -/
theorem announced_frontLines (env : Env) (code : ℤ) (server ct : Bytes) (cl : ℕ)
    (rest : List Bytes) :
    announced (frontLines env code server ct cl ++ rest) = some (decimal cl) := by
  have hother : ∀ q ∈ ["HTTP/1.1 ", "Server: ", "Date: ", "Content-Type: "], ∀ l,
      (ascii "Content-Length: ").isPrefixOf (ascii q ++ l) = false := by
    intro q hq l
    apply not_isPrefixOf_append
    · revert q
      decide
    · revert q
      decide
  have hlength : (ascii "Content-Length: ").isPrefixOf (ascii "Content-Length: " ++ decimal cl) =
      true := List.isPrefixOf_iff_prefix.mpr (List.prefix_append _ _)
  have h₁ := hother "HTTP/1.1 " (by decide) (decimalInt code ++ (SP :: reasonPhrase code))
  have h₂ := hother "Server: " (by decide) server
  have h₃ := hother "Date: " (by decide) (httpDate env.now)
  have h₄ := hother "Content-Type: " (by decide) ct
  unfold announced frontLines
  simp only [List.append_assoc, List.cons_append, List.nil_append, List.find?_cons, h₁, h₂, h₃, h₄,
    hlength, Option.map_some, Option.some.injEq]
  exact List.drop_left' (show (ascii "Content-Length: ").length = 16 by decide)

/-- A text that begins with the lines up to Content-Length. -/
theorem oneResponse_front_iff (env : Env) (code : ℤ) {server ct : Bytes} (cl : ℕ)
    (hserver : CR ∉ server) (hct : CR ∉ ct) (rest : Bytes) :
    OneResponse (ended (frontLines env code server ct cl) ++ rest) ↔
      ∃ r, readSection [] rest = some r ∧ r.2.length = cl := by
  unfold OneResponse
  rw [readSection_ended (frontLines_text env code cl hserver hct)]
  simp only [Option.map_eq_some_iff, Prod.mk.injEq]
  constructor
  · rintro ⟨-, -, ⟨r, hr, rfl, rfl⟩, h⟩
    rw [announced_frontLines] at h
    rcases h with h | ⟨h, -⟩
    · exact ⟨r, hr, (decimal_injective (Option.some.inj h)).symm⟩
    · simp at h
  · rintro ⟨r, hr, rfl⟩
    exact ⟨_, _, ⟨r, hr, rfl, rfl⟩, Or.inl (announced_frontLines env code server ct _ r.1)⟩

/-- The last line and the empty one. -/
theorem readSection_connection {conn : Bytes} (hconn : CR ∉ conn) (body : Bytes) :
    readSection [] (ended [ascii "Connection: " ++ conn] ++ (crlf ++ body)) =
      some ([ascii "Connection: " ++ conn], body) := by
  have hline : ∀ l ∈ [ascii "Connection: " ++ conn], CR ∉ l ∧ l ≠ [] := by
    intro l hl
    rw [List.mem_singleton.mp hl]
    exact text_append (by decide) hconn
  rw [readSection_ended hline, readSection_end]
  rfl

/-! ### Error pages -/

theorem loadErrorPage_ne_nil (fs : FileSystem) (code : ℕ) (cfg : Server) :
    loadErrorPage fs code cfg ≠ [] := by
  have hbuiltin : builtinErrorBody code ≠ [] := by
    intro h
    simp [builtinErrorBody] at h
  unfold loadErrorPage
  split
  · exact hbuiltin
  · split
    · exact hbuiltin
    · split
      · exact hbuiltin
      · split
        · exact hbuiltin
        · next content hcontent =>
          rwa [List.isEmpty_iff] at hcontent

/-- An error page with `body` behind its header section. -/
theorem oneResponse_errorHeaders_iff (env : Env) (code cl : ℕ) {conn : Bytes} (hconn : CR ∉ conn)
    (body : Bytes) : OneResponse (errorHeaders env code cl conn ++ body) ↔ body.length = cl := by
  rw [errorHeaders_eq, List.append_assoc, List.append_assoc,
    oneResponse_front_iff env code cl (by decide) (by decide), readSection_connection hconn]
  simp

/-- **The page that says why a request has failed is one response.** -/
theorem oneResponse_errorResponse (env : Env) (code : ℕ) (cfg : Server) :
    OneResponse (errorResponse env code cfg) := by
  unfold errorResponse
  exact (oneResponse_errorHeaders_iff env code _ (by decide) _).mpr rfl

/-- An answer to HEAD announces the page that it leaves out. -/
theorem oneResponse_sendErrorInternal_iff (env : Env) (code : ℕ) (req : HttpRequest)
    (cfg : Server) :
    OneResponse (sendErrorInternal env code req cfg) ↔ req.method ≠ ascii "HEAD" := by
  unfold sendErrorInternal
  rw [oneResponse_errorHeaders_iff env code _ (CR_notMem_connectionHeader req)]
  split
  · next h =>
    have hlength := List.length_pos_of_ne_nil (loadErrorPage_ne_nil env.fs code cfg)
    simp only [h, List.length_nil, ne_eq, not_true_eq_false, iff_false]
    omega
  · next h => simp [h]

/-! ### Pages with a location -/

/-- What a Location adds to a header section. -/
def locationLine (location : Option Bytes) : Bytes :=
  location.elim [] fun url => ascii "Location: " ++ url ++ crlf

/-- There is no empty line in the value of a Location. -/
def Unbroken (location : Option Bytes) : Prop :=
  ∀ url, location = some url → ¬ crlfcrlf <:+: url ++ crlf

/-- Where a text without CR stands in front, what begins with CR is behind it. -/
theorem CR_infix_append {l : Bytes} (hl : CR ∉ l) (p s : Bytes) :
    (CR :: p) <:+: l ++ s ↔ (CR :: p) <:+: s := by
  induction l with
  | nil => rw [List.nil_append]
  | cons a l ih =>
    have ha : CR ≠ a := fun h => hl (h ▸ List.mem_cons_self)
    rw [List.cons_append, List.infix_cons_iff, ih fun h => hl (List.mem_cons_of_mem _ h),
      List.cons_prefix_cons]
    simp [ha]

/-- What is read of a Location, and of what follows it. -/
theorem readSection_locationLine (location : Option Bytes) (rest : Bytes) :
    (Unbroken location ∧ ∃ ls, readSection [] (locationLine location ++ rest) =
      (readSection [] rest).map fun r => (ls ++ r.1, r.2)) ∨
    (¬ Unbroken location ∧ ∃ ls b, readSection [] (locationLine location ++ rest) =
      some (ls, b ++ rest)) := by
  cases location with
  | none =>
    left
    refine ⟨by simp [Unbroken], [], ?_⟩
    show readSection [] rest = _
    cases readSection [] rest <;> rfl
  | some url =>
    have hblank : crlfcrlf <:+: locationLine (some url) ↔ crlfcrlf <:+: url ++ crlf := by
      show crlfcrlf <:+: ascii "Location: " ++ url ++ crlf ↔ _
      rw [List.append_assoc, crlfcrlf, CR_infix_append (by decide)]
    have hbegin : ¬ crlf <+: locationLine (some url) := by
      show ¬ crlf <+: ascii "Location: " ++ url ++ crlf
      rw [← List.isPrefixOf_iff_prefix, List.append_assoc,
        not_isPrefixOf_append (by decide) (by decide)]
      exact Bool.false_ne_true
    cases h : readSection [] (locationLine (some url)) with
    | none =>
      left
      have hnone := readSection_eq_none_iff.mp h
      constructor
      · rintro _ ⟨⟩
        exact fun h => hnone.2 (hblank.mpr h)
      · exact readSection_append_of_none (List.suffix_append _ _) h
    | some r =>
      right
      refine ⟨?_, r.1, r.2, readSection_append_of_some h⟩
      intro hunbroken
      have hnone : readSection [] (locationLine (some url)) = none :=
        readSection_eq_none_iff.mpr
          ⟨fun h => hbegin h.2, fun h => hunbroken url rfl (hblank.mp h)⟩
      rw [hnone] at h
      cases h

/-- **A page is one response unless its header section ends within the Location.** -/
theorem oneResponse_writeHeaders_iff (env : Env) (code : ℤ) {ct : Bytes} (hct : CR ∉ ct)
    (location : Option Bytes) (req : HttpRequest) (body : Bytes) :
    OneResponse (writeHeaders env code ct body.length (locationLine location) req ++ body) ↔
      Unbroken location := by
  have hconn := readSection_connection (CR_notMem_connectionHeader req) body
  rw [writeHeaders_eq, List.append_assoc, List.append_assoc, List.append_assoc,
    oneResponse_front_iff env code body.length (by decide) hct]
  rcases readSection_locationLine location
    (ended [ascii "Connection: " ++ connectionHeader req] ++ (crlf ++ body)) with
      ⟨hu, ls, h⟩ | ⟨hu, ls, b, h⟩
  · rw [h, hconn]
    simp [hu]
  · rw [h]
    simp only [hu, iff_false, Option.some.injEq, exists_eq_left', List.length_append]
    intro hlength
    simp only [crlf, List.length_cons, List.length_nil] at hlength
    omega

/-- The lines of the response to a removal. -/
def deletedLines (env : Env) (req : HttpRequest) : List Bytes :=
  [ascii "HTTP/1.1 204 No Content", ascii "Server: webserv/1.1",
    ascii "Date: " ++ httpDate env.now, ascii "Connection: " ++ connectionHeader req]

/-- The response to a removal in its lines. -/
theorem readSection_deletedResponse (env : Env) (req : HttpRequest) :
    readSection [] (deletedResponse env req) = some (deletedLines env req, []) := by
  have hstatus : ascii "HTTP/1.1 204 No Content\r\nServer: webserv/1.1\r\n" =
      ended [ascii "HTTP/1.1 204 No Content", ascii "Server: webserv/1.1"] := by decide
  have hlines : ∀ l ∈ deletedLines env req, CR ∉ l ∧ l ≠ [] := by
    intro l hl
    simp only [deletedLines, List.mem_cons, List.not_mem_nil, or_false] at hl
    rcases hl with rfl | rfl | rfl | rfl
    · decide
    · decide
    · exact text_append (by decide) (CR_notMem_httpDate _)
    · exact text_append (by decide) (CR_notMem_connectionHeader req)
  have hsplit : deletedResponse env req = ended (deletedLines env req) ++ (crlf ++ []) := by
    unfold deletedResponse deletedLines
    rw [hstatus]
    simp only [ended, List.map_cons, List.map_nil, List.flatten_cons, List.flatten_nil,
      List.append_assoc, List.append_nil]
  rw [hsplit, readSection_ended hlines, readSection_end]
  simp

/-- A 204 has nothing behind its header section. -/
theorem oneResponse_deletedResponse (env : Env) (req : HttpRequest) :
    OneResponse (deletedResponse env req) := by
  have hannounced : announced (deletedLines env req) = none := by
    have hother : ∀ q ∈ ["Date: ", "Connection: "], ∀ l,
        (ascii "Content-Length: ").isPrefixOf (ascii q ++ l) = false := by
      intro q hq l
      apply not_isPrefixOf_append
      · revert q
        decide
      · revert q
        decide
    have hstatus : (ascii "Content-Length: ").isPrefixOf (ascii "HTTP/1.1 204 No Content") =
        false := by decide
    have hserver : (ascii "Content-Length: ").isPrefixOf (ascii "Server: webserv/1.1") =
        false := by decide
    unfold announced deletedLines
    simp only [List.find?_cons, hstatus, hserver, hother "Date: " (by decide),
      hother "Connection: " (by decide), List.find?_nil, Option.map_none]
  exact ⟨_, [], readSection_deletedResponse env req,
    Or.inr ⟨hannounced, ⟨_, rfl, by decide⟩, rfl⟩⟩

/-! ### What the handler answers -/

/-- The answers to a request with this method. -/
inductive Answers (env : Env) (cfg : Server) (method : Bytes) : Reply → Prop
  | error (code : ℕ) (req : HttpRequest) (calls : List FsCall) (hmethod : req.method = method) :
      Answers env cfg method (.error env code req cfg calls)
  | page (code : ℤ) (ct : Bytes) (req : HttpRequest) (calls : List FsCall)
      (location : Option Bytes) (body : List Bytes) (hmethod : req.method = method)
      (hhead : method ≠ ascii "HEAD") (hct : CR ∉ ct) :
      Answers env cfg method ⟨req, calls, location,
        writeHeaders env code ct body.flatten.length (locationLine location) req :: body⟩
  | deleted (req : HttpRequest) (calls : List FsCall) (hmethod : req.method = method)
      (hhead : method ≠ ascii "HEAD") :
      Answers env cfg method ⟨req, calls, none, [deletedResponse env req]⟩

theorem flatten_readBlocks : ∀ (fuel : ℕ) (content : Bytes), content.length ≤ fuel →
    (readBlocks fuel content).flatten = content := by
  intro fuel
  induction fuel with
  | zero =>
    intro content h
    rw [List.eq_nil_of_length_eq_zero (Nat.le_zero.mp h)]
    rfl
  | succ fuel ih =>
    intro content h
    rw [readBlocks]
    split
    · next he => rw [List.isEmpty_iff.mp he, List.flatten_nil]
    · next he =>
      have hpos := List.length_pos_of_ne_nil (List.isEmpty_iff.not.mp he)
      rw [List.flatten_cons, ih _ (by rw [List.length_drop]; omega), List.take_append_drop]

section

variable {env : Env} {cfg : Server} {method : Bytes} {req : HttpRequest} {calls : List FsCall}
  (hmethod : req.method = method) (hhead : method ≠ ascii "HEAD")
include hmethod

theorem answers_error (code : ℕ) : Answers env cfg method (.error env code req cfg calls) :=
  .error code req calls hmethod

include hhead

/-- A page that `page` makes. -/
theorem answers_page (code : ℤ) (location : Option Bytes) (body : Bytes) :
    Answers env cfg method
      ⟨req, calls, location, page env code (locationLine location) body req⟩ := by
  have h := @Answers.page env cfg method code (ascii "text/html") req calls location [body] hmethod
    hhead (by decide)
  rw [List.flatten_singleton] at h
  rw [page, if_neg (hmethod ▸ hhead)]
  exact h

theorem answers_serveStaticFile (hfs : env.fs.Unchanging) (fsPath : Bytes) :
    Answers env cfg method (serveStaticFile env req fsPath cfg calls) := by
  unfold serveStaticFile
  dsimp only
  split
  · exact answers_error hmethod _
  · next content hopen =>
    split
    · exact answers_error hmethod _
    · next st hstat =>
      split
      · exact answers_error hmethod _
      · have hbody := flatten_readBlocks content.length content le_rfl
        have hsize := hfs _ content st hopen hstat
        rw [if_neg (hmethod ▸ hhead), hsize]
        have h := @Answers.page env cfg method 200 (getMimeType fsPath) req
          (calls ++ [.openRead fsPath] ++ [.stat fsPath]) none (readBlocks content.length content)
          hmethod hhead (CR_notMem_getMimeType fsPath)
        rw [hbody] at h
        exact h

theorem answers_sendDirectoryListing (fsPath : Bytes) :
    Answers env cfg method (sendDirectoryListing env req fsPath cfg calls) := by
  unfold sendDirectoryListing
  dsimp only
  split
  · exact answers_error hmethod _
  · exact answers_page hmethod hhead 200 none _

theorem answers_sendRedirect (code : ℤ) (url : Bytes) :
    Answers env cfg method (sendRedirect env code url req) :=
  answers_page hmethod hhead code (some url) _

theorem answers_handlePost (loc : Location) :
    Answers env cfg method (handlePost env req loc cfg calls) := by
  unfold handlePost
  dsimp only
  split
  · exact answers_error hmethod _
  · split
    · exact answers_error hmethod _
    · split
      · exact answers_error hmethod _
      · exact answers_page hmethod hhead 201 (some _) _

theorem answers_handleDelete (fsPath : Bytes) :
    Answers env cfg method (handleDelete env fsPath req cfg calls) := by
  unfold handleDelete
  dsimp only
  split
  · exact answers_error hmethod _
  · exact .deleted req _ hmethod hhead

end

/-- **Whatever the request is, the handler answers with one of the three.** -/
theorem answers_handle (env : Env) (hfs : env.fs.Unchanging) (req : HttpRequest) (cfg : Server) :
    Answers env cfg req.method (handle env req cfg) := by
  have hpath : ∀ path, ({ req with path := path } : HttpRequest).method = req.method := fun _ => rfl
  apply handle_cases
  case error => exact fun code path _ => answers_error (hpath path) code
  case redirect => exact fun hhead path _ _ => answers_sendRedirect (hpath path) hhead _ _
  case serve =>
    exact fun hhead path fsPath _ => answers_serveStaticFile (hpath path) hhead hfs fsPath
  case list =>
    exact fun hhead path fsPath _ => answers_sendDirectoryListing (hpath path) hhead fsPath
  case post => exact fun hhead path loc _ => answers_handlePost (hpath path) hhead loc
  case delete => exact fun hhead path fsPath _ => answers_handleDelete (hpath path) hhead fsPath

/-- **When an answer is one response.** -/
theorem oneResponse_flatten_iff {env : Env} {cfg : Server} {method : Bytes} {reply : Reply}
    (h : Answers env cfg method reply) :
    OneResponse reply.blocks.flatten ↔ method ≠ ascii "HEAD" ∧ Unbroken reply.location := by
  have hnone : Unbroken none := by
    intro url h
    cases h
  cases h with
  | error code req calls hmethod =>
    dsimp only [Reply.error]
    rw [List.flatten_singleton, oneResponse_sendErrorInternal_iff, hmethod]
    simp [hnone]
  | page code ct req calls location body hmethod hhead hct =>
    rw [List.flatten_cons, oneResponse_writeHeaders_iff env code hct]
    simp [hhead]
  | deleted req calls hmethod hhead =>
    dsimp only
    rw [List.flatten_singleton]
    simp [oneResponse_deletedResponse env req, hnone, hhead]

end Webserv
