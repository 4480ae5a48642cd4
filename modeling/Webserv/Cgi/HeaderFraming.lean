import Webserv.Cgi.Stream
import Webserv.ResponseHandler.Framing

/-!
# The framing of a script's response

`flushCgiHeaders` announces chunks and says what becomes of the connection, and copies the lines
of the script behind that.  A script that prints a line about either has two such fields in its
response.

## Main results

* `readSection_cgiResponseHead` — the lines of the head.
* `singleFraming_flushCgiHeaders_iff` — **when the response has one framing.**
* `not_singleFraming_flushCgiHeaders` — a script that prints its length.
-/

namespace Webserv

open Bytes HeaderSection

/-! ### Fields -/

/-- The name of a field, in small letters: what stands in front of the first colon. -/
def fieldKey (line : Bytes) : Option Bytes :=
  (line.findIdx? (· == COLON)).map fun colon => (line.take colon).map toLower

/-- The fields of a head that have the name; its first line is not one. -/
def fieldsNamed (name head : Bytes) : List Bytes :=
  ((readSection [] head).elim [] fun r => r.1.tail).filter fun l => fieldKey l = some name

/-- A head that announces chunks and nothing else, and speaks once about the connection. -/
structure SingleFraming (head : Bytes) : Prop where
  coding : fieldsNamed (ascii "transfer-encoding") head = [ascii "Transfer-Encoding: chunked"]
  length : fieldsNamed (ascii "content-length") head = []
  connection : ∃ field, fieldsNamed (ascii "connection") head = [field]

/-- The names of the fields that the head has of its own or must not have. -/
def framingNames : List Bytes :=
  [ascii "transfer-encoding", ascii "content-length", ascii "connection"]

/-- No line of the block is about the framing. -/
def NoFramingLines (block : Bytes) : Prop :=
  ∀ line ∈ linesOf [] block, ∀ name ∈ framingNames, fieldKey (dropCr line) ≠ some name

instance (block : Bytes) : Decidable (NoFramingLines block) :=
  inferInstanceAs (Decidable (∀ line ∈ linesOf [] block, ∀ name ∈ framingNames, _))

theorem fieldKey_append {key : Bytes} (h : COLON ∉ key) (val : Bytes) :
    fieldKey (key ++ COLON :: val) = some (key.map toLower) := by
  have hcolon : (key ++ COLON :: val).findIdx? (· == COLON) = some key.length := by
    rw [List.findIdx?_append, List.findIdx?_eq_none_iff.mpr, List.findIdx?_cons]
    · simp
    · intro b hb
      simpa using fun heq : b = COLON => h (heq ▸ hb)
  rw [fieldKey, hcolon, Option.map_some, List.take_left]

/-! ### Lines -/

theorem linesOf_noLf (block : Bytes) : ∀ {line : Bytes}, LF ∉ line →
    ∀ l ∈ linesOf line block, LF ∉ l := by
  induction block with
  | nil => exact fun _ l hl => absurd hl List.not_mem_nil
  | cons b block ih =>
    intro line hline l hl
    rw [linesOf] at hl
    split at hl
    · rcases List.mem_cons.mp hl with rfl | hl
      · exact hline
      · exact ih List.not_mem_nil l hl
    · next hb =>
      refine ih ?_ l hl
      rw [List.mem_append, List.mem_singleton, not_or]
      exact ⟨hline, fun heq => hb (beq_iff_eq.mpr heq.symm)⟩

theorem dropCr_noLf {line : Bytes} (h : LF ∉ line) : LF ∉ dropCr line := by
  unfold dropCr
  split
  · exact fun hmem => h (List.dropLast_subset _ hmem)
  · exact h

theorem unbroken_of_noLf {l : Bytes} (h : LF ∉ l) : ¬ crlf <:+: l :=
  fun hwithin => h (hwithin.subset (by decide))

/-! ### The lines of the head -/

/-- The value of a field of the script. -/
def cgiValue (val : Bytes) : Bytes :=
  if (val.dropWhile isBlank).isEmpty then val else val.dropWhile isBlank

/-- What is copied of a line. -/
def copiedField (line : Bytes) : Option Bytes :=
  match line.findIdx? (· == COLON) with
  | none => none
  | some colon =>
      if (line.take colon).map toLower ∈ [ascii "status", ascii "content-type"] then none
      else some (line.take colon ++ ascii ": " ++ cgiValue (line.drop (colon + 1)))

/-- The fields of the script. -/
def copiedFields (block : Bytes) : List Bytes :=
  (linesOf [] block).filterMap fun line => copiedField (dropCr line)

/-- The text of a line in front of its first colon. -/
theorem colon_notMem_take {line : Bytes} {colon : ℕ}
    (h : line.findIdx? (· == COLON) = some colon) : COLON ∉ line.take colon := by
  rw [List.findIdx?_eq_some_iff_getElem] at h
  obtain ⟨hlt, -, hbefore⟩ := h
  intro hmem
  obtain ⟨i, hi, heq⟩ := List.mem_iff_getElem.mp hmem
  rw [List.length_take, Nat.min_eq_left hlt.le] at hi
  rw [List.getElem_take] at heq
  exact hbefore i hi (by rw [heq]; rfl)

/-- A field keeps its name. -/
theorem fieldKey_copiedField {line l : Bytes} (h : copiedField line = some l) :
    fieldKey l = fieldKey line := by
  unfold copiedField at h
  split at h
  · cases h
  · next colon hcolon =>
    split at h
    · cases h
    · rw [Option.some.injEq] at h
      subst h
      show fieldKey (line.take colon ++ [COLON, SP] ++ _) = _
      rw [List.append_assoc, List.cons_append, fieldKey_append (colon_notMem_take hcolon),
        fieldKey, hcolon, Option.map_some]

/-- Every field is copied but for the two that the head has in its own place. -/
theorem exists_copiedField {line name : Bytes} (h : fieldKey line = some name)
    (hname : name ∉ [ascii "status", ascii "content-type"]) : ∃ l, copiedField line = some l := by
  unfold fieldKey at h
  rw [Option.map_eq_some_iff] at h
  obtain ⟨colon, hcolon, rfl⟩ := h
  refine ⟨line.take colon ++ ascii ": " ++ cgiValue (line.drop (colon + 1)), ?_⟩
  simp only [copiedField, hcolon, if_neg hname]

theorem noLf_cgiValue {val : Bytes} (h : LF ∉ val) : LF ∉ cgiValue val := by
  unfold cgiValue
  split
  · exact h
  · exact fun hmem => h ((List.dropWhile_suffix _).subset hmem)

theorem copiedField_noLf {line l : Bytes} (hline : LF ∉ line) (h : copiedField line = some l) :
    LF ∉ l ∧ l ≠ [] := by
  unfold copiedField at h
  split at h
  · cases h
  · split at h
    · cases h
    · rw [Option.some.injEq] at h
      subst h
      simp only [List.mem_append, not_or]
      refine ⟨⟨⟨fun hmem => hline (List.take_subset _ _ hmem), by decide⟩, ?_⟩, by simp⟩
      exact noLf_cgiValue fun hmem => hline (List.drop_subset _ _ hmem)

/-- What one line adds to the head. -/
theorem cgiHeaderLine_extra (h : CgiHead) (line : Bytes) :
    (cgiHeaderLine h line).extra = h.extra ++ ended (copiedField line).toList := by
  unfold cgiHeaderLine copiedField
  cases line.findIdx? (· == COLON) with
  | none => exact (List.append_nil _).symm
  | some colon =>
    dsimp only
    rw [← cgiValue]
    generalize (line.take colon).map toLower = lkey
    by_cases hstatus : lkey = ascii "status"
    · simp [hstatus, ended]
    · rw [if_neg hstatus]
      by_cases htype : lkey = ascii "content-type"
      · simp [htype, ended]
      · simp [hstatus, htype, ended]

theorem cgiHeaderLine_contentType {h : CgiHead} {line : Bytes} (hct : LF ∉ h.contentType)
    (hline : LF ∉ line) : LF ∉ (cgiHeaderLine h line).contentType := by
  unfold cgiHeaderLine
  cases line.findIdx? (· == COLON) with
  | none => exact hct
  | some colon =>
    dsimp only
    split
    · exact hct
    · split
      · exact noLf_cgiValue fun hmem => hline (List.drop_subset _ _ hmem)
      · exact hct

/-- The fields are gathered in the order of their lines. -/
theorem foldl_cgiHeaderLine (lines : List Bytes) : ∀ (h : CgiHead), LF ∉ h.contentType →
    (∀ l ∈ lines, LF ∉ l) →
      (lines.foldl (fun h line => cgiHeaderLine h (dropCr line)) h).extra =
          h.extra ++ ended (lines.filterMap fun line => copiedField (dropCr line)) ∧
        LF ∉ (lines.foldl (fun h line => cgiHeaderLine h (dropCr line)) h).contentType := by
  induction lines with
  | nil =>
    intro h hct _
    exact ⟨(List.append_nil _).symm, hct⟩
  | cons line lines ih =>
    intro h hct hlines
    have hline := dropCr_noLf (hlines line List.mem_cons_self)
    obtain ⟨hextra, hct'⟩ := ih (cgiHeaderLine h (dropCr line))
      (cgiHeaderLine_contentType hct hline) fun l hl => hlines l (List.mem_cons_of_mem _ hl)
    rw [List.foldl_cons]
    refine ⟨?_, hct'⟩
    rw [hextra, cgiHeaderLine_extra, List.append_assoc, List.filterMap_cons]
    cases copiedField (dropCr line) with
    | none => rfl
    | some l => simp [ended]

/-- The lines of the head in front of those of the script. -/
def cgiFrontLines (h : CgiHead) (req : HttpRequest) : List Bytes :=
  [ascii "HTTP/1.1 " ++ decimalInt h.statusCode ++ [SP] ++ cgiReason h.statusCode,
    ascii "Server: webserv/1.0",
    ascii "Content-Type: " ++ h.contentType,
    ascii "Transfer-Encoding: chunked",
    ascii "Connection: " ++ ascii (if req.keepAlive then "keep-alive" else "close")]

theorem noLf_cgiReason (code : ℤ) : LF ∉ cgiReason code := by
  unfold cgiReason
  split_ifs <;> decide

/-- **The lines of the head**: those of the server, and the fields of the script. -/
theorem readSection_cgiResponseHead (block : Bytes) (req : HttpRequest) : ∃ h : CgiHead,
    readSection [] (cgiResponseHead block req) =
      some (cgiFrontLines h req ++ copiedFields block, []) := by
  have hlines := @linesOf_noLf block [] List.not_mem_nil
  obtain ⟨hextra, hct⟩ := foldl_cgiHeaderLine (linesOf [] block) ⟨200, ascii "text/html", []⟩
    (by decide) hlines
  unfold cgiResponseHead
  extract_lets h
  refine ⟨h, ?_⟩
  have hextra' : h.extra = ended (copiedFields block) := hextra.trans (List.nil_append _)
  -- the head is written as lines that are ended, and an empty one
  have heq : ascii "HTTP/1.1 " ++ decimalInt h.statusCode ++ [SP] ++
    cgiReason h.statusCode ++ crlf ++
      ascii "Server: webserv/1.0\r\n" ++
      ascii "Content-Type: " ++ h.contentType ++ crlf ++
      ascii "Transfer-Encoding: chunked\r\n" ++
      ascii "Connection: " ++ ascii (if req.keepAlive then "keep-alive" else "close") ++ crlf ++
      h.extra ++ crlf = ended (cgiFrontLines h req ++ copiedFields block) ++ (crlf ++ []) := by
    have hserver : ascii "Server: webserv/1.0\r\n" = ascii "Server: webserv/1.0" ++
      crlf := by decide
    have hcoding : ascii "Transfer-Encoding: chunked\r\n" =
        ascii "Transfer-Encoding: chunked" ++ crlf := by decide
    rw [hextra', hserver, hcoding]
    simp only [ended, cgiFrontLines, List.map_append, List.map_cons, List.map_nil,
      List.flatten_append,
      List.flatten_cons, List.flatten_nil, List.append_assoc, List.append_nil]
  rw [heq, readSection_ended_of_unbroken, readSection_end, Option.map_some, List.append_nil]
  intro l hl
  rcases List.mem_append.mp hl with hl | hl
  · -- the lines in front: only the code and the type come from the script
    simp only [cgiFrontLines, List.mem_cons, List.not_mem_nil, or_false] at hl
    rcases hl with rfl | rfl | rfl | rfl | rfl
    · refine ⟨unbroken_of_noLf ?_, by simp⟩
      simp only [List.mem_append, List.mem_singleton, not_or]
      have hcode := notMem_decimalInt (show ∀ d < 10, LF ≠ digitByte d by decide) (by decide)
        h.statusCode
      exact ⟨⟨⟨by decide, hcode⟩, by decide⟩, noLf_cgiReason _⟩
    · exact ⟨unbroken_of_noLf (by decide), by decide⟩
    · refine ⟨unbroken_of_noLf ?_, by simp⟩
      rw [List.mem_append, not_or]
      exact ⟨by decide, hct⟩
    · exact ⟨unbroken_of_noLf (by decide), by decide⟩
    · refine ⟨unbroken_of_noLf ?_, by simp⟩
      split <;> decide
  · -- the copied lines are lines of the block, without their ends
    obtain ⟨line, hline, hcopied⟩ := List.mem_filterMap.mp hl
    obtain ⟨hnoLf, hne⟩ := copiedField_noLf (dropCr_noLf (hlines line hline)) hcopied
    exact ⟨unbroken_of_noLf hnoLf, hne⟩

/-! ### One framing -/

/-- The fields of the script that have the name. -/
theorem filter_copiedFields_eq_nil_iff {block name : Bytes}
    (hname : name ∉ [ascii "status", ascii "content-type"]) :
    (copiedFields block).filter (fun l => fieldKey l = some name) = [] ↔
      ∀ line ∈ linesOf [] block, fieldKey (dropCr line) ≠ some name := by
  rw [List.filter_eq_nil_iff]
  simp only [decide_eq_true_eq]
  constructor
  · intro h line hline hfield
    obtain ⟨l, hl⟩ := exists_copiedField hfield hname
    exact h l (List.mem_filterMap.mpr ⟨line, hline, hl⟩) ((fieldKey_copiedField hl).trans hfield)
  · intro h l hl hfield
    obtain ⟨line, hline, hcopied⟩ := List.mem_filterMap.mp hl
    exact h line hline ((fieldKey_copiedField hcopied).symm.trans hfield)

/-- The fields of the server come first. -/
theorem fieldsNamed_cgiResponseHead (name block : Bytes) (req : HttpRequest) : ∃ h : CgiHead,
    fieldsNamed name (cgiResponseHead block req) =
      (cgiFrontLines h req).tail.filter (fun l => fieldKey l = some name) ++
        (copiedFields block).filter (fun l => fieldKey l = some name) := by
  obtain ⟨h, hread⟩ := readSection_cgiResponseHead block req
  refine ⟨h, ?_⟩
  rw [fieldsNamed, hread, ← List.filter_append]
  rfl

/-- The names of the fields of the server. -/
theorem map_fieldKey_cgiFrontLines (h : CgiHead) (req : HttpRequest) :
    (cgiFrontLines h req).tail.map fieldKey = [some (ascii "server"), some (ascii "content-type"),
      some (ascii "transfer-encoding"), some (ascii "connection")] := by
  have hserver : ascii "Server: webserv/1.0" =
      ascii "Server" ++ COLON :: ascii " webserv/1.0" := by decide
  have htype : ascii "Content-Type: " = ascii "Content-Type" ++ [COLON, SP] := by decide
  have hcoding : ascii "Transfer-Encoding: chunked" =
      ascii "Transfer-Encoding" ++ COLON :: ascii " chunked" := by decide
  have hconnection : ascii "Connection: " = ascii "Connection" ++ [COLON, SP] := by decide
  simp only [cgiFrontLines, List.tail_cons, List.map_cons, List.map_nil, hserver, htype, hcoding,
    hconnection, List.append_assoc, List.cons_append]
  rw [fieldKey_append (by decide), fieldKey_append (by decide), fieldKey_append (by decide),
    fieldKey_append (by decide)]
  decide

/-- The head has of its own what the framing needs. -/
theorem filter_cgiFrontLines (h : CgiHead) (req : HttpRequest) :
    ((cgiFrontLines h req).tail.filter fun l => fieldKey l = some (ascii "transfer-encoding")) =
        [ascii "Transfer-Encoding: chunked"] ∧
      ((cgiFrontLines h req).tail.filter fun l => fieldKey l = some (ascii "content-length")) =
        [] ∧
      ((cgiFrontLines h req).tail.filter fun l => fieldKey l = some (ascii "connection")) =
        [ascii "Connection: " ++ ascii (if req.keepAlive then "keep-alive" else "close")] := by
  have hnames := map_fieldKey_cgiFrontLines h req
  simp only [cgiFrontLines, List.tail_cons, List.map_cons, List.cons.injEq] at hnames
  obtain ⟨hserver, htype, hcoding, hconnection, -⟩ := hnames
  simp only [cgiFrontLines, List.tail_cons, List.filter_cons, hserver, htype, hcoding, hconnection]
  exact ⟨rfl, rfl, rfl⟩

/-- The head has one framing when no line of the block is about it. -/
theorem singleFraming_cgiResponseHead_iff (block : Bytes) (req : HttpRequest) :
    SingleFraming (cgiResponseHead block req) ↔ NoFramingLines block := by
  obtain ⟨hcoding, hcl, hconnection⟩ :
      (fieldsNamed (ascii "transfer-encoding") (cgiResponseHead block req) =
          [ascii "Transfer-Encoding: chunked"] ↔
        ∀ line ∈ linesOf [] block, fieldKey (dropCr line) ≠ some (ascii "transfer-encoding")) ∧
      (fieldsNamed (ascii "content-length") (cgiResponseHead block req) = [] ↔
        ∀ line ∈ linesOf [] block, fieldKey (dropCr line) ≠ some (ascii "content-length")) ∧
      ((∃ field, fieldsNamed (ascii "connection") (cgiResponseHead block req) = [field]) ↔
        ∀ line ∈ linesOf [] block, fieldKey (dropCr line) ≠ some (ascii "connection")) := by
    refine ⟨?_, ?_, ?_⟩
    · obtain ⟨h, hfields⟩ := fieldsNamed_cgiResponseHead (ascii "transfer-encoding") block req
      rw [hfields, (filter_cgiFrontLines h req).1, ← filter_copiedFields_eq_nil_iff (by decide)]
      exact List.append_right_eq_self
    · obtain ⟨h, hfields⟩ := fieldsNamed_cgiResponseHead (ascii "content-length") block req
      rw [hfields, (filter_cgiFrontLines h req).2.1, List.nil_append,
        filter_copiedFields_eq_nil_iff (by decide)]
    · obtain ⟨h, hfields⟩ := fieldsNamed_cgiResponseHead (ascii "connection") block req
      rw [hfields, (filter_cgiFrontLines h req).2.2, ← filter_copiedFields_eq_nil_iff (by decide)]
      constructor
      · rintro ⟨field, hfield⟩
        exact (List.cons.inj hfield).2
      · intro hnil
        exact ⟨_, by rw [hnil, List.append_nil]⟩
  constructor
  · intro h line hline name hname
    simp only [framingNames, List.mem_cons, List.not_mem_nil, or_false] at hname
    rcases hname with rfl | rfl | rfl
    · exact hcoding.mp h.coding line hline
    · exact hcl.mp h.length line hline
    · exact hconnection.mp h.connection line hline
  · intro h
    exact ⟨hcoding.mpr fun line hline => h line hline _ (by decide),
      hcl.mpr fun line hline => h line hline _ (by decide),
      hconnection.mpr fun line hline => h line hline _ (by decide)⟩

/-- **When the response has one framing**: when no line of the script's header block is a
Transfer-Encoding, a Content-Length or a Connection, in whatever letters. -/
theorem singleFraming_flushCgiHeaders_iff {data : Bytes} {sep : ℕ} {req : HttpRequest}
    {wb wb' : ByteQueue} (h : flushCgiHeaders data sep req wb = .ok wb' ()) :
    ∃ head, wb'.items = wb.items ++ head ∧
      (SingleFraming head ↔ NoFramingLines (data.take sep)) := by
  refine ⟨cgiResponseHead (data.take sep) req, ?_, singleFraming_cgiResponseHead_iff _ req⟩
  rcases flushCgiHeaders_cases data sep req wb with hok | ⟨wb'', hlimit⟩
  · rw [hok] at h
    cases h
    rfl
  · rw [hlimit] at h
    cases h

/-- A head that there is room for is queued. -/
theorem flushCgiHeaders_of_true {data : Bytes} {sep : ℕ} {req : HttpRequest} {wb : ByteQueue}
    (h : (wb.appendAll [cgiResponseHead (data.take sep) req]).2 = true) :
    flushCgiHeaders data sep req wb = .ok (wb.push (cgiResponseHead (data.take sep) req)) () := by
  rw [flushCgiHeaders, appendBlocks_of_true h, List.flatten_cons, List.flatten_nil, List.append_nil]

/-- The output of a script that prints a date has one framing. -/
theorem singleFraming_dated :
    ∃ head, (Fifo.push (.new 500) (cgiResponseHead (ascii "Date: today\n\n") (.new 10))).items =
      (Fifo.new 500).items ++ head ∧
        (SingleFraming head ↔ NoFramingLines ((ascii "Date: today\n\nnow").take 13)) := by
  have hroom : (Fifo.appendAll (.new 500) [cgiResponseHead ((ascii "Date: today\n\nnow").take 13)
      (.new 10)]).2 = true := by decide +kernel
  exact singleFraming_flushCgiHeaders_iff (flushCgiHeaders_of_true hroom)

/-- **A script that prints the length of its body** has two framings. -/
theorem not_singleFraming_flushCgiHeaders : ¬ ∀ (data : Bytes) (sep : ℕ) (req : HttpRequest)
    (wb wb' : ByteQueue), findHeaderEnd data = some sep →
      flushCgiHeaders data sep req wb = .ok wb' () →
        ∃ head, wb'.items = wb.items ++ head ∧ SingleFraming head := by
  intro h
  have hroom : (Fifo.appendAll (.new 500) [cgiResponseHead
      ((ascii "Content-Length: 5\n\nhello").take 19) (.new 10)]).2 = true := by decide +kernel
  obtain ⟨head, heq, hframing⟩ := h (ascii "Content-Length: 5\n\nhello") 19 (.new 10) (.new 500) _
    (by decide) (flushCgiHeaders_of_true hroom)
  rw [Fifo.items_push, List.append_cancel_left_eq] at heq
  rw [← heq, singleFraming_cgiResponseHead_iff] at hframing
  exact absurd hframing (by decide)

end Webserv
