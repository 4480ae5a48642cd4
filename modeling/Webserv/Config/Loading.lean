import Webserv.Config.Document
import Webserv.Config.Final
import Webserv.Config.Layout
import Webserv.Lib.Updates

/-!
# The reading of a configuration

`API_conf` reads the file that the command line names, and returns its servers.

## Main results

* `loadText_eq` — how a text is laid out does not matter.
* `apiConf_eq_ok_iff` — **which command lines are accepted, and as which servers.**
-/

namespace Webserv

open Bytes Cursor Words Checks Updates

/-! ### The server without a file -/

/-- `Location()`. -/
def LocationConf.empty : LocationConf where
  toLocation := .empty
  cgiPaths := []
  cgiExtensions := []
  errorPage := ∅

/-- `Server()`. -/
def ServerConf.empty : ServerConf where
  host := []
  port := -1
  timeoutSeconds := 0
  root := []
  clientMaxBodySize := 0
  indexFiles := []
  serverName := []
  errorPage := ∅
  locations := []

/-- The codes that have a page of their own. -/
def defaultPages : List (ℤ × Bytes) :=
  [400, 401, 403, 404, 405, 408, 411, 413, 500, 502, 503, 504].map fun code =>
    (code, ascii "./www/html/errors/" ++ decimalInt code ++ ascii ".html")

/-- The part of `Location::set_default_conf` that does not depend on the number. -/
def LocationConf.clearToDefault (l : LocationConf) : LocationConf where
  path := l.path
  root := ascii "./www/html"
  indexFiles := [ascii "index.html"]
  autoindex := false
  allowedMethods := []
  cgiMap := ∅
  upload := []
  returnCode := -1
  returnValue := []
  clientMaxBodySize := 2040109465
  redirectEnabled := false
  cgiPaths := []
  cgiExtensions := []
  errorPage := setAll l.errorPage defaultPages

/-- `Location::set_default_conf`. -/
def LocationConf.setDefaultConf (l : LocationConf) (num : ℕ) : LocationConf :=
  let l := l.clearToDefault
  match num with
  | 0 => { l with path := ascii "/", allowedMethods := ["GET", "DELETE"].map ascii }
  | 1 => { l with path := ascii "/dashboard/", allowedMethods := ["GET"].map ascii }
  | 2 => { l with
      path := ascii "/cgi-bin/"
      clientMaxBodySize := 116391936
      allowedMethods := ["GET", "POST"].map ascii
      cgiPaths := ["/usr/bin/python3", "/usr/bin/bash"].map ascii
      cgiExtensions := [".py", ".sh"].map ascii
      cgiMap := ((∅ : Std.TreeMap Bytes Bytes).insert (ascii ".py")
        (ascii "/usr/bin/python3")).insert (ascii ".sh") (ascii "/usr/bin/bash") }
  | 3 => { l with
      path := ascii "/redirect/"
      allowedMethods := ["GET"].map ascii
      returnCode := 301
      returnValue := ascii "/new-page.html"
      redirectEnabled := true }
  | 4 => { l with
      path := ascii "/uploads/"
      clientMaxBodySize := 2040109465
      allowedMethods := ["GET", "POST", "DELETE"].map ascii
      autoindex := true
      upload := ascii "./www/html/uploads/" }
  | 5 => { l with path := ascii "/errors/", allowedMethods := ["GET"].map ascii }
  | _ => l

/-- The locations that are made one from the other. -/
def defaultLocations (l : LocationConf) : List ℕ → List LocationConf
  | [] => []
  | num :: nums => l.setDefaultConf num :: defaultLocations (l.setDefaultConf num) nums

/-- `Server::set_default_conf`. -/
def ServerConf.setDefaultConf (s : ServerConf) : ServerConf where
  host := ascii "localhost"
  port := 8080
  timeoutSeconds := 60
  root := ascii "./www/html"
  clientMaxBodySize := 2040109465
  indexFiles := s.indexFiles ++ [ascii "index.html"]
  serverName := ascii "example.com"
  errorPage := setAll s.errorPage defaultPages
  locations := s.locations ++ defaultLocations .empty [0, 1, 2, 3, 4, 5]

/-! ### The servers of a file -/

variable (sz : Bytes → ℤ) (fs : ConfFiles)

/-- The end of `parsing_lexems`, with the checks of `check_for_blocks`. -/
def closeParser (p : ParserConf) : Except Bytes (List ServerConf) := do
  require (p.existHttp && p.existServer) (ascii "Missing required top-level blocks")
  validateFinalConfig fs
    (if p.http.clientMaxBodySize < 20000 then 1048576 else p.http.clientMaxBodySize) p.http.servers

/-- The text of the exception. -/
def ParseStop.what : ParseStop → Stop Bytes
  | .threw r => .threw r.msg
  | .outOfRange => .outOfRange
  | .stuck => .stuck

/-- `parsing_lexems`, and the servers that are there behind it. -/
def configure (stream : List Lexer) : Except (Stop Bytes) (List ServerConf) := do
  let (p, _) ← (parsingLexems sz .empty stream).mapError ParseStop.what
  (closeParser fs p).mapError .threw

/-- The part of `API_conf` that has a text. -/
def loadText (text : Bytes) : Except (Stop Bytes) (List ServerConf) := do
  (require (!text.isEmpty) (ascii "[API_conf] config file is empty")).mapError .threw
  (require (checkValidContent text)
    (ascii "[API_conf] Invalid character ] in config file")).mapError .threw
  let out ← (removeComments (insertSpace text)).mapError .threw
  let buff := refactoringBuffer out
  (require (!buff.all isWhite)
    (ascii "[API_conf] config has no contexts after preprocessing")).mapError .threw
  configure sz fs (streamOf (storingInVec buff))

/-- The part of `API_conf` that has the name of a file. -/
def loadFile (path : Bytes) : Except (Stop Bytes) (List ServerConf) :=
  if path.length < 5 ∨ path.drop (path.length - 5) ≠ ascii ".conf" then
    .error (.threw (ascii "[API_conf] invalid config extension (expected .conf)"))
  else
    match fs.content path with
    | none => .error (.threw (ascii "[API_conf] cannot open the config file"))
    | some text => loadText sz fs text

/-- `API_conf`. -/
def apiConf (argv : List Bytes) : Except (Stop Bytes) (List ServerConf) :=
  if argv.length < 2 then .ok [ServerConf.empty.setDefaultConf]
  else
    match argv with
    | [_, path] => loadFile sz fs path
    | _ => .error (.threw (ascii ("[API_conf] invalid Usage (expected ./webserv file.conf or " ++
        "just ./webserv for default configuration)")))

/-! ### The four passes -/

/-- The text is a layout of the words that the passes give. -/
theorem removeComments_of_laid {text : Bytes} {tokens : List Bytes}
    (hvalid : checkValidContent text = true) (h : Laid false tokens text) :
    ∃ out, removeComments (insertSpace text) = .ok out ∧ words isSpace out = tokens := by
  obtain ⟨hquote, hlex⟩ := laid_iff.mp h
  have hpasses := (lexes_of_valid hvalid).code true [] (by simp) fun _ => rfl
  rw [hasQuote] at hquote
  rw [hquote] at hpasses
  rcases hpasses with ⟨hthrows, -⟩ | ⟨-, out, hout, hwords⟩
  · exact absurd hthrows Bool.false_ne_true
  · exact ⟨out, hout, hwords.trans hlex⟩

/-- What the passes let through is a layout of its words. -/
theorem laid_of_removeComments {text out : Bytes} (hvalid : checkValidContent text = true)
    (h : removeComments (insertSpace text) = .ok out) :
    Laid false (words isSpace out) text := by
  rcases (lexes_of_valid hvalid).code true [] (by simp) fun _ => rfl with
    ⟨-, e, hthrows⟩ | ⟨hquote, out', hout, hwords⟩
  · rw [removeComments] at h
    rw [hthrows] at h
    cases h
  · rw [removeComments] at h
    rw [hout] at h
    cases h
    exact laid_iff.mpr ⟨hquote, hwords.symm⟩

theorem mem_of_mem_refactoringBuffer {b : UInt8} {s : Bytes} (h : b ∈ refactoringBuffer s) :
    b ∈ squeeze isSpace SP false s := by
  unfold refactoringBuffer at h
  dsimp only at h
  have hdrop : ∀ {t : Bytes}, b ∈ (if t.head? = some SP then t.drop 1 else t) → b ∈ t := by
    intro t ht
    split at ht
    · exact List.mem_of_mem_drop ht
    · exact ht
  have hlast := hdrop h
  split at hlast
  · exact List.dropLast_subset _ hlast
  · exact hlast

/-- The buffer is blank when there are no words. -/
theorem refactoringBuffer_blank_iff (s : Bytes) :
    (refactoringBuffer s).all isWhite = true ↔ words isSpace s = [] := by
  rw [← storingInVec_refactoringBuffer, storingInVec, words_eq_nil_iff, List.all_eq_true]
  refine forall₂_congr fun b hb => ?_
  rcases mem_squeeze (mem_of_mem_refactoringBuffer hb) with rfl | hplain
  · exact iff_of_true rfl rfl
  · refine iff_of_false (fun hwhite => ?_) fun hSP => ?_
    · rw [(isWhite_plain b hwhite).2.2] at hplain
      cases hplain
    · rw [beq_iff_eq.mp hSP] at hplain
      cases hplain

/-- **How a text is laid out does not matter.** -/
theorem loadText_eq {text : Bytes} {tokens : List Bytes} (hvalid : checkValidContent text = true)
    (h : Laid false tokens text) (htokens : tokens ≠ []) :
    loadText sz fs text = configure sz fs (streamOf tokens) := by
  obtain ⟨out, hout, hwords⟩ := removeComments_of_laid hvalid h
  have htext : (!text.isEmpty) = true := by
    rw [Bool.not_eq_true', List.isEmpty_eq_false_iff]
    rintro rfl
    exact htokens (laid_iff.mp h).2.symm
  have hblank : (!(refactoringBuffer out).all isWhite) = true := by
    rw [Bool.not_eq_true', ← Bool.not_eq_true, refactoringBuffer_blank_iff, hwords]
    exact htokens
  rw [loadText, htext, hvalid, hout]
  change ((require (!(refactoringBuffer out).all isWhite) _).mapError Stop.threw >>= _) = _
  rw [hblank, storingInVec_refactoringBuffer, hwords]
  rfl

/-- What is read of a text has been laid out in it. -/
theorem exists_laid_of_loadText {text : Bytes} {servers : List ServerConf}
    (h : loadText sz fs text = .ok servers) : checkValidContent text = true ∧
      ∃ tokens, Laid false tokens text ∧ configure sz fs (streamOf tokens) = .ok servers := by
  obtain ⟨-, -, h⟩ := bind_eq_ok_iff.mp h
  obtain ⟨u, hvalid, h⟩ := bind_eq_ok_iff.mp h
  have hbytes : checkValidContent text = true := by
    by_contra hinvalid
    rw [Bool.not_eq_true] at hinvalid
    rw [hinvalid] at hvalid
    cases hvalid
  obtain ⟨out, hpasses, h⟩ := bind_eq_ok_iff.mp h
  cases hout : removeComments (insertSpace text) with
  | error e =>
    rw [hout] at hpasses
    cases hpasses
  | ok out' =>
    rw [hout] at hpasses
    cases hpasses
    obtain ⟨-, -, h⟩ := bind_eq_ok_iff.mp h
    rw [storingInVec_refactoringBuffer] at h
    exact ⟨hbytes, _, laid_of_removeComments hbytes hout, h⟩

/-! ### Documents as texts -/

/-- The words of a configuration. -/
def Document.words (doc : Document) : List Bytes := doc.tokens.map (·.value)

/-- The words are those of the grammar where the grammar says so. -/
def Document.Spelled (doc : Document) : Prop := ∀ t ∈ doc.tokens, Lexer.identify t.value = t.type

instance (doc : Document) : Decidable doc.Spelled := inferInstanceAs (Decidable (∀ t ∈ _, _))

theorem Document.Spelled.streamOf_words {doc : Document} (h : doc.Spelled) :
    streamOf doc.words = doc.tokens ++ [⟨.«end», []⟩] := by
  rw [streamOf, Document.words, List.map_map]
  congr 1
  refine (List.map_congr_left fun t ht => ?_).trans (List.map_id _)
  exact congrArg (Lexer.mk · t.value) (h t ht)

theorem Document.spelled_of_streamOf {doc : Document} {tokens : List Bytes}
    (h : streamOf tokens = doc.tokens ++ [⟨.«end», []⟩]) : doc.Spelled ∧ tokens = doc.words := by
  have hfront := List.append_cancel_right h
  rw [Document.Spelled, Document.words, ← hfront, List.map_map]
  refine ⟨fun t ht => ?_, (List.map_id tokens).symm⟩
  obtain ⟨s, -, rfl⟩ := List.mem_map.mp ht
  rfl

/-- The servers of a configuration. -/
def Document.servers (doc : Document) : Except Bytes (List ServerConf) := do
  let p ← (doc.conf sz).mapError Report.msg
  closeParser fs p

theorem configure_tokens (doc : Document) (text : Bytes) :
    configure sz fs (doc.tokens ++ [⟨.«end», text⟩]) = (doc.servers sz fs).mapError .threw := by
  rw [configure, parsingLexems_eq, Document.servers]
  cases doc.conf sz with
  | error r => rfl
  | ok p => rfl

/-- **What the parser accepts**: the words of a configuration. -/
theorem exists_document_of_configure {tokens : List Bytes} {servers : List ServerConf}
    (h : configure sz fs (streamOf tokens) = .ok servers) :
    ∃ doc : Document, doc.Spelled ∧ tokens = doc.words ∧ doc.servers sz fs = .ok servers := by
  obtain ⟨⟨p, n⟩, hparse, -⟩ := bind_eq_ok_iff.mp h
  have hread : parsingLexems sz .empty (streamOf tokens) = .ok (p, n) := by
    cases hr : parsingLexems sz .empty (streamOf tokens) with
    | error e =>
      rw [hr] at hparse
      cases hparse
    | ok x =>
      rw [hr] at hparse
      cases hparse
      rfl
  obtain ⟨doc, hstream, -⟩ := exists_document hread
  obtain ⟨hspelled, hwords⟩ := Document.spelled_of_streamOf hstream
  rw [hstream, configure_tokens] at h
  refine ⟨doc, hspelled, hwords, ?_⟩
  cases hservers : doc.servers sz fs with
  | error e =>
    rw [hservers] at h
    cases h
  | ok s =>
    rw [hservers] at h
    cases h
    rfl

/-- A configuration without a block has no servers. -/
theorem Document.words_ne_nil {doc : Document} {servers : List ServerConf}
    (h : doc.servers sz fs = .ok servers) : doc.words ≠ [] := by
  intro hnil
  cases doc with
  | nil =>
    cases h
  | cons part doc =>
    cases part <;> cases hnil

/-- A file name that ends as it has to. -/
def IsConfName (path : Bytes) : Prop := ∃ stem, path = stem ++ ascii ".conf"

theorem isConfName_iff {path : Bytes} : IsConfName path ↔
    ¬ (path.length < 5 ∨ path.drop (path.length - 5) ≠ ascii ".conf") := by
  rw [not_or, not_not]
  constructor
  · rintro ⟨stem, rfl⟩
    have hlength : (stem ++ ascii ".conf").length = stem.length + 5 := List.length_append
    rw [hlength]
    exact ⟨by omega, by rw [Nat.add_sub_cancel, List.drop_left]⟩
  · rintro ⟨-, hdrop⟩
    exact ⟨path.take (path.length - 5), by rw [← hdrop, List.take_append_drop]⟩

/-- The file can be opened and has accepted bytes, and these are a layout of a configuration that
means the servers. -/
theorem loadFile_eq_ok_iff {path : Bytes} {servers : List ServerConf} :
    loadFile sz fs path = .ok servers ↔ IsConfName path ∧
      ∃ text, fs.content path = some text ∧ checkValidContent text = true ∧
        ∃ doc : Document, doc.Spelled ∧ Laid false doc.words text ∧
          doc.servers sz fs = .ok servers := by
  rw [loadFile, isConfName_iff]
  split
  · next hname => exact iff_of_false nofun fun h => h.1 hname
  · next hname =>
    rw [and_iff_right hname]
    cases fs.content path with
    | none => exact iff_of_false nofun nofun
    | some text =>
      constructor
      · intro h
        obtain ⟨hvalid, tokens, hlaid, hconf⟩ := exists_laid_of_loadText sz fs h
        obtain ⟨doc, hspelled, rfl, hservers⟩ := exists_document_of_configure sz fs hconf
        exact ⟨text, rfl, hvalid, doc, hspelled, hlaid, hservers⟩
      · rintro ⟨text', htext, hvalid, doc, hspelled, hlaid, hservers⟩
        cases htext
        change loadText sz fs text = _
        rw [loadText_eq sz fs hvalid hlaid (Document.words_ne_nil sz fs hservers),
          hspelled.streamOf_words, configure_tokens, hservers]
        rfl

/-- **Which command lines are accepted, and as which servers**: without a file there is one server,
and a file has to be a layout of a configuration that means the servers. -/
theorem apiConf_eq_ok_iff {argv : List Bytes} {servers : List ServerConf} :
    apiConf sz fs argv = .ok servers ↔
      argv.length < 2 ∧ servers = [ServerConf.empty.setDefaultConf] ∨
      ∃ name path text, argv = [name, path] ∧ IsConfName path ∧ fs.content path = some text ∧
        checkValidContent text = true ∧ ∃ doc : Document, doc.Spelled ∧
          Laid false doc.words text ∧ doc.servers sz fs = .ok servers := by
  unfold apiConf
  split
  · next hfew =>
    constructor
    · intro h
      exact .inl ⟨hfew, (Except.ok.inj h).symm⟩
    · rintro (⟨-, rfl⟩ | ⟨name, path, text, rfl, -⟩)
      · rfl
      · exact absurd hfew (by simp)
  · next hmany =>
    rw [or_iff_right fun h => hmany h.1]
    clear hmany
    split
    · next name path =>
      rw [loadFile_eq_ok_iff]
      constructor
      · rintro ⟨hname, text, htext, hdoc⟩
        exact ⟨name, path, text, rfl, hname, htext, hdoc⟩
      · rintro ⟨_, _, text, hargv, hname, htext, hdoc⟩
        cases hargv
        exact ⟨hname, text, htext, hdoc⟩
    · next hother =>
      refine iff_of_false nofun ?_
      rintro ⟨name, path, text, rfl, -⟩
      exact hother name path rfl

/-! ### Configurations that are written -/

/-- A brace or a semicolon. -/
def isSign : Bytes → Bool
  | [b] => isPunctuation b
  | _ => false

/-- A word or sign that a text of accepted bytes can have. -/
def isWritten (w : Bytes) : Bool :=
  w.all isValidByte && (isSign w || (!w.isEmpty && w.all isWordByte && w.head? != some HASH))

/-- The words of a configuration with a space behind each. -/
def Document.print (doc : Document) : Bytes := doc.words.flatMap (· ++ [SP])

theorem laid_written : ∀ {words : List Bytes}, (∀ w ∈ words, isWritten w = true) →
    Laid false words (words.flatMap (· ++ [SP])) := by
  intro words
  induction words with
  | nil => exact fun _ => .nil false
  | cons w words ih =>
    intro h
    rw [List.forall_mem_cons] at h
    obtain ⟨hw, hwords⟩ := h
    have hrest : ∀ glued, Laid glued words (SP :: words.flatMap (· ++ [SP])) := fun _ =>
      .white rfl (ih hwords)
    rw [List.flatMap_cons, List.append_assoc, List.singleton_append]
    rw [isWritten, Bool.and_eq_true, Bool.or_eq_true] at hw
    rcases hw.2 with hsign | hword
    · unfold isSign at hsign
      split at hsign
      · exact .punctuation hsign (hrest false)
      · exact absurd hsign Bool.false_ne_true
    · simp only [Bool.and_eq_true, Bool.not_eq_true', List.isEmpty_eq_false_iff, List.all_eq_true,
        bne_iff_ne] at hword
      exact .word ⟨hword.1.1, hword.1.2, hword.2⟩ (hrest true)

theorem checkValidContent_written {words : List Bytes} (h : ∀ w ∈ words, isWritten w = true) :
    checkValidContent (words.flatMap (· ++ [SP])) = true := by
  rw [checkValidContent, List.all_flatMap, List.all_eq_true]
  intro w hw
  have hwritten := h w hw
  rw [isWritten, Bool.and_eq_true] at hwritten
  rw [List.all_append, hwritten.1]
  rfl

/-- **A configuration that is written to a file is read back as what it means**, with its error if
it means none. -/
theorem apiConf_print {name path : Bytes} {doc : Document} (hpath : IsConfName path)
    (hfile : fs.content path = some doc.print) (hspelled : doc.Spelled)
    (hwritten : ∀ w ∈ doc.words, isWritten w = true) (hdoc : doc ≠ []) :
    apiConf sz fs [name, path] = (doc.servers sz fs).mapError .threw := by
  have hwords : doc.words ≠ [] := by
    obtain ⟨part, doc, rfl⟩ := List.exists_cons_of_ne_nil hdoc
    cases part <;> exact List.cons_ne_nil _ _
  change loadFile sz fs path = _
  rw [loadFile, if_neg (isConfName_iff.mp hpath), hfile]
  change loadText sz fs (doc.words.flatMap (· ++ [SP])) = _
  rw [loadText_eq sz fs (checkValidContent_written hwritten) (laid_written hwritten) hwords,
    hspelled.streamOf_words, configure_tokens]

/-- A server with one location. -/
def smallDocument : Document :=
  [.http [.server [.directive ⟨ascii "listen", [ascii "80"]⟩,
    .directive ⟨ascii "root", [ascii "/"]⟩, .directive ⟨ascii "index", [ascii "i.html"]⟩,
    .directive ⟨ascii "timeout", [ascii "60"]⟩, .location (ascii "/") []]]]

/-- The server that it means where every path is a directory. -/
def smallServer : ServerConf where
  host := ascii "0.0.0.0"
  port := 80
  timeoutSeconds := 60
  root := [SLASH]
  clientMaxBodySize := 1048576
  indexFiles := [ascii "i.html"]
  serverName := []
  errorPage := ∅
  locations := [{ LocationConf.empty with
    path := [SLASH]
    root := [SLASH]
    indexFiles := [ascii "i.html"]
    allowedMethods := [ascii "GET"]
    clientMaxBodySize := 1048576 }]

/-- Files that hold it. -/
def smallFiles : ConfFiles :=
  { directoriesOnly with content := fun _ => some smallDocument.print }

theorem apiConf_print_smallDocument :
    apiConf (fun _ => 1) smallFiles [[], ascii "a.conf"] = .ok [smallServer] :=
  (apiConf_print _ _ ⟨[97], by decide⟩ rfl (by decide) (by decide +kernel)
    (List.cons_ne_nil _ _)).trans rfl

end Webserv
