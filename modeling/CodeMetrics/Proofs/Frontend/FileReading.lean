import CodeMetrics.Proofs.Files.Places
import CodeMetrics.Proofs.Frontend.History
import CodeMetrics.Proofs.Grammar.Fidelity
import CodeMetrics.Proofs.Text.Utf8RoundTrip

/-!
# Reading files

A file is looked at in a fixed order: whether its path can be one, whether it is there, whether it is
a file, its name, the grammar, and its bytes. The first of these that is wrong decides the failure,
whatever else is. So a path that cannot be one, for a null character or for its length, is not
reported as one where nothing is found, though nothing can be there. A file with none of them wrong
comes out as its text does, once every line end of the text has been made a line feed. This is done
in one pass, and has the effect of replacing pairs first and single carriage returns after them, so
the document has a line more than the file has line breaks.
-/

namespace CodeMetrics

/-! ## Line ends -/

namespace Text

/-- The text with each occurrence of the pattern, from the left, replaced. -/
def replaceAll (pattern replacement : List Char) : List Char → List Char
  | [] => []
  | character :: rest =>
      if pattern.isPrefixOf (character :: rest) then
        replacement ++ replaceAll pattern replacement (rest.drop (pattern.length - 1))
      else character :: replaceAll pattern replacement rest
termination_by text => text.length
decreasing_by
  · simp only [List.length_drop, List.length_cons]
    omega
  · simp

/-- The text with every pair of a carriage return and a line feed, and then every carriage return
that is left, replaced by a line feed. -/
def withLineFeeds (text : List Char) : List Char :=
  replaceAll ['\r'] ['\n'] (replaceAll ['\r', '\n'] ['\n'] text)

/-- The number of carriage returns with a line feed right after them. -/
def pairCount (text : List Char) : Nat := (text.zip text.tail).count ('\r', '\n')

/-- The number of line breaks: carriage returns and line feeds, a pair of them counted once. -/
def lineBreakCount (text : List Char) : Nat :=
  text.count '\r' + text.count '\n' - pairCount text

theorem replaceAll_of_isPrefixOf {pattern : List Char} (replacement : List Char)
    {character : Char} {rest : List Char} (found : pattern.isPrefixOf (character :: rest)) :
    replaceAll pattern replacement (character :: rest) =
      replacement ++ replaceAll pattern replacement (rest.drop (pattern.length - 1)) := by
  rw [replaceAll, if_pos found]

theorem replaceAll_of_not_isPrefixOf {pattern : List Char} (replacement : List Char)
    {character : Char} {rest : List Char} (missing : ¬ pattern.isPrefixOf (character :: rest)) :
    replaceAll pattern replacement (character :: rest) =
      character :: replaceAll pattern replacement rest := by
  rw [replaceAll, if_neg missing]

theorem replaceAll_singleton (old new : Char) (text : List Char) :
    replaceAll [old] [new] text =
      text.map fun character => if character = old then new else character := by
  induction text with
  | nil => rw [replaceAll, List.map_nil]
  | cons character rest induction =>
      rw [replaceAll, List.map_cons, ← induction]
      by_cases same : character = old
      · simp [same]
      · simp [same, Ne.symm same]

theorem not_pair_isPrefixOf {character : Char} {rest : List Char}
    (noPair : ∀ later, character = '\r' → rest ≠ '\n' :: later) :
    ¬ ['\r', '\n'].isPrefixOf (character :: rest) := by
  intro found
  obtain ⟨later, split⟩ := List.isPrefixOf_iff_prefix.mp found
  obtain ⟨isReturn, isFeed⟩ := List.cons.inj split
  exact noPair later isReturn.symm isFeed.symm

/-- Reading line ends in one pass is replacing the pairs first and then the single ones. -/
theorem unifyLineEnds_eq (text : List Char) : unifyLineEnds text = withLineFeeds text := by
  rw [withLineFeeds, replaceAll_singleton]
  fun_induction unifyLineEnds text with
  | case1 => rw [replaceAll, List.map_nil]
  | case2 rest induction =>
      rw [replaceAll_of_isPrefixOf _ rfl, induction]
      rfl
  | case3 rest noFeed induction =>
      rw [replaceAll_of_not_isPrefixOf _ (not_pair_isPrefixOf fun later _ => noFeed later),
        induction]
      rfl
  | case4 character rest noPair noReturn induction =>
      have other : character ≠ '\r' := noReturn
      rw [replaceAll_of_not_isPrefixOf _ (not_pair_isPrefixOf noPair), induction, List.map_cons,
        if_neg other]

theorem pairCount_cons (character : Char) (rest : List Char) :
    pairCount (character :: rest) =
      pairCount rest + if character = '\r' ∧ rest.head? = some '\n' then 1 else 0 := by
  cases rest with
  | nil => simp [pairCount]
  | cons next later => simp [pairCount, List.count_cons]

theorem count_unifyLineEnds_add (text : List Char) :
    (unifyLineEnds text).count '\n' + pairCount text = text.count '\r' + text.count '\n' := by
  fun_induction unifyLineEnds text with
  | case1 => rfl
  | case2 rest induction =>
      have pairs : pairCount ('\r' :: '\n' :: rest) = pairCount rest + 1 := by
        simp [pairCount_cons]
      simp +decide only [pairs, List.count_cons, ↓reduceIte]
      omega
  | case3 rest noFeed induction =>
      have single : rest.head? ≠ some '\n' := by
        cases rest with
        | nil => simp
        | cons next later =>
            intro isFeed
            exact noFeed later (congrArg (· :: later) (Option.some.inj isFeed))
      have pairs : pairCount ('\r' :: rest) = pairCount rest := by
        simp [pairCount_cons, single]
      simp +decide only [pairs, List.count_cons, ↓reduceIte]
      omega
  | case4 character rest noPair noReturn induction =>
      have other : character ≠ '\r' := noReturn
      have pairs : pairCount (character :: rest) = pairCount rest := by
        simp [pairCount_cons, other]
      rw [pairs, List.count_cons, List.count_cons_of_ne other, List.count_cons]
      omega

/-- Each line break is read as one line feed. -/
theorem count_unifyLineEnds (text : List Char) :
    (unifyLineEnds text).count '\n' = lineBreakCount text := by
  rw [lineBreakCount, ← count_unifyLineEnds_add, Nat.add_sub_cancel]

end Text

namespace Path

theorem absolute_ne_empty (place : List String) : absolute place ≠ "" := by
  simp [absolute]

theorem resolve?_of_no_null {path : String} (noNull : '\x00' ∉ path.toList)
    (working : List String) : resolve? working path = some (absolute (place working path)) :=
  if_neg noNull

end Path

namespace Parser

variable {grammar : Option Grammar} {files : FileTree} {path : String}

/-! ## Opening -/

theorem supports_load_new (grammar : Option Grammar) :
    (new.load grammar).supports grammarLanguage ↔ grammar ≠ none := by
  cases grammar with
  | none => simp [supports, supported, languages, load, new, grammars]
  | some treeOf =>
      have lower : grammarLanguage.toLower = grammarLanguage := by decide +kernel
      simp [supports, supported, languages, load, new, grammars, lower]

theorem openFile_of_null (null : '\x00' ∈ path.toList) (parser : Parser) :
    parser.openFile files path = .error .nullInPath := by
  simp only [openFile, Path.resolve?, null, ↓reduceIte]

/-- A path without a null character that leads nowhere is refused for its length or for that. -/
theorem openFile_of_absent {absence : Absence} (noNull : '\x00' ∉ path.toList)
    (absent : files.find path = .error absence) (parser : Parser) :
    parser.openFile files path = .error (match absence with
      | .tooLong => .nameTooLong (Path.written path)
      | .missing => .notFound (Path.absolute (Path.place files.working path))) := by
  simp only [openFile, Path.resolve?_of_no_null noNull, absent]
  cases absence <;> rfl

theorem resolve?_of_find {entry : Entry} (found : files.find path = .ok entry) :
    Path.resolve? files.working path =
      some (Path.absolute (Path.place files.working path)) :=
  Path.resolve?_of_no_null (fun null => FileTree.find_ne_ok_of_null null found) files.working

theorem openFile_of_directory (found : files.find path = .ok .directory) (parser : Parser) :
    parser.openFile files path =
      .error (.notAFile (Path.absolute (Path.place files.working path))) := by
  simp only [openFile, resolve?_of_find found, found]

theorem openFile_of_unknown {content : List UInt8} (parser : Parser)
    (found : files.find path = .ok (.file content)) (other : ¬ Path.IsSource path) :
    parser.openFile files path = .error (.unknownLanguage (Path.name path)
      (Path.absolute (Path.place files.working path))) := by
  have undetected : detectLanguage? path = none := by
    refine Option.eq_none_iff_forall_ne_some.mpr fun language detected => ?_
    exact other (detectLanguage?_eq_some_iff.mp detected).1
  simp only [openFile, resolve?_of_find found, found, undetected]

theorem openFile_of_missing {content : List UInt8}
    (found : files.find path = .ok (.file content)) (source : Path.IsSource path)
    (missing : grammar = none) :
    (new.load grammar).openFile files path = .error (.unsupportedLanguage grammarLanguage
      (Path.absolute (Path.place files.working path))) := by
  have detected := detectLanguage?_eq_some_iff.mpr ⟨source, rfl⟩
  have unsupported : ¬ (new.load grammar).supports grammarLanguage :=
    fun supported => (supports_load_new grammar).mp supported missing
  simp only [openFile, resolve?_of_find found, found, detected, unsupported, Bool.false_eq_true,
    ↓reduceIte]

/-- A file with the path of a source file is opened if there is a grammar. -/
theorem openFile_of_source {content : List UInt8}
    (found : files.find path = .ok (.file content)) (source : Path.IsSource path)
    (present : grammar ≠ none) :
    (new.load grammar).openFile files path =
      .ok ⟨Path.absolute (Path.place files.working path), content, grammarLanguage⟩ := by
  have detected := detectLanguage?_eq_some_iff.mpr ⟨source, rfl⟩
  simp only [openFile, resolve?_of_find found, found, detected,
    (supports_load_new grammar).mpr present, ↓reduceIte]

/-! ## Reading -/

section

variable {name : String} (utf8 : Encoding.ofName? name = some .utf8)
include utf8

theorem readText_of_text (text : String) :
    readText text.toUTF8.toList name = .ok (String.ofList (Text.withLineFeeds text.toList)) := by
  have decoded := Text.decodeUtf8_eq_ok_iff.mpr (Text.toList_toUTF8 text)
  rw [readText, utf8]
  simp only [Encoding.decodeText, Encoding.decode, Encoding.decodeUtf8, decoded]
  rw [← Text.unifyLineEnds_eq]
  rfl

theorem readText_of_no_text {content : List UInt8}
    (invalid : ∀ text : String, content ≠ text.toUTF8.toList) :
    ∃ fault, readText content name = .error (.undecodable fault) := by
  rw [readText, utf8]
  cases decoded : Text.decodeUtf8 content with
  | error fault =>
      simp only [Encoding.decodeText, Encoding.decode, Encoding.decodeUtf8, decoded]
      exact ⟨_, rfl⟩
  | ok characters =>
      refine absurd ?_ (invalid (String.ofList characters))
      rw [Text.toList_toUTF8, String.toList_ofList]
      exact Text.decodeUtf8_eq_ok_iff.mp decoded

end

/-! ## Parsing -/

section

variable {parser : Parser} {encoding : Option String}

theorem outcome_parseFile_of_unopened {failure : ParseError}
    (unopened : (parser.load grammar).openFile files path = .error failure) :
    (parser.parseFile grammar files path encoding).outcome = .error failure := by
  simp only [parseFile, unopened]

theorem outcome_parseFile_of_unread {file : SourceFile} {failure : ParseError}
    (opened : (parser.load grammar).openFile files path = .ok file)
    (unread : readText file.content (encoding.getD "utf-8") = .error failure) :
    (parser.parseFile grammar files path encoding).outcome = .error failure := by
  simp only [parseFile, opened, unread]
  cases failure <;> rfl

/-- A file that can be opened and read comes out as its text does. -/
theorem outcome_parseFile_of_read {file : SourceFile} {source : String}
    (opened : (parser.load grammar).openFile files path = .ok file)
    (read : readText file.content (encoding.getD "utf-8") = .ok source) :
    (parser.parseFile grammar files path encoding).outcome =
      (parser.parseSource grammar source (some file.path) (some file.language)).outcome := by
  simp only [parseFile, opened, read]
  exact outcome_parseSource_eq parser.load_load source _ _

end

/-- The outcome is a complaint about the file at the path. -/
def ComplainsOf (path message : String) (outcome : Except ParseError ParseResult) : Prop :=
  ∃ failure, outcome = .error failure ∧
    failure.complaint? = some ⟨message, some path, none, none⟩

/-- How a file in UTF-8 comes out. What is wrong with the path comes before what is wrong with the
place, then the name, then the grammar, then the bytes. If nothing is wrong, the text decides. -/
structure ReadsFile (parser : Parser) (grammar : Option Grammar) (files : FileTree)
    (path resolved : String) (outcome : Except ParseError ParseResult) : Prop where
  /-- What the path leads to stands at its place. -/
  stands : ∀ entry, files.find path = .ok entry →
    files.lookup? (Path.place files.working path) = some entry
  /-- With a null character the path leads nowhere, and this is not what the failure says. -/
  null : '\x00' ∈ path.toList →
    (∀ entry, files.find path ≠ .ok entry) ∧ outcome = .error .nullInPath
  tooLong : '\x00' ∉ path.toList → files.find path = .error .tooLong →
    Path.TooLong path ∧ outcome = .error (.nameTooLong (Path.written path))
  notFound : '\x00' ∉ path.toList → files.find path = .error .missing →
    outcome = .error (.notFound resolved)
  notAFile : files.find path = .ok .directory →
    ComplainsOf resolved ("Path is not a file: " ++ resolved) outcome
  unknown : ∀ content, files.find path = .ok (.file content) → ¬ Path.IsSource path →
    ComplainsOf resolved ("Cannot detect language for file: " ++ Path.name path) outcome
  unsupported : ∀ content, files.find path = .ok (.file content) → Path.IsSource path →
    grammar = none → ComplainsOf resolved "Unsupported language: csharp" outcome
  undecodable : ∀ content, files.find path = .ok (.file content) → Path.IsSource path →
    grammar ≠ none → (∀ text : String, content ≠ text.toUTF8.toList) →
    ∃ fault, outcome = .error (.undecodable fault)
  /-- The text is parsed with its line ends made line feeds. -/
  asText : ∀ text : String, files.find path = .ok (.file text.toUTF8.toList) →
    Path.IsSource path → grammar ≠ none →
    outcome = (parser.parseSource grammar (String.ofList (Text.withLineFeeds text.toList))
      (some resolved) (some "csharp")).outcome
  document : ∀ text : String, files.find path = .ok (.file text.toUTF8.toList) →
    ∀ result, outcome = .ok result →
      result.document.filePath = resolved ∧ result.document.language = "csharp" ∧
        result.document.lineCount = Text.lineBreakCount text.toList + 1
  /-- With a tree of the text there is a result. -/
  parses : ∀ text : String, files.find path = .ok (.file text.toUTF8.toList) →
    Path.IsSource path → ∀ treeOf, grammar = some treeOf → ∀ tree errors,
      treeOf (String.ofList (Text.withLineFeeds text.toList)).toUTF8.toList = some tree →
      SyntaxFault.ofNodes tree.faults = .ok errors →
      outcome = .ok ⟨documentOf (String.ofList (Text.withLineFeeds text.toList)) resolved tree,
        errors⟩

theorem pathOr_of_ne_empty {path : String} (nonempty : path ≠ "") : pathOr (some path) = path := by
  simp [pathOr, nonempty]

theorem outcome_parseSource_of_path {resolved : String} (nonempty : resolved ≠ "")
    (parser : Parser) (text : String) :
    (parser.parseSource grammar text (some resolved) (some "csharp")).outcome =
      ((parser.load grammar).parseDocument text resolved "csharp").1 := by
  have named : languageFor? (some resolved) (some "csharp") = some "csharp" :=
    languageFor?_of_named (by decide)
  rw [outcome_parseSource named, pathOr_of_ne_empty nonempty]

theorem lineCount_withLineFeeds (text : List Char) :
    Text.lineCount (String.ofList (Text.withLineFeeds text)) = Text.lineBreakCount text + 1 := by
  rw [Text.lineCount, String.toList_ofList, ← Text.unifyLineEnds_eq, Text.count_unifyLineEnds]

/-- A file that is the encoding of a text comes out as the text with line feeds does. -/
theorem outcome_parseFile_of_text {parser : Parser} {encoding : Option String} {text : String}
    (loaded : parser.load grammar = new.load grammar)
    (utf8 : Encoding.ofName? (encoding.getD "utf-8") = some .utf8)
    (found : files.find path = .ok (.file text.toUTF8.toList))
    (source : Path.IsSource path) (present : grammar ≠ none) :
    (parser.parseFile grammar files path encoding).outcome =
      (parser.parseSource grammar (String.ofList (Text.withLineFeeds text.toList))
        (some (Path.absolute (Path.place files.working path))) (some "csharp")).outcome := by
  have opened := openFile_of_source found source present
  rw [← loaded] at opened
  exact outcome_parseFile_of_read opened (readText_of_text utf8 text)

/-- Reading a file agrees with parsing its text, whatever the directories hold, whatever the parser
was asked before, and with the grammar or without it. Only where the path cannot be one is the
failure not the one of a file that is missing. -/
theorem parseFile_agrees_with_text (grammar : Option Grammar) (history : List Request)
    (files : FileTree) (path : String) (encoding : Option String)
    (utf8 : Encoding.ofName? (encoding.getD "utf-8") = some .utf8) :
    (new.after grammar history).ReadsFile grammar files path
      (Path.absolute (Path.place files.working path))
      ((new.after grammar history).parseFile grammar files path encoding).outcome := by
  have loaded : (new.after grammar history).load grammar = new.load grammar :=
    new.load_after history
  generalize new.after grammar history = parser at loaded ⊢
  have unopened {failure : ParseError}
      (fails : (new.load grammar).openFile files path = .error failure) :
      (parser.parseFile grammar files path encoding).outcome = .error failure :=
    outcome_parseFile_of_unopened (by rw [loaded, fails])
  constructor
  case stands =>
    intro entry found
    exact FileTree.lookup?_place_of_find found
  case null =>
    intro null
    exact ⟨fun _ => FileTree.find_ne_ok_of_null null, unopened (openFile_of_null null _)⟩
  case tooLong =>
    intro noNull tooLong
    exact ⟨FileTree.tooLong_of_find tooLong, unopened (openFile_of_absent noNull tooLong _)⟩
  case notFound =>
    intro noNull missing
    exact unopened (openFile_of_absent noNull missing _)
  case notAFile =>
    intro isDirectory
    exact ⟨_, unopened (openFile_of_directory isDirectory _), rfl⟩
  case unknown =>
    intro content found other
    exact ⟨_, unopened (openFile_of_unknown _ found other), rfl⟩
  case unsupported =>
    intro content found source missing
    exact ⟨_, unopened (openFile_of_missing found source missing), rfl⟩
  case undecodable =>
    intro content found source present invalid
    have opened := openFile_of_source found source present
    rw [← loaded] at opened
    obtain ⟨fault, unread⟩ := readText_of_no_text utf8 invalid
    exact ⟨fault, outcome_parseFile_of_unread opened unread⟩
  case asText =>
    intro text found source present
    exact outcome_parseFile_of_text loaded utf8 found source present
  case document =>
    -- There is a result, so neither the name nor the grammar can be at fault.
    intro text found result parsed
    have source : Path.IsSource path := by
      by_contra other
      cases (unopened (openFile_of_unknown _ found other)).symm.trans parsed
    have present : grammar ≠ none := by
      intro missing
      cases (unopened (openFile_of_missing found source missing)).symm.trans parsed
    rw [outcome_parseFile_of_text loaded utf8 found source present,
      outcome_parseSource_of_path (Path.absolute_ne_empty _)] at parsed
    obtain ⟨tree, isDocument⟩ := document_of_parseDocument parsed
    rw [isDocument]
    exact ⟨rfl, rfl, lineCount_withLineFeeds text.toList⟩
  case parses =>
    rintro text found source treeOf rfl tree errors isTree faults
    have lookup := (lookup_load_new (some treeOf) "csharp".toLower).trans
      (if_pos (by decide +kernel))
    rw [outcome_parseFile_of_text loaded utf8 found source (Option.some_ne_none treeOf),
      outcome_parseSource_of_path (Path.absolute_ne_empty _), loaded]
    exact parseDocument_of_tree lookup isTree faults _

/-- The text of a file with a line break of each kind. -/
def mixedBreaks : String := "using A;\r\nusing B;\rusing C;\n"

/-- A working directory with that file, and one whose bytes are no text. -/
def mixedFiles : FileTree where
  entries :=
    [(["work"], .directory), (["work", "src"], .directory),
      (["work", "src", "A.Cs"], .file mixedBreaks.toUTF8.toList),
      (["work", "src", "B.csx"], .file [0xc3])]
  working := ["work"]
  named := by decide +kernel
  held := by decide +kernel
  works := by decide +kernel

/-- A grammar with one leaf for all bytes. -/
def oneLeaf : Grammar := fun bytes =>
  some (Grammar.sketchAt "compilation_unit" true 0 bytes.length [])

theorem parseFile_agrees_with_text_mixedFiles :
    Encoding.ofName? "utf-8" = some .utf8 ∧
      let history := [Request.file mixedFiles "src/None.cs" none]
      let parser := new.after (some oneLeaf) history
      (∃ result, (parser.parseFile (some oneLeaf) mixedFiles "src/A.Cs" none).outcome =
          .ok result ∧ result.document.filePath = "/work/src/A.Cs" ∧
        result.document.source = "using A;\nusing B;\nusing C;\n" ∧ result.document.lineCount = 4) ∧
      (∃ fault, (parser.parseFile (some oneLeaf) mixedFiles "/work/src/B.csx" none).outcome =
        .error (.undecodable fault)) ∧
      ComplainsOf "/work/src/B.csx" "Unsupported language: csharp"
        (new.parseFile none mixedFiles "../work/src/B.csx" none).outcome ∧
      ComplainsOf "/" "Path is not a file: /"
        (new.parseFile none mixedFiles "../.." none).outcome ∧
      (new.parseFile none mixedFiles "None/../src/A.Cs" none).outcome =
        .error (.notFound "/work/src/A.Cs") ∧
      (∀ entry, mixedFiles.find "a\x00.cs" ≠ .ok entry) ∧
      (new.parseFile none mixedFiles "a\x00.cs" none).outcome = .error .nullInPath := by
  have utf8 : Encoding.ofName? "utf-8" = some .utf8 := by decide +kernel
  have source {path : String} (known : (Path.suffix path).toLower ∈ [".cs", ".csx"]) :
      Path.IsSource path := Path.suffix_iff.mp known
  have noText (text : String) : [0xc3] ≠ text.toUTF8.toList := by
    intro encodes
    rw [Text.toList_toUTF8] at encodes
    have decoded := Text.decodeUtf8_eq_ok_iff.mpr encodes
    have faulty : (Text.decodeUtf8 [0xc3]).toOption = none := by decide +kernel
    simp [decoded, Except.toOption] at faulty
  refine ⟨utf8, ?_, ?_, ?_, ?_, ?_, ?_⟩
  · have reads := parseFile_agrees_with_text (some oneLeaf)
      [.file mixedFiles "src/None.cs" none] mixedFiles "src/A.Cs" none utf8
    have found : mixedFiles.find "src/A.Cs" = .ok (.file mixedBreaks.toUTF8.toList) := by
      decide +kernel
    have parsed := reads.parses _ found (source (by decide +kernel)) oneLeaf rfl _ [] rfl rfl
    refine ⟨_, parsed, ?_, ?_, ?_⟩
    · decide +kernel
    · rw [documentOf, ← Text.unifyLineEnds_eq]
      decide +kernel
    · rw [(reads.document _ found _ parsed).2.2]
      decide +kernel
  · have reads := parseFile_agrees_with_text (some oneLeaf)
      [.file mixedFiles "src/None.cs" none] mixedFiles "/work/src/B.csx" none utf8
    exact reads.undecodable _ (by decide +kernel) (source (by decide +kernel)) (by simp) noText
  · have reads := parseFile_agrees_with_text none [] mixedFiles "../work/src/B.csx" none utf8
    exact reads.unsupported [0xc3] (by decide +kernel) (source (by decide +kernel)) rfl
  · have reads := parseFile_agrees_with_text none [] mixedFiles "../.." none utf8
    exact reads.notAFile (by decide +kernel)
  · have reads := parseFile_agrees_with_text none [] mixedFiles "None/../src/A.Cs" none utf8
    exact reads.notFound (by decide +kernel) (by decide +kernel)
  · have reads := parseFile_agrees_with_text none [] mixedFiles "a\x00.cs" none utf8
    exact reads.null (by decide +kernel)

end Parser

end CodeMetrics
