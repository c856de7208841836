import CodeMetrics.Files.FileTree
import CodeMetrics.Frontend.Outline
import CodeMetrics.Frontend.ParseError
import CodeMetrics.Grammar.Creation
import CodeMetrics.Record.Reader

/-!
# Parsing source text

A parser hands source text to a grammar and turns the answer into a document in normal form. The
grammar is looked for at the first call that needs it, and kept.
-/

namespace CodeMetrics

/-! ## Languages -/

/-- The language with a grammar. -/
def grammarLanguage : String := "csharp"

/-- The language of a file, by its suffix. Only ASCII letters have these suffixes as their lower
case. -/
def detectLanguage? (path : String) : Option String :=
  if (Path.suffix path).toLower ∈ [".cs", ".csx"] then some grammarLanguage else none

/-! ## Syntax errors -/

/-- A syntax error, by line and column counted from one. -/
structure SyntaxFault where
  line : Int
  column : Int
  /-- A token was missing there. -/
  missing : Bool
deriving DecidableEq, Repr

namespace SyntaxFault

/-- The name of the record. -/
def recordName : String := "SyntaxErrorInfo"

/-- The syntax error in words. -/
def message (fault : SyntaxFault) : String :=
  (if fault.missing then "Missing token" else "Syntax error") ++
    s!" at line {fault.line}, column {fault.column}"

/-- A syntax error from the fields of a record. -/
def read (entries : List (String × Value)) : Checked SyntaxFault :=
  ((Reader.required entries "line" (Reader.integerFrom 1)).map SyntaxFault.mk).ap
    (Reader.required entries "column" (Reader.integerFrom 1))
    |>.ap (Reader.optional entries "missing" false Reader.boolean)

/-- The syntax error at a node of a parse tree. -/
def ofNode (node : ParseNode) : Except Rejection SyntaxFault :=
  (read [("line", .integer (node.construct.start.row + 1)),
    ("column", .integer (node.construct.start.column + 1)),
    ("missing", .boolean node.construct.isMissing)]).close recordName

/-- The syntax errors at a list of nodes. -/
def ofNodes : List ParseNode → Except Rejection (List SyntaxFault)
  | [] => .ok []
  | node :: nodes => do
      let first ← ofNode node
      let rest ← ofNodes nodes
      return first :: rest

end SyntaxFault

/-- The outcome of parsing a source text. -/
structure ParseResult where
  document : Document
  errors : List SyntaxFault

namespace ParseResult

/-- The name of the record. -/
def recordName : String := "ParseResult"

/-- The text has no syntax error. -/
def success (result : ParseResult) : Bool := result.errors.isEmpty

/-- The issues of the fields of a record. A tree is no loosely typed value, so there are always some. -/
def issues (entries : List (String × Value)) : List Issue :=
  let check {α : Type} : Checked α → List Issue
    | .ok _ => []
    | .error found => found
  check (Reader.required entries "tree" fun _ =>
      (Checked.fail (.instanceExpected "SyntaxTree") : Checked Unit)) ++
    check (Reader.required entries "file_path" Reader.text) ++
    check (Reader.required entries "language" Reader.text) ++
    check (Reader.optional entries "parse_errors" []
      (Reader.collection .listExpected (Reader.record SyntaxFault.recordName SyntaxFault.read))) ++
    check (Reader.optional entries "success" true Reader.boolean)

end ParseResult

/-! ## The parser -/

/-- A grammar: the tree of each byte string that it has one for. -/
abbrev Grammar := List UInt8 → Option ParseNode

/-- A parser, with the grammars that it has found. -/
structure Parser where
  /-- The grammars by language, once the parser has looked for them. -/
  grammars? : Option (List (String × Grammar))
  /-- There are grammars of one language only. -/
  own : ∀ found ∈ grammars?, ∀ entry ∈ found, entry.1 = grammarLanguage

/-- What a call gives, what it leaves in the log, and the parser after it. -/
structure Response (α : Type) where
  outcome : Except ParseError α
  events : List Event
  parser : Parser

namespace Parser

/-- A parser that has not been used. -/
def new : Parser := ⟨none, by simp⟩

/-- The parser once it has looked for its grammar, which it does one time only. -/
def load (parser : Parser) (grammar : Option Grammar) : Parser :=
  match parser.grammars? with
  | some _ => parser
  | none => ⟨some (grammar.toList.map fun treeOf => (grammarLanguage, treeOf)), by simp⟩

/-- The grammars found so far. -/
def grammars (parser : Parser) : List (String × Grammar) := parser.grammars?.getD []

/-- The languages of the grammars found so far. -/
def languages (parser : Parser) : List String := parser.grammars.map Prod.fst

/-- The languages that the parser says it supports: until it has looked, all of them. -/
def supported (parser : Parser) : List String :=
  match parser.grammars? with
  | some _ => parser.languages
  | none => [grammarLanguage]

/-- The parser says it supports the language, in any case of its letters. -/
def supports (parser : Parser) (language : String) : Bool := language.toLower ∈ parser.supported

/-- An event of the parser. -/
def event (level : Level) (message : String) (fields : List (String × Value)) : Event :=
  ⟨level, message, ("component", .text "tree_sitter_parser") :: fields⟩

/-- What the search for the grammar leaves in the log. -/
def loadEvents (grammar : Option Grammar) : List Event :=
  match grammar with
  | some _ => [event .info ("Grammars loaded: " ++ grammarLanguage) []]
  | none =>
      [event .warning "C# grammar unavailable: No module named 'tree_sitter_c_sharp'" [],
        event .info "Grammars loaded: none" []]

/-- What a call that needs the grammar leaves in the log first. -/
def openingEvents (parser : Parser) (grammar : Option Grammar) : List Event :=
  match parser.grammars? with
  | some _ => []
  | none => loadEvents grammar

/-- The document of a parse tree over the given bytes. -/
def documentOver (bytes : List UInt8) (source filePath : String) (tree : ParseNode) : Document :=
  .ofTree (Grammar.create bytes tree) grammarLanguage source filePath

/-- The document of the parse tree of a source text. -/
def documentOf (source filePath : String) (tree : ParseNode) : Document :=
  documentOver source.toUTF8.toList source filePath tree

/-- The tree of a source text, its language and its syntax errors checked first. -/
def parse (parser : Parser) (source filePath language : String) :
    Except ParseError (ParseNode × List SyntaxFault) := do
  match parser.grammars.lookup language.toLower with
  | none => throw (.unsupportedLanguage language filePath)
  | some treeOf =>
      match treeOf source.toUTF8.toList with
      | none => throw (.noTree filePath)
      | some tree =>
          let errors ← (SyntaxFault.ofNodes tree.faults).mapError .rejected
          return (tree, errors)

/-- The document and the syntax errors of a source text, and what normalizing leaves in the log. -/
def parseDocument (parser : Parser) (source filePath language : String) :
    Except ParseError ParseResult × List Event :=
  match parser.parse source filePath language with
  | .error failure => (.error failure, [])
  | .ok (tree, errors) =>
      (.ok ⟨{ documentOf source filePath tree with language := language.toLower }, errors⟩,
        (Grammar.unfinished source.toUTF8.toList tree).map Grammar.unfinishedEvent)

/-- The path of a source text, or its stand-in. -/
def pathOr (filePath : Option String) : String :=
  match filePath with
  | some path => if path.isEmpty then "<string>" else path
  | none => "<string>"

/-- Parse source text into a document, syntax errors or not. -/
def parseTree (parser : Parser) (grammar : Option Grammar) (source : String)
    (filePath : Option String) (language : String) : Response Document :=
  let ready := parser.load grammar
  let parsed := ready.parseDocument source (pathOr filePath) language
  { outcome := parsed.1.map ParseResult.document
    events := parser.openingEvents grammar ++ parsed.2
    parser := ready }

/-- The language that the caller names, or else the one that the path shows. -/
def languageFor? (filePath language : Option String) : Option String :=
  match language.filter fun name => name != "" with
  | some name => some name
  | none => (filePath.filter fun path => path != "").bind detectLanguage?

/-- What syntax errors leave in the log. -/
def errorEvents (filePath : String) (errors : List SyntaxFault) : List Event :=
  match errors with
  | [] => []
  | first :: _ =>
      [event .warning (s!"{errors.length} syntax error(s) in " ++ filePath)
        [("first", .text first.message)]]

/-- Parse source text. -/
def parseSource (parser : Parser) (grammar : Option Grammar) (source : String)
    (filePath language : Option String) : Response ParseResult :=
  match languageFor? filePath language with
  | none => ⟨.error .noLanguage, [], parser⟩
  | some language =>
      let ready := parser.load grammar
      let parsed := ready.parseDocument source (pathOr filePath) language
      let errors := match parsed.1 with
        | .ok result => result.errors
        | .error _ => []
      { outcome := parsed.1
        events := parser.openingEvents grammar ++ parsed.2 ++ errorEvents (pathOr filePath) errors
        parser := ready }

/-! ## Files -/

/-- A file that can be parsed. -/
structure SourceFile where
  /-- Its path from the root. -/
  path : String
  content : List UInt8
  language : String

/-- The file that a path leads to, if it can be parsed. -/
def openFile (parser : Parser) (files : FileTree) (path : String) : Except ParseError SourceFile :=
  match Path.resolve? files.working path with
  | none => .error .nullInPath
  | some resolved =>
      match files.find path with
      | .error .tooLong => .error (.nameTooLong (Path.written path))
      | .error .missing => .error (.notFound resolved)
      | .ok .directory => .error (.notAFile resolved)
      | .ok (.file content) =>
          match detectLanguage? path with
          | none => .error (.unknownLanguage (Path.name path) resolved)
          | some language =>
              if parser.supports language then .ok ⟨resolved, content, language⟩
              else .error (.unsupportedLanguage language resolved)

/-- The text of a file in the encoding of the given name. -/
def readText (content : List UInt8) (encoding : String) : Except ParseError String :=
  match Encoding.ofName? encoding with
  | none =>
      .error (if '\x00' ∈ encoding.toList then .nullInEncoding else .unknownEncoding encoding)
  | some encoding => (encoding.decodeText content).mapError .undecodable

/-- Read a file and parse its text. -/
def parseFile (parser : Parser) (grammar : Option Grammar) (files : FileTree) (path : String)
    (encoding : Option String) : Response ParseResult :=
  let ready := parser.load grammar
  let opening := parser.openingEvents grammar
  let encodingName := encoding.getD "utf-8"
  match ready.openFile files path with
  | .error failure => ⟨.error failure, opening, ready⟩
  | .ok file =>
      match readText file.content encodingName with
      | .error (.undecodable fault) =>
          ⟨.error (.undecodable fault),
            opening ++ [event .warning
              ("Cannot decode " ++ file.path ++ " as " ++ encodingName) []], ready⟩
      | .error failure => ⟨.error failure, opening, ready⟩
      | .ok source =>
          let parsed := ready.parseSource grammar source (some file.path) (some file.language)
          { parsed with
            events := opening ++
              event .debug ("Parsing " ++ file.path ++ " as " ++ file.language) [] ::
                parsed.events }

/-! ## Other calls -/

/-- The languages that have a grammar, looked for if need be. -/
def supportedLanguages (parser : Parser) (grammar : Option Grammar) : Response (List String) :=
  let ready := parser.load grammar
  ⟨.ok ready.languages, parser.openingEvents grammar, ready⟩

/-- The outline of a source text. -/
def outline (parser : Parser) (grammar : Option Grammar) (source : String) (limit : Int) :
    Response String :=
  let parsed := parser.parseTree grammar source none grammarLanguage
  { outcome := parsed.outcome.map fun document => Outline.render limit document.root
    events := parsed.events
    parser := parsed.parser }

end Parser

end CodeMetrics
