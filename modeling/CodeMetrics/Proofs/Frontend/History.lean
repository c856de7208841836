import CodeMetrics.Proofs.Frontend.SourcePath
import CodeMetrics.Proofs.Metrics.Completion

/-!
# Calls of a parser

A parser looks for its grammar at the first call that needs it, and has it from then on. A call that
fails before it needs the grammar leaves the parser as it was. So after any calls, the next one that
needs the grammar finds what it would have found at first, and no outcome shows what was called
before.
-/

namespace CodeMetrics

/-- The same response with its answer in another form. -/
def Response.map {α β : Type} (form : α → β) (response : Response α) : Response β where
  outcome := response.outcome.map form
  events := response.events
  parser := response.parser

namespace Parser

variable {grammar : Option Grammar}

/-- A call of a parser. -/
inductive Request where
  | source (text : String) (filePath language : Option String)
  | tree (text : String) (filePath : Option String) (language : String)
  | file (files : FileTree) (path : String) (encoding : Option String)
  | languages
  | outline (text : String) (limit : Int)

/-- What a call gives. -/
inductive Answer where
  | result (result : ParseResult)
  | document (document : Document)
  | languages (languages : List String)
  | outline (text : String)

/-- Make a call. -/
def answer (parser : Parser) (grammar : Option Grammar) : Request → Response Answer
  | .source text filePath language =>
      (parser.parseSource grammar text filePath language).map .result
  | .tree text filePath language => (parser.parseTree grammar text filePath language).map .document
  | .file files path encoding => (parser.parseFile grammar files path encoding).map .result
  | .languages => (parser.supportedLanguages grammar).map .languages
  | .outline text limit => (parser.outline grammar text limit).map .outline

/-- The parser after some calls. -/
def after (parser : Parser) (grammar : Option Grammar) (history : List Request) : Parser :=
  history.foldl (fun parser request => (parser.answer grammar request).parser) parser

/-! ## The state of a parser -/

/-- The grammar is looked for once. -/
theorem load_load (parser : Parser) : (parser.load grammar).load grammar = parser.load grammar := by
  cases found : parser.grammars? with
  | none => simp [load, found]
  | some entries => simp [load, found]

theorem lookup_load_new (grammar : Option Grammar) (name : String) :
    (new.load grammar).grammars.lookup name = if name = grammarLanguage then grammar else none := by
  cases grammar with
  | none => simp [load, new, grammars]
  | some treeOf =>
      by_cases own : name = grammarLanguage
      · simp [load, new, grammars, own]
      · simp [load, new, grammars, own, List.lookup_cons, beq_eq_false_iff_ne.mpr own]

/-- Parsing text leaves the parser as it was, if it needs no grammar, or with the grammar found. -/
theorem load_parser_parseSource (parser : Parser) (text : String)
    (filePath language : Option String) :
    (parser.parseSource grammar text filePath language).parser.load grammar =
      parser.load grammar := by
  rw [parseSource]
  split
  · rfl
  · exact parser.load_load

theorem load_parser_parseFile (parser : Parser) (files : FileTree) (path : String)
    (encoding : Option String) :
    (parser.parseFile grammar files path encoding).parser.load grammar =
      parser.load grammar := by
  simp only [parseFile]
  split
  · exact parser.load_load
  · split
    · exact parser.load_load
    · exact parser.load_load
    · exact ((parser.load grammar).load_parser_parseSource _ _ _).trans parser.load_load

/-- A call does not change what the next one finds. -/
theorem load_parser_answer (parser : Parser) (request : Request) :
    (parser.answer grammar request).parser.load grammar = parser.load grammar := by
  cases request with
  | source text filePath language => exact parser.load_parser_parseSource text filePath language
  | tree text filePath language => exact parser.load_load
  | file files path encoding => exact parser.load_parser_parseFile files path encoding
  | languages => exact parser.load_load
  | outline text limit => exact parser.load_load

theorem load_after (parser : Parser) (history : List Request) :
    (parser.after grammar history).load grammar = parser.load grammar := by
  induction history generalizing parser with
  | nil => rfl
  | cons request history induction =>
      exact (induction _).trans (parser.load_parser_answer request)

/-! ## Outcomes -/

section

variable {parser other : Parser} (same : parser.load grammar = other.load grammar)
include same

theorem outcome_parseSource_eq (text : String) (filePath language : Option String) :
    (parser.parseSource grammar text filePath language).outcome =
      (other.parseSource grammar text filePath language).outcome := by
  rw [parseSource, parseSource, same]
  split <;> rfl

end

/-! ## The language of a call -/

/-- The language that a call is about: the one that it names, or else that of source files. -/
inductive Determines (filePath language : Option String) : String → Prop where
  | named {name : String} (given : language = some name) (nonempty : name ≠ "") :
      Determines filePath language name
  | shown {path : String} (omitted : language = none ∨ language = some "")
      (given : filePath = some path) (source : Path.IsSource path) :
      Determines filePath language "csharp"

theorem languageFor?_of_named {filePath : Option String} {name : String} (nonempty : name ≠ "") :
    languageFor? filePath (some name) = some name := by
  simp [languageFor?, Option.filter, nonempty]

theorem languageFor?_of_omitted {filePath language : Option String}
    (omitted : language = none ∨ language = some "") :
    languageFor? filePath language =
      (filePath.filter fun path => path != "").bind detectLanguage? := by
  rcases omitted with rfl | rfl <;> rfl

theorem languageFor?_eq_some_iff {filePath language : Option String} {name : String} :
    languageFor? filePath language = some name ↔ Determines filePath language name := by
  constructor
  · intro found
    by_cases omitted : language = none ∨ language = some ""
    · rw [languageFor?_of_omitted omitted] at found
      obtain ⟨path, isPath, detected⟩ := Option.bind_eq_some_iff.mp found
      obtain ⟨source, rfl⟩ := detectLanguage?_eq_some_iff.mp detected
      exact .shown omitted (Option.filter_eq_some_iff.mp isPath).1 source
    · obtain ⟨given, isGiven⟩ := Option.ne_none_iff_exists'.mp (not_or.mp omitted).1
      subst isGiven
      have nonempty : given ≠ "" := fun empty => omitted (.inr (congrArg some empty))
      rw [languageFor?_of_named nonempty] at found
      obtain rfl := Option.some.inj found
      exact .named rfl nonempty
  · rintro (⟨rfl, nonempty⟩ | ⟨omitted, rfl, source⟩)
    · exact languageFor?_of_named nonempty
    · rw [languageFor?_of_omitted omitted, Option.filter_some,
        if_pos (bne_iff_ne.mpr source.ne_empty)]
      exact detectLanguage?_eq_some_iff.mpr ⟨source, rfl⟩

/-- A call is refused for its language exactly if the grammar is missing or is one of another
language, letter case aside, and the refusal names the language and the path. -/
structure Refuses {α : Type} (grammar : Option Grammar) (name path : String)
    (outcome : Except ParseError α) : Prop where
  exactly : (∃ shown place, outcome = .error (.unsupportedLanguage shown place)) ↔
    grammar = none ∨ name.toLower ≠ "csharp"
  complaint : ∀ shown place, outcome = .error (.unsupportedLanguage shown place) →
    (ParseError.unsupportedLanguage shown place).complaint? =
      some ⟨"Unsupported language: " ++ name, some path, none, none⟩

theorem Refuses.map {α β : Type} {name path : String} {outcome : Except ParseError α}
    (refuses : Refuses grammar name path outcome) (form : α → β) :
    Refuses grammar name path (outcome.map form) := by
  cases outcome with
  | error failure => exact ⟨by simpa [Except.map] using refuses.exactly,
      by simpa [Except.map] using refuses.complaint⟩
  | ok value => exact ⟨by simpa [Except.map] using refuses.exactly, by simp [Except.map]⟩

theorem parseDocument_of_tree {parser : Parser} {text name : String} {treeOf : Grammar}
    {tree : ParseNode} {errors : List SyntaxFault}
    (found : parser.grammars.lookup name.toLower = some treeOf)
    (isTree : treeOf text.toUTF8.toList = some tree)
    (faults : SyntaxFault.ofNodes tree.faults = .ok errors) (path : String) :
    (parser.parseDocument text path name).1 = .ok ⟨documentOf text path tree, errors⟩ := by
  have parsed : parser.parse text path name = .ok (tree, errors) := by
    simp only [parse, found, isTree, faults]
    rfl
  rw [parseDocument, parsed, eq_grammarLanguage_of_lookup found]
  rfl

theorem outcome_parseSource {filePath language : Option String} {name : String}
    (named : languageFor? filePath language = some name) (parser : Parser) (text : String) :
    (parser.parseSource grammar text filePath language).outcome =
      ((parser.load grammar).parseDocument text (pathOr filePath) name).1 := by
  simp only [parseSource, named]

end Parser

end CodeMetrics
