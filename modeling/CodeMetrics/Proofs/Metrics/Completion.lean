import CodeMetrics.Frontend.Parser
import CodeMetrics.Proofs.Cognitive.Contribution
import CodeMetrics.Proofs.Grammar.CreatedNodes
import CodeMetrics.Proofs.Record.Written

/-!
# Analyses of parsed documents

Every node of a parsed document is found among the children of its parent, the document is of the
analysed language, and the scoring rules close each level that they open. So no analysis of a parsed
document fails, however the parse tree looks, and each record that is returned passes its own checks.
-/

namespace CodeMetrics

theorem exists_ok_bind {failure α β : Type} {outcome : Except failure α}
    {next : α → Except failure β} (first : ∃ item, outcome = .ok item)
    (rest : ∀ item, ∃ result, next item = .ok result) :
    ∃ result, outcome >>= next = .ok result := by
  obtain ⟨item, rfl⟩ := first
  exact rest item

namespace Forest.Built

variable {forest : Forest}

/-! ## Metrics -/

theorem exists_isReturnButNotLast (built : Built forest) (node : Vertex) :
    ∃ early, forest.isReturnButNotLast node = .ok early := by
  have last : ∃ last, forest.isLastStatement node = .ok last := by
    apply exists_ok_bind (built.exists_nextToken node.lastToken)
    intro leaf
    cases leaf with
    | none => exact ⟨false, rfl⟩
    | some leaf => exact ⟨forest.closesFunction leaf, rfl⟩
  by_cases isReturn : node.kind = .returnStatement
  · rw [isReturnButNotLast, if_pos isReturn]
    exact exists_ok_bind last fun last => ⟨!last, rfl⟩
  · exact ⟨false, if_neg isReturn⟩

theorem exists_flatComplexity (built : Built forest) (nodes : List Vertex) :
    ∃ complexity, forest.flatComplexity nodes = .ok complexity := by
  induction nodes with
  | nil => exact ⟨1, rfl⟩
  | cons node nodes induction =>
      apply exists_ok_bind (built.exists_isReturnButNotLast node)
      intro early
      exact exists_ok_bind induction fun rest => ⟨_, rfl⟩

theorem exists_add (built : Built forest) (tally : Tally) (ignoreHeader : Bool) (node : Vertex) :
    ∃ counted, tally.add forest ignoreHeader node = .ok counted := by
  by_cases isFunction : forest.isFunctionLike node
  · simp only [Tally.add, if_pos isFunction]
    exact exists_ok_bind (built.exists_flatComplexity node.descendants) fun complexity => ⟨_, rfl⟩
  · simp only [Tally.add, if_neg isFunction]
    exact ⟨_, rfl⟩

theorem exists_addAll (built : Built forest) (tally : Tally) (ignoreHeader : Bool)
    (nodes : List Vertex) : ∃ counted, tally.addAll forest ignoreHeader nodes = .ok counted := by
  induction nodes generalizing tally with
  | nil => exact ⟨tally, rfl⟩
  | cons node nodes induction =>
      exact exists_ok_bind (built.exists_add tally ignoreHeader node) induction

theorem exists_countUndocumented (built : Built forest) (nodes : List Vertex) :
    ∃ count, forest.countUndocumented nodes = .ok count := by
  induction nodes with
  | nil => exact ⟨0, rfl⟩
  | cons node nodes induction =>
      have documented : ∃ documented, forest.isDocumented node = .ok documented := by
        apply exists_ok_bind (built.exists_previousSibling node)
        intro sibling
        cases sibling with
        | none => exact ⟨false, rfl⟩
        | some sibling => exact ⟨sibling.kind.isDocComment, rfl⟩
      apply exists_ok_bind documented
      intro documented
      exact exists_ok_bind induction fun rest => ⟨_, rfl⟩

end Forest.Built

theorem Document.exists_snapshot {document : Document} (built : document.forest.Built)
    (ignoreHeader : Bool) :
    ∃ snapshot, document.snapshot ignoreHeader = .ok snapshot ∧ snapshot.Orderly := by
  obtain ⟨tally, tallied⟩ := built.exists_addAll .empty ignoreHeader document.root.walk
  obtain ⟨undocumented, counted⟩ := built.exists_countUndocumented (publicSurface document.root)
  rw [snapshot, tallied]
  change ∃ snapshot, (document.forest.countUndocumented (publicSurface document.root) >>= _) = _ ∧ _
  rw [counted]
  refine ⟨_, rfl, ?_⟩
  constructor
  case codeLines => exact LineSet.pairwise_ofList tally.codeLines
  case commentLines => exact LineSet.pairwise_ofList tally.commentLines
  case nosonarLines => exact LineSet.pairwise_ofList tally.nosonarLines
  case ranges => exact List.cons_ne_nil _ _

/-! ## Scores -/

namespace Gauge

variable {forest : Forest}

theorem exists_operatorToken (built : forest.Built) (node : Vertex) :
    ∃ token, forest.operatorToken node = .ok token := by
  cases slot : node.childByField? "operator" with
  | some operator => exact ⟨some operator, by rw [Forest.operatorToken, slot]⟩
  | none =>
      cases found : node.findToken? "operator" with
      | none => exact ⟨none, by rw [Forest.operatorToken, slot, found]⟩
      | some keyword =>
          rw [Forest.operatorToken, slot, found]
          apply exists_ok_bind (built.exists_nextToken keyword)
          intro following
          cases following with
          | none => exact ⟨none, rfl⟩
          | some following =>
              by_cases isChecked : following.text = some "checked"
              · simp only [if_pos isChecked]
                exact built.exists_nextToken following
              · simp only [if_neg isChecked]
                exact ⟨some following, rfl⟩

theorem exists_locate (built : forest.Built) {kind : Kind} {registration : Registration}
    (registered : kind.registration? = some registration) (node : Vertex) :
    ∃ location, registration.locate forest node = .ok location := by
  unfold Kind.registration? at registered
  split at registered
  case h_4 =>
    obtain rfl := Option.some.inj registered
    exact exists_operatorToken built node
  case h_7 => simp at registered
  all_goals
    obtain rfl := Option.some.inj registered
    exact ⟨_, rfl⟩

/-- A node is scored without failure, and the report on it passes its checks. -/
theorem exists_measure (built : forest.Built) (thresholds : Thresholds) (node : Vertex) :
    ∃ reported, measure ⟨thresholds, .none⟩ forest node = .ok reported ∧
      ∀ declaration ∈ reported.toList, Declaration.read declaration.written = .ok declaration := by
  cases registered : node.kind.registration? with
  | none => exact ⟨none, by rw [measure, registered], by simp⟩
  | some registration =>
      obtain ⟨location, located⟩ := exists_locate built registered node
      cases location with
      | none => exact ⟨none, by simp only [measure, registered, located], by simp⟩
      | some location =>
          have scored : (RuleChanges.none.table forest).score node none = _ :=
            cognitiveScore_eq forest node none
          have positive := forest.one_le_of_recorded node none
          simp only [measure, registered, located, scored]
          refine ⟨_, rfl, ?_⟩
          intro declaration listed
          obtain rfl := List.mem_singleton.mp listed
          exact Declaration.read_written (Increment.total_nonneg positive) positive

theorem exists_measureAll (built : forest.Built) (thresholds : Thresholds) (nodes : List Vertex) :
    ∃ declarations, measureAll ⟨thresholds, .none⟩ forest nodes = .ok declarations ∧
      ∀ declaration ∈ declarations, Declaration.read declaration.written = .ok declaration := by
  induction nodes with
  | nil => exact ⟨[], rfl, by simp⟩
  | cons node nodes induction =>
      obtain ⟨reported, measured, first⟩ := exists_measure built thresholds node
      obtain ⟨declarations, measuredRest, rest⟩ := induction
      refine ⟨reported.toList ++ declarations, ?_, ?_⟩
      · simp only [measureAll, measured, measuredRest]
        rfl
      · intro declaration listed
        rcases List.mem_append.mp listed with here | later
        · exact first declaration here
        · exact rest declaration later

end Gauge

/-! ## Parsed documents -/

namespace Parser

/-- The parser has given the document for a source text: as a tree, or with its syntax errors. -/
inductive Parses (parser : Parser) (grammar : Option Grammar) (source : String) : Document → Prop where
  | tree {filePath : Option String} {language : String} {document : Document}
      (parsed : (parser.parseTree grammar source filePath language).outcome = .ok document) :
      Parses parser grammar source document
  | result {filePath language : Option String} {result : ParseResult}
      (parsed : (parser.parseSource grammar source filePath language).outcome = .ok result) :
      Parses parser grammar source result.document

/-- Only grammars of the one language are ever found. -/
theorem eq_grammarLanguage_of_lookup {parser : Parser} {language : String} {treeOf : Grammar}
    (found : parser.grammars.lookup language = some treeOf) : language = grammarLanguage := by
  obtain ⟨before, after, split, -⟩ := List.lookup_eq_some_iff.mp found
  have listed : (language, treeOf) ∈ parser.grammars := by
    rw [split]
    exact List.mem_append_right before List.mem_cons_self
  cases loaded : parser.grammars? with
  | none => simp [grammars, loaded] at listed
  | some entries =>
      rw [grammars, loaded] at listed
      exact parser.own entries loaded _ listed

theorem toLower_of_parse {parser : Parser} {source filePath language : String}
    {answer : ParseNode × List SyntaxFault}
    (parsed : parser.parse source filePath language = .ok answer) :
    language.toLower = grammarLanguage := by
  cases found : parser.grammars.lookup language.toLower with
  | none => simp [parse, found, throw, throwThe, MonadExceptOf.throw] at parsed
  | some treeOf => exact eq_grammarLanguage_of_lookup found

theorem document_of_parseDocument {parser : Parser} {source filePath language : String}
    {result : ParseResult}
    (parsed : (parser.parseDocument source filePath language).1 = .ok result) :
    ∃ tree, result.document = documentOf source filePath tree := by
  rw [parseDocument] at parsed
  cases outcome : parser.parse source filePath language with
  | error failure => simp [outcome] at parsed
  | ok answer =>
      rw [outcome, toLower_of_parse outcome] at parsed
      obtain rfl := Except.ok.inj parsed
      exact ⟨answer.1, rfl⟩

/-- A document that the parser gives is the one of a parse tree. -/
theorem Parses.exists_tree {parser : Parser} {grammar : Option Grammar} {source : String}
    {document : Document} (parses : parser.Parses grammar source document) :
    ∃ filePath tree, document = documentOf source filePath tree := by
  cases parses with
  | @tree filePath language _ parsed =>
      cases outcome : ((parser.load grammar).parseDocument source (pathOr filePath) language).1 with
      | error failure => simp [parseTree, outcome, Except.map] at parsed
      | ok result =>
          obtain ⟨tree, isTree⟩ := document_of_parseDocument outcome
          simp only [parseTree, outcome] at parsed
          exact ⟨pathOr filePath, tree, (Except.ok.inj parsed).symm.trans isTree⟩
  | @result filePath language result parsed =>
      cases named : languageFor? filePath language with
      | none => simp [parseSource, named] at parsed
      | some name =>
          simp only [parseSource, named] at parsed
          exact ⟨pathOr filePath, document_of_parseDocument parsed⟩

end Parser

/-- The analyses of a document that the parser has given. Whatever tree the grammar gives for the
text, the metrics, the evaluation and the findings under any thresholds come to a result, and every
record in it is accepted by its own reader. -/
theorem analyses_succeed {parser : Parser} {grammar : Option Grammar} {source : String}
    {document : Document} (parses : parser.Parses grammar source document) (ignoreHeader : Bool)
    (thresholds : Thresholds) :
    (∃ snapshot, document.metrics ignoreHeader = .ok snapshot ∧
      Snapshot.read snapshot.written = .ok { snapshot with publicApi := [] }) ∧
    ∃ declarations, Gauge.evaluate ⟨thresholds, .none⟩ document = .ok declarations ∧
      Gauge.findings ⟨thresholds, .none⟩ document =
        .ok (declarations.filter Declaration.exceeds) ∧
      ∀ declaration ∈ declarations, Declaration.read declaration.written = .ok declaration := by
  obtain ⟨filePath, tree, rfl⟩ := parses.exists_tree
  have built : (Parser.documentOf source filePath tree).forest.Built :=
    (Grammar.isTree_create _ tree).built
  have language : (Parser.documentOf source filePath tree).language = analysedLanguage := rfl
  obtain ⟨snapshot, counted, orderly⟩ := Document.exists_snapshot built ignoreHeader
  obtain ⟨declarations, measured, accepted⟩ :=
    Gauge.exists_measureAll built thresholds (Parser.documentOf source filePath tree).root.walk
  have evaluated : Gauge.evaluate ⟨thresholds, .none⟩ (Parser.documentOf source filePath tree) =
      .ok declarations := by
    rw [Gauge.evaluate, if_pos language, measured]
  refine ⟨⟨snapshot, ?_, Snapshot.read_written orderly⟩, declarations, evaluated, ?_, accepted⟩
  · rw [Document.metrics, if_pos language, counted]
    rfl
  · rw [Gauge.findings, evaluated]
    rfl

/-- A parse node that ends before it starts. -/
def strayNode (type : String) (isError : Bool) (field : Option String)
    (children : List ParseNode) : ParseNode :=
  .mk ⟨type, true, false, isError, true, field, 90, 10, ⟨9, 0⟩, ⟨2, 5⟩⟩ children

/-- A method with a syntax error before its return. -/
def brokenMethod : ParseNode :=
  strayNode "compilation_unit" false none
    [strayNode "method_declaration" false none
      [strayNode "identifier" false (some "name") [],
        strayNode "block" false none
          [strayNode "ERROR" true none [], strayNode "return_statement" false none []]]]

theorem analyses_succeed_brokenMethod :
    ∃ document,
      (Parser.new.parseTree (some fun _ => some brokenMethod) "int M" none "CSharp").outcome =
        .ok document ∧
      (∃ snapshot, document.metrics true = .ok snapshot ∧
        Snapshot.read snapshot.written = .ok { snapshot with publicApi := [] }) ∧
      ∃ declarations, Gauge.evaluate ⟨⟨0, 0⟩, .none⟩ document = .ok declarations ∧
        Gauge.findings ⟨⟨0, 0⟩, .none⟩ document =
          .ok (declarations.filter Declaration.exceeds) ∧
        ∀ declaration ∈ declarations, Declaration.read declaration.written = .ok declaration := by
  have language : "CSharp".toLower = grammarLanguage := by decide +kernel
  have found : (Parser.new.load (some fun _ => some brokenMethod)).grammars.lookup
      grammarLanguage = some fun _ => some brokenMethod := List.lookup_cons_self
  have faults : SyntaxFault.ofNodes brokenMethod.faults = .ok [⟨10, 1, false⟩] := by
    decide +kernel
  have parsed : (Parser.new.parseTree (some fun _ => some brokenMethod) "int M" none
      "CSharp").outcome = .ok (Parser.documentOf "int M" "<string>" brokenMethod) := by
    simp only [Parser.parseTree, Parser.parseDocument, Parser.parse, language, found, faults]
    rfl
  exact ⟨_, parsed, analyses_succeed (.tree parsed) true ⟨0, 0⟩⟩

end CodeMetrics
