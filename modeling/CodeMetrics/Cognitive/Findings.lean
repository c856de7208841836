import CodeMetrics.Cognitive.Declaration
import CodeMetrics.Cognitive.Handlers

/-!
# Findings

Every declaration of a registered kind is scored on its own and measured against the threshold of its
category. A finding is a declaration that scores above its threshold.
-/

namespace CodeMetrics

namespace Node

variable {ι : Type}

/-- The text of a get or set accessor's keyword. -/
def isAccessorKeyword (node : Node ι) : Bool := node.text = some "get" || node.text = some "set"

/-- The keyword of a get or set accessor: its name slot, or else the first child that is one. -/
def accessorKeyword? (node : Node ι) : Option (Node ι) :=
  ((node.childByField? "name").or (node.children.find? isAccessorKeyword)).filter isAccessorKeyword

/-- The name of the first declarator under a field, or else the declarator's first leaf. -/
def firstDeclaratorName? (node : Node ι) : Option (Node ι) :=
  match node.descendants.find? fun inner => inner.kind == .variableDeclarator with
  | none => none
  | some declarator => some (declarator.nameNode?.getD declarator.firstToken)

end Node

/-- The token of an operator: its slot, or else the leaf after the keyword, `checked` passed over. -/
def Forest.operatorToken (forest : Forest) (node : Vertex) : Except Detached (Option Vertex) :=
  match node.childByField? "operator", node.findToken? "operator" with
  | some operator, _ => .ok (some operator)
  | none, none => .ok none
  | none, some keyword => do
      match ← forest.nextToken keyword with
      | none => return none
      | some following =>
          if following.text = some "checked" then forest.nextToken following
          else return some following

/-- How declarations of a kind are reported: as what, where, and against which threshold. -/
structure Registration where
  category : Category
  /-- The node that the report points at; without one there is no report. -/
  locate : Forest → Vertex → Except Detached (Option Vertex)
  threshold : Thresholds → Nat

/-- A declaration reported at its name, against the general threshold. -/
def Registration.named (category : Category) : Registration where
  category := category
  locate := fun _ node => .ok node.nameNode?
  threshold := Thresholds.general

/-- The registered kinds of declarations. -/
def Kind.registration? : Kind → Option Registration
  | .methodDeclaration => some (.named .method)
  | .constructorDeclaration => some (.named .constructor)
  | .destructorDeclaration => some (.named .destructor)
  | .operatorDeclaration => some ⟨.operator, Forest.operatorToken, Thresholds.general⟩
  | .accessorDeclaration =>
      some ⟨.accessor, fun _ node => .ok node.accessorKeyword?, Thresholds.property⟩
  | .fieldDeclaration =>
      some ⟨.field, fun _ node => .ok node.firstDeclaratorName?, Thresholds.general⟩
  | _ => none

/-- The language that the analyses read. -/
def analysedLanguage : String := "csharp"

/-- What the declarations of a file are measured with. -/
structure Gauge where
  thresholds : Thresholds
  rules : RuleChanges

/-- The usual thresholds and scoring rules. -/
def Gauge.standard : Gauge := ⟨.standard, .none⟩

namespace Gauge

/-- The report on one node, if it is a declaration to report on. -/
def measure (gauge : Gauge) (forest : Forest) (node : Vertex) :
    Except AnalysisError (Option Declaration) :=
  match node.kind.registration? with
  | none => .ok none
  | some registration =>
      match registration.locate forest node with
      | .error orphan => .error (.detached orphan)
      | .ok none => .ok none
      | .ok (some location) => do
          let walked ← (gauge.rules.table forest).score node none
          return some
            { category := registration.category
              name := location.text.getD ""
              location := location.span
              score := walked.score
              threshold := registration.threshold gauge.thresholds
              increments := walked.increments }

/-- The reports on a list of nodes, up to the first failure. -/
def measureAll (gauge : Gauge) (forest : Forest) :
    List Vertex → Except AnalysisError (List Declaration)
  | [] => .ok []
  | node :: nodes => do
      let first ← gauge.measure forest node
      let rest ← gauge.measureAll forest nodes
      return first.toList ++ rest

/-- The reports on all declarations of a document, in document order. -/
def evaluate (gauge : Gauge) (document : Document) : Except AnalysisError (List Declaration) :=
  if document.language = analysedLanguage then gauge.measureAll document.forest document.root.walk
  else .error (.languageMismatch analysedLanguage document.language)

/-- The declarations that score above their threshold. -/
def findings (gauge : Gauge) (document : Document) : Except AnalysisError (List Declaration) := do
  let declarations ← gauge.evaluate document
  return declarations.filter Declaration.exceeds

/-- What an evaluation leaves in the log. -/
def evaluationEvents (document : Document) : Except AnalysisError (List Declaration) → List Event
  | .error failure => failure.events
  | .ok declarations =>
      [{ level := .debug
         message := "Evaluated declarations"
         fields := [("component", .text "cognitive_complexity_rule"),
           ("file_path", .text document.filePath), ("declarations", .integer declarations.length)] }]

/-- What one finding leaves in the log. -/
def findingEvent (document : Document) (finding : Declaration) : Event where
  level := .info
  message := finding.message
  fields := [("component", .text "cognitive_complexity_rule"),
    ("file_path", .text document.filePath), ("location", .text finding.location.render)]

/-- What a search for findings leaves in the log. -/
def findingEvents (document : Document) (evaluated : Except AnalysisError (List Declaration)) :
    List Event :=
  evaluationEvents document evaluated ++
    match evaluated with
    | .error _ => []
    | .ok declarations => (declarations.filter Declaration.exceeds).map (findingEvent document)

end Gauge

end CodeMetrics
