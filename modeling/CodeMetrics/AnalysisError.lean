import CodeMetrics.Log.Event
import CodeMetrics.Record.Fault
import CodeMetrics.Tree.Forest

/-!
# Failures of an analysis
-/

namespace CodeMetrics

/-- Why an analysis gives no result. -/
inductive AnalysisError where
  /-- The tree is of another language than the analysis. -/
  | languageMismatch (expected actual : String)
  /-- A walk over the construct at the span ended at another nesting than it began. -/
  | unbalancedNesting (nesting : Int) (kind : Kind) (span : Span)
  /-- A result was refused. -/
  | rejected (rejection : Rejection)
  /-- A node is not among the children of its parent. -/
  | detached (orphan : Detached)
  /-- A node of the kind was to be scored as a logical operator. -/
  | notLogical (kind : Kind)

namespace AnalysisError

/-- The wording of a failure. -/
def message : AnalysisError → String
  | .languageMismatch expected actual =>
      "Expected a '" ++ expected ++ "' syntax tree, got '" ++ actual ++ "'"
  | .unbalancedNesting nesting _ _ =>
      "There is a problem with the cognitive complexity walker. " ++
        s!"Expecting ending nesting to be '0' got '{nesting}'"
  | .rejected rejection => rejection.record
  | .detached orphan => orphan.message
  | .notLogical kind => "<Kind." ++ kind.name.toUpper ++ ": '" ++ kind.name ++ "'>"

/-- What a failure leaves in the log. -/
def events : AnalysisError → List Event
  | .unbalancedNesting nesting kind span =>
      [{ level := .error
         message := "Unbalanced nesting after complexity walk"
         fields := [("component", .text "cognitive_complexity_walker"),
           ("nesting", .integer nesting), ("kind", .text kind.name), ("span", .text span.render)] }]
  | _ => []

end AnalysisError

end CodeMetrics
