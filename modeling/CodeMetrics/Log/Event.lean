import CodeMetrics.Record.Value

/-!
# Log events

What the analyses have to report besides their results: a level, a message and named values.
-/

namespace CodeMetrics

/-- The severity of an event. -/
inductive Level where
  | debug
  | info
  | warning
  | error
  | critical
deriving DecidableEq, Repr

/-- The written name of a level. -/
def Level.name : Level → String
  | .debug => "debug"
  | .info => "info"
  | .warning => "warning"
  | .error => "error"
  | .critical => "critical"

/-- The rank of a level: an event is shown from its rank down. -/
def Level.rank : Level → Nat
  | .debug => 10
  | .info => 20
  | .warning => 30
  | .error => 40
  | .critical => 50

/-- An event with its named values, in order. -/
structure Event where
  level : Level
  message : String
  fields : List (String × Value)

end CodeMetrics
