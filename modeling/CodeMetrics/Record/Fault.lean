/-!
# Faults of a record

What can be wrong with the values given for a record. Each fault has a code and a wording; an issue
says where in the record it lies, and a rejection lists all issues of one record.
-/

namespace CodeMetrics

/-- What is wrong with one value. -/
inductive Fault where
  | missing
  | integerExpected
  | integerUnreadable
  | integerTooLong
  | fractional
  | notFinite
  | below (bound : Int)
  | booleanExpected
  | booleanUnreadable
  | textExpected
  | tupleExpected
  | listExpected
  | setExpected
  | spanExpected
  | tooFew (actual : Nat)
  | tooMany (actual : Nat)
  /-- A key that the value has no room for. -/
  | notAllowed
  | categoryExpected
  | recordExpected (record : String)
  | instanceExpected (type : String)
  | immutable
deriving DecidableEq, Repr

namespace Fault

/-- The code of a fault. -/
def code : Fault → String
  | .missing => "missing"
  | .integerExpected => "int_type"
  | .integerUnreadable => "int_parsing"
  | .integerTooLong => "int_parsing_size"
  | .fractional => "int_from_float"
  | .notFinite => "finite_number"
  | .below _ => "greater_than_equal"
  | .booleanExpected => "bool_type"
  | .booleanUnreadable => "bool_parsing"
  | .textExpected => "string_type"
  | .tupleExpected => "tuple_type"
  | .listExpected => "list_type"
  | .setExpected => "frozen_set_type"
  | .spanExpected => "named_tuple_type"
  | .tooFew _ => "too_short"
  | .tooMany _ => "too_long"
  | .notAllowed => "extra_forbidden"
  | .categoryExpected => "enum"
  | .recordExpected _ => "model_type"
  | .instanceExpected _ => "is_instance_of"
  | .immutable => "frozen_instance"

/-- The wording of a fault. -/
def message : Fault → String
  | .missing => "Field required"
  | .integerExpected => "Input should be a valid integer"
  | .integerUnreadable =>
      "Input should be a valid integer, unable to parse string as an integer"
  | .integerTooLong => "Unable to parse input string as an integer, exceeded maximum size"
  | .fractional => "Input should be a valid integer, got a number with a fractional part"
  | .notFinite => "Input should be a finite number"
  | .below bound => s!"Input should be greater than or equal to {bound}"
  | .booleanExpected => "Input should be a valid boolean"
  | .booleanUnreadable => "Input should be a valid boolean, unable to interpret input"
  | .textExpected => "Input should be a valid string"
  | .tupleExpected => "Input should be a valid tuple"
  | .listExpected => "Input should be a valid list"
  | .setExpected => "Input should be a valid frozenset"
  | .spanExpected => "Input should be a tuple, list, dictionary or an instance of SourceSpan"
  | .tooFew actual => s!"Tuple should have at least 1 item after validation, not {actual}"
  | .tooMany actual => s!"NamedTuple should have at most 6 items after validation, not {actual}"
  | .notAllowed => "Extra inputs are not permitted"
  | .categoryExpected =>
      "Input should be 'method', 'constructor', 'destructor', 'operator', 'accessor' or 'field'"
  | .recordExpected record => "Input should be a valid dictionary or instance of " ++ record
  | .instanceExpected type => "Input should be an instance of " ++ type
  | .immutable => "Instance is frozen"

end Fault

/-- A fault and the path to the value that has it. -/
structure Issue where
  path : List String
  fault : Fault
deriving DecidableEq, Repr

/-- The issue seen from one level further out. -/
def Issue.under (step : String) (issue : Issue) : Issue :=
  { issue with path := step :: issue.path }

/-- A record that was refused, by name, with every issue found. -/
structure Rejection where
  record : String
  issues : List Issue
deriving DecidableEq, Repr

/-- The refusal to change a field of a finished record. A name that begins with an underscore is none
of its fields and may be set. -/
def Rejection.ofChange? (record field : String) : Option Rejection :=
  if field.toList.head? = some '_' then none else some ⟨record, [⟨[field], .immutable⟩]⟩

end CodeMetrics
