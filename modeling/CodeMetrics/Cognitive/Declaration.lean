import CodeMetrics.Cognitive.Increment
import CodeMetrics.Record.Reader

/-!
# Scored declarations

What is reported about a declaration: its category, its name and place, its score with the increments
that make it up, and the threshold that it is measured against.
-/

namespace CodeMetrics

/-- The scores up to which declarations pass: one for accessors, and one for all others. -/
structure Thresholds where
  general : Nat
  property : Nat
deriving DecidableEq, Repr

namespace Thresholds

/-- The name of the record. -/
def recordName : String := "ComplexityThresholds"

/-- The usual thresholds. -/
def standard : Thresholds := ⟨15, 3⟩

/-- Thresholds from the fields of a record. -/
def read (entries : List (String × Value)) : Checked Thresholds :=
  ((Reader.optional entries "threshold" standard.general Reader.natural).map Thresholds.mk).ap
    (Reader.optional entries "property_threshold" standard.property Reader.natural)

end Thresholds

/-- The categories of declarations that are scored. -/
inductive Category where
  | method
  | constructor
  | destructor
  | operator
  | accessor
  | field
deriving DecidableEq, Repr

namespace Category

/-- The written name of a category. -/
def name : Category → String
  | .method => "method"
  | .constructor => "constructor"
  | .destructor => "destructor"
  | .operator => "operator"
  | .accessor => "accessor"
  | .field => "field"

/-- Every category. -/
def all : List Category := [.method, .constructor, .destructor, .operator, .accessor, .field]

/-- A category by name. -/
def read : Value → Checked Category
  | .text text =>
      match all.find? fun category => category.name == text with
      | some category => .ok category
      | none => Checked.fail .categoryExpected
  | _ => Checked.fail .categoryExpected

end Category

/-- An increment from the fields of a record. -/
def Increment.read (entries : List (String × Value)) : Checked Increment :=
  ((Reader.required entries "location" Reader.span).map Increment.mk).ap
    (Reader.required entries "magnitude" (Reader.integerFrom 1))
    |>.ap (Reader.required entries "message" Reader.text)

/-- A tuple of increments. -/
def Increment.readAll : Value → Checked (List Increment) :=
  Reader.collection .tupleExpected (Reader.record Increment.recordName Increment.read)

/-- A score from the fields of a record. -/
def CognitiveScore.read (entries : List (String × Value)) : Checked CognitiveScore :=
  ((Reader.optional entries "score" 0 (Reader.integerFrom 0)).map CognitiveScore.mk).ap
    (Reader.optional entries "increments" [] Increment.readAll)

/-- A declaration with its score and its threshold. -/
structure Declaration where
  category : Category
  name : String
  location : Span
  score : Int
  threshold : Nat
  increments : List Increment
deriving DecidableEq, Repr

namespace Declaration

/-- The name of the record. -/
def recordName : String := "DeclarationComplexity"

/-- A declaration from the fields of a record. -/
def read (entries : List (String × Value)) : Checked Declaration :=
  ((Reader.required entries "category" Category.read).map Declaration.mk).ap
    (Reader.required entries "name" Reader.text)
    |>.ap (Reader.required entries "location" Reader.span)
    |>.ap (Reader.required entries "score" (Reader.integerFrom 0))
    |>.ap (Reader.required entries "threshold" Reader.natural)
    |>.ap (Reader.optional entries "increments" [] Increment.readAll)

/-- The score is above the threshold. -/
def exceeds (declaration : Declaration) : Bool := declaration.threshold < declaration.score

/-- What is reported when the score is above the threshold. -/
def message (declaration : Declaration) : String :=
  "Refactor this " ++ declaration.category.name ++ " to reduce its Cognitive Complexity " ++
    s!"from {declaration.score} to the {declaration.threshold} allowed"

/-- The messages of the increments by their position. -/
def trace (declaration : Declaration) : List (String × String) :=
  declaration.increments.mapIdx fun position increment => (toString position, increment.message)

end Declaration

end CodeMetrics
