import CodeMetrics.Record.Fault
import CodeMetrics.Tree.Span

/-!
# Increments

One contribution to a cognitive complexity score, at the token that causes it. An increment adds at
least one; what it adds beyond one is the nesting.
-/

namespace CodeMetrics

/-- A contribution to a score. -/
structure Increment where
  location : Span
  magnitude : Int
  message : String
deriving DecidableEq, Repr

namespace Increment

/-- The name of the record. -/
def recordName : String := "ComplexityIncrement"

/-- The message of an increment, which names the part due to nesting. -/
def messageFor (magnitude : Int) : String :=
  if magnitude = 1 then "+1" else s!"+{magnitude} (incl {magnitude - 1} for nesting)"

/-- The increment of a given magnitude, refused below one. -/
def at? (location : Span) (magnitude : Int) : Except Rejection Increment :=
  if 1 ≤ magnitude then .ok ⟨location, magnitude, messageFor magnitude⟩
  else .error ⟨recordName, [⟨["magnitude"], .below 1⟩]⟩

end Increment

/-- The outcome of one walk: a score and its increments, in the order of the walk. -/
structure CognitiveScore where
  score : Int
  increments : List Increment
deriving DecidableEq, Repr

namespace CognitiveScore

/-- The name of the record. -/
def recordName : String := "CognitiveComplexityResult"

/-- The score with its increments, refused below zero. -/
def of? (score : Int) (increments : List Increment) : Except Rejection CognitiveScore :=
  if 0 ≤ score then .ok ⟨score, increments⟩
  else .error ⟨recordName, [⟨["score"], .below 0⟩]⟩

end CognitiveScore

/-- The places of the increments. -/
def Increment.locations (increments : List Increment) : List Span := increments.map (·.location)

end CodeMetrics
