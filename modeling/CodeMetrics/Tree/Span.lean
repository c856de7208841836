/-!
# Source spans

A span locates a construct by byte offsets and by line and column. Lines count from one and columns
from zero. Spans from an outside source are taken as given, so every entry is an integer.
-/

namespace CodeMetrics

/-- Where a construct lies in its source text. -/
structure Span where
  startByte : Int
  endByte : Int
  startLine : Int
  startColumn : Int
  endLine : Int
  endColumn : Int
deriving DecidableEq, Repr

namespace Span

/-- The span as lines and columns, `line:column-line:column`. -/
def render (span : Span) : String :=
  s!"{span.startLine}:{span.startColumn}-{span.endLine}:{span.endColumn}"

/-- The span from the start of one span to the end of another. -/
def join (first last : Span) : Span where
  startByte := first.startByte
  endByte := last.endByte
  startLine := first.startLine
  startColumn := first.startColumn
  endLine := last.endLine
  endColumn := last.endColumn

/-- The lines that a span touches, in order. -/
def lines (span : Span) : List Int :=
  (List.range (span.endLine - span.startLine + 1).toNat).map
    fun offset : Nat => span.startLine + offset

theorem mem_lines (span : Span) (line : Int) :
    line ∈ span.lines ↔ span.startLine ≤ line ∧ line ≤ span.endLine := by
  simp only [lines, List.mem_map, List.mem_range]
  constructor
  · rintro ⟨offset, bounded, rfl⟩
    omega
  · intro within
    exact ⟨(line - span.startLine).toNat, by omega, by omega⟩

end Span

end CodeMetrics
