import CodeMetrics.Tree.Node

/-!
# Outlines

A tree down to a given depth, one node a line: kind, grammar type, start and text. What lies deeper is
shown as dots. The limit that an interpreter sets to recursion, and with it to the depth that can be
shown, is not modelled.
-/

namespace CodeMetrics

namespace Outline

/-- Two spaces for each level. -/
def indent (depth : Nat) : String := String.ofList (List.replicate (2 * depth) ' ')

/-- The line of a node. -/
def line {ι : Type} (node : Node ι) : String :=
  node.kind.name ++ " (" ++ node.grammarType ++ ") [" ++
    s!"{node.span.startLine}:{node.span.startColumn}]" ++
    match node.text with
    | some text => " = " ++ Text.quote text
    | none => ""

mutual

/-- The lines of a tree at a depth. -/
def lines {ι : Type} (limit : Int) (depth : Nat) : Node ι → List String
  | node@(.mk _ _ children) =>
      if limit ≤ depth then [indent depth ++ "..."]
      else (indent depth ++ line node) :: linesOf limit (depth + 1) children

/-- The lines of a list of trees at a depth. -/
def linesOf {ι : Type} (limit : Int) (depth : Nat) : List (Node ι) → List String
  | [] => []
  | node :: nodes => lines limit depth node ++ linesOf limit depth nodes

end

/-- The depth to which trees are shown unless another is asked for. -/
def standardDepth : Int := 10

/-- The outline of a tree. -/
def render {ι : Type} (limit : Int) (root : Node ι) : String :=
  String.join ((lines limit 0 root).map (· ++ "\n"))

end Outline

end CodeMetrics
