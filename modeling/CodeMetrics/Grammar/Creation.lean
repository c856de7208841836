import CodeMetrics.Grammar.Normal
import CodeMetrics.Tree.Forest

/-!
# Creating the nodes of the normal form

Nodes are created from the leaves up while the parse tree is traversed. Once the children of a node
are there, they are grouped; the nodes over the groups are created, and then the node over all.
-/

namespace CodeMetrics

/-- Something that is made in a forest, and the forest after it. -/
abbrev Creation (α : Type) := Forest → α × Forest

namespace Grammar

/-- Make one after the other. -/
def createAll : List (Creation Vertex) → Creation (List Vertex)
  | [], forest => ([], forest)
  | first :: rest, forest =>
      let made := first forest
      let others := createAll rest made.2
      (made.1 :: others.1, others.2)

/-- What grouping sees of a node that is there, which is the mark. -/
def standIn (node : Vertex) : Node (Option Vertex) := .mk (some node) node.attributes []

/-- Create a node over its children once they are made, and the nodes over groups of them. -/
def createNode (source : List UInt8) (construct : Construct) (field : Option String)
    (children : List (Creation Vertex)) : Creation Vertex := fun forest =>
  let made := createAll children forest
  Forest.complete id
    (convertMarked (fun _ => none) none source construct field (made.1.map standIn)) made.2

/-- Create the normal form of a parse tree, with a cursor. -/
def creation (source : List UInt8) (root : ParseNode) : Creation Vertex :=
  root.traversed (createNode source)

/-- The normal form of a parse tree in a forest of its own. -/
def create (source : List UInt8) (root : ParseNode) : Vertex × Forest :=
  creation source root .empty

end Grammar

end CodeMetrics
