import CodeMetrics.Text.Lines
import CodeMetrics.Tree.Node

/-!
# Forests

A forest numbers nodes in the order of their creation and remembers the parent of each. A node is
created over nodes that exist already, and becomes the parent of each of them; a node given to
several parents has the latest one.
-/

namespace CodeMetrics

/-- The nodes created so far, and the number of each one's parent. -/
structure Forest where
  nodes : Array Vertex
  parents : Array (Option Nat)

namespace Forest

/-- The forest without nodes. -/
def empty : Forest where
  nodes := #[]
  parents := #[]

/-- Make `parent` the parent of each of the children. -/
def adopt (parent : Nat) (children : List Vertex) (parents : Array (Option Nat)) :
    Array (Option Nat) :=
  children.foldl (fun table child => table.setIfInBounds child.mark (some parent)) parents

/-- Create a node over the given children. -/
def add (forest : Forest) (attributes : Attributes) (children : List Vertex) : Vertex × Forest :=
  let number := forest.nodes.size
  let node := Node.mk number attributes children
  (node,
    { nodes := forest.nodes.push node
      parents := adopt number children (forest.parents.push none) })

mutual

/-- Create the nodes of a tree that are not there yet, children first. A node that is there stands
for its whole tree. -/
def complete {ι : Type} (existing : ι → Option Vertex) : Node ι → Forest → Vertex × Forest
  | .mk mark attributes children, forest =>
      match existing mark with
      | some node => (node, forest)
      | none =>
          let completed := completeAll existing children forest
          completed.2.add attributes completed.1

/-- Create the nodes of a list of trees that are not there yet, from left to right. -/
def completeAll {ι : Type} (existing : ι → Option Vertex) :
    List (Node ι) → Forest → List Vertex × Forest
  | [], forest => ([], forest)
  | node :: nodes, forest =>
      let first := complete existing node forest
      let rest := completeAll existing nodes first.2
      (first.1 :: rest.1, rest.2)

end

/-- The parent of a node. -/
def parent? (forest : Forest) (node : Vertex) : Option Vertex :=
  match forest.parents[node.mark]? with
  | some (some parent) => forest.nodes[parent]?
  | _ => none

/-- The ancestors of a node that at most `steps` climbs reach, nearest first. -/
def climb (forest : Forest) : Nat → Vertex → List Vertex
  | 0, _ => []
  | steps + 1, node =>
      match forest.parent? node with
      | none => []
      | some parent => parent :: climb forest steps parent

/-- The ancestors of a node, nearest first. A parent is younger than its child, so no chain is longer
than the number of nodes. -/
def ancestors (forest : Forest) (node : Vertex) : List Vertex :=
  forest.climb forest.nodes.size node

end Forest

/-- The complaint that a node is not among the children of its parent. -/
structure Detached where
  node : Vertex

/-- The wording of the complaint. -/
def Detached.message (detached : Detached) : String :=
  detached.node.describe ++ " is not a child of its parent"

/-- The nodes before and after the one with the given number. -/
def splitAtMark (number : Nat) : List Vertex → Option (List Vertex × List Vertex)
  | [] => none
  | node :: nodes =>
      if node.mark = number then some ([], nodes)
      else (splitAtMark number nodes).map fun sides => (node :: sides.1, sides.2)

namespace Forest

/-- The first leaf after a node, given the node's ancestors. -/
def leafAfter (node : Vertex) : List Vertex → Except Detached (Option Vertex)
  | [] => .ok none
  | parent :: ancestors =>
      match splitAtMark node.mark parent.children with
      | none => .error ⟨node⟩
      | some (_, sibling :: _) => .ok (some sibling.firstToken)
      | some (_, []) => leafAfter parent ancestors

/-- The first leaf that follows a node in document order. -/
def nextToken (forest : Forest) (node : Vertex) : Except Detached (Option Vertex) :=
  leafAfter node (forest.ancestors node)

/-- The sibling just before a node. -/
def previousSibling (forest : Forest) (node : Vertex) : Except Detached (Option Vertex) :=
  match forest.parent? node with
  | none => .ok none
  | some parent =>
      match splitAtMark node.mark parent.children with
      | none => .error ⟨node⟩
      | some (before, _) => .ok before.getLast?

end Forest

/-- A source text with its tree. -/
structure Document where
  forest : Forest
  root : Vertex
  language : String
  source : String
  filePath : String

/-- The document of a tree in its forest. -/
def Document.ofTree (tree : Vertex × Forest) (language source filePath : String) : Document where
  forest := tree.2
  root := tree.1
  language := language
  source := source
  filePath := filePath

/-- The number of lines of the source text. -/
def Document.lineCount (document : Document) : Nat := Text.lineCount document.source

end CodeMetrics
