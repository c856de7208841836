import CodeMetrics.Tree.Span

/-!
# Parse trees

What a grammar returns for a source text: nodes with a type name, byte offsets, start and end points
and flags for error recovery. Rows and columns count from zero. Nothing is assumed of a parse tree; it
need not even fit its source.
-/

namespace CodeMetrics

/-- A place in a source text, by row and column. -/
structure Point where
  row : Int
  column : Int
deriving DecidableEq, Repr

/-- The place behind the given bytes: the number of line feeds, and of bytes after the last. -/
def Point.after (bytes : List UInt8) : Point where
  row := bytes.count 10
  column := (bytes.reverse.takeWhile (· != 10)).length

/-- What a parse tree says about a node, apart from its children. -/
structure Construct where
  type : String
  /-- The node has a name in the grammar, and is not a mere token. -/
  isNamed : Bool
  /-- The node was missing and has been put in. -/
  isMissing : Bool
  /-- The node holds text that could not be parsed. -/
  isError : Bool
  /-- The node or one below it is an error or missing. -/
  hasError : Bool
  /-- The slot that the node fills in its parent. -/
  field : Option String
  startByte : Int
  endByte : Int
  start : Point
  finish : Point
deriving DecidableEq, Repr

/-- The span of a construct, its lines counted from one. -/
def Construct.span (construct : Construct) : Span where
  startByte := construct.startByte
  endByte := construct.endByte
  startLine := construct.start.row + 1
  startColumn := construct.start.column
  endLine := construct.finish.row + 1
  endColumn := construct.finish.column

/-- A parse tree. -/
inductive ParseNode where
  | mk (construct : Construct) (children : List ParseNode)

namespace ParseNode

/-- What the tree says about its root. -/
def construct : ParseNode → Construct
  | .mk construct _ => construct

/-- The children of the root. -/
def children : ParseNode → List ParseNode
  | .mk _ children => children

mutual

/-- The number of nodes. -/
def size : ParseNode → Nat
  | .mk _ children => sizeAll children + 1

/-- The number of nodes of a list of trees. -/
def sizeAll : List ParseNode → Nat
  | [] => 0
  | node :: nodes => node.size + sizeAll nodes

end

theorem size_eq (node : ParseNode) : node.size = sizeAll node.children + 1 := by
  cases node
  simp [size, children]

@[simp] theorem sizeAll_append (left right : List ParseNode) :
    sizeAll (left ++ right) = sizeAll left + sizeAll right := by
  induction left with
  | nil => simp [sizeAll]
  | cons node nodes induction => simp [sizeAll, induction, Nat.add_assoc]

/-- The node is a syntax error or stands for one. -/
def isFault (node : ParseNode) : Bool := node.construct.isError || node.construct.isMissing

/-- The faults on a stack of nodes, in document order. Below a node without errors none is looked
for. -/
def faultsOn : List ParseNode → List ParseNode
  | [] => []
  | node :: stack =>
      let rest := faultsOn ((if node.construct.hasError then node.children else []) ++ stack)
      if node.isFault then node :: rest else rest
termination_by stack => sizeAll stack
decreasing_by
  simp only [sizeAll_append, sizeAll, size_eq]
  split
  · omega
  · simp only [sizeAll]
    omega

/-- The faults of a tree. -/
def faults (root : ParseNode) : List ParseNode :=
  if root.construct.hasError then faultsOn [root] else []

end ParseNode

end CodeMetrics
