import CodeMetrics.Tree.Kind
import CodeMetrics.Tree.Span

/-!
# Nodes

A node has attributes, ordered children and a mark. Marks are of any type: a number where nodes have
identity, nothing where only the shape of a tree matters. What a node is does not depend on its mark,
so `Node.shape` forgets the marks and two nodes are structurally equal when their shapes are equal.
-/

namespace CodeMetrics

/-- What a node says about itself, apart from its children. -/
structure Attributes where
  kind : Kind
  span : Span
  /-- The source text of a leaf. -/
  text : Option String
  /-- The slot that the node fills in its parent. -/
  field : Option String
  /-- The name of the construct in the grammar it came from. -/
  grammarType : String
deriving DecidableEq, Repr

/-- Attributes whose grammar type, left empty, is the name of the kind. -/
def Attributes.of (kind : Kind) (span : Span) (text field : Option String)
    (grammarType : String) : Attributes where
  kind := kind
  span := span
  text := text
  field := field
  grammarType := if grammarType.isEmpty then kind.name else grammarType

/-- A tree of attributes in which every node carries a mark. -/
inductive Node (ι : Type) where
  | mk (mark : ι) (attributes : Attributes) (children : List (Node ι))

/-- A tree without identities. -/
abbrev Shape := Node Unit

/-- A node with identity: its mark is its number. -/
abbrev Vertex := Node Nat

namespace Node

variable {ι : Type}

/-! ## Parts -/

/-- The mark of a node. -/
def mark : Node ι → ι
  | .mk mark _ _ => mark

/-- The attributes of a node. -/
def attributes : Node ι → Attributes
  | .mk _ attributes _ => attributes

/-- The children of a node, in document order. -/
def children : Node ι → List (Node ι)
  | .mk _ _ children => children

/-- The kind of a node. -/
def kind (node : Node ι) : Kind := node.attributes.kind

/-- The span of a node. -/
def span (node : Node ι) : Span := node.attributes.span

/-- The text of a node. -/
def text (node : Node ι) : Option String := node.attributes.text

/-- The slot that a node fills in its parent. -/
def field (node : Node ι) : Option String := node.attributes.field

/-- The grammar's name for a node. -/
def grammarType (node : Node ι) : String := node.attributes.grammarType

@[simp] theorem mark_mk (mark : ι) (attributes : Attributes) (children : List (Node ι)) :
    (mk mark attributes children).mark = mark := rfl

@[simp] theorem attributes_mk (mark : ι) (attributes : Attributes) (children : List (Node ι)) :
    (mk mark attributes children).attributes = attributes := rfl

@[simp] theorem children_mk (mark : ι) (attributes : Attributes) (children : List (Node ι)) :
    (mk mark attributes children).children = children := rfl

/-! ## Size -/

mutual

/-- The number of nodes of a tree. -/
def size : Node ι → Nat
  | .mk _ _ children => sizeAll children + 1

/-- The number of nodes of a list of trees. -/
def sizeAll : List (Node ι) → Nat
  | [] => 0
  | node :: nodes => node.size + sizeAll nodes

end

theorem size_eq (node : Node ι) : node.size = sizeAll node.children + 1 := by
  cases node
  simp [size]

theorem size_pos (node : Node ι) : 0 < node.size := by
  rw [size_eq]
  omega

@[simp] theorem sizeAll_append (left right : List (Node ι)) :
    sizeAll (left ++ right) = sizeAll left + sizeAll right := by
  induction left with
  | nil => simp [sizeAll]
  | cons node nodes induction => simp [sizeAll, induction, Nat.add_assoc]

/-! ## Structural equality -/

mutual

/-- Whether two trees are equal, marks included. -/
def decideEq [DecidableEq ι] : (left right : Node ι) → Decidable (left = right)
  | .mk leftMark leftAttributes leftChildren, .mk rightMark rightAttributes rightChildren =>
      if marks : leftMark = rightMark then
        if attributes : leftAttributes = rightAttributes then
          match decideEqAll leftChildren rightChildren with
          | isTrue children => isTrue (by rw [marks, attributes, children])
          | isFalse children => isFalse fun equal => children (Node.mk.inj equal).2.2
        else isFalse fun equal => attributes (Node.mk.inj equal).2.1
      else isFalse fun equal => marks (Node.mk.inj equal).1

/-- Whether two lists of trees are equal. -/
def decideEqAll [DecidableEq ι] : (left right : List (Node ι)) → Decidable (left = right)
  | [], [] => isTrue rfl
  | [], _ :: _ => isFalse (by simp)
  | _ :: _, [] => isFalse (by simp)
  | left :: lefts, right :: rights =>
      match decideEq left right with
      | isTrue heads =>
          match decideEqAll lefts rights with
          | isTrue tails => isTrue (by rw [heads, tails])
          | isFalse tails => isFalse fun equal => tails (List.cons.inj equal).2
      | isFalse heads => isFalse fun equal => heads (List.cons.inj equal).1

end

instance [DecidableEq ι] : DecidableEq (Node ι) := decideEq

instance : LawfulBEq Shape := inferInstance

mutual

/-- The tree without its marks. -/
def shape : Node ι → Shape
  | .mk _ attributes children => .mk () attributes (shapes children)

/-- The trees without their marks. -/
def shapes : List (Node ι) → List Shape
  | [] => []
  | node :: nodes => node.shape :: shapes nodes

end

@[simp] theorem attributes_shape (node : Node ι) : node.shape.attributes = node.attributes := by
  cases node
  simp [shape]

theorem shapes_eq_map (nodes : List (Node ι)) : shapes nodes = nodes.map shape := by
  induction nodes with
  | nil => rfl
  | cons node nodes induction => simp [shapes, induction]

@[simp] theorem children_shape (node : Node ι) :
    node.shape.children = node.children.map shape := by
  cases node
  simp [shape, shapes_eq_map]

/-! ## Children -/

/-- An anonymous leaf: a keyword, an operator or punctuation. -/
def isToken (node : Node ι) : Bool := node.kind == .token

/-- A node without children. -/
def isLeaf (node : Node ι) : Bool := node.children.isEmpty

/-- The children that are not anonymous tokens. -/
def namedChildren (node : Node ι) : List (Node ι) :=
  node.children.filter fun child => !child.isToken

/-- The first child in a slot. -/
def childByField? (node : Node ι) (name : String) : Option (Node ι) :=
  node.children.find? fun child => child.field == some name

/-- The children of the given kinds. -/
def childrenOfKind (node : Node ι) (kinds : List Kind) : List (Node ι) :=
  node.children.filter fun child => child.kind ∈ kinds

/-- Some child has the kind. -/
def hasChildOfKind (node : Node ι) (kind : Kind) : Bool :=
  node.children.any fun child => child.kind == kind

/-- The first child that is a token with the given text. -/
def findToken? (node : Node ι) (text : String) : Option (Node ι) :=
  node.children.find? fun child => child.isToken && child.text == some text

/-! ## Traversal -/

mutual

/-- A node and its descendants, each before its own children. -/
def preorder : Node ι → List (Node ι)
  | node@(.mk _ _ children) => node :: preorderAll children

/-- The trees of a list one after the other, in pre-order. -/
def preorderAll : List (Node ι) → List (Node ι)
  | [] => []
  | node :: nodes => node.preorder ++ preorderAll nodes

end

/-- Take the top node off a stack, and put its children there in its place, until none is left. -/
def walkStack : List (Node ι) → List (Node ι)
  | [] => []
  | node :: stack => node :: walkStack (node.children ++ stack)
termination_by stack => sizeAll stack
decreasing_by
  simp only [sizeAll_append, sizeAll, size_eq]
  omega

/-- A node and its descendants, as visited with a stack. -/
def walk (node : Node ι) : List (Node ι) := walkStack [node]

theorem preorder_eq (node : Node ι) : node.preorder = node :: preorderAll node.children := by
  cases node
  simp [preorder]

@[simp] theorem preorderAll_append (left right : List (Node ι)) :
    preorderAll (left ++ right) = preorderAll left ++ preorderAll right := by
  induction left with
  | nil => simp [preorderAll]
  | cons node nodes induction => simp [preorderAll, induction]

theorem walkStack_eq (stack : List (Node ι)) : walkStack stack = preorderAll stack := by
  fun_induction walkStack stack with
  | case1 => simp [preorderAll]
  | case2 node stack induction => simp [induction, preorderAll, preorder_eq]

theorem walk_eq_preorder (node : Node ι) : node.walk = node.preorder := by
  simp [walk, walkStack_eq, preorderAll]

/-- The proper descendants of a node, in pre-order. -/
def descendants (node : Node ι) : List (Node ι) := node.walk.drop 1

/-- The leaves under a node, in document order. -/
def leaves (node : Node ι) : List (Node ι) := node.walk.filter isLeaf

mutual

/-- The first leaf of a tree. -/
def firstToken : Node ι → Node ι
  | node@(.mk _ _ children) => firstTokenOf node children

/-- The first leaf of the first tree, or `node` if there is none. -/
def firstTokenOf (node : Node ι) : List (Node ι) → Node ι
  | [] => node
  | child :: _ => child.firstToken

end

mutual

/-- The last leaf of a tree. -/
def lastToken : Node ι → Node ι
  | node@(.mk _ _ children) => lastTokenOf node children

/-- The last leaf of the last tree, or `node` if there is none. -/
def lastTokenOf (node : Node ι) : List (Node ι) → Node ι
  | [] => node
  | [child] => child.lastToken
  | _ :: next :: children => lastTokenOf node (next :: children)

end

/-- The node in words: its kind, its text if it has one, and its span. -/
def describe (node : Node ι) : String :=
  match node.text with
  | some text => "SyntaxNode(" ++ node.kind.name ++ ", " ++ Text.quote text ++ " @ " ++
      node.span.render ++ ")"
  | none => "SyntaxNode(" ++ node.kind.name ++ " @ " ++ node.span.render ++ ")"

end Node

end CodeMetrics
