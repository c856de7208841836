import CodeMetrics.Grammar.ParseNode

/-!
# Traversing a parse tree with a cursor

A cursor stands on a node of a tree and moves to the first child, the next sibling or the parent. A
traversal builds a value for each node from the values of its children. It keeps a frame for the node
under the cursor and one for each open ancestor, and closes a frame when the cursor leaves its node for
good. The result is that of building from the leaves up.
-/

namespace CodeMetrics

/-! ## Building from the leaves up -/

/-- How the value of a node is made from its construct, its slot and the values of its children. -/
abbrev Build (α : Type) := Construct → Option String → List α → α

namespace ParseNode

variable {α : Type}

mutual

/-- The value of a tree in the given slot. -/
def fold (build : Build α) (field : Option String) : ParseNode → α
  | .mk construct children => build construct field (foldAll build children)

/-- The values of trees, each in its own slot. -/
def foldAll (build : Build α) : List ParseNode → List α
  | [] => []
  | node :: nodes => fold build node.construct.field node :: foldAll build nodes

end

theorem fold_eq (build : Build α) (field : Option String) (node : ParseNode) :
    node.fold build field = build node.construct field (foldAll build node.children) := by
  cases node
  simp [fold, construct, children]

end ParseNode

/-! ## Cursors -/

/-- A node with the way back: for each ancestor, nearest first, the ancestor and the siblings still to
come below it. -/
structure Cursor where
  node : ParseNode
  above : List (ParseNode × List ParseNode)

namespace Cursor

/-- The cursor on the root. -/
def start (root : ParseNode) : Cursor := ⟨root, []⟩

/-- The cursor on the first child, if there is one. -/
def firstChild? (cursor : Cursor) : Option Cursor :=
  match cursor.node.children with
  | [] => none
  | child :: siblings => some ⟨child, (cursor.node, siblings) :: cursor.above⟩

/-- The cursor on the next sibling, if there is one. -/
def nextSibling? (cursor : Cursor) : Option Cursor :=
  match cursor.above with
  | (parent, sibling :: siblings) :: above => some ⟨sibling, (parent, siblings) :: above⟩
  | _ => none

/-- The cursor on the parent, or where it is if that is the root. -/
def parent (cursor : Cursor) : Cursor :=
  match cursor.above with
  | (parent, _) :: above => ⟨parent, above⟩
  | [] => cursor

/-- The number of nodes after the tree under the cursor. -/
def ahead (cursor : Cursor) : Nat :=
  cursor.above.foldr (fun level count => ParseNode.sizeAll level.2 + count) 0

theorem ahead_firstChild {cursor child : Cursor} (moved : cursor.firstChild? = some child) :
    ParseNode.sizeAll child.node.children + child.ahead + 1 =
      ParseNode.sizeAll cursor.node.children + cursor.ahead := by
  unfold firstChild? at moved
  split at moved
  · simp at moved
  · rename_i first siblings children
    obtain rfl := Option.some.inj moved
    simp only [ahead, List.foldr_cons, children, ParseNode.sizeAll, ParseNode.size_eq]
    omega

theorem ahead_nextSibling {cursor sibling : Cursor} (moved : cursor.nextSibling? = some sibling) :
    ParseNode.sizeAll sibling.node.children + sibling.ahead + 1 = cursor.ahead := by
  unfold nextSibling? at moved
  split at moved
  · rename_i parent next siblings above levels
    obtain rfl := Option.some.inj moved
    simp only [ahead, levels, List.foldr_cons, ParseNode.sizeAll, ParseNode.size_eq]
    omega
  · simp at moved

theorem ahead_parent_le (cursor : Cursor) : cursor.parent.ahead ≤ cursor.ahead := by
  unfold parent
  split
  · rename_i parent siblings above levels
    simp only [ahead, levels, List.foldr_cons]
    omega
  · exact Nat.le_refl _

end Cursor

/-! ## Traversal -/

/-- An open node: its construct, its slot, and the values of its children so far. -/
structure OpenNode (α : Type) where
  construct : Construct
  field : Option String
  values : List α

namespace OpenNode

variable {α : Type}

/-- The node under a cursor, just opened in its slot. -/
def ofCursor (cursor : Cursor) : OpenNode α :=
  ⟨cursor.node.construct, cursor.node.construct.field, []⟩

/-- The open node with the value of one more child. -/
def push (opened : OpenNode α) (value : α) : OpenNode α :=
  { opened with values := opened.values ++ [value] }

/-- The value of the node once all its children have theirs. -/
def close (build : Build α) (opened : OpenNode α) : α :=
  build opened.construct opened.field opened.values

end OpenNode

/-- Move the cursor down while it can, else close the node under it and move on to its sibling, or to
its parent if it was the last. `entering` says that the children of the node are still to come. -/
def traverse {α : Type} (build : Build α) (entering : Bool) (cursor : Cursor) (current : OpenNode α)
    (ancestors : List (OpenNode α)) : α :=
  if entering then
    match _moved : cursor.firstChild? with
    | some child => traverse build true child (.ofCursor child) (current :: ancestors)
    | none => traverse build false cursor current ancestors
  else
    match ancestors with
    | [] => current.close build
    | parent :: above =>
        match _next : cursor.nextSibling? with
        | some sibling =>
            traverse build true sibling (.ofCursor sibling)
              (parent.push (current.close build) :: above)
        | none => traverse build false cursor.parent (parent.push (current.close build)) above
termination_by
  4 * ((if entering then ParseNode.sizeAll cursor.node.children else 0) + cursor.ahead) +
    2 * ancestors.length + (if entering then 1 else 0)
decreasing_by
  · have fewer := Cursor.ahead_firstChild _moved
    simp only [‹entering = true›, ↓reduceIte, List.length_cons]
    omega
  · simp only [‹entering = true›, ↓reduceIte]
    omega
  · have fewer := Cursor.ahead_nextSibling _next
    simp only [↓reduceIte, List.length_cons]
    omega
  · have noMore := Cursor.ahead_parent_le cursor
    simp only [↓reduceIte, List.length_cons]
    omega

/-- The value of a tree, built with a cursor. The root is in no slot. -/
def ParseNode.traversed {α : Type} (build : Build α) (root : ParseNode) : α :=
  traverse build true (.start root) ⟨root.construct, none, []⟩ []

end CodeMetrics
