import CodeMetrics.Grammar.Cursor

/-!
# A cursor builds from the leaves up

The traversal with a cursor gives each tree the value that folding it gives. A node that is entered is
left with the values of all its children, whatever is open above it.
-/

namespace CodeMetrics

/-! ## Parts -/

namespace ParseNode

mutual

/-- A parse tree and the trees inside it, in pre-order. -/
def parts : ParseNode → List ParseNode
  | node@(.mk _ children) => node :: partsAll children

/-- The parts of parse trees, one tree after the other. -/
def partsAll : List ParseNode → List ParseNode
  | [] => []
  | node :: nodes => parts node ++ partsAll nodes

end

theorem parts_eq (node : ParseNode) : node.parts = node :: partsAll node.children := by
  cases node
  rw [parts, children]

theorem self_mem_parts (node : ParseNode) : node ∈ node.parts := by
  rw [parts_eq]
  exact List.mem_cons_self

theorem mem_partsAll {part : ParseNode} {nodes : List ParseNode} :
    part ∈ partsAll nodes ↔ ∃ node ∈ nodes, part ∈ node.parts := by
  induction nodes with
  | nil => simp [partsAll]
  | cons node nodes induction => simp [partsAll, induction]

end ParseNode

/-! ## Traversals -/

variable {α : Type} (build : Build α)

/-- Go on with the children of an open node that are still to come, or leave it if there are none. -/
def traverseRest (node : ParseNode) (above : List (ParseNode × List ParseNode))
    (opened : OpenNode α) (ancestors : List (OpenNode α)) : List ParseNode → α
  | [] => traverse build false ⟨node, above⟩ opened ancestors
  | child :: siblings =>
      traverse build true ⟨child, (node, siblings) :: above⟩
        ⟨child.construct, child.construct.field, []⟩ (opened :: ancestors)

/-- On entering a node all its children are still to come. -/
theorem traverse_enter (node : ParseNode) (above : List (ParseNode × List ParseNode))
    (opened : OpenNode α) (ancestors : List (OpenNode α)) :
    traverse build true ⟨node, above⟩ opened ancestors =
      traverseRest build node above opened ancestors node.children := by
  obtain ⟨construct, children⟩ := node
  rw [traverse.eq_def build true]
  cases children <;> rfl

/-- On leaving a node its siblings are still to come. -/
theorem traverse_leave (node parent : ParseNode) (siblings : List ParseNode)
    (above : List (ParseNode × List ParseNode)) (closed opened : OpenNode α)
    (ancestors : List (OpenNode α)) :
    traverse build false ⟨node, (parent, siblings) :: above⟩ closed (opened :: ancestors) =
      traverseRest build parent above (opened.push (closed.close build)) ancestors siblings := by
  rw [traverse.eq_def build false]
  cases siblings <;> rfl

theorem traverse_root (cursor : Cursor) (opened : OpenNode α) :
    traverse build false cursor opened [] = opened.close build := by
  rw [traverse, if_neg Bool.false_ne_true]

namespace ParseNode

mutual

/-- A node that was just opened is closed with the values of its children. -/
theorem traverse_node :
    (node : ParseNode) → (above : List (ParseNode × List ParseNode)) → (field : Option String) →
      (ancestors : List (OpenNode α)) →
      traverse build true ⟨node, above⟩ ⟨node.construct, field, []⟩ ancestors =
        traverse build false ⟨node, above⟩ ⟨node.construct, field, foldAll build node.children⟩
          ancestors
  | .mk construct nodes, above, field, ancestors => by
      rw [traverse_enter]
      exact traverseRest_eq nodes (.mk construct nodes) above ⟨construct, field, []⟩ ancestors

/-- The children that are still to come add their values to the open node. -/
theorem traverseRest_eq :
    (nodes : List ParseNode) → (parent : ParseNode) →
      (above : List (ParseNode × List ParseNode)) → (opened : OpenNode α) →
      (ancestors : List (OpenNode α)) →
      traverseRest build parent above opened ancestors nodes =
        traverse build false ⟨parent, above⟩
          { opened with values := opened.values ++ foldAll build nodes } ancestors
  | [], parent, above, opened, ancestors => by rw [traverseRest, foldAll, List.append_nil]
  | node :: nodes, parent, above, opened, ancestors => by
      rw [traverseRest, traverse_node node, traverse_leave, traverseRest_eq nodes]
      simp only [OpenNode.push, OpenNode.close, foldAll, fold_eq, List.append_assoc,
        List.cons_append, List.nil_append]

end

theorem traversed_eq_fold (root : ParseNode) : root.traversed build = root.fold build none := by
  rw [traversed, Cursor.start, traverse_node, traverse_root, OpenNode.close, fold_eq]

end ParseNode

end CodeMetrics
