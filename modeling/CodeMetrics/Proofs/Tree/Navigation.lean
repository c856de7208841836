import CodeMetrics.Proofs.Tree.DocumentOrder
import Mathlib.Logic.Relation

/-!
# Leaves in document order

The leaves under a node stand in one piece among the leaves of the tree, from the node's first leaf to
its last. The leaf after a node is the one with which the rest of the leaves begins, and there is only
one way to cut the leaves around those of a node.
-/

namespace CodeMetrics

namespace Node

section

variable {ι : Type}

/-- The node is the tree itself, or reached from it through children. -/
def Inside (node tree : Node ι) : Prop :=
  Relation.ReflTransGen (fun holder child => child ∈ holder.children) tree node

theorem mem_preorder_iff_inside {node tree : Node ι} :
    node ∈ tree.preorder ↔ node.Inside tree := by
  constructor
  · intro member
    refine preorder_induction (motive := fun node => node.Inside tree) tree ?_ .refl node member
    intro holder _ reached child held
    exact reached.tail held
  · intro reached
    induction reached with
    | refl => exact self_mem_preorder tree
    | tail _ held induction => exact mem_preorder_trans (child_mem_preorder held) tree induction

/-! ## The leaves under a node -/

theorem leaves_eq (node : Node ι) : node.leaves = node.preorder.filter isLeaf := by
  rw [leaves, walk_eq_preorder]

theorem leaves_of_isLeaf {node : Node ι} (leaf : node.isLeaf) : node.leaves = [node] := by
  rw [leaves_eq, preorder_of_isLeaf leaf, List.filter_cons_of_pos leaf, List.filter_nil]

theorem mem_leaves_iff {leaf tree : Node ι} :
    leaf ∈ tree.leaves ↔ leaf.Inside tree ∧ leaf.isLeaf := by
  rw [leaves_eq, List.mem_filter, mem_preorder_iff_inside]

theorem head?_leaves (node : Node ι) : node.leaves.head? = some node.firstToken := by
  rw [leaves_eq, List.head?_filter, find?_isLeaf_preorder]

/-- The last leaf of a tree closes its leaves. -/
theorem exists_leaves_eq_concat (node : Node ι) :
    ∃ front, node.leaves = front ++ [node.lastToken] := by
  obtain ⟨before, isLast, leaf⟩ := node.exists_preorder_eq_concat
  refine ⟨before.filter isLeaf, ?_⟩
  rw [leaves_eq, isLast, List.filter_append, List.filter_cons_of_pos leaf, List.filter_nil]

end

theorem Distinct.nodup_leaves {root : Vertex} (distinct : root.Distinct) : root.leaves.Nodup := by
  rw [leaves_eq]
  exact distinct.nodup.filter isLeaf

/-! ## The leaves after a node -/

/-- The leaves of a tree that come after a node and all that is under it. -/
def leavesAfter (root node : Vertex) : List Vertex := (root.following node).filter isLeaf

/-- The piece of a node among the leaves of the tree, between the leaves before it and those after. -/
theorem exists_leaves_eq {root node : Vertex} (distinct : root.Distinct)
    (member : node ∈ root.preorder) :
    ∃ before, root.leaves = before ++ node.leaves ++ root.leavesAfter node := by
  obtain ⟨before, piece⟩ := exists_preorder_eq distinct member
  refine ⟨before.filter isLeaf, ?_⟩
  rw [leaves_eq, piece, List.filter_append, List.filter_append, ← leaves_eq, leavesAfter]

/-- However the leaves of a tree are cut around those of a node, the same leaves come after it. -/
theorem leavesAfter_eq {root node : Vertex} (distinct : root.Distinct)
    (member : node ∈ root.preorder) (before : List Vertex) {after : List Vertex}
    (split : root.leaves = before ++ node.leaves ++ after) : root.leavesAfter node = after := by
  obtain ⟨earlier, piece⟩ := exists_leaves_eq distinct member
  obtain ⟨front, isLast⟩ := node.exists_leaves_eq_concat
  -- the last leaf of the node stands at one place
  have cut : root.leaves = (before ++ front) ++ node.lastToken :: after := by
    rw [split, isLast]
    simp
  have otherCut : root.leaves =
      (earlier ++ front) ++ node.lastToken :: root.leavesAfter node := by
    rw [piece, isLast]
    simp
  have once := distinct.nodup_leaves
  rw [otherCut, List.nodup_append, List.nodup_cons] at once
  obtain ⟨-, ⟨notAfter, -⟩, apart⟩ := once
  have notBefore : node.lastToken ∉ earlier ++ front := fun listed =>
    apart _ listed _ List.mem_cons_self rfl
  exact ((List.append_cons_inj_of_notMem notBefore notAfter).mp (otherCut.symm.trans cut)).2.2

theorem mem_preorder_of_leavesAfter {root node leaf : Vertex} (distinct : root.Distinct)
    (member : node ∈ root.preorder) (listed : leaf ∈ root.leavesAfter node) :
    leaf ∈ root.preorder ∧ leaf.isLeaf ∧ leaf ∉ node.preorder := by
  obtain ⟨follows, isLeaf⟩ := List.mem_filter.mp listed
  obtain ⟨before, piece⟩ := exists_preorder_eq distinct member
  have once := distinct.nodup
  rw [piece, List.nodup_append] at once
  refine ⟨by rw [piece]; exact List.mem_append_right _ follows, isLeaf, fun inside => ?_⟩
  exact once.2.2 leaf (List.mem_append_right before inside) leaf follows rfl

/-- After the next leaf come the others. -/
theorem leavesAfter_of_cons {root node leaf : Vertex} {rest : List Vertex} (distinct : root.Distinct)
    (member : node ∈ root.preorder) (next : root.leavesAfter node = leaf :: rest) :
    root.leavesAfter leaf = rest := by
  have listed : leaf ∈ root.leavesAfter node := next ▸ List.mem_cons_self
  obtain ⟨inTree, isLeaf, -⟩ := mem_preorder_of_leavesAfter distinct member listed
  obtain ⟨before, piece⟩ := exists_leaves_eq distinct member
  apply leavesAfter_eq distinct inTree (before ++ node.leaves)
  rw [piece, next, leaves_of_isLeaf isLeaf]
  simp

end Node

namespace Forest.IsTree

variable {forest : Forest} {root : Vertex}

/-- The next leaf is the first one after the node in the tree, or else the one after the tree. -/
theorem nextToken_eq_head?_or (tree : IsTree forest root) {node : Vertex}
    (member : node ∈ root.preorder) :
    forest.nextToken node =
      (root.leavesAfter node).head?.elim (forest.nextToken root) fun leaf => .ok (some leaf) := by
  rw [tree.nextToken_eq_or member, Node.leavesAfter, List.head?_filter]

theorem nextToken_eq_head? (tree : IsTree forest root) (top : forest.parent? root = none)
    {node : Vertex} (member : node ∈ root.preorder) :
    forest.nextToken node = .ok (root.leavesAfter node).head? := by
  rw [tree.nextToken_eq top member, Node.leavesAfter, List.head?_filter]

/-- The ways through a tree agree. The walk from a node comes to each node inside it once, in
pre-order. The first and the last leaf of the node are the ends of its leaves, these stand in one
piece among the leaves of the tree, and the next leaf is the one right behind that piece. -/
theorem navigation_in_document_order (tree : IsTree forest root)
    (top : forest.parent? root = none) {node : Vertex} (inside : node.Inside root) :
    (node.walk = node.preorder ∧ (∀ inner, inner ∈ node.walk ↔ inner.Inside node) ∧
      (node.walk.map Node.mark).Nodup) ∧
    node.leaves.head? = some node.firstToken ∧
    node.leaves.getLast? = some node.lastToken ∧
    (∃ before after, root.leaves = before ++ node.leaves ++ after) ∧
    ∀ before after, root.leaves = before ++ node.leaves ++ after →
      forest.nextToken node = .ok after.head? ∧ (forest.nextToken node = .ok none ↔ after = []) := by
  have member := Node.mem_preorder_iff_inside.mpr inside
  rw [Node.walk_eq_preorder]
  refine ⟨⟨rfl, fun inner => Node.mem_preorder_iff_inside, tree.distinct.of_mem member⟩,
    node.head?_leaves, ?_, ?_, ?_⟩
  · obtain ⟨front, isLast⟩ := node.exists_leaves_eq_concat
    rw [isLast, List.getLast?_concat]
  · obtain ⟨before, piece⟩ := Node.exists_leaves_eq tree.distinct member
    exact ⟨before, _, piece⟩
  · intro before after split
    have next := tree.nextToken_eq_head? top member
    rw [Node.leavesAfter_eq tree.distinct member before split] at next
    refine ⟨next, ?_⟩
    rw [next, Except.ok.injEq, List.head?_eq_none_iff]

end Forest.IsTree

/-- Two equal returns without children under a statement, and an empty block behind it. -/
def twinReturns : Vertex × Forest :=
  Forest.empty.plant (.sketch .block none
    [.sketch .expressionStatement none
      [.sketch .returnStatement none [], .sketch .returnStatement none []],
      .sketch .block none []])

theorem navigation_in_document_order_twinReturns :
    twinReturns.2.IsTree twinReturns.1 ∧ twinReturns.2.parent? twinReturns.1 = none ∧
      ∃ statement first second last : Vertex,
        statement.Inside twinReturns.1 ∧ statement.children = [first, second] ∧
        first.shape = second.shape ∧ twinReturns.1.leaves = [first, second, last] ∧
        twinReturns.2.nextToken first = .ok (some second) ∧
        twinReturns.2.nextToken statement = .ok (some last) ∧
        twinReturns.2.nextToken last = .ok none := by
  have tree : twinReturns.2.IsTree twinReturns.1 := Forest.isTree_plant _
  have top : twinReturns.2.parent? twinReturns.1 = none := Forest.parent?_plant_root _
  have found : ∃ statement ∈ twinReturns.1.preorder, ∃ first ∈ twinReturns.1.preorder,
      ∃ second ∈ twinReturns.1.preorder, ∃ last ∈ twinReturns.1.preorder,
        statement.children = [first, second] ∧ first.shape = second.shape ∧
        twinReturns.1.leaves = [first, second, last] ∧ first.leaves = [first] ∧
        statement.leaves = [first, second] ∧ last.leaves = [last] := by decide +kernel
  obtain ⟨statement, inTree, first, firstInTree, second, -, last, lastInTree, children, twins,
    leaves, ofFirst, ofStatement, ofLast⟩ := found
  have next : ∀ node ∈ twinReturns.1.preorder, ∀ before after,
      twinReturns.1.leaves = before ++ node.leaves ++ after →
        twinReturns.2.nextToken node = .ok after.head? := by
    intro node member before after split
    have inside := Node.mem_preorder_iff_inside.mp member
    obtain ⟨-, -, -, -, follows⟩ := tree.navigation_in_document_order top inside
    exact (follows before after split).1
  refine ⟨tree, top, statement, first, second, last, Node.mem_preorder_iff_inside.mp inTree,
    children, twins, leaves, ?_, ?_, ?_⟩
  · exact next first firstInTree [] [second, last] (by rw [leaves, ofFirst]; rfl)
  · exact next statement inTree [] [last] (by rw [leaves, ofStatement]; rfl)
  · exact next last lastInTree [first, second] [] (by rw [leaves, ofLast]; rfl)

end CodeMetrics
