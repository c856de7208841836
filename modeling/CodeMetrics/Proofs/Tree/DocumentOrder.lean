import CodeMetrics.Proofs.Tree.Correspondence
import CodeMetrics.Proofs.Tree.Links

/-!
# Document order

In pre-order the nodes under a node stand in one piece, which the node opens and its last leaf closes.
The nodes that follow a node are those after its piece, and the search for the next leaf, however far
it climbs, finds the first leaf among them.
-/

namespace CodeMetrics

namespace Node

section

variable {ι : Type}

theorem preorder_of_isLeaf {node : Node ι} (leaf : node.isLeaf) : node.preorder = [node] := by
  rw [preorder_eq, List.isEmpty_iff.mp leaf, preorderAll]

/-- The nodes under a node of a tree stand in one piece. -/
theorem isInfix_preorder {node tree : Node ι} (member : node ∈ tree.preorder) :
    node.preorder <:+: tree.preorder := by
  refine preorder_induction (motive := fun node => node.preorder <:+: tree.preorder) tree ?_
    (List.infix_refl _) node member
  intro holder _ inside child held
  obtain ⟨before, after, split⟩ := List.append_of_mem held
  refine List.IsInfix.trans ⟨holder :: preorderAll before, preorderAll after, ?_⟩ inside
  rw [preorder_eq holder, split, preorderAll_append, preorderAll]
  simp

/-- The first leaf of a tree comes before its other leaves. -/
theorem find?_isLeaf_preorder : (node : Node ι) →
    node.preorder.find? isLeaf = some node.firstToken
  | .mk mark attributes [] => by simp [preorder, isLeaf, firstToken, firstTokenOf]
  | .mk mark attributes (child :: children) => by
      have inner : ¬ (mk mark attributes (child :: children)).isLeaf := by simp [isLeaf]
      rw [preorder, List.find?_cons_of_neg inner, preorderAll, List.find?_append,
        find?_isLeaf_preorder child, firstToken, firstTokenOf]
      rfl

/-- The last node of a tree is its last leaf. -/
theorem exists_preorder_eq_concat (node : Node ι) :
    ∃ before, node.preorder = before ++ [node.lastToken] ∧ node.lastToken.isLeaf := by
  induction size : node.size using Nat.strongRecOn generalizing node with
  | ind _ smaller =>
      subst size
      rw [lastToken_eq]
      rcases node.children.eq_nil_or_concat' with none | ⟨front, child, split⟩
      · refine ⟨[], ?_, ?_⟩ <;> simp [preorder_eq, none, preorderAll, isLeaf]
      · have held : child ∈ node.children := by simp [split]
        obtain ⟨before, isLast, leaf⟩ := smaller _ (size_lt_of_mem_children held) child rfl
        refine ⟨node :: (preorderAll front ++ before), ?_, by simpa [split] using leaf⟩
        rw [preorder_eq, split, preorderAll_append, preorderAll, preorderAll, isLast]
        simp

end

/-- The nodes of a tree that come after a node and all that is under it, in document order. -/
def following (root node : Vertex) : List Vertex :=
  (root.preorder.dropWhile fun other => other ≠ node).drop node.preorder.length

theorem following_eq {root node : Vertex} (distinct : root.Distinct) (before : List Vertex)
    {after : List Vertex} (split : root.preorder = before ++ node.preorder ++ after) :
    root.following node = after := by
  have once := distinct.nodup
  rw [split, List.append_assoc, List.nodup_append] at once
  obtain ⟨-, -, apart⟩ := once
  have skipped : ∀ other ∈ before, decide (other ≠ node) = true := by
    intro other member
    rw [preorder_eq] at apart
    exact decide_eq_true (apart other member node List.mem_cons_self)
  have stops : (node.preorder ++ after).dropWhile (fun other => other ≠ node) =
      node.preorder ++ after := by
    rw [preorder_eq, List.cons_append, List.dropWhile_cons_of_neg (by simp)]
  rw [following, split, List.append_assoc, List.dropWhile_append_of_pos skipped, stops,
    List.drop_left]

/-- The piece of a node in the tree, between what comes before it and what follows. -/
theorem exists_preorder_eq {root node : Vertex} (distinct : root.Distinct)
    (member : node ∈ root.preorder) :
    ∃ before, root.preorder = before ++ node.preorder ++ root.following node := by
  obtain ⟨before, after, split⟩ := isInfix_preorder member
  refine ⟨before, ?_⟩
  rw [following_eq distinct before split.symm, split]

theorem following_self {root : Vertex} (distinct : root.Distinct) : root.following root = [] := by
  apply following_eq distinct []
  rw [List.nil_append, List.append_nil]

/-- After a node come its later siblings, and then what follows the node that holds them. -/
theorem following_of_held {root holder node : Vertex} {before after : List Vertex}
    (distinct : root.Distinct) (member : holder ∈ root.preorder)
    (split : holder.children = before ++ node :: after) :
    root.following node = preorderAll after ++ root.following holder := by
  obtain ⟨earlier, piece⟩ := exists_preorder_eq distinct member
  apply following_eq distinct (earlier ++ holder :: preorderAll before)
  rw [piece, preorder_eq holder, split, preorderAll_append, preorderAll]
  simp

/-- A node and its last leaf are followed by the same nodes. -/
theorem following_lastToken {root node : Vertex} (distinct : root.Distinct)
    (member : node ∈ root.preorder) : root.following node.lastToken = root.following node := by
  obtain ⟨earlier, piece⟩ := exists_preorder_eq distinct member
  obtain ⟨before, isLast, leaf⟩ := node.exists_preorder_eq_concat
  apply following_eq distinct (earlier ++ before)
  rw [piece, isLast, preorder_of_isLeaf leaf]
  simp

theorem lastToken_mem_preorder {root node : Vertex} (member : node ∈ root.preorder) :
    node.lastToken ∈ root.preorder := by
  obtain ⟨before, isLast, -⟩ := node.exists_preorder_eq_concat
  refine mem_preorder_trans ?_ root member
  rw [isLast]
  exact List.mem_append_right before List.mem_cons_self

end Node

namespace Forest.IsTree

variable {forest : Forest} {root : Vertex}

/-- The parent of a node of the tree is in the tree. -/
theorem parent_mem_preorder (tree : IsTree forest root) (top : forest.parent? root = none)
    {node parent : Vertex} (member : node ∈ root.preorder)
    (isParent : forest.parent? node = some parent) : parent ∈ root.preorder := by
  rcases Node.eq_or_exists_holder member with rfl | ⟨holder, inTree, held⟩
  · simp [top] at isParent
  · rw [tree.parent?_eq inTree held] at isParent
    exact Option.some.inj isParent ▸ inTree

/-- The next leaf is the first leaf that follows in the tree, or else the one after the tree. -/
theorem nextToken_eq_or (tree : IsTree forest root) {node : Vertex} (member : node ∈ root.preorder) :
    forest.nextToken node =
      ((root.following node).find? Node.isLeaf).elim (forest.nextToken root)
        fun leaf => .ok (some leaf) := by
  -- the search climbs to the root, so the induction goes down from there
  refine Node.preorder_induction
    (motive := fun node => forest.nextToken node =
      ((root.following node).find? Node.isLeaf).elim (forest.nextToken root)
        fun leaf => .ok (some leaf))
    root ?_ ?_ node member
  · intro holder inTree above child held
    have isParent := tree.parent?_eq inTree held
    have childInTree := Node.mem_preorder_trans (Node.child_mem_preorder held) root inTree
    obtain ⟨before, after, found, split, -⟩ :=
      tree.built.splitAtMark_children (tree.mem_nodes childInTree) isParent
    rw [nextToken, tree.built.ancestors_eq, isParent,
      Node.following_of_held tree.distinct inTree split]
    simp only [leafAfter, found]
    cases after with
    | nil => exact above
    | cons sibling siblings =>
        rw [Node.preorderAll, List.append_assoc, List.find?_append, Node.find?_isLeaf_preorder]
        rfl
  · rw [Node.following_self tree.distinct]
    rfl

theorem nextToken_root (tree : IsTree forest root) (top : forest.parent? root = none) :
    forest.nextToken root = .ok none := by
  rw [nextToken, tree.built.ancestors_eq, top]
  rfl

/-- In a tree that nothing is above, the next leaf is the first leaf that follows in document
order. -/
theorem nextToken_eq (tree : IsTree forest root) (top : forest.parent? root = none) {node : Vertex}
    (member : node ∈ root.preorder) :
    forest.nextToken node = .ok ((root.following node).find? Node.isLeaf) := by
  rw [tree.nextToken_eq_or member, tree.nextToken_root top]
  cases (root.following node).find? Node.isLeaf <;> rfl

end Forest.IsTree

end CodeMetrics
