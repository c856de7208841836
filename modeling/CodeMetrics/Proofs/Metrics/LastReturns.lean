import CodeMetrics.Proofs.Tree.DocumentOrder

/-!
# Returns that are taken for the last statement

A return is taken for the last statement of its function when the leaf after it lies directly in the
body of a function. Nothing is asked of that leaf. So the return really is the last statement of the
body exactly if neither the leaf nor anything behind it in the body is a statement: a closing brace
gives that, a comment with further statements behind it does not.
-/

namespace CodeMetrics

/-- A list does not end both in nodes that are no leaves and in whole trees. -/
theorem Node.eq_nil_of_leafless_suffix {ι : Type} {trees between front : List (Node ι)}
    {before : List (Node ι)} (leafless : ∀ node ∈ between, ¬ node.isLeaf)
    (same : front ++ between = before ++ preorderAll trees) : between = [] ∨ trees = [] := by
  rcases between.eq_nil_or_concat' with none | ⟨front, last, rfl⟩
  · exact .inl none
  rcases trees.eq_nil_or_concat' with none | ⟨earlier, tree, rfl⟩
  · exact .inr none
  obtain ⟨inner, isLast, leaf⟩ := tree.exists_preorder_eq_concat
  rw [preorderAll_append, preorderAll, preorderAll, List.append_nil, isLast] at same
  simp only [← List.append_assoc] at same
  obtain ⟨-, ends⟩ := List.append_inj' same rfl
  obtain rfl := List.singleton_inj.mp ends
  exact absurd leaf (leafless _ (by simp))

namespace Forest

/-- The leaf is the first one after the node, and lies directly in the block, which is the body of a
function. -/
structure EndsAt (forest : Forest) (root node leaf block : Vertex) : Prop where
  next : (root.following node).find? Node.isLeaf = some leaf
  holds : forest.parent? leaf = some block
  isBlock : block.kind = .block
  isBody : ∃ function, forest.parent? block = some function ∧ forest.isFunctionLike function

theorem closesFunction_iff {forest : Forest} {leaf : Vertex} :
    forest.closesFunction leaf ↔
      ∃ block, forest.parent? leaf = some block ∧ block.kind = .block ∧
        ∃ function, forest.parent? block = some function ∧ forest.isFunctionLike function := by
  rw [closesFunction]
  cases forest.parent? leaf with
  | none => simp
  | some block => cases isOwner : forest.parent? block <;> simp [isOwner]

namespace IsTree

variable {forest : Forest} {root : Vertex}

theorem isReturnButNotLast_eq (tree : IsTree forest root) (top : forest.parent? root = none)
    {node : Vertex} (member : node ∈ root.preorder) (isReturn : node.kind = .returnStatement) :
    forest.isReturnButNotLast node =
      .ok (!((root.following node).find? Node.isLeaf).any forest.closesFunction) := by
  have next : forest.nextToken node.lastToken = _ :=
    tree.nextToken_eq top (Node.lastToken_mem_preorder member)
  rw [Node.following_lastToken tree.distinct member] at next
  rw [isReturnButNotLast, if_pos isReturn, isLastStatement, next]
  cases (root.following node).find? Node.isLeaf <;> rfl

/-- Of the nodes below the one that holds the next leaf, those that follow are the leaf and what comes
after it. -/
theorem mem_following_iff (tree : IsTree forest root) {node leaf holder inner : Vertex}
    {earlier later : List Vertex} (member : node ∈ root.preorder) (inTree : holder ∈ root.preorder)
    (next : (root.following node).find? Node.isLeaf = some leaf)
    (split : holder.children = earlier ++ leaf :: later) (inside : inner ∈ holder.descendants) :
    inner ∈ root.following node ↔ inner ∈ leaf :: Node.preorderAll later := by
  obtain ⟨isLeaf, between, after, follows, leafless⟩ := List.find?_eq_some_iff_append.mp next
  obtain ⟨before, piece⟩ := Node.exists_preorder_eq tree.distinct member
  obtain ⟨above, holderPiece⟩ := Node.exists_preorder_eq tree.distinct inTree
  have leafPiece := Node.preorder_of_isLeaf isLeaf
  have below : holder.descendants =
      Node.preorderAll earlier ++ leaf :: Node.preorderAll later := by
    rw [Node.descendants_eq, split, Node.preorderAll_append, Node.preorderAll, leafPiece]
    rfl
  have cut : root.preorder = before ++ node.preorder ++ between ++ leaf :: after := by
    rw [piece, follows]
    simp
  have otherCut : root.preorder = above ++ [holder] ++ Node.preorderAll earlier ++
      leaf :: (Node.preorderAll later ++ root.following holder) := by
    rw [holderPiece, Node.preorder_eq, ← Node.descendants_eq, below]
    simp
  -- the leaf stands at one place, so the two cuts are one
  have sameFront := (Node.preceding_eq tree.distinct cut).symm.trans
    (Node.preceding_eq tree.distinct otherCut)
  have sameBack : after = Node.preorderAll later ++ root.following holder := by
    rw [cut, sameFront] at otherCut
    exact (List.cons.inj (List.append_cancel_left otherCut)).2
  rw [below] at inside
  rw [follows, sameBack]
  constructor
  · intro comesAfter
    rcases List.mem_append.mp inside with isEarlier | isLater
    · exfalso
      rcases Node.eq_nil_of_leafless_suffix (by simpa using leafless) sameFront with none | none
      · have once := tree.distinct.nodup
        rw [cut, sameFront, sameBack, List.nodup_append] at once
        rw [none, List.nil_append] at comesAfter
        exact once.2.2 inner (List.mem_append_right _ isEarlier) inner comesAfter rfl
      · simp [none, Node.preorderAll] at isEarlier
    · exact isLater
  · intro isLater
    refine List.mem_append_right between ?_
    rw [← List.cons_append]
    exact List.mem_append_left _ isLater

/-- Whether a return is taken for the last statement, and when it is one. It is taken for it exactly if
the next leaf lies directly in the body of a function. No statement in that body comes after the
return exactly if neither that leaf nor anything behind it in the body is a statement. -/
theorem taken_for_last_iff (tree : IsTree forest root) (top : forest.parent? root = none)
    {node : Vertex} (member : node ∈ root.preorder) (isReturn : node.kind = .returnStatement) :
    (∃ early, forest.isReturnButNotLast node = .ok early ∧
      (early = false ↔ ∃ leaf block, forest.EndsAt root node leaf block)) ∧
    ∀ leaf block, forest.EndsAt root node leaf block →
      ∃ earlier later, block.children = earlier ++ leaf :: later ∧
        ((∀ statement ∈ block.descendants, statement.kind.isStatement →
            statement ∉ root.following node) ↔
          ∀ inner ∈ leaf :: Node.preorderAll later, ¬ inner.kind.isStatement) := by
  refine ⟨⟨_, tree.isReturnButNotLast_eq top member isReturn, ?_⟩, ?_⟩
  · rw [Bool.not_eq_false', Option.any_eq_true]
    constructor
    · rintro ⟨leaf, next, closes⟩
      obtain ⟨block, holds, isBlock, isBody⟩ := closesFunction_iff.mp closes
      exact ⟨leaf, block, next, holds, isBlock, isBody⟩
    · rintro ⟨leaf, block, ends⟩
      exact ⟨leaf, ends.next, closesFunction_iff.mpr ⟨block, ends.holds, ends.isBlock, ends.isBody⟩⟩
  · intro leaf block ends
    have follows := List.mem_of_find?_eq_some ends.next
    have leafInTree : leaf ∈ root.preorder := by
      obtain ⟨before, piece⟩ := Node.exists_preorder_eq tree.distinct member
      rw [piece]
      exact List.mem_append_right _ follows
    have inTree := tree.parent_mem_preorder top leafInTree ends.holds
    obtain ⟨earlier, later, -, split, -⟩ :=
      tree.built.splitAtMark_children (tree.mem_nodes leafInTree) ends.holds
    refine ⟨earlier, later, split, ?_⟩
    have below : ∀ inner ∈ leaf :: Node.preorderAll later, inner ∈ block.descendants := by
      intro inner listed
      rw [Node.descendants_eq, split, Node.preorderAll_append, Node.preorderAll,
        Node.preorder_of_isLeaf (List.find?_some ends.next)]
      exact List.mem_append_right _ listed
    constructor
    · intro last inner listed isStatement
      refine last inner (below inner listed) isStatement ?_
      exact (tree.mem_following_iff member inTree ends.next split (below inner listed)).mpr listed
    · intro plain statement inside isStatement comesAfter
      refine plain statement ?_ isStatement
      exact (tree.mem_following_iff member inTree ends.next split inside).mp comesAfter

end IsTree

/-- A return under an if, a comment, another statement and the end of the body. -/
def commentedReturn : Vertex × Forest :=
  Forest.empty.plant (.sketch .methodDeclaration none
    [.sketch .block (some "body")
      [.sketch .ifStatement none [.sketch .returnStatement none []],
        .sketch .multiLineComment none [],
        .sketch .expressionStatement none [.sketch .identifier none []],
        .sketch .token none []]])

theorem taken_for_last_commentedReturn :
    commentedReturn.2.IsTree commentedReturn.1 ∧
      ∃ node ∈ commentedReturn.1.preorder, node.kind = .returnStatement ∧
        commentedReturn.2.isReturnButNotLast node = .ok false ∧
        ∃ leaf block, commentedReturn.2.EndsAt commentedReturn.1 node leaf block ∧
          (∃ statement ∈ block.descendants, statement.kind.isStatement ∧
            statement ∈ commentedReturn.1.following node) ∧
          ∃ earlier later, block.children = earlier ++ leaf :: later ∧
            ∃ inner ∈ leaf :: Node.preorderAll later, inner.kind.isStatement := by
  have tree : commentedReturn.2.IsTree commentedReturn.1 := isTree_plant _
  have found : ∃ node ∈ commentedReturn.1.preorder, node.kind = .returnStatement ∧
      ∃ leaf ∈ commentedReturn.1.preorder, ∃ block ∈ commentedReturn.1.preorder,
        (commentedReturn.1.following node).find? Node.isLeaf = some leaf ∧
        commentedReturn.2.parent? leaf = some block ∧ block.kind = .block ∧
        commentedReturn.2.parent? block = some commentedReturn.1 ∧
        ∃ statement ∈ block.descendants, statement.kind.isStatement ∧
          statement ∈ commentedReturn.1.following node := by decide +kernel
  obtain ⟨node, member, isReturn, leaf, -, block, -, next, holds, isBlock, owned, statement, inside,
    isStatement, comesAfter⟩ := found
  have ends : commentedReturn.2.EndsAt commentedReturn.1 node leaf block :=
    ⟨next, holds, isBlock, commentedReturn.1, owned, by decide⟩
  obtain ⟨⟨early, answered, taken⟩, really⟩ :=
    tree.taken_for_last_iff (parent?_plant_root _) member isReturn
  obtain rfl := taken.mpr ⟨leaf, block, ends⟩
  obtain ⟨earlier, later, split, last⟩ := really leaf block ends
  refine ⟨tree, node, member, isReturn, answered, leaf, block, ends,
    ⟨statement, inside, isStatement, comesAfter⟩, earlier, later, split, ?_⟩
  by_contra plain
  exact last.mpr (fun inner listed isStatement => plain ⟨inner, listed, isStatement⟩) statement inside
    isStatement comesAfter

end Forest

end CodeMetrics
