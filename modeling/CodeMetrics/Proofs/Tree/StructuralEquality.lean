import CodeMetrics.Proofs.Tree.Construction
import CodeMetrics.Tree.Equality
import Mathlib.Data.List.Forall2

/-!
# Structural equality

All pairs on the stack compare equal exactly if the two nodes of each have the same shape. A pair of
nodes with one number is passed over, so this needs nodes that are told apart by their numbers, as
those of a forest made node by node. There equality is equality of the attributes and of the
children one by one, whatever the parents are, and equal nodes have equal hashes.
-/

namespace CodeMetrics

namespace Node

variable {ι : Type}

theorem shape_eq (node : Node ι) :
    node.shape = .mk () node.attributes (node.children.map shape) := by
  obtain ⟨mark, attributes, children⟩ := node
  simp [shape, shapes_eq_map]

/-- Shapes are equal exactly if the attributes are, and the shapes of the children one by one. -/
theorem shape_eq_shape_iff {left right : Node ι} :
    left.shape = right.shape ↔
      left.attributes = right.attributes ∧
        List.Forall₂ (fun child twin => child.shape = twin.shape) left.children right.children := by
  rw [shape_eq left, shape_eq right, mk.injEq, ← List.forall₂_eq_eq_eq, List.forall₂_map_left_iff,
    List.forall₂_map_right_iff]
  simp

theorem agrees_iff {left right : Node ι} :
    left.agrees right ↔
      left.attributes = right.attributes ∧ left.children.length = right.children.length := by
  rw [agrees, Bool.and_eq_true, decide_eq_true_eq, beq_iff_eq]

theorem attributes_eq_iff {left right : Node ι} :
    left.attributes = right.attributes ↔
      left.kind = right.kind ∧ left.span = right.span ∧ left.text = right.text ∧
        left.field = right.field ∧ left.grammarType = right.grammarType := by
  constructor
  · intro attributes
    simp only [kind, span, text, field, grammarType, attributes, and_self]
  · rintro ⟨kinds, spans, texts, fields, types⟩
    obtain ⟨_, ⟨_, _, _, _, _⟩, _⟩ := left
    obtain ⟨_, ⟨_, _, _, _, _⟩, _⟩ := right
    exact Attributes.mk.injEq .. ▸ ⟨kinds, spans, texts, fields, types⟩

/-- Pairs of the same shape compare equal. -/
theorem sameAll_of_shape_eq [DecidableEq ι] {pairs : List (Node ι × Node ι)}
    (shapes : ∀ pair ∈ pairs, pair.1.shape = pair.2.shape) : sameAll pairs := by
  fun_induction sameAll pairs with
  | case1 => rfl
  | case2 left right pairs marks induction => exact induction (List.forall_mem_cons.mp shapes).2
  | case3 left right pairs marks agrees induction =>
      obtain ⟨here, rest⟩ := List.forall_mem_cons.mp shapes
      have children := (shape_eq_shape_iff.mp here).2
      apply induction
      intro pair listed
      rcases List.mem_append.mp listed with child | later
      · exact (List.forall₂_iff_zip.mp children).2 (List.mem_reverse.mp child)
      · exact rest pair later
  | case4 left right pairs marks disagrees =>
      obtain ⟨attributes, children⟩ := shape_eq_shape_iff.mp (shapes _ List.mem_cons_self)
      exact absurd (agrees_iff.mpr ⟨attributes, children.length_eq⟩) disagrees

theorem hashKey_shape (node : Node ι) : node.shape.hashKey = node.hashKey := by
  simp only [hashKey, kind, span, attributes_shape]

end Node

namespace Forest

variable {forest : Forest}

/-- Nodes of a forest that compare equal have the same shape. -/
theorem Coherent.shape_eq_of_sameAll (coherent : Coherent forest) (pairs : List (Vertex × Vertex))
    (known : ∀ pair ∈ pairs, pair.1 ∈ forest.nodes ∧ pair.2 ∈ forest.nodes)
    (same : Node.sameAll pairs) : ∀ pair ∈ pairs, pair.1.shape = pair.2.shape := by
  fun_induction Node.sameAll pairs with
  | case1 => simp
  | case2 left right pairs marks induction =>
      rw [List.forall_mem_cons] at known ⊢
      have nodes := coherent.eq_of_mark known.1.1 known.1.2 marks
      exact ⟨congrArg Node.shape nodes, induction known.2 same⟩
  | case3 left right pairs marks agrees induction =>
      rw [List.forall_mem_cons] at known ⊢
      have pending : ∀ pair ∈ (left.children.zip right.children).reverse ++ pairs,
          pair.1 ∈ forest.nodes ∧ pair.2 ∈ forest.nodes := by
        intro pair listed
        rcases List.mem_append.mp listed with child | later
        · obtain ⟨held, otherHeld⟩ := List.of_mem_zip (List.mem_reverse.mp child)
          exact ⟨coherent.known left known.1.1 _ held, coherent.known right known.1.2 _ otherHeld⟩
        · exact known.2 pair later
      have shapes := induction pending same
      obtain ⟨attributes, lengths⟩ := Node.agrees_iff.mp agrees
      refine ⟨Node.shape_eq_shape_iff.mpr ⟨attributes, ?_⟩, fun pair listed =>
        shapes pair (List.mem_append_right _ listed)⟩
      refine List.forall₂_iff_zip.mpr ⟨lengths, fun listed => ?_⟩
      exact shapes _ (List.mem_append_left _ (List.mem_reverse.mpr listed))
  | case4 => simp at same

namespace Built

/-- Nodes of a forest are equal exactly if they have the same shape. -/
theorem same_iff_shape_eq (built : forest.Built) {left right : Vertex}
    (known : left ∈ forest.nodes) (otherKnown : right ∈ forest.nodes) :
    left.same right ↔ left.shape = right.shape := by
  constructor
  · intro same
    refine built.coherent.shape_eq_of_sameAll [(left, right)] ?_ same _ List.mem_cons_self
    simpa using ⟨known, otherKnown⟩
  · intro shapes
    exact Node.sameAll_of_shape_eq (by simpa using shapes)

/-- The children of nodes of a forest are equal one by one exactly if their shapes are. -/
theorem forall₂_same_iff (built : forest.Built) {left right : Vertex}
    (known : left ∈ forest.nodes) (otherKnown : right ∈ forest.nodes) :
    List.Forall₂ (fun child twin => child.same twin) left.children right.children ↔
      List.Forall₂ (fun child twin => child.shape = twin.shape) left.children right.children := by
  simp only [List.forall₂_iff_zip]
  refine and_congr_right fun _ => forall₂_congr fun child twin => forall_congr' fun listed => ?_
  obtain ⟨held, otherHeld⟩ := List.of_mem_zip listed
  exact built.same_iff_shape_eq (built.coherent.known left known child held)
    (built.coherent.known right otherKnown twin otherHeld)

/-- Equality of the nodes of a forest, which may share descendants. Nodes are equal exactly if they
have the same kind, span, text, slot and grammar type and as many children, which are equal one by
one. This is an equivalence, and equal nodes have equal hashes. Nodes of the same shapes, whatever
forest they are in and whatever parents they have there, are equal if these are. -/
theorem same_is_structural_equality (built : forest.Built) :
    (∀ left ∈ forest.nodes, ∀ right ∈ forest.nodes,
      (left.same right ↔
        left.kind = right.kind ∧ left.span = right.span ∧ left.text = right.text ∧
          left.field = right.field ∧ left.grammarType = right.grammarType ∧
          left.children.length = right.children.length ∧
          List.Forall₂ (fun child twin => child.same twin) left.children right.children) ∧
      (left.same right → left.hashKey = right.hashKey) ∧
      ∀ other : Forest, other.Built → ∀ first ∈ other.nodes, ∀ second ∈ other.nodes,
        first.shape = left.shape → second.shape = right.shape →
          first.same second = left.same right) ∧
    Equivalence fun left right : { node // node ∈ forest.nodes } => left.val.same right.val := by
  constructor
  · intro left known right otherKnown
    have shapes := built.same_iff_shape_eq known otherKnown
    refine ⟨?_, ?_, ?_⟩
    · rw [shapes, Node.shape_eq_shape_iff, Node.attributes_eq_iff,
        built.forall₂_same_iff known otherKnown]
      constructor
      · rintro ⟨⟨kinds, spans, texts, fields, types⟩, children⟩
        exact ⟨kinds, spans, texts, fields, types, children.length_eq, children⟩
      · rintro ⟨kinds, spans, texts, fields, types, -, children⟩
        exact ⟨⟨kinds, spans, texts, fields, types⟩, children⟩
    · intro same
      rw [← left.hashKey_shape, shapes.mp same, right.hashKey_shape]
    · intro other otherBuilt first inOther second alsoInOther firstShape secondShape
      rw [Bool.eq_iff_iff, otherBuilt.same_iff_shape_eq inOther alsoInOther, shapes, firstShape,
        secondShape]
  · constructor
    · intro node
      exact (built.same_iff_shape_eq node.property node.property).mpr rfl
    · intro left right same
      rw [built.same_iff_shape_eq left.property right.property] at same
      exact (built.same_iff_shape_eq right.property left.property).mpr same.symm
    · intro left middle right same next
      rw [built.same_iff_shape_eq left.property middle.property] at same
      rw [built.same_iff_shape_eq middle.property right.property] at next
      exact (built.same_iff_shape_eq left.property right.property).mpr (same.trans next)

end Built

/-- Two equal leaves, under a block of both and a block of the first one twice. -/
def twinBlocks : Forest :=
  let token := Attributes.of .token ⟨0, 1, 1, 0, 1, 1⟩ (some "x") none ""
  let block := Attributes.of .block ⟨0, 1, 1, 0, 1, 1⟩ none none ""
  let leaf := empty.add token []
  let copy := leaf.2.add token []
  let both := copy.2.add block [leaf.1, copy.1]
  let twice := both.2.add block [leaf.1, leaf.1]
  twice.2

theorem same_is_structural_equality_twinBlocks :
    twinBlocks.Built ∧ ∃ leaf copy both twice : Vertex,
      twinBlocks.nodes = #[leaf, copy, both, twice] ∧
      twinBlocks.parent? leaf = some twice ∧ twinBlocks.parent? copy = some both ∧
      both.same twice ∧ twice.same both ∧ both.hashKey = twice.hashKey ∧
      both.same leaf = false := by
  have built : twinBlocks.Built := by
    refine .add (.add (.add (.add .empty _ [] ?_) _ [] ?_) _ _ ?_) _ _ ?_
    · simp
    · simp
    · decide +kernel
    · decide +kernel
  obtain ⟨equality, equivalence⟩ := built.same_is_structural_equality
  refine ⟨built, _, _, _, _, rfl, by decide +kernel, by decide +kernel, ?_, ?_, ?_,
    by decide +kernel⟩
  · decide +kernel
  · exact equivalence.symm (x := ⟨_, by decide +kernel⟩) (y := ⟨_, by decide +kernel⟩)
      (by decide +kernel)
  · exact (equality _ (by decide +kernel) _ (by decide +kernel)).2.1 (by decide +kernel)

end Forest

end CodeMetrics
