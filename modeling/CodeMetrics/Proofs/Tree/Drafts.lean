import CodeMetrics.Proofs.Metrics.Agreement
import CodeMetrics.Proofs.Tree.DocumentOrder
import CodeMetrics.Proofs.Tree.Positions

/-!
# Trees laid out in document order

A draft says which calls lay out a tree when they are nested: the parts of a node from left to right,
then the node over them, with line ends anywhere between. The cursor never moves back, so what is laid
out later lies further on, and the spans of the tree nest. If no leaf is empty and no node is without
parts, a node differs from every other one in its place or in the number of nodes under it.
-/

namespace CodeMetrics

/-- A node to be laid out: a leaf, or a node over parts. The call that creates it comes after its
parts and after a number of line ends. -/
inductive Draft where
  | leaf (lineEnds : Nat) (kind : Kind) (text : String) (field : Option String)
      (grammarType : String)
  | inner (parts : List Draft) (lineEnds : Nat) (kind : Kind) (field : Option String)
      (grammarType : String)

namespace Layout

/-- End the line a number of times. -/
def endLines (layout : Layout) : Nat → Layout
  | 0 => layout
  | lineEnds + 1 => (layout.endLines lineEnds).newline

@[simp] theorem forest_endLines (layout : Layout) (lineEnds : Nat) :
    (layout.endLines lineEnds).forest = layout.forest := by
  induction lineEnds with
  | zero => rfl
  | succ lineEnds induction => exact induction

theorem byte_le_endLines (layout : Layout) (lineEnds : Nat) :
    layout.byte ≤ (layout.endLines lineEnds).byte := by
  induction lineEnds with
  | zero => exact Nat.le_refl _
  | succ lineEnds induction => exact Nat.le_trans induction (Nat.le_add_right _ _)

theorem byte_le_separate (layout : Layout) : layout.byte ≤ layout.separate.byte := by
  rw [separate]
  split
  · exact Nat.le_add_right _ _
  · exact Nat.le_refl _

end Layout

namespace Draft

mutual

/-- Lay out a draft behind what is laid out already. -/
def lay : Draft → Layout → Vertex × Layout
  | .leaf lineEnds kind text field grammarType, layout =>
      (layout.endLines lineEnds).leaf kind text field grammarType
  | .inner parts lineEnds kind field grammarType, layout =>
      let laid := layAll parts layout
      (laid.2.endLines lineEnds).inner kind laid.1 field grammarType

/-- Lay out drafts from left to right. -/
def layAll : List Draft → Layout → List Vertex × Layout
  | [], layout => ([], layout)
  | draft :: drafts, layout =>
      let first := draft.lay layout
      let rest := layAll drafts first.2
      (first.1 :: rest.1, rest.2)

end

mutual

/-- No leaf is empty, and no other node is without parts. -/
def full : Draft → Bool
  | .leaf _ _ text _ _ => text ≠ ""
  | .inner parts _ _ _ _ => !parts.isEmpty && fullAll parts

/-- Every draft of a list is full. -/
def fullAll : List Draft → Bool
  | [] => true
  | draft :: drafts => draft.full && fullAll drafts

end

/-! ## The forest -/

mutual

/-- Laying out a draft creates the nodes that planting its tree would create. -/
theorem plant_lay : (draft : Draft) → (layout : Layout) →
    layout.forest.plant (draft.lay layout).1 =
      ((draft.lay layout).1, (draft.lay layout).2.forest)
  | .leaf lineEnds kind text field grammarType, layout => by
      have same : ((layout.endLines lineEnds).separate.emit text).forest = layout.forest :=
        (Layout.forest_separate _).trans (layout.forest_endLines lineEnds)
      rw [lay, Layout.leaf, Layout.place, same]
      rfl
  | .inner parts lineEnds kind field grammarType, layout => by
      rw [lay, Layout.inner, Layout.place, Layout.forest_endLines, Forest.add, Forest.plant_mk,
        plantAll_layAll parts layout]
      rfl

theorem plantAll_layAll : (drafts : List Draft) → (layout : Layout) →
    layout.forest.plantAll (layAll drafts layout).1 =
      ((layAll drafts layout).1, (layAll drafts layout).2.forest)
  | [], layout => rfl
  | draft :: drafts, layout => by
      rw [layAll, Forest.plantAll_cons, plant_lay draft layout, plantAll_layAll drafts _]

end

end Draft

/-! ## Nested spans -/

namespace Node

/-- The first span ends before the second starts. -/
def EndsBefore (first second : Vertex) : Prop := first.span.endByte ≤ second.span.startByte

/-- The first span is around the second. -/
def Encloses (outer inner : Vertex) : Prop :=
  outer.span.startByte ≤ inner.span.startByte ∧ inner.span.endByte ≤ outer.span.endByte

/-- The span of a node goes forward, and is around those of its children, which follow each other. -/
structure Fits (node : Vertex) : Prop where
  forward : node.span.startByte ≤ node.span.endByte
  around : ∀ child ∈ node.children, node.Encloses child
  ordered : node.children.Pairwise EndsBefore

/-- In a tree whose nodes fit, the root is around every node. -/
theorem encloses_of_fits {tree : Vertex} (fits : ∀ node ∈ tree.preorder, node.Fits) {inner : Vertex}
    (member : inner ∈ tree.preorder) : tree.Encloses inner := by
  refine preorder_induction (motive := fun inner => tree.Encloses inner) tree ?_
    ⟨Int.le_refl _, Int.le_refl _⟩ inner member
  intro holder below ⟨start, finish⟩ child held
  obtain ⟨innerStart, innerFinish⟩ := (fits holder below).around child held
  exact ⟨Int.le_trans start innerStart, Int.le_trans innerFinish finish⟩

mutual

/-- In pre-order a later node is inside an earlier one or starts behind its end. -/
theorem pairwise_preorder : (tree : Vertex) → (∀ node ∈ tree.preorder, node.Fits) →
    tree.preorder.Pairwise fun first second => second ∈ first.preorder ∨ first.EndsBefore second
  | .mk mark attributes children, fits => by
      have ordered := (fits _ (self_mem_preorder _)).ordered
      rw [preorder, List.pairwise_cons]
      constructor
      · intro inner below
        exact .inl (mem_preorder.mpr (.inr below))
      · refine pairwise_preorderAll children (fun node below => ?_) ordered
        exact fits node (mem_preorder.mpr (.inr below))

theorem pairwise_preorderAll : (trees : List Vertex) → (∀ node ∈ preorderAll trees, node.Fits) →
    trees.Pairwise EndsBefore →
    (preorderAll trees).Pairwise
      fun first second => second ∈ first.preorder ∨ first.EndsBefore second
  | [], _, _ => .nil
  | tree :: trees, fits, ordered => by
      rw [preorderAll, List.forall_mem_append] at fits
      rw [List.pairwise_cons] at ordered
      rw [preorderAll, List.pairwise_append]
      refine ⟨pairwise_preorder tree fits.1, pairwise_preorderAll trees fits.2 ordered.2, ?_⟩
      intro first inTree second later
      obtain ⟨other, isLater, inOther⟩ := mem_preorderAll.mp later
      have behind := ordered.1 other isLater
      have ends := (encloses_of_fits fits.1 inTree).2
      have starts := (encloses_of_fits (fun node below => fits.2 node
        (mem_preorderAll.mpr ⟨other, isLater, below⟩)) inOther).1
      exact .inr (Int.le_trans ends (Int.le_trans behind starts))

end

end Node

/-- The nodes lie one after the other between two places, and all nodes under them fit. -/
structure Node.LieBetween (low high : Int) (nodes : List Vertex) : Prop where
  forward : low ≤ high
  within : ∀ node ∈ nodes, low ≤ node.span.startByte ∧ node.span.endByte ≤ high
  ordered : nodes.Pairwise Node.EndsBefore
  fits : ∀ node ∈ Node.preorderAll nodes, node.Fits

namespace Node.LieBetween

variable {low middle high : Int} {nodes : List Vertex}

theorem fits_of_mem (lie : LieBetween low high nodes) {node : Vertex} (member : node ∈ nodes) :
    node.Fits :=
  lie.fits node (mem_preorderAll.mpr ⟨node, member, self_mem_preorder node⟩)

theorem nil (forward : low ≤ high) : LieBetween low high [] where
  forward := forward
  within := by simp
  ordered := .nil
  fits := by simp [preorderAll]

theorem cons {node : Vertex} (first : LieBetween low middle [node])
    (rest : LieBetween middle high nodes) : LieBetween low high (node :: nodes) where
  forward := Int.le_trans first.forward rest.forward
  within other member := by
    rcases List.mem_cons.mp member with rfl | later
    · obtain ⟨starts, ends⟩ := first.within other List.mem_cons_self
      exact ⟨starts, Int.le_trans ends rest.forward⟩
    · obtain ⟨starts, ends⟩ := rest.within other later
      exact ⟨Int.le_trans first.forward starts, ends⟩
  ordered := by
    refine List.pairwise_cons.mpr ⟨fun other later => ?_, rest.ordered⟩
    exact Int.le_trans (first.within node List.mem_cons_self).2 (rest.within other later).1
  fits other member := by
    rw [preorderAll, List.mem_append] at member
    rcases member with here | later
    · exact first.fits other (by simpa [preorderAll] using here)
    · exact rest.fits other later

/-- The span from the first node to the last is around all of them. -/
theorem join_encloses (lie : LieBetween low high nodes) {first last child : Vertex}
    (isFirst : nodes.head? = some first) (isLast : nodes.getLast? = some last)
    (member : child ∈ nodes) :
    first.span.startByte ≤ child.span.startByte ∧ child.span.endByte ≤ last.span.endByte := by
  obtain ⟨rest, rfl⟩ := List.head?_eq_some_iff.mp isFirst
  obtain ⟨front, split⟩ := List.getLast?_eq_some_iff.mp isLast
  constructor
  · rcases List.mem_cons.mp member with rfl | later
    · exact Int.le_refl _
    · have behind := (List.pairwise_cons.mp lie.ordered).1 child later
      exact Int.le_trans (lie.fits_of_mem List.mem_cons_self).forward behind
  · have ordered := lie.ordered
    rw [split, List.pairwise_append] at ordered
    rw [split, List.mem_append, List.mem_singleton] at member
    rcases member with earlier | rfl
    · have behind := ordered.2.2 child earlier last List.mem_cons_self
      exact Int.le_trans behind (lie.fits_of_mem (List.mem_of_getLast? isLast)).forward
    · exact Int.le_refl _

/-- A node whose span goes from the first to the last of its children lies where they lie. -/
theorem parent (lie : LieBetween low high nodes) {node first last : Vertex}
    (children : node.children = nodes) (isFirst : nodes.head? = some first)
    (isLast : nodes.getLast? = some last) (span : node.span = first.span.join last.span) :
    LieBetween low high [node] := by
  have firstMember := List.mem_of_mem_head? isFirst
  have lastMember := List.mem_of_getLast? isLast
  have startByte : node.span.startByte = first.span.startByte := by rw [span, Span.join]
  have endByte : node.span.endByte = last.span.endByte := by rw [span, Span.join]
  have fits : node.Fits := by
    refine ⟨?_, ?_, children ▸ lie.ordered⟩
    · rw [startByte, endByte]
      exact Int.le_trans (lie.fits_of_mem firstMember).forward
        (lie.join_encloses isFirst isLast firstMember).2
    · intro child held
      rw [Encloses, startByte, endByte]
      exact lie.join_encloses isFirst isLast (children ▸ held)
  constructor
  case forward => exact lie.forward
  case within =>
    intro other member
    obtain rfl := List.mem_singleton.mp member
    rw [startByte, endByte]
    exact ⟨(lie.within first firstMember).1, (lie.within last lastMember).2⟩
  case ordered => exact List.pairwise_singleton _ _
  case fits =>
    intro other member
    rw [preorderAll, preorderAll, List.append_nil, preorder_eq, children] at member
    rcases List.mem_cons.mp member with rfl | below
    · exact fits
    · exact lie.fits other below

/-- A node without children lies where its span is. -/
theorem alone {node : Vertex} (childless : node.children = [])
    (starts : low ≤ node.span.startByte) (forward : node.span.startByte ≤ node.span.endByte)
    (ends : node.span.endByte ≤ high) : LieBetween low high [node] where
  forward := Int.le_trans starts (Int.le_trans forward ends)
  within := by simpa using ⟨starts, ends⟩
  ordered := List.pairwise_singleton _ _
  fits := by
    have fits : node.Fits := ⟨forward, by simp [childless], by simp [childless]⟩
    simpa [preorderAll, preorder_eq, childless] using fits

theorem mono (lie : LieBetween low middle nodes) (further : middle ≤ high) :
    LieBetween low high nodes where
  forward := Int.le_trans lie.forward further
  within node member := by
    obtain ⟨starts, ends⟩ := lie.within node member
    exact ⟨starts, Int.le_trans ends further⟩
  ordered := lie.ordered
  fits := lie.fits

end Node.LieBetween

/-- A node put over nodes before the cursor lies where they lie, or at the cursor. -/
theorem Layout.lieBetween_inner {layout : Layout} {low : Int} {children : List Vertex}
    (lie : Node.LieBetween low layout.byte children) (kind : Kind) (field : Option String)
    (grammarType : String) :
    Node.LieBetween low layout.byte [(layout.inner kind children field grammarType).1] := by
  cases children with
  | nil => exact .alone rfl lie.forward (Int.le_refl _) (Int.le_refl _)
  | cons first rest =>
      have isLast := List.getLast?_eq_some_getLast (List.cons_ne_nil first rest)
      refine lie.parent rfl rfl isLast ?_
      show layout.spanOf (first :: rest) = _
      rw [spanOf, isLast]
      rfl

namespace Draft

mutual

/-- What a draft lays out lies between the cursor before and the cursor behind. -/
theorem lieBetween_lay : (draft : Draft) → (layout : Layout) →
    Node.LieBetween layout.byte (draft.lay layout).2.byte [(draft.lay layout).1]
  | .leaf lineEnds kind text field grammarType, layout => by
      have lines := layout.byte_le_endLines lineEnds
      have space := (layout.endLines lineEnds).byte_le_separate
      refine .alone rfl ?_ ?_ (Int.le_refl _)
      · exact Int.ofNat_le.mpr (Nat.le_trans lines space)
      · exact Int.ofNat_le.mpr (Nat.le_add_right _ _)
  | .inner parts lineEnds kind field grammarType, layout => by
      have lines := (layAll parts layout).2.byte_le_endLines lineEnds
      have lie := (lieBetween_layAll parts layout).mono (Int.ofNat_le.mpr lines)
      exact Layout.lieBetween_inner lie kind field grammarType

theorem lieBetween_layAll : (drafts : List Draft) → (layout : Layout) →
    Node.LieBetween layout.byte (layAll drafts layout).2.byte (layAll drafts layout).1
  | [], _ => .nil (Int.le_refl _)
  | draft :: drafts, layout =>
      (lieBetween_lay draft layout).cons (lieBetween_layAll drafts (draft.lay layout).2)

end

theorem fits_lay (draft : Draft) (layout : Layout) :
    ∀ node ∈ (draft.lay layout).1.preorder, node.Fits := by
  simpa [Node.preorderAll] using (draft.lieBetween_lay layout).fits

mutual

/-- The leaves of a full draft have spans that are not empty. -/
theorem leaf_lt_of_full : (draft : Draft) → (layout : Layout) → draft.full →
    ∀ node ∈ (draft.lay layout).1.preorder, node.isLeaf →
      node.span.startByte < node.span.endByte
  | .leaf lineEnds kind text field grammarType, _, isFull, node, member, _ => by
      have written : 0 < text.utf8ByteSize := by
        rw [full, decide_eq_true_eq] at isFull
        exact Nat.pos_of_ne_zero (mt String.utf8ByteSize_eq_zero_iff.mp isFull)
      rw [Node.preorder_of_isLeaf rfl, List.mem_singleton] at member
      subst member
      exact Int.ofNat_lt.mpr (Nat.lt_add_of_pos_right written)
  | .inner parts lineEnds kind field grammarType, layout, isFull, node, member, isLeaf => by
      rw [full, Bool.and_eq_true] at isFull
      rcases Node.mem_preorder.mp member with rfl | below
      · cases parts with
        | nil => simp at isFull
        | cons => simp [lay, layAll, Layout.inner, Layout.place, Forest.add, Node.isLeaf] at isLeaf
      · exact leaf_lt_of_fullAll parts layout isFull.2 node below isLeaf

theorem leaf_lt_of_fullAll : (drafts : List Draft) → (layout : Layout) → fullAll drafts →
    ∀ node ∈ Node.preorderAll (layAll drafts layout).1, node.isLeaf →
      node.span.startByte < node.span.endByte
  | [], _, _, _, member, _ => by simp [layAll, Node.preorderAll] at member
  | draft :: drafts, layout, isFull, node, member, isLeaf => by
      rw [fullAll, Bool.and_eq_true] at isFull
      rw [layAll, Node.preorderAll, List.mem_append] at member
      rcases member with here | later
      · exact leaf_lt_of_full draft layout isFull.1 node here isLeaf
      · exact leaf_lt_of_fullAll drafts _ isFull.2 node later isLeaf

end

/-- No node of a full draft has an empty span, for each is around its first leaf. -/
theorem lt_of_full {draft : Draft} {layout : Layout} (isFull : draft.full) {node : Vertex}
    (member : node ∈ (draft.lay layout).1.preorder) : node.span.startByte < node.span.endByte := by
  have first := node.find?_isLeaf_preorder
  have below := List.mem_of_find?_eq_some first
  have nonempty := draft.leaf_lt_of_full layout isFull node.firstToken
    (Node.mem_preorder_trans below _ member) (List.find?_some first)
  obtain ⟨starts, ends⟩ := Node.encloses_of_fits
    (fun inner inside => draft.fits_lay layout inner (Node.mem_preorder_trans inside _ member)) below
  omega

end Draft

/-! ## Different nodes -/

/-- A node has more nodes under it than a descendant, so the two have different shapes. -/
theorem Node.shape_ne_of_descendant {ι : Type} {inner node : Node ι}
    (inside : inner ∈ node.descendants) : inner.shape ≠ node.shape := by
  intro same
  have lengths := congrArg (fun shape : Shape => shape.preorder.length) same
  simp only [preorder_shape, List.length_map] at lengths
  rw [descendants_eq, mem_preorderAll] at inside
  obtain ⟨child, held, below⟩ := inside
  have fewer := (isInfix_preorder below).length_le
  obtain ⟨before, after, split⟩ := List.append_of_mem held
  rw [preorder_eq node, split, preorderAll_append, preorderAll] at lengths
  simp only [List.length_cons, List.length_append] at lengths
  omega

namespace Draft

variable {draft : Draft} {layout : Layout}

/-- Two nodes of a full draft with the same shape are the same node. -/
theorem eq_of_shape (isFull : draft.full) {node other : Vertex}
    (member : node ∈ (draft.lay layout).1.preorder)
    (otherMember : other ∈ (draft.lay layout).1.preorder) (same : node.shape = other.shape) :
    node = other := by
  have span : node.span = other.span := by
    have attributes := congrArg Node.attributes same
    rw [Node.attributes_shape, Node.attributes_shape] at attributes
    rw [Node.span, Node.span, attributes]
  -- neither is inside the other, for then their shapes differ, nor behind it, for they are at one place
  have clash : ∀ {first second : Vertex}, first ∈ (draft.lay layout).1.preorder →
      first.span = second.span → first.shape = second.shape →
      second ∈ first.preorder ∨ first.EndsBefore second → first = second := by
    intro first second firstMember spans shapes related
    rcases related with inside | behind
    · rcases Node.mem_preorder_iff_descendant.mp inside with equal | below
      · exact equal.symm
      · exact absurd shapes.symm (Node.shape_ne_of_descendant below)
    · have nonempty := lt_of_full isFull firstMember
      rw [Node.EndsBefore, ← spans] at behind
      omega
  have ordered := Node.pairwise_preorder _ (draft.fits_lay layout)
  obtain ⟨before, after, split⟩ := List.append_of_mem member
  rw [split, List.pairwise_append, List.pairwise_cons] at ordered
  have listed := otherMember
  rw [split, List.mem_append, List.mem_cons] at listed
  rcases listed with earlier | rfl | later
  · exact (clash otherMember span.symm same.symm
      (ordered.2.2 other earlier node List.mem_cons_self)).symm
  · rfl
  · exact clash member span same (ordered.2.1.1 other later)

/-- A draft that is laid out gives a tree in which each node occurs once. -/
theorem distinct_lay (built : layout.forest.Built) : (draft.lay layout).1.Distinct := by
  have free := Forest.freeTrees_plant (draft.lay layout).1 built
  rw [plant_lay] at free
  exact free.isTree.distinct

/-- The document of a draft that is laid out first. -/
def document (draft : Draft) : Document :=
  (draft.lay .start).2.finish (draft.lay .start).1 none none

/-- A draft that is laid out first is a tree by itself. -/
theorem isTree_document (draft : Draft) :
    draft.document.forest.IsTree draft.document.root ∧
      draft.document.forest.parent? draft.document.root = none := by
  have planted : Forest.empty.plant (draft.lay .start).1 = _ := draft.plant_lay .start
  have tree := Forest.isTree_plant (draft.lay .start).1
  have top := Forest.parent?_plant_root (draft.lay .start).1
  rw [planted] at tree top
  exact ⟨tree, top⟩

/-- Trees laid out in document order, behind anything that is laid out already. Each node occurs once,
its span is around the spans of all nodes inside it, and siblings lie one behind the other. If no leaf
is empty and no other node is without children, no two nodes of the tree compare equal. -/
theorem spans_nest_and_nodes_differ (draft : Draft) (built : layout.forest.Built) :
    (draft.lay layout).1.Distinct ∧
    (∀ node ∈ (draft.lay layout).1.preorder,
      node.span.startByte ≤ node.span.endByte ∧
      (∀ inner ∈ node.preorder, node.span.startByte ≤ inner.span.startByte ∧
        inner.span.endByte ≤ node.span.endByte) ∧
      node.children.Pairwise fun first second => first.span.endByte ≤ second.span.startByte) ∧
    (draft.full → ∀ node ∈ (draft.lay layout).1.preorder,
      ∀ other ∈ (draft.lay layout).1.preorder, node ≠ other → ¬ node.same other) := by
  have fits := draft.fits_lay layout
  refine ⟨distinct_lay built, ?_, ?_⟩
  · intro node member
    refine ⟨(fits node member).forward, fun inner below => ?_, (fits node member).ordered⟩
    exact Node.encloses_of_fits
      (fun inner inside => fits inner (Node.mem_preorder_trans inside _ member)) below
  · intro isFull node member other otherMember different same
    have tree := (Forest.freeTrees_plant (draft.lay layout).1 built).isTree
    rw [plant_lay] at tree
    have known : ∀ pair ∈ [(node, other)], pair.1 ∈ (draft.lay layout).2.forest.nodes ∧
        pair.2 ∈ (draft.lay layout).2.forest.nodes := by
      intro pair listed
      obtain rfl := List.mem_singleton.mp listed
      exact ⟨tree.mem_nodes member, tree.mem_nodes otherMember⟩
    have shapes := tree.built.coherent.shape_eq_of_sameAll _ known same _ (List.mem_singleton_self _)
    exact different (eq_of_shape isFull member otherMember shapes)

/-- A block over nothing but a block, and a token with the same text on a later line. -/
def stackedBlocks : Draft :=
  .inner
    [.inner [.inner [.leaf 1 .token "é" none ""] 1 .block none ""] 0 .block none "",
      .leaf 2 .token "é" none ""]
    0 .compilationUnit none ""

theorem spans_nest_and_nodes_differ_stackedBlocks :
    Layout.start.forest.Built ∧ stackedBlocks.full ∧
      (stackedBlocks.lay .start).2.source = "\né\n\n\né" ∧
      ∃ outer ∈ (stackedBlocks.lay .start).1.preorder, ∃ inner ∈ outer.children,
        outer.attributes = inner.attributes ∧ ¬ outer.same inner ∧
        ∃ token ∈ (stackedBlocks.lay .start).1.children, token.isToken ∧
          outer.span.endByte ≤ token.span.startByte := by
  have built : Layout.start.forest.Built := .empty
  have isFull : stackedBlocks.full := by decide +kernel
  have found : ∃ outer ∈ (stackedBlocks.lay .start).1.preorder, ∃ inner ∈ outer.children,
      outer.attributes = inner.attributes ∧ outer ≠ inner ∧
      inner ∈ (stackedBlocks.lay .start).1.preorder ∧
      ∃ token ∈ (stackedBlocks.lay .start).1.children,
        (stackedBlocks.lay .start).1.children = [outer, token] ∧ token.isToken := by
    decide +kernel
  obtain ⟨outer, member, inner, held, attributes, different, innerMember, token, last, children,
    isToken⟩ := found
  obtain ⟨-, nested, differ⟩ := stackedBlocks.spans_nest_and_nodes_differ built
  obtain ⟨-, -, ordered⟩ := nested (stackedBlocks.lay .start).1 (Node.self_mem_preorder _)
  refine ⟨built, isFull, by decide +kernel, outer, member, inner, held, attributes,
    differ isFull outer member inner innerMember different, token, last, isToken, ?_⟩
  simpa [children] using ordered

end Draft

end CodeMetrics
