import CodeMetrics.Tree.Node
import Mathlib.Data.List.Nodup

/-!
# Nodes and their ancestors

The lineage of a tree lists its nodes in pre-order, each with its proper ancestors inside the tree.
In a tree where each node occurs once, the ancestors of a node are the nodes that it is a descendant
of.
-/

namespace CodeMetrics

namespace Node

variable {ι : Type}

/-! ## Membership in a traversal -/

theorem preorderAll_eq_flatMap (nodes : List (Node ι)) :
    preorderAll nodes = nodes.flatMap preorder := by
  induction nodes with
  | nil => rfl
  | cons node nodes induction => rw [preorderAll, induction, List.flatMap_cons]

theorem mem_preorderAll {node : Node ι} {trees : List (Node ι)} :
    node ∈ preorderAll trees ↔ ∃ tree ∈ trees, node ∈ tree.preorder := by
  rw [preorderAll_eq_flatMap, List.mem_flatMap]

/-- Trees stand among all their nodes, in order. -/
theorem sublist_preorderAll (trees : List (Node ι)) : trees.Sublist (preorderAll trees) := by
  induction trees with
  | nil => exact .slnil
  | cons tree trees induction =>
      rw [preorderAll, preorder_eq]
      exact (induction.trans (List.sublist_append_right _ _)).cons_cons tree

theorem mem_preorder {node tree : Node ι} :
    node ∈ tree.preorder ↔ node = tree ∨ node ∈ preorderAll tree.children := by
  rw [preorder_eq, List.mem_cons]

@[simp] theorem self_mem_preorder (node : Node ι) : node ∈ node.preorder :=
  mem_preorder.mpr (.inl rfl)

theorem descendants_eq (node : Node ι) : node.descendants = preorderAll node.children := by
  rw [descendants, walk_eq_preorder, preorder_eq]
  rfl

theorem mem_preorder_iff_descendant {node tree : Node ι} :
    node ∈ tree.preorder ↔ node = tree ∨ node ∈ tree.descendants := by
  rw [descendants_eq, mem_preorder]

theorem size_lt_of_mem_children {child node : Node ι} (held : child ∈ node.children) :
    child.size < node.size := by
  obtain ⟨before, after, split⟩ := List.append_of_mem held
  rw [size_eq node, split, sizeAll_append, sizeAll]
  omega

theorem child_mem_preorder {child node : Node ι} (member : child ∈ node.children) :
    child ∈ node.preorder :=
  mem_preorder.mpr (.inr (mem_preorderAll.mpr ⟨child, member, self_mem_preorder child⟩))

mutual

/-- What is inside a node of a tree is inside the tree. -/
theorem mem_preorder_trans {inner node : Node ι} (inside : inner ∈ node.preorder) :
    (tree : Node ι) → node ∈ tree.preorder → inner ∈ tree.preorder
  | .mk mark attributes children, member => by
      rcases mem_preorder.mp member with rfl | below
      · exact inside
      · exact mem_preorder.mpr (.inr (mem_preorderAll_trans inside children below))

theorem mem_preorderAll_trans {inner node : Node ι} (inside : inner ∈ node.preorder) :
    (trees : List (Node ι)) → node ∈ preorderAll trees → inner ∈ preorderAll trees
  | [], member => by simp [preorderAll] at member
  | tree :: trees, member => by
      rw [preorderAll, List.mem_append] at member ⊢
      exact member.imp (mem_preorder_trans inside tree) (mem_preorderAll_trans inside trees)

end

theorem descendant_mem_preorderAll {inner node : Node ι} {trees : List (Node ι)}
    (inside : inner ∈ node.descendants) (member : node ∈ preorderAll trees) :
    inner ∈ preorderAll trees :=
  mem_preorderAll_trans (mem_preorder_iff_descendant.mpr (.inr inside)) trees member

mutual

/-- What passes from each node of a tree to its children passes from the root to every node. -/
theorem preorder_induction {motive : Node ι → Prop} : (tree : Node ι) →
    (∀ node ∈ tree.preorder, motive node → ∀ child ∈ node.children, motive child) →
      motive tree → ∀ node ∈ tree.preorder, motive node
  | .mk mark attributes children, down, top, node, member => by
      rcases mem_preorder.mp member with rfl | below
      · exact top
      · have inner : ∀ node ∈ preorderAll children, motive node →
            ∀ child ∈ node.children, motive child :=
          fun node inside => down node (mem_preorder.mpr (.inr inside))
        exact preorderAll_induction children inner (down _ (self_mem_preorder _) top) node below

theorem preorderAll_induction {motive : Node ι → Prop} : (trees : List (Node ι)) →
    (∀ node ∈ preorderAll trees, motive node → ∀ child ∈ node.children, motive child) →
      (∀ tree ∈ trees, motive tree) → ∀ node ∈ preorderAll trees, motive node
  | [], _, _, _, member => by simp [preorderAll] at member
  | tree :: trees, down, tops, node, member => by
      simp only [preorderAll, List.mem_append, List.forall_mem_cons] at down member tops
      rcases member with first | later
      · exact preorder_induction tree (fun node inside => down node (.inl inside)) tops.1 node first
      · exact preorderAll_induction trees (fun node inside => down node (.inr inside)) tops.2 node
          later

end

/-- A node of a tree other than its root is the child of a node of the tree. -/
theorem eq_or_exists_holder {node tree : Node ι} (member : node ∈ tree.preorder) :
    node = tree ∨ ∃ holder ∈ tree.preorder, node ∈ holder.children := by
  refine preorder_induction
    (motive := fun node => node = tree ∨ ∃ holder ∈ tree.preorder, node ∈ holder.children)
    tree ?_ (.inl rfl) node member
  intro holder inside _ child held
  exact .inr ⟨holder, inside, held⟩

theorem exists_holder_of_descendant {node tree : Node ι} (inside : node ∈ tree.descendants) :
    ∃ holder ∈ tree.preorder, node ∈ holder.children := by
  rw [descendants_eq, mem_preorderAll] at inside
  obtain ⟨child, isChild, below⟩ := inside
  rcases eq_or_exists_holder below with rfl | ⟨holder, member, held⟩
  · exact ⟨tree, self_mem_preorder tree, isChild⟩
  · exact ⟨holder, mem_preorder_trans member tree (child_mem_preorder isChild), held⟩

mutual

/-- Forgetting the marks changes nothing in the order of the nodes. -/
theorem preorder_shape : (node : Node ι) → node.shape.preorder = node.preorder.map shape
  | .mk mark attributes children => by
      rw [shape, shapes_eq_map, preorder, preorder, List.map_cons, shape, shapes_eq_map,
        preorderAll_shape children]

theorem preorderAll_shape : (nodes : List (Node ι)) →
    preorderAll (nodes.map shape) = (preorderAll nodes).map shape
  | [] => rfl
  | node :: nodes => by
      rw [List.map_cons, preorderAll, preorderAll, List.map_append, preorder_shape node,
        preorderAll_shape nodes]

end

/-! ## Lineages -/

mutual

/-- The nodes of a tree in pre-order, each with its ancestors, nearest first, where `above` are the
ancestors of the root. -/
def lineage (above : List (Node ι)) : Node ι → List (Node ι × List (Node ι))
  | node@(.mk _ _ children) => (node, above) :: lineageAll (node :: above) children

/-- The lineages of trees with the same ancestors, one after the other. -/
def lineageAll (above : List (Node ι)) : List (Node ι) → List (Node ι × List (Node ι))
  | [] => []
  | node :: nodes => lineage above node ++ lineageAll above nodes

end

theorem lineage_eq (above : List (Node ι)) (node : Node ι) :
    node.lineage above = (node, above) :: lineageAll (node :: above) node.children := by
  cases node
  simp [lineage]

mutual

@[simp] theorem map_fst_lineage (above : List (Node ι)) :
    (node : Node ι) → (node.lineage above).map Prod.fst = node.preorder
  | .mk mark attributes children => by
      rw [lineage, preorder, List.map_cons, map_fst_lineageAll]

@[simp] theorem map_fst_lineageAll (above : List (Node ι)) :
    (nodes : List (Node ι)) → (lineageAll above nodes).map Prod.fst = preorderAll nodes
  | [] => rfl
  | node :: nodes => by
      rw [lineageAll, preorderAll, List.map_append, map_fst_lineage, map_fst_lineageAll]

end

theorem mem_preorder_of_lineage {above path : List (Node ι)} {node tree : Node ι}
    (entry : (node, path) ∈ tree.lineage above) : node ∈ tree.preorder := by
  rw [← map_fst_lineage above]
  exact List.mem_map_of_mem entry

theorem exists_lineage {node tree : Node ι} (above : List (Node ι))
    (member : node ∈ tree.preorder) : ∃ path, (node, path) ∈ tree.lineage above := by
  rw [← map_fst_lineage above, List.mem_map] at member
  obtain ⟨⟨_, path⟩, entry, rfl⟩ := member
  exact ⟨path, entry⟩

theorem lineage_mem_lineageAll {above : List (Node ι)} {entry : Node ι × List (Node ι)}
    {tree : Node ι} {trees : List (Node ι)} (member : tree ∈ trees)
    (inside : entry ∈ tree.lineage above) : entry ∈ lineageAll above trees := by
  induction trees with
  | nil => simp at member
  | cons first rest induction =>
      rw [lineageAll, List.mem_append]
      rcases List.mem_cons.mp member with rfl | later
      · exact .inl inside
      · exact .inr (induction later)

mutual

/-- A child is listed with its parent in front of the ancestors of the parent. -/
theorem child_mem_lineage {above path : List (Node ι)} {node child : Node ι}
    (isChild : child ∈ node.children) :
    (tree : Node ι) → (node, path) ∈ tree.lineage above →
      (child, node :: path) ∈ tree.lineage above
  | .mk mark attributes children, entry => by
      rw [lineage, List.mem_cons] at entry ⊢
      rcases entry with head | below
      · obtain ⟨rfl, rfl⟩ := Prod.mk.inj head
        refine .inr (lineage_mem_lineageAll isChild ?_)
        rw [lineage_eq]
        exact List.mem_cons_self
      · exact .inr (child_mem_lineageAll isChild children below)

theorem child_mem_lineageAll {above path : List (Node ι)} {node child : Node ι}
    (isChild : child ∈ node.children) :
    (trees : List (Node ι)) → (node, path) ∈ lineageAll above trees →
      (child, node :: path) ∈ lineageAll above trees
  | [], entry => by simp [lineageAll] at entry
  | tree :: trees, entry => by
      rw [lineageAll, List.mem_append] at entry ⊢
      exact entry.imp (child_mem_lineage isChild tree) (child_mem_lineageAll isChild trees)

end

/-! ## Order -/

/-- Every ancestor that an entry lists either stands before the entry or is in `above`. -/
def Grounded (above : List (Node ι)) (entries : List (Node ι × List (Node ι))) : Prop :=
  ∀ before entry after, entries = before ++ entry :: after →
    ∀ ancestor ∈ entry.2, ancestor ∈ before.map Prod.fst ∨ ancestor ∈ above

theorem Grounded.cons {above : List (Node ι)} {node : Node ι}
    {entries : List (Node ι × List (Node ι))} (grounded : Grounded (node :: above) entries) :
    Grounded above ((node, above) :: entries) := by
  intro before entry after split ancestor listed
  cases before with
  | nil =>
      obtain ⟨rfl, -⟩ := List.cons.inj split
      exact .inr listed
  | cons first before =>
      obtain ⟨rfl, rest⟩ := List.cons.inj split
      rcases grounded before entry after rest ancestor listed with earlier | outer
      · exact .inl (List.mem_cons_of_mem node earlier)
      · rcases List.mem_cons.mp outer with rfl | outer
        · exact .inl List.mem_cons_self
        · exact .inr outer

theorem Grounded.append {above : List (Node ι)} {left right : List (Node ι × List (Node ι))}
    (leftGrounded : Grounded above left) (rightGrounded : Grounded above right) :
    Grounded above (left ++ right) := by
  intro before entry after split ancestor listed
  rcases List.append_eq_append_iff.mp split with ⟨middle, rfl, rest⟩ | ⟨middle, rfl, rest⟩
  · rcases rightGrounded middle entry after rest ancestor listed with earlier | outer
    · rw [List.map_append]
      exact .inl (List.mem_append_right _ earlier)
    · exact .inr outer
  · cases middle with
    | nil =>
        rcases rightGrounded [] entry after rest.symm ancestor listed with earlier | outer
        · simp at earlier
        · exact .inr outer
    | cons first middle =>
        obtain ⟨rfl, -⟩ := List.cons.inj rest
        exact leftGrounded before entry middle rfl ancestor listed

mutual

theorem grounded_lineage (above : List (Node ι)) :
    (node : Node ι) → Grounded above (node.lineage above)
  | .mk mark attributes children => by
      rw [lineage]
      exact (grounded_lineageAll _ children).cons

theorem grounded_lineageAll (above : List (Node ι)) :
    (nodes : List (Node ι)) → Grounded above (lineageAll above nodes)
  | [] => by simp [Grounded, lineageAll]
  | node :: nodes => by
      rw [lineageAll]
      exact (grounded_lineage above node).append (grounded_lineageAll above nodes)

end

/-! ## Trees in which each node occurs once -/

/-- Each node of the tree occurs once. -/
def Distinct (root : Vertex) : Prop := (root.preorder.map mark).Nodup

instance (root : Vertex) : Decidable root.Distinct := inferInstanceAs (Decidable (List.Nodup _))

/-- The proper ancestors of a node inside a tree, outermost first. -/
def ancestorsIn (root node : Vertex) : List Vertex :=
  root.preorder.filter fun ancestor => node ∈ ancestor.descendants

theorem filter_descendant_eq_nil {node : Vertex} {trees : List Vertex}
    (outside : node ∉ preorderAll trees) :
    (preorderAll trees).filter (fun ancestor => node ∈ ancestor.descendants) = [] := by
  rw [List.filter_eq_nil_iff]
  intro ancestor member inside
  exact outside (descendant_mem_preorderAll (of_decide_eq_true inside) member)

mutual

theorem path_eq_ancestorsIn {above path : List Vertex} {node : Vertex} :
    (root : Vertex) → root.Distinct → (node, path) ∈ root.lineage above →
      path = (root.ancestorsIn node).reverse ++ above
  | .mk mark attributes children, distinct, entry => by
      rw [Distinct, preorder, List.map_cons, List.nodup_cons] at distinct
      rw [lineage, List.mem_cons] at entry
      rw [ancestorsIn, preorder, List.filter_cons, descendants_eq, children_mk]
      rcases entry with head | below
      · obtain ⟨rfl, rfl⟩ := Prod.mk.inj head
        have outside : mk mark attributes children ∉ preorderAll children := fun member =>
          distinct.1 (List.mem_map_of_mem (f := Node.mark) member)
        simp [outside, filter_descendant_eq_nil outside]
      · have inside : node ∈ preorderAll children := by
          rw [← map_fst_lineageAll]
          exact List.mem_map_of_mem below
        rw [path_eq_ancestorsInAll children distinct.2 below]
        simp [inside]

theorem path_eq_ancestorsInAll {above path : List Vertex} {node : Vertex} :
    (trees : List Vertex) → ((preorderAll trees).map mark).Nodup →
      (node, path) ∈ lineageAll above trees →
      path = ((preorderAll trees).filter fun ancestor => node ∈ ancestor.descendants).reverse ++
        above
  | [], _, entry => by simp [lineageAll] at entry
  | tree :: trees, distinct, entry => by
      rw [preorderAll, List.map_append, List.nodup_append] at distinct
      obtain ⟨first, rest, apart⟩ := distinct
      rw [lineageAll, List.mem_append] at entry
      rw [preorderAll, List.filter_append]
      rcases entry with inFirst | inRest
      · have outside : node ∉ preorderAll trees := fun member =>
          apart _ (List.mem_map_of_mem (mem_preorder_of_lineage inFirst)) _
            (List.mem_map_of_mem member) rfl
        rw [filter_descendant_eq_nil outside, List.append_nil]
        exact path_eq_ancestorsIn tree first inFirst
      · have outside : node ∉ preorderAll [tree] := fun member =>
          apart _ (List.mem_map_of_mem (by simpa [preorderAll] using member)) _
            (List.mem_map_of_mem (by
              rw [← map_fst_lineageAll above]
              exact List.mem_map_of_mem inRest)) rfl
        have empty := filter_descendant_eq_nil outside
        simp only [preorderAll, List.append_nil] at empty
        rw [empty, List.nil_append]
        exact path_eq_ancestorsInAll trees rest inRest

end

theorem child_mem_descendants {ι : Type} {child node outer : Node ι} (held : child ∈ node.children)
    (below : node ∈ outer.preorder) : child ∈ outer.descendants := by
  have inside : child ∈ node.descendants := by
    rw [descendants_eq]
    exact mem_preorderAll.mpr ⟨child, held, self_mem_preorder child⟩
  rcases mem_preorder_iff_descendant.mp below with rfl | deeper
  · exact inside
  · rw [descendants_eq] at deeper ⊢
    exact descendant_mem_preorderAll inside deeper

/-- The way to a descendant of a node leads through that node. -/
theorem exists_between {start first : Vertex} {above : List Vertex}
    (entry : (first, above) ∈ start.lineage []) {inner : Vertex}
    (inside : inner ∈ first.descendants) :
    ∃ between, (inner, between ++ first :: above) ∈ start.lineage [] ∧
      ∀ node ∈ between, node ∈ first.descendants ∧ inner ∈ node.descendants := by
  have way : ∀ holder ∈ first.preorder, ∀ child ∈ holder.children,
      ∃ between, (child, between ++ first :: above) ∈ start.lineage [] ∧
        ∀ node ∈ between, node ∈ first.descendants ∧ child ∈ node.descendants := by
    refine preorder_induction first ?_ ?_
    · intro holder below reached child held inner isChild
      obtain ⟨between, entry, passed⟩ := reached child held
      refine ⟨child :: between, child_mem_lineage isChild start entry, ?_⟩
      rw [List.forall_mem_cons]
      constructor
      · exact ⟨child_mem_descendants held below,
          child_mem_descendants isChild (self_mem_preorder child)⟩
      · intro node listed
        obtain ⟨isInside, deeper⟩ := passed node listed
        exact ⟨isInside,
          child_mem_descendants isChild (mem_preorder_iff_descendant.mpr (.inr deeper))⟩
    · intro child held
      exact ⟨[], child_mem_lineage held start entry, by simp⟩
  obtain ⟨holder, below, held⟩ := exists_holder_of_descendant inside
  exact way holder below inner held

theorem lineage_path_unique {start node : Vertex} {path other : List Vertex}
    (distinct : start.Distinct) (entry : (node, path) ∈ start.lineage [])
    (otherEntry : (node, other) ∈ start.lineage []) : path = other := by
  rw [path_eq_ancestorsIn start distinct entry, path_eq_ancestorsIn start distinct otherEntry]

/-- A node of a kind in a slot, without text and at no particular place. -/
def sketch (kind : Kind) (field : Option String) (children : List Shape) : Shape :=
  .mk () (.of kind ⟨0, 0, 1, 0, 1, 0⟩ none field "") children

end Node

end CodeMetrics
