import CodeMetrics.Proofs.Tree.Lineage
import CodeMetrics.Tree.Forest

/-!
# Forests made node by node

A forest is made by creating nodes over nodes that it holds already. In such a forest each node is
found under its number, a node is younger than its children, and a node with a parent is among the
children of that parent. So the search for a node among its siblings never fails.
-/

namespace CodeMetrics

namespace Forest

/-! ## Adoption -/

@[simp] theorem adopt_nil (parent : Nat) (parents : Array (Option Nat)) :
    adopt parent [] parents = parents := rfl

@[simp] theorem adopt_cons (parent : Nat) (child : Vertex) (children : List Vertex)
    (parents : Array (Option Nat)) :
    adopt parent (child :: children) parents =
      adopt parent children (parents.setIfInBounds child.mark (some parent)) := rfl

@[simp] theorem size_adopt (parent : Nat) (children : List Vertex) (parents : Array (Option Nat)) :
    (adopt parent children parents).size = parents.size := by
  induction children generalizing parents with
  | nil => rfl
  | cons child children induction => rw [adopt_cons, induction, Array.size_setIfInBounds]

/-- The adopted nodes get the new parent, and the others keep theirs. -/
theorem getElem?_adopt (parent : Nat) (children : List Vertex) {parents : Array (Option Nat)}
    {number : Nat} (known : number < parents.size) :
    (adopt parent children parents)[number]? =
      if number ∈ children.map Node.mark then some (some parent) else parents[number]? := by
  induction children generalizing parents with
  | nil => simp
  | cons child children induction =>
      rw [adopt_cons, induction (by simpa using known), Array.getElem?_setIfInBounds]
      by_cases later : number ∈ children.map Node.mark
      · simp [later]
      · by_cases first : child.mark = number
        · simp [first, known]
        · simp [later, first, Ne.symm first]

/-- The parents once a node has been created over the given children. -/
theorem parents_add {forest : Forest} (balanced : forest.parents.size = forest.nodes.size)
    (attributes : Attributes) (children : List Vertex) {number : Nat}
    (known : number ≤ forest.nodes.size) :
    (forest.add attributes children).2.parents[number]? =
      if number ∈ children.map Node.mark then some (some forest.nodes.size)
      else if number = forest.nodes.size then some none
      else forest.parents[number]? := by
  have bound : number < (forest.parents.push none).size := by
    rw [Array.size_push, balanced]
    omega
  rw [add, getElem?_adopt _ _ bound, Array.getElem?_push, balanced]

/-! ## What creating nodes keeps up -/

/-- The forest is made by creating nodes over nodes that it holds already. A node may be given to
several parents, or several times to one. -/
inductive Built : Forest → Prop where
  | empty : Built .empty
  | add {forest : Forest} (built : Built forest) (attributes : Attributes)
      (children : List Vertex) (known : ∀ child ∈ children, child ∈ forest.nodes) :
      Built (forest.add attributes children).2

theorem mem_nodes_add {forest : Forest} {attributes : Attributes} {children : List Vertex}
    {node : Vertex} :
    node ∈ (forest.add attributes children).2.nodes ↔
      node ∈ forest.nodes ∨ node = (forest.add attributes children).1 := by
  rw [add, Array.mem_push]

/-- The nodes, their numbers and their parents fit together. -/
structure Coherent (forest : Forest) : Prop where
  balanced : forest.parents.size = forest.nodes.size
  /-- Each node stands under its number. -/
  numbered : ∀ (number : Nat) (node : Vertex), forest.nodes[number]? = some node → node.mark = number
  /-- The children of a node are older than the node. -/
  known : ∀ node ∈ forest.nodes, ∀ child ∈ node.children, child ∈ forest.nodes
  older : ∀ node ∈ forest.nodes, ∀ child ∈ node.children, child.mark < node.mark
  /-- The parent of a node holds it. -/
  held : ∀ number parent, forest.parents[number]? = some (some parent) →
    ∃ holder : Vertex, forest.nodes[parent]? = some holder ∧
      number ∈ holder.children.map Node.mark
  /-- A node that is held has a parent, and the youngest node that holds it is that parent. -/
  latest : ∀ holder ∈ forest.nodes, ∀ child ∈ holder.children,
    ∃ parent, forest.parents[child.mark]? = some (some parent) ∧ holder.mark ≤ parent

theorem coherent_empty : Coherent .empty where
  balanced := rfl
  numbered := by simp [empty]
  known := by simp [empty]
  older := by simp [empty]
  held := by simp [empty]
  latest := by simp [empty]

namespace Coherent

variable {forest : Forest}

theorem found (coherent : Coherent forest) (node : Vertex) (member : node ∈ forest.nodes) :
    forest.nodes[node.mark]? = some node := by
  obtain ⟨number, entry⟩ := Array.mem_iff_getElem?.mp member
  rwa [coherent.numbered number node entry]

theorem mark_lt (coherent : Coherent forest) {node : Vertex} (member : node ∈ forest.nodes) :
    node.mark < forest.nodes.size :=
  (Array.getElem?_eq_some_iff.mp (coherent.found node member)).1

theorem eq_of_mark (coherent : Coherent forest) {first second : Vertex}
    (firstMember : first ∈ forest.nodes) (secondMember : second ∈ forest.nodes)
    (same : first.mark = second.mark) : first = second := by
  have foundFirst := coherent.found first firstMember
  rw [same, coherent.found second secondMember] at foundFirst
  exact (Option.some.inj foundFirst).symm

theorem add (coherent : Coherent forest) (attributes : Attributes) {children : List Vertex}
    (known : ∀ child ∈ children, child ∈ forest.nodes) :
    Coherent (forest.add attributes children).2 := by
  have created : (forest.add attributes children).2.nodes[forest.nodes.size]? =
      some (forest.add attributes children).1 := by
    rw [Forest.add, Array.getElem?_push, if_pos rfl]
  have held : (forest.add attributes children).1.children = children := rfl
  constructor
  case balanced => simp [Forest.add, coherent.balanced]
  case numbered =>
    intro number node entry
    rw [Forest.add, Array.getElem?_push] at entry
    split at entry
    · rename_i new
      rw [new, ← Option.some.inj entry, Node.mark_mk]
    · exact coherent.numbered number node entry
  case known =>
    intro node member child isChild
    rcases mem_nodes_add.mp member with old | rfl
    · exact mem_nodes_add.mpr (.inl (coherent.known node old child isChild))
    · exact mem_nodes_add.mpr (.inl (known child (held ▸ isChild)))
  case older =>
    intro node member child isChild
    rcases mem_nodes_add.mp member with old | rfl
    · exact coherent.older node old child isChild
    · exact coherent.mark_lt (known child (held ▸ isChild))
  case held =>
    intro number parent isParent
    have bound : number ≤ forest.nodes.size := by
      have inTable := (Array.getElem?_eq_some_iff.mp isParent).1
      simp only [Forest.add, size_adopt, Array.size_push, coherent.balanced] at inTable
      omega
    rw [parents_add coherent.balanced attributes children bound] at isParent
    split at isParent
    · rename_i adopted
      obtain rfl : forest.nodes.size = parent := by simpa using isParent
      exact ⟨_, created, by rwa [held]⟩
    · split at isParent
      · simp at isParent
      · obtain ⟨holder, isHolder, isChild⟩ := coherent.held number parent isParent
        have older := (Array.getElem?_eq_some_iff.mp isHolder).1
        refine ⟨holder, ?_, isChild⟩
        rw [Forest.add, Array.getElem?_push, if_neg (Nat.ne_of_lt older), isHolder]
  case latest =>
    intro holder member child isChild
    rcases mem_nodes_add.mp member with old | rfl
    · have childMember := coherent.known holder old child isChild
      have bound := coherent.mark_lt childMember
      rw [parents_add coherent.balanced attributes children (Nat.le_of_lt bound)]
      split
      · exact ⟨_, rfl, Nat.le_of_lt (coherent.mark_lt old)⟩
      · rw [if_neg (Nat.ne_of_lt bound)]
        exact coherent.latest holder old child isChild
    · rw [held] at isChild
      have bound := coherent.mark_lt (known child isChild)
      rw [parents_add coherent.balanced attributes children (Nat.le_of_lt bound),
        if_pos (List.mem_map_of_mem isChild)]
      exact ⟨_, rfl, Nat.le_refl _⟩

end Coherent

theorem Built.coherent {forest : Forest} (built : Built forest) : Coherent forest := by
  induction built with
  | empty => exact coherent_empty
  | add _ attributes children known induction => exact induction.add attributes known

/-! ## Parents -/

namespace Built

variable {forest : Forest}

/-- A parent is a younger node of the forest that holds its child. -/
theorem parent?_eq_some (built : Built forest) {node parent : Vertex}
    (isParent : forest.parent? node = some parent) :
    parent ∈ forest.nodes ∧ node.mark ∈ parent.children.map Node.mark ∧
      node.mark < parent.mark := by
  have coherent := built.coherent
  rw [parent?] at isParent
  split at isParent
  · rename_i number entry
    obtain ⟨holder, isHolder, isChild⟩ := coherent.held node.mark number entry
    obtain rfl : holder = parent := by
      rw [isHolder] at isParent
      exact Option.some.inj isParent
    have member := Array.mem_of_getElem? isHolder
    obtain ⟨child, childMember, same⟩ := List.mem_map.mp isChild
    have older := coherent.older holder member child childMember
    exact ⟨member, isChild, same ▸ older⟩
  · simp at isParent

/-- A node of the forest is among the children of its parent. -/
theorem mem_children_of_parent? (built : Built forest) {node parent : Vertex}
    (member : node ∈ forest.nodes) (isParent : forest.parent? node = some parent) :
    node ∈ parent.children := by
  have coherent := built.coherent
  obtain ⟨parentMember, isChild, -⟩ := built.parent?_eq_some isParent
  obtain ⟨child, childMember, same⟩ := List.mem_map.mp isChild
  have childKnown := coherent.known parent parentMember child childMember
  exact coherent.eq_of_mark childKnown member same ▸ childMember

/-- The youngest node that holds a node is its parent. -/
theorem parent?_of_last_holder (built : Built forest) {holder child : Vertex}
    (member : holder ∈ forest.nodes) (isChild : child ∈ holder.children)
    (last : ∀ owner ∈ forest.nodes, child ∈ owner.children → owner.mark ≤ holder.mark) :
    forest.parent? child = some holder := by
  have coherent := built.coherent
  obtain ⟨number, entry, younger⟩ := coherent.latest holder member child isChild
  obtain ⟨parent, isParent, -⟩ := coherent.held child.mark number entry
  have found : forest.parent? child = some parent := by
    rw [parent?, entry]
    exact isParent
  have parentMember := Array.mem_of_getElem? isParent
  have childMember := coherent.known holder member child isChild
  have inParent := built.mem_children_of_parent? childMember found
  have number_eq := coherent.numbered number parent isParent
  have older := last parent parentMember inParent
  rw [found, coherent.eq_of_mark parentMember member (by omega)]

end Built

/-! ## Trees of a forest -/

/-- The nodes under a node of the forest are in the forest, and none is younger than that node. -/
theorem Coherent.mem_nodes_of_preorder {forest : Forest} (coherent : Coherent forest)
    {root node : Vertex} (created : root ∈ forest.nodes) (member : node ∈ root.preorder) :
    node ∈ forest.nodes ∧ node.mark ≤ root.mark := by
  refine Node.preorder_induction
    (motive := fun node => node ∈ forest.nodes ∧ node.mark ≤ root.mark)
    root ?_ ⟨created, Nat.le_refl _⟩ node member
  intro holder _ ⟨held, bound⟩ child isChild
  have older := coherent.older holder held child isChild
  exact ⟨coherent.known holder held child isChild, by omega⟩

/-- The node is the root of a tree in which each node occurs once: no two places of the tree hold the
same node, and no node of the tree has been given to another node since. -/
structure IsTree (forest : Forest) (root : Vertex) : Prop where
  built : Built forest
  created : root ∈ forest.nodes
  distinct : root.Distinct
  kept : ∀ node ∈ root.preorder, ∀ child ∈ node.children, ∀ owner ∈ forest.nodes,
    child ∈ owner.children → owner.mark ≤ node.mark

namespace IsTree

variable {forest : Forest} {root : Vertex}

theorem mem_nodes (tree : IsTree forest root) {node : Vertex} (member : node ∈ root.preorder) :
    node ∈ forest.nodes :=
  (tree.built.coherent.mem_nodes_of_preorder tree.created member).1

/-- In a tree the parent of a child is the node that holds it. -/
theorem parent?_eq (tree : IsTree forest root) {node child : Vertex}
    (member : node ∈ root.preorder) (isChild : child ∈ node.children) :
    forest.parent? child = some node :=
  tree.built.parent?_of_last_holder (tree.mem_nodes member) isChild
    (tree.kept node member child isChild)

/-- A proper descendant of a node of the tree has its parent under that node. -/
theorem exists_parent?_of_descendant (tree : IsTree forest root) {node inner : Vertex}
    (member : node ∈ root.preorder) (inside : inner ∈ node.descendants) :
    ∃ parent ∈ node.preorder, forest.parent? inner = some parent := by
  obtain ⟨holder, below, held⟩ := Node.exists_holder_of_descendant inside
  exact ⟨holder, below, tree.parent?_eq (Node.mem_preorder_trans below root member) held⟩

/-- No node of the tree but the root has the root under it. -/
theorem eq_root_of_mem_preorder (tree : IsTree forest root) {node : Vertex}
    (member : node ∈ root.preorder) (above : root ∈ node.preorder) : node = root := by
  have coherent := tree.built.coherent
  obtain ⟨created, bound⟩ := coherent.mem_nodes_of_preorder tree.created member
  have same := (coherent.mem_nodes_of_preorder created above).2
  exact coherent.eq_of_mark created tree.created (by omega)

end IsTree

end Forest

/-! ## Siblings -/

theorem exists_splitAtMark {number : Nat} {nodes : List Vertex}
    (member : number ∈ nodes.map Node.mark) : ∃ sides, splitAtMark number nodes = some sides := by
  induction nodes with
  | nil => simp at member
  | cons node nodes induction =>
      by_cases here : node.mark = number
      · exact ⟨([], nodes), by rw [splitAtMark, if_pos here]⟩
      · have later : number ∈ nodes.map Node.mark := by
          rcases List.mem_cons.mp member with same | later
          · exact absurd same.symm here
          · exact later
        obtain ⟨sides, split⟩ := induction later
        exact ⟨(node :: sides.1, sides.2), by rw [splitAtMark, if_neg here, split]; rfl⟩

namespace Forest.Built

variable {forest : Forest}

theorem exists_siblings (built : Built forest) {node parent : Vertex}
    (isParent : forest.parent? node = some parent) :
    ∃ sides, splitAtMark node.mark parent.children = some sides :=
  exists_splitAtMark (built.parent?_eq_some isParent).2.1

/-- The search for the leaf after a node goes through, however far it climbs. -/
theorem exists_leafAfter (built : Built forest) (steps : Nat) (node : Vertex) :
    ∃ leaf, leafAfter node (forest.climb steps node) = .ok leaf := by
  induction steps generalizing node with
  | zero => exact ⟨none, rfl⟩
  | succ steps induction =>
      rw [climb]
      cases isParent : forest.parent? node with
      | none => exact ⟨none, rfl⟩
      | some parent =>
          obtain ⟨⟨before, after⟩, split⟩ := built.exists_siblings isParent
          cases after with
          | nil =>
              obtain ⟨leaf, climbed⟩ := induction parent
              exact ⟨leaf, by simp only [leafAfter, split, climbed]⟩
          | cons sibling siblings =>
              exact ⟨some sibling.firstToken, by simp only [leafAfter, split]⟩

theorem exists_nextToken (built : Built forest) (node : Vertex) :
    ∃ leaf, forest.nextToken node = .ok leaf :=
  built.exists_leafAfter forest.nodes.size node

theorem exists_previousSibling (built : Built forest) (node : Vertex) :
    ∃ sibling, forest.previousSibling node = .ok sibling := by
  rw [previousSibling]
  cases isParent : forest.parent? node with
  | none => exact ⟨none, rfl⟩
  | some parent =>
      obtain ⟨sides, split⟩ := built.exists_siblings isParent
      exact ⟨sides.1.getLast?, by simp only [split]⟩

end Forest.Built

end CodeMetrics
