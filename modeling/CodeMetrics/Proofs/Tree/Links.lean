import CodeMetrics.Proofs.Metrics.Completion
import Mathlib.Data.List.Chain

/-!
# Parent links

Whatever nodes a forest is made of, and however often one of them is given to others, the parent of
a node is the youngest node that holds it. The way up from a node goes to ever younger nodes, so it
comes to an end, and each node on it is found among the children of the next one.
-/

namespace CodeMetrics

/-- A cut at a number is a cut at the first node with that number. -/
theorem splitAtMark_eq_some {number : Nat} {nodes before after : List Vertex}
    (split : splitAtMark number nodes = some (before, after)) :
    ∃ node, node.mark = number ∧ nodes = before ++ node :: after ∧
      number ∉ before.map Node.mark := by
  induction nodes generalizing before with
  | nil => simp [splitAtMark] at split
  | cons first nodes induction =>
      rw [splitAtMark] at split
      by_cases here : first.mark = number
      · rw [if_pos here] at split
        obtain ⟨rfl, rfl⟩ := Prod.mk.inj (Option.some.inj split)
        exact ⟨first, here, rfl, by simp⟩
      · rw [if_neg here] at split
        obtain ⟨⟨earlier, later⟩, found, sides⟩ := Option.map_eq_some_iff.mp split
        obtain ⟨rfl, rfl⟩ := Prod.mk.inj sides
        obtain ⟨node, isNumber, rfl, outside⟩ := induction found
        refine ⟨node, isNumber, rfl, ?_⟩
        rw [List.map_cons, List.mem_cons, not_or]
        exact ⟨Ne.symm here, outside⟩

namespace Forest

/-- The questions that classify a node. -/
def classes : List (Forest → Vertex → Except Detached Bool) :=
  [fun _ node => .ok node.kind.isComment,
   fun _ node => .ok node.kind.isDocComment,
   fun _ node => .ok node.kind.isClassLike,
   fun _ node => .ok node.kind.isStatement,
   fun forest node => .ok (forest.isFunctionLike node),
   fun _ node => .ok node.kind.increasesComplexity,
   isReturnButNotLast,
   fun _ node => .ok node.kind.isMember,
   fun _ node => .ok node.kind.isNamespace,
   fun _ node => .ok node.isPublic]

/-- How a node is linked to the nodes above it. -/
structure Linked (forest : Forest) (node : Vertex) : Prop where
  /-- The number of a node is its place in the order of creation. -/
  numbered : forest.nodes[node.mark]? = some node
  orphan : forest.parent? node = none ↔ ∀ owner ∈ forest.nodes, node ∉ owner.children
  /-- The parent is the youngest of the nodes that hold the node. -/
  latest : ∀ parent, forest.parent? node = some parent ↔
    parent ∈ forest.nodes ∧ node ∈ parent.children ∧
      ∀ owner ∈ forest.nodes, node ∈ owner.children → owner.mark ≤ parent.mark
  younger : ∀ parent, forest.parent? node = some parent → node.mark < parent.mark
  /-- The ancestors are the parent and its ancestors: the way up is never cut short. -/
  climbs : forest.ancestors node =
    match forest.parent? node with
    | none => []
    | some parent => parent :: forest.ancestors parent
  ascending : ((node :: forest.ancestors node).map Node.mark).Pairwise (· < ·)
  /-- The search among the children of the parent stops at the node itself. -/
  found : ∀ parent, forest.parent? node = some parent →
    ∃ before after, splitAtMark node.mark parent.children = some (before, after) ∧
      parent.children = before ++ node :: after ∧ node ∉ before
  next : ∃ leaf, forest.nextToken node = .ok leaf
  previous : ∃ sibling, forest.previousSibling node = .ok sibling
  classified : ∀ question ∈ classes, ∃ answer, question forest node = .ok answer

namespace Built

variable {forest : Forest}

/-! ## The parent -/

/-- A node that is held has a parent, which is not older than the holder. -/
theorem exists_parent? (built : Built forest) {owner node : Vertex} (known : owner ∈ forest.nodes)
    (held : node ∈ owner.children) :
    ∃ parent, forest.parent? node = some parent ∧ owner.mark ≤ parent.mark := by
  have coherent := built.coherent
  obtain ⟨number, entry, younger⟩ := coherent.latest owner known node held
  obtain ⟨parent, isParent, -⟩ := coherent.held node.mark number entry
  refine ⟨parent, by rw [parent?, entry]; exact isParent, ?_⟩
  rwa [coherent.numbered number parent isParent]

theorem parent?_eq_none_iff (built : Built forest) {node : Vertex} (member : node ∈ forest.nodes) :
    forest.parent? node = none ↔ ∀ owner ∈ forest.nodes, node ∉ owner.children := by
  constructor
  · intro orphan owner known held
    obtain ⟨parent, isParent, -⟩ := built.exists_parent? known held
    simp [orphan] at isParent
  · intro unheld
    cases isParent : forest.parent? node with
    | none => rfl
    | some parent =>
        have held := built.mem_children_of_parent? member isParent
        exact absurd held (unheld parent (built.parent?_eq_some isParent).1)

theorem parent?_eq_some_iff (built : Built forest) {node parent : Vertex}
    (member : node ∈ forest.nodes) :
    forest.parent? node = some parent ↔
      parent ∈ forest.nodes ∧ node ∈ parent.children ∧
        ∀ owner ∈ forest.nodes, node ∈ owner.children → owner.mark ≤ parent.mark := by
  constructor
  · intro isParent
    refine ⟨(built.parent?_eq_some isParent).1, built.mem_children_of_parent? member isParent, ?_⟩
    intro owner known held
    obtain ⟨youngest, isYoungest, bound⟩ := built.exists_parent? known held
    obtain rfl := Option.some.inj (isParent.symm.trans isYoungest)
    exact bound
  · rintro ⟨known, held, last⟩
    exact built.parent?_of_last_holder known held last

/-! ## The way up -/

/-- Climbing on for longer than the forest has younger nodes leads nowhere new. -/
theorem climb_eq_climb (built : Built forest) {steps others : Nat} {node : Vertex}
    (enough : forest.nodes.size ≤ node.mark + steps)
    (otherEnough : forest.nodes.size ≤ node.mark + others) :
    forest.climb steps node = forest.climb others node := by
  induction steps generalizing others node with
  | zero =>
      have top : forest.parent? node = none := by
        have outside : forest.parents[node.mark]? = none := by
          rw [Array.getElem?_eq_none_iff, built.coherent.balanced]
          omega
        rw [parent?, outside]
      cases others with
      | zero => rfl
      | succ others => rw [climb, climb, top]
  | succ steps induction =>
      cases isParent : forest.parent? node with
      | none =>
          cases others with
          | zero => rw [climb, climb, isParent]
          | succ others => rw [climb, climb, isParent]
      | some parent =>
          obtain ⟨known, -, younger⟩ := built.parent?_eq_some isParent
          have bound := built.coherent.mark_lt known
          obtain ⟨others, rfl⟩ : ∃ fewer, others = fewer + 1 := ⟨others - 1, by omega⟩
          rw [climb, climb, isParent]
          simp only
          rw [induction (by omega) (show forest.nodes.size ≤ parent.mark + others by omega)]

theorem ancestors_eq (built : Built forest) (node : Vertex) :
    forest.ancestors node =
      match forest.parent? node with
      | none => []
      | some parent => parent :: forest.ancestors parent := by
  have further : forest.ancestors node = forest.climb (forest.nodes.size + 1) node :=
    built.climb_eq_climb (by omega) (by omega)
  rw [further, climb]
  rfl

/-- Each node on the way up is younger than the one before it. -/
theorem pairwise_mark_climb (built : Built forest) (steps : Nat) (node : Vertex) :
    ((node :: forest.climb steps node).map Node.mark).Pairwise (· < ·) := by
  rw [← List.isChain_iff_pairwise]
  induction steps generalizing node with
  | zero => exact .singleton _
  | succ steps induction =>
      rw [climb]
      cases isParent : forest.parent? node with
      | none => exact .singleton _
      | some parent =>
          obtain ⟨-, -, younger⟩ := built.parent?_eq_some isParent
          exact .cons_cons younger (induction parent)

/-! ## Siblings -/

theorem splitAtMark_children (built : Built forest) {node parent : Vertex}
    (member : node ∈ forest.nodes) (isParent : forest.parent? node = some parent) :
    ∃ before after, splitAtMark node.mark parent.children = some (before, after) ∧
      parent.children = before ++ node :: after ∧ node ∉ before := by
  have coherent := built.coherent
  obtain ⟨⟨before, after⟩, split⟩ := built.exists_siblings isParent
  obtain ⟨child, sameMark, cut, outside⟩ := splitAtMark_eq_some split
  have known : child ∈ forest.nodes := by
    refine coherent.known parent (built.parent?_eq_some isParent).1 child ?_
    rw [cut]
    exact List.mem_append_right before List.mem_cons_self
  obtain rfl := coherent.eq_of_mark known member sameMark
  exact ⟨before, after, split, cut, fun listed => outside (List.mem_map_of_mem listed)⟩

theorem exists_answer (built : Built forest) (node : Vertex)
    {question : Forest → Vertex → Except Detached Bool} (listed : question ∈ classes) :
    ∃ answer, question forest node = .ok answer := by
  simp only [classes, List.mem_cons, List.not_mem_nil, or_false] at listed
  rcases listed with rfl | rfl | rfl | rfl | rfl | rfl | rfl | rfl | rfl | rfl
  case inr.inr.inr.inr.inr.inr.inl => exact built.exists_isReturnButNotLast node
  all_goals exact ⟨_, rfl⟩

/-! ## Every node -/

/-- After any number of creations over nodes that are there already, shared ones included, every
node is linked to the youngest node that holds it, and can be followed up and along its siblings. -/
theorem linked_to_youngest_holder (built : Built forest) {node : Vertex}
    (member : node ∈ forest.nodes) : forest.Linked node where
  numbered := built.coherent.found node member
  orphan := built.parent?_eq_none_iff member
  latest := fun _ => built.parent?_eq_some_iff member
  younger := fun _ isParent => (built.parent?_eq_some isParent).2.2
  climbs := built.ancestors_eq node
  ascending := built.pairwise_mark_climb forest.nodes.size node
  found := fun _ isParent => built.splitAtMark_children member isParent
  next := built.exists_nextToken node
  previous := built.exists_previousSibling node
  classified := fun _ listed => built.exists_answer node listed

end Built

/-- A leaf given twice to a return, and then twice to a block with the return in between. -/
def sharedLeaf : Forest :=
  let leaf := empty.add (.of .token ⟨0, 1, 1, 0, 1, 1⟩ (some "x") none "") []
  let twice := leaf.2.add (.of .returnStatement ⟨0, 1, 1, 0, 1, 1⟩ none none "") [leaf.1, leaf.1]
  let again := twice.2.add (.of .block ⟨0, 1, 1, 0, 1, 1⟩ none none "") [leaf.1, twice.1, leaf.1]
  again.2

theorem linked_to_youngest_holder_sharedLeaf :
    ∃ leaf first last : Vertex,
      sharedLeaf.nodes = #[leaf, first, last] ∧ leaf ∈ first.children ∧
      sharedLeaf.parent? leaf = some last ∧ sharedLeaf.ancestors first = [last] ∧
      sharedLeaf.Linked leaf ∧ sharedLeaf.Linked first := by
  have built : Built sharedLeaf := by
    refine .add (.add (.add .empty _ [] ?_) _ _ ?_) _ _ ?_
    · simp
    · decide +kernel
    · decide +kernel
  refine ⟨_, _, _, rfl, by decide +kernel, by decide +kernel, by decide +kernel, ?_, ?_⟩
  · exact built.linked_to_youngest_holder (by decide +kernel)
  · exact built.linked_to_youngest_holder (by decide +kernel)

end Forest

end CodeMetrics
