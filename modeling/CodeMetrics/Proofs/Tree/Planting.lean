import CodeMetrics.Proofs.Tree.Construction

/-!
# Planted trees

Trees stand free in a forest if their roots have no parents and no node occurs twice. A node created
over some of them takes these as its children and stands free beside the others. So a tree can be
completed over nodes that are there already: the completed tree has its shape and stands in their
place, and the parent of each child is the node that holds it. A tree of which no node is there is
planted.
-/

namespace CodeMetrics

namespace Forest

/-! ## Free trees -/

/-- The trees stand in the forest side by side, with roots that have no parents yet. -/
structure FreeTrees (forest : Forest) (trees : List Vertex) : Prop where
  built : Built forest
  /-- Each node is found under its number, which it shares with no other. -/
  found : ∀ node ∈ Node.preorderAll trees, forest.nodes[node.mark]? = some node
  distinct : ((Node.preorderAll trees).map Node.mark).Nodup
  roots : ∀ tree ∈ trees, forest.parents[tree.mark]? = some none
  /-- Each child has the node that holds it as its parent. -/
  linked : ∀ node ∈ Node.preorderAll trees, ∀ child ∈ node.children,
    forest.parents[child.mark]? = some (some node.mark)

namespace FreeTrees

variable {forest : Forest} {trees left right : List Vertex}

theorem nil (built : Built forest) : FreeTrees forest [] where
  built := built
  found := by simp [Node.preorderAll]
  distinct := by simp [Node.preorderAll]
  roots := by simp
  linked := by simp [Node.preorderAll]

theorem mark_lt (free : FreeTrees forest trees) {node : Vertex}
    (member : node ∈ Node.preorderAll trees) : node.mark < forest.nodes.size :=
  (Array.getElem?_eq_some_iff.mp (free.found node member)).1

/-- No child of a node is one of the roots. -/
theorem mark_child_notMem (free : FreeTrees forest trees) {node child : Vertex}
    (member : node ∈ Node.preorderAll trees) (held : child ∈ node.children) :
    child.mark ∉ trees.map Node.mark := by
  intro isRoot
  obtain ⟨tree, isTree, same⟩ := List.mem_map.mp isRoot
  have unlinked := free.roots tree isTree
  rw [same, free.linked node member child held] at unlinked
  simp at unlinked

/-- Trees that stand beside others share no root with them. -/
theorem mark_notMem (free : FreeTrees forest (left ++ trees ++ right)) {tree : Vertex}
    (beside : tree ∈ left ++ right) : tree.mark ∉ trees.map Node.mark := by
  have order : (left ++ trees ++ right).Perm (trees ++ (left ++ right)) := by
    rw [← List.append_assoc]
    exact List.perm_append_comm.append_right right
  have roots := free.distinct.sublist ((Node.sublist_preorderAll _).map Node.mark)
  rw [(order.map Node.mark).nodup_iff, List.map_append, List.nodup_append] at roots
  exact fun adopted => roots.2.2 _ adopted _ (List.mem_map_of_mem beside) rfl

/-- A node that is not adopted keeps the parent that it has, or goes on to have none. -/
theorem parents_add_of_notMem (free : FreeTrees forest trees) {node : Vertex}
    (member : node ∈ Node.preorderAll trees) (attributes : Attributes) {adopted : List Vertex}
    (notAdopted : node.mark ∉ adopted.map Node.mark) :
    (forest.add attributes adopted).2.parents[node.mark]? = forest.parents[node.mark]? := by
  have older := free.mark_lt member
  rw [parents_add free.built.coherent.balanced attributes adopted (Nat.le_of_lt older),
    if_neg notAdopted, if_neg (Nat.ne_of_lt older)]

/-- The nodes once a node has been created over some of the trees. -/
theorem perm_preorderAll_add (forest : Forest) (attributes : Attributes)
    (left trees right : List Vertex) :
    (Node.preorderAll (left ++ (forest.add attributes trees).1 :: right)).Perm
      ((forest.add attributes trees).1 :: Node.preorderAll (left ++ trees ++ right)) := by
  have children : (forest.add attributes trees).1.children = trees := rfl
  rw [Node.preorderAll_append, Node.preorderAll, Node.preorder_eq, children,
    Node.preorderAll_append, Node.preorderAll_append, List.append_assoc, List.cons_append]
  exact List.perm_middle

/-- A node created over some of the trees takes their place. -/
theorem add (free : FreeTrees forest (left ++ trees ++ right)) (attributes : Attributes) :
    FreeTrees (forest.add attributes trees).2
      (left ++ (forest.add attributes trees).1 :: right) := by
  have nodes : (forest.add attributes trees).2.nodes =
      forest.nodes.push (forest.add attributes trees).1 := rfl
  have mark : (forest.add attributes trees).1.mark = forest.nodes.size := rfl
  have order := perm_preorderAll_add forest attributes left trees right
  have balanced := free.built.coherent.balanced
  have listed {tree : Vertex} (isTree : tree ∈ left ++ trees ++ right) :
      tree ∈ Node.preorderAll (left ++ trees ++ right) :=
    (Node.sublist_preorderAll _).subset isTree
  have created {tree : Vertex} (isTree : tree ∈ trees) :
      tree ∈ Node.preorderAll (left ++ trees ++ right) := listed (by simp [isTree])
  constructor
  case built =>
    refine free.built.add attributes trees fun tree isTree => ?_
    exact Array.mem_of_getElem? (free.found tree (created isTree))
  case found =>
    intro node member
    rcases List.mem_cons.mp (order.mem_iff.mp member) with rfl | old
    · rw [nodes, mark, Array.getElem?_push, if_pos rfl]
    · rw [nodes, Array.getElem?_push, if_neg (Nat.ne_of_lt (free.mark_lt old)),
        free.found node old]
  case distinct =>
    rw [(order.map Node.mark).nodup_iff, List.map_cons, List.nodup_cons]
    refine ⟨?_, free.distinct⟩
    intro again
    obtain ⟨node, old, same⟩ := List.mem_map.mp again
    have older := free.mark_lt old
    omega
  case roots =>
    intro tree isTree
    have place : tree = (forest.add attributes trees).1 ∨ tree ∈ left ++ right := by
      simpa [or_left_comm] using isTree
    rcases place with rfl | beside
    · have notAdopted : forest.nodes.size ∉ trees.map Node.mark := by
        intro adopted
        obtain ⟨tree, isTree, same⟩ := List.mem_map.mp adopted
        have older := free.mark_lt (created isTree)
        omega
      rw [mark, parents_add balanced attributes trees (Nat.le_refl _), if_neg notAdopted,
        if_pos rfl]
    · have old : tree ∈ left ++ trees ++ right := by
        rcases List.mem_append.mp beside with before | after
        · simp [before]
        · simp [after]
      rw [free.parents_add_of_notMem (listed old) attributes (free.mark_notMem beside),
        free.roots tree old]
  case linked =>
    intro node member child held
    rcases List.mem_cons.mp (order.mem_iff.mp member) with rfl | old
    · have isTree : child ∈ trees := held
      rw [parents_add balanced attributes trees (Nat.le_of_lt (free.mark_lt (created isTree))),
        if_pos (List.mem_map_of_mem isTree), mark]
    · have below : child ∈ Node.preorderAll (left ++ trees ++ right) :=
        Node.mem_preorderAll_trans (Node.child_mem_preorder held) _ old
      have notAdopted : child.mark ∉ trees.map Node.mark := by
        intro adopted
        refine free.mark_child_notMem old held ?_
        rw [List.map_append, List.map_append]
        exact List.mem_append_left _ (List.mem_append_right _ adopted)
      rw [free.parents_add_of_notMem below attributes notAdopted, free.linked node old child held]

/-- A single free tree is a tree in which each node occurs once. -/
theorem isTree {root : Vertex} (free : FreeTrees forest [root]) : IsTree forest root := by
  have preorder : Node.preorderAll [root] = root.preorder := by
    rw [Node.preorderAll, Node.preorderAll, List.append_nil]
  obtain ⟨built, found, distinct, -, linked⟩ := free
  rw [preorder] at found distinct linked
  refine ⟨built, Array.mem_of_getElem? (found root (Node.self_mem_preorder root)), distinct, ?_⟩
  intro node member child isChild owner known owned
  obtain ⟨number, entry, younger⟩ := built.coherent.latest owner known child owned
  rw [linked node member child isChild] at entry
  obtain rfl : node.mark = number := by simpa using entry
  exact younger

/-- The root of a free tree has no parent. -/
theorem parent?_root {root : Vertex} (free : FreeTrees forest [root]) :
    forest.parent? root = none := by
  rw [parent?, free.roots root (List.mem_singleton_self root)]

end FreeTrees

end Forest

/-! ## Completed trees -/

namespace Node

variable {ι : Type} (existing : ι → Option Vertex)

mutual

/-- The nodes of a tree that are there already, from left to right. -/
def present : Node ι → List Vertex
  | .mk mark _ children =>
      match existing mark with
      | some node => [node]
      | none => presentAll children

/-- The nodes of a list of trees that are there already. -/
def presentAll : List (Node ι) → List Vertex
  | [] => []
  | node :: nodes => present node ++ presentAll nodes

end

mutual

/-- The shape of a tree with the children of the nodes that are there already. -/
def filled : Node ι → Shape
  | .mk mark attributes children =>
      match existing mark with
      | some node => .mk () attributes (shapes node.children)
      | none => .mk () attributes (filledAll children)

/-- The shapes of trees with the children of the nodes that are there already. -/
def filledAll : List (Node ι) → List Shape
  | [] => []
  | node :: nodes => filled node :: filledAll nodes

end

variable {existing}

theorem presentAll_append (left right : List (Node ι)) :
    presentAll existing (left ++ right) = presentAll existing left ++ presentAll existing right := by
  induction left with
  | nil => rfl
  | cons node nodes induction =>
      rw [List.cons_append, presentAll, presentAll, induction, List.append_assoc]

theorem filledAll_eq_map (nodes : List (Node ι)) :
    filledAll existing nodes = nodes.map (filled existing) := by
  induction nodes with
  | nil => rfl
  | cons node nodes induction => rw [filledAll, induction, List.map_cons]

theorem attributes_filled (node : Node ι) : (node.filled existing).attributes = node.attributes := by
  obtain ⟨mark, attributes, children⟩ := node
  rw [filled]
  split <;> rfl

mutual

theorem present_none : (node : Node ι) → node.present (fun _ => none) = []
  | .mk _ _ children => by rw [present, presentAll_none children]

theorem presentAll_none : (nodes : List (Node ι)) → presentAll (fun _ => none) nodes = []
  | [] => rfl
  | node :: nodes => by rw [presentAll, present_none node, presentAll_none nodes, List.append_nil]

end

end Node

namespace Forest

variable {ι : Type} {existing : ι → Option Vertex}

mutual

/-- If the nodes of a tree that are there stand free, then the completed tree stands in their
place. -/
theorem freeTrees_complete : (tree : Node ι) → {forest : Forest} → {left right : List Vertex} →
    FreeTrees forest (left ++ tree.present existing ++ right) →
      FreeTrees (complete existing tree forest).2
        (left ++ (complete existing tree forest).1 :: right)
  | .mk mark attributes children, forest, left, right, free => by
      rw [complete]
      cases isThere : existing mark with
      | some node => simpa [Node.present, isThere] using free
      | none =>
          simp only [Node.present, isThere] at free
          exact (freeTrees_completeAll children free).add attributes

theorem freeTrees_completeAll : (trees : List (Node ι)) → {forest : Forest} →
    {left right : List Vertex} →
    FreeTrees forest (left ++ Node.presentAll existing trees ++ right) →
      FreeTrees (completeAll existing trees forest).2
        (left ++ (completeAll existing trees forest).1 ++ right)
  | [], forest, left, right, free => free
  | tree :: trees, forest, left, right, free => by
      rw [Node.presentAll, ← List.append_assoc, List.append_assoc (left ++ _)] at free
      have first := freeTrees_complete tree free
      rw [List.append_cons, ← List.append_assoc] at first
      have rest := freeTrees_completeAll trees first
      rwa [List.append_assoc left, List.singleton_append] at rest

end

mutual

/-- A completed tree has the shape of the tree, if the nodes that are there have its attributes. -/
theorem shape_complete : (tree : Node ι) → (forest : Forest) →
    (∀ node ∈ tree.preorder, ∀ vertex, existing node.mark = some vertex →
      node.attributes = vertex.attributes) →
      (complete existing tree forest).1.shape = tree.filled existing
  | .mk mark attributes children, forest, faithful => by
      have own := faithful _ (Node.self_mem_preorder _)
      rw [complete, Node.filled]
      cases isThere : existing mark with
      | some vertex =>
          obtain rfl : attributes = vertex.attributes := own vertex isThere
          obtain ⟨number, attributes, children⟩ := vertex
          rfl
      | none =>
          simp only [add, Node.shape]
          rw [shapes_completeAll children forest fun node member =>
            faithful node (by rw [Node.preorder]; exact List.mem_cons_of_mem _ member)]

theorem shapes_completeAll : (trees : List (Node ι)) → (forest : Forest) →
    (∀ node ∈ Node.preorderAll trees, ∀ vertex, existing node.mark = some vertex →
      node.attributes = vertex.attributes) →
      Node.shapes (completeAll existing trees forest).1 = Node.filledAll existing trees
  | [], forest, _ => rfl
  | tree :: trees, forest, faithful => by
      rw [Node.preorderAll, List.forall_mem_append] at faithful
      rw [completeAll, Node.shapes, Node.filledAll, shape_complete tree forest faithful.1,
        shapes_completeAll trees _ faithful.2]

end

/-! ## Planting -/

/-- Create every node of a tree, children first. -/
def plant (tree : Node ι) (forest : Forest) : Vertex × Forest :=
  complete (fun _ => none) tree forest

/-- Create every node of a list of trees, from left to right. -/
def plantAll (trees : List (Node ι)) (forest : Forest) : List Vertex × Forest :=
  completeAll (fun _ => none) trees forest

theorem plant_mk (mark : ι) (attributes : Attributes) (children : List (Node ι))
    (forest : Forest) :
    forest.plant (.mk mark attributes children) =
      (forest.plantAll children).2.add attributes (forest.plantAll children).1 := rfl

theorem plantAll_cons (tree : Node ι) (trees : List (Node ι)) (forest : Forest) :
    forest.plantAll (tree :: trees) =
      ((forest.plant tree).1 :: ((forest.plant tree).2.plantAll trees).1,
        ((forest.plant tree).2.plantAll trees).2) := rfl

/-- A planted tree stands free. -/
theorem freeTrees_plant (tree : Node ι) {forest : Forest} (built : Built forest) :
    FreeTrees (forest.plant tree).2 [(forest.plant tree).1] := by
  have start : FreeTrees forest ([] ++ tree.present (fun _ => none) ++ []) := by
    rw [Node.present_none]
    exact .nil built
  exact freeTrees_complete tree start

/-- A planted tree is a tree in which each node occurs once. -/
theorem isTree_plant (tree : Node ι) : IsTree (empty.plant tree).2 (empty.plant tree).1 :=
  (freeTrees_plant tree .empty).isTree

theorem parent?_plant_root (tree : Node ι) :
    (empty.plant tree).2.parent? (empty.plant tree).1 = none :=
  (freeTrees_plant tree .empty).parent?_root

end Forest

end CodeMetrics
