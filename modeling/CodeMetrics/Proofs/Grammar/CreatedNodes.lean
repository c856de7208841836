import CodeMetrics.Grammar.Creation
import CodeMetrics.Proofs.Grammar.Grouping
import CodeMetrics.Proofs.Grammar.Traversal
import CodeMetrics.Proofs.Tree.Planting

/-!
# The nodes created for a parse tree

The children of a node stand free until the node is created. Grouping keeps their order, so each
wrapper is created over a run of them and stands in their place, and the node is created over what
stands free then. In the end one tree stands free, and it has the shape of the normal form.
-/

namespace CodeMetrics

namespace Grammar

/-! ## Grouping nodes that are there -/

theorem presentAll_standIn (nodes : List Vertex) :
    Node.presentAll id (nodes.map standIn) = nodes := by
  induction nodes with
  | nil => rfl
  | cons node nodes induction =>
      rw [List.map_cons, Node.presentAll, induction]
      rfl

/-- Grouping keeps the nodes that are there in their order. -/
theorem presentAll_of_grouped {nodes grouped : List (Node (Option Vertex))}
    (isGrouped : Grouped none nodes grouped) :
    Node.presentAll id grouped = Node.presentAll id nodes := by
  induction isGrouped with
  | nil => rfl
  | keep node _ induction => rw [Node.presentAll, Node.presentAll, induction]
  | wrap kind field grammarType first rest _ induction =>
      rw [Node.presentAll, Node.presentAll_append, induction]
      rfl

theorem relabels_filled : Relabels (Node.filled id) none () where
  attributes := Node.attributes_filled
  wrapper attributes children := by
    rw [← Node.filledAll_eq_map]
    rfl

theorem filled_standIn (node : Vertex) : (standIn node).filled id = node.shape := by
  obtain ⟨number, attributes, children⟩ := node
  rfl

theorem attributes_of_mem_standIn {nodes : List Vertex} {node : Node (Option Vertex)}
    (member : node ∈ Node.preorderAll (nodes.map standIn)) {vertex : Vertex}
    (isThere : node.mark = some vertex) : node.attributes = vertex.attributes := by
  obtain ⟨tree, listed, inside⟩ := Node.mem_preorderAll.mp member
  obtain ⟨known, -, rfl⟩ := List.mem_map.mp listed
  obtain rfl := List.mem_singleton.mp inside
  obtain rfl := Option.some.inj isThere
  rfl

section

variable (source : List UInt8) (construct : Construct) (field : Option String)

/-- A node over nodes that are there, with their groups. -/
abbrev convertedOver (children : List Vertex) : Node (Option Vertex) :=
  convertMarked (fun _ => none) none source construct field (children.map standIn)

theorem present_convertedOver (children : List Vertex) :
    (convertedOver source construct field children).present id = children := by
  rw [convertedOver, convertMarked_eq, Node.present]
  exact (presentAll_of_grouped (grouped_wrapChildren none _ _)).trans (presentAll_standIn children)

theorem filled_convertedOver (children : List Vertex) :
    (convertedOver source construct field children).filled id =
      convertNode source construct field (children.map Node.shape) := by
  have shapes : (children.map standIn).map (Node.filled id) = children.map Node.shape := by
    rw [List.map_map]
    exact List.map_congr_left fun node _ => filled_standIn node
  rw [convertNode, ← shapes]
  exact relabels_filled.convertMarked_eq relabels_filled.wrapper source field _

theorem attributes_of_mem_convertedOver {children : List Vertex} {node : Node (Option Vertex)}
    (member : node ∈ (convertedOver source construct field children).preorder) {vertex : Vertex}
    (isThere : node.mark = some vertex) : node.attributes = vertex.attributes := by
  rw [convertedOver, convertMarked_eq, Node.preorder, List.mem_cons] at member
  rcases member with rfl | below
  · cases isThere
  · obtain ⟨top, listed, inside⟩ := Node.mem_preorderAll.mp below
    rcases (grouped_wrapChildren none _ _).mem listed with
      before | ⟨kind, field, grammarType, first, rest, rfl, parts⟩
    · exact attributes_of_mem_standIn (Node.mem_preorderAll.mpr ⟨top, before, inside⟩) isThere
    · rcases Node.mem_preorder.mp inside with rfl | deeper
      · cases isThere
      · obtain ⟨part, held, inPart⟩ := Node.mem_preorderAll.mp deeper
        exact attributes_of_mem_standIn
          (Node.mem_preorderAll.mpr ⟨part, parts part held, inPart⟩) isThere

end

/-! ## Creating nodes -/

/-- The creation adds one free tree of the given shape to those that stand in the forest. -/
structure Creates (creation : Creation Vertex) (shape : Shape) : Prop where
  free : ∀ {forest : Forest} {trees : List Vertex}, forest.FreeTrees trees →
    (creation forest).2.FreeTrees (trees ++ [(creation forest).1])
  shape : ∀ forest, (creation forest).1.shape = shape

theorem freeTrees_createAll {creations : List (Creation Vertex)} {shapes : List Shape}
    (creates : List.Forall₂ Creates creations shapes) {forest : Forest} {trees : List Vertex}
    (free : forest.FreeTrees trees) :
    (createAll creations forest).2.FreeTrees (trees ++ (createAll creations forest).1) := by
  induction creates generalizing forest trees with
  | nil => rwa [createAll, List.append_nil]
  | cons first _ induction =>
      rw [createAll, List.append_cons]
      exact induction (first.free free)

theorem map_shape_createAll {creations : List (Creation Vertex)} {shapes : List Shape}
    (creates : List.Forall₂ Creates creations shapes) (forest : Forest) :
    (createAll creations forest).1.map Node.shape = shapes := by
  induction creates generalizing forest with
  | nil => rfl
  | cons first _ induction => rw [createAll, List.map_cons, first.shape, induction]

/-- A node is created over what its children have become once they are grouped. -/
theorem creates_createNode (source : List UInt8) (construct : Construct) (field : Option String)
    {children : List (Creation Vertex)} {shapes : List Shape}
    (creates : List.Forall₂ Creates children shapes) :
    Creates (createNode source construct field children)
      (convertNode source construct field shapes) where
  free {forest trees} free := by
    have made := freeTrees_createAll creates free
    rw [← present_convertedOver source construct field (createAll children forest).1,
      ← List.append_nil (trees ++ _)] at made
    exact Forest.freeTrees_complete _ made
  shape forest := by
    rw [createNode, Forest.shape_complete, filled_convertedOver, map_shape_createAll creates]
    intro node member vertex isThere
    exact attributes_of_mem_convertedOver source construct field member isThere

mutual

theorem creates_fold (source : List UInt8) : (node : ParseNode) → (field : Option String) →
    Creates (node.fold (createNode source) field) (node.fold (convertNode source) field)
  | .mk construct children, field => by
      rw [ParseNode.fold, ParseNode.fold]
      exact creates_createNode source construct field (creates_foldAll source children)

theorem creates_foldAll (source : List UInt8) : (nodes : List ParseNode) →
    List.Forall₂ Creates (ParseNode.foldAll (createNode source) nodes)
      (ParseNode.foldAll (convertNode source) nodes)
  | [] => .nil
  | node :: nodes => by
      rw [ParseNode.foldAll, ParseNode.foldAll]
      exact .cons (creates_fold source node node.construct.field) (creates_foldAll source nodes)

end

/-- Following a parse tree with a cursor, its normal form is created. -/
theorem creates_creation (source : List UInt8) (root : ParseNode) :
    Creates (creation source root) (normalize source root) := by
  rw [creation, normalize, ParseNode.traversed_eq_fold, ParseNode.traversed_eq_fold]
  exact creates_fold source root none

theorem shape_create (source : List UInt8) (root : ParseNode) :
    (create source root).1.shape = normalize source root :=
  (creates_creation source root).shape .empty

theorem freeTrees_create (source : List UInt8) (root : ParseNode) :
    (create source root).2.FreeTrees [(create source root).1] :=
  (creates_creation source root).free (.nil .empty)

theorem isTree_create (source : List UInt8) (root : ParseNode) :
    (create source root).2.IsTree (create source root).1 :=
  (freeTrees_create source root).isTree

theorem parent?_create_root (source : List UInt8) (root : ParseNode) :
    (create source root).2.parent? (create source root).1 = none :=
  (freeTrees_create source root).parent?_root

end Grammar

end CodeMetrics
