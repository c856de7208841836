import CodeMetrics.Proofs.Grammar.CreatedNodes

/-!
# The normal form loses nothing

In the marked normal form each node that was read carries its construct, and a wrapper carries
nothing. Without the marks it is the normal form. With every wrapper replaced by its children it is
the parse tree, node for node. The nodes that are created have the shape of the normal form.
-/

namespace CodeMetrics

/-! ## Unwrapping -/

namespace Node

variable {μ : Type}

mutual

/-- The tree with every unmarked node replaced by its children. -/
def unwrapped : Node (Option μ) → List (Node μ)
  | .mk none _ children => unwrappedAll children
  | .mk (some mark) attributes children => [.mk mark attributes (unwrappedAll children)]

/-- The trees with every unmarked node replaced by its children. -/
def unwrappedAll : List (Node (Option μ)) → List (Node μ)
  | [] => []
  | node :: nodes => unwrapped node ++ unwrappedAll nodes

end

theorem unwrappedAll_append (left right : List (Node (Option μ))) :
    unwrappedAll (left ++ right) = unwrappedAll left ++ unwrappedAll right := by
  induction left with
  | nil => rfl
  | cons node nodes induction =>
      rw [List.cons_append, unwrappedAll, unwrappedAll, induction, List.append_assoc]

theorem unwrappedAll_of_grouped {nodes grouped : List (Node (Option μ))}
    (isGrouped : Grammar.Grouped none nodes grouped) :
    unwrappedAll grouped = unwrappedAll nodes := by
  induction isGrouped with
  | nil => rfl
  | keep node _ induction => rw [unwrappedAll, unwrappedAll, induction]
  | wrap kind field grammarType first rest _ induction =>
      rw [unwrappedAll, unwrappedAll_append, induction, Grammar.wrapper, unwrapped]

/-- A node with children that reaches from the start of the first to the end of the last. -/
def CoversChildren (node : Node μ) : Prop :=
  ∃ first last, node.children.head? = some first ∧ node.children.getLast? = some last ∧
    node.span = first.span.join last.span

theorem coversChildren_wrapper (inserted : μ) (kind : Kind) (field : Option String)
    (grammarType : String) (first : Node μ) (rest : List (Node μ)) :
    (Grammar.wrapper inserted kind field grammarType first rest).CoversChildren :=
  ⟨first, rest.getLast?.getD first, rfl, List.getLast?_cons, rfl⟩

/-- Unmarked nodes cover their children, and stand only at the end of an if or in a switch section. -/
def WrappersInPlace (tree : Node (Option μ)) : Prop :=
  tree.mark.isSome ∧
    ∀ node ∈ tree.preorder, ∀ before child after, node.children = before ++ child :: after →
      child.mark = none →
        child.CoversChildren ∧
          (node.kind = .ifStatement ∧ after = [] ∨ node.kind = .switchSection)

end Node

/-! ## Mirroring -/

/-- What a node says of the construct it was read from, in the given slot. -/
structure Attributes.Describes (attributes : Attributes) (source : List UInt8)
    (construct : Construct) (field : Option String) (isLeaf : Bool) : Prop where
  span : attributes.span = construct.span
  field : attributes.field = field
  grammarType : attributes.grammarType = construct.type
  token : attributes.kind = .token ↔ construct.isNamed = false
  text : attributes.text = if isLeaf then some (Grammar.textOf source construct) else none

namespace ParseNode

mutual

/-- The constructs of a parse tree, in pre-order. -/
def constructs : ParseNode → List Construct
  | .mk construct children => construct :: constructsAll children

/-- The constructs of parse trees, one tree after the other. -/
def constructsAll : List ParseNode → List Construct
  | [] => []
  | node :: nodes => node.constructs ++ constructsAll nodes

end

mutual

/-- The tree has a node for each node of the parse tree, in the same order, that was read from it and
describes it. -/
def Mirrors (source : List UInt8) : Option String → ParseNode → Node Construct → Prop
  | field, .mk construct children, .mk mark attributes nodes =>
      mark = construct ∧ attributes.Describes source construct field children.isEmpty ∧
        MirrorsAll source children nodes

/-- The trees mirror the parse trees one by one, each in its own slot. -/
def MirrorsAll (source : List UInt8) : List ParseNode → List (Node Construct) → Prop
  | [], [] => True
  | child :: children, node :: nodes =>
      Mirrors source child.construct.field child node ∧ MirrorsAll source children nodes
  | _, _ => False

end

end ParseNode

namespace Grammar

/-- The normal form of a parse tree in which each node carries the construct that it was read from,
and a wrapper carries nothing. -/
def markedForm (source : List UInt8) (root : ParseNode) : Node (Option Construct) :=
  root.traversed (convertMarked some none source)

theorem kindOfComment_ne_token (text : String) : kindOfComment text ≠ .token := by
  simp only [kindOfComment]
  split_ifs <;> simp

theorem kindOfOperator_ne_token (operator : Option String) : kindOfOperator operator ≠ .token := by
  unfold kindOfOperator
  split <;> simp

theorem kindOfType_ne_token (type : String) : kindOfType type ≠ .token := by
  have named : ∀ entry ∈ kindTable, entry.2 ≠ .token := by decide
  unfold kindOfType
  cases found : kindTable.find? fun entry => entry.1 == type with
  | none => simp
  | some entry => exact named entry (List.mem_of_find?_eq_some found)

/-- Exactly the constructs without a name become tokens. -/
theorem kindOf_eq_token_iff {ι : Type} (source : List UInt8) (construct : Construct)
    (children : List (Node ι)) :
    kindOf source construct children = .token ↔ construct.isNamed = false := by
  unfold kindOf
  cases construct.isNamed with
  | false => simp
  | true =>
      simp only [Bool.not_true, Bool.false_eq_true, if_false, Bool.true_eq_false, iff_false]
      split
      · exact kindOfComment_ne_token _
      · split
        · exact kindOfOperator_ne_token _
        · exact kindOfType_ne_token construct.type

theorem describes_of (source : List UInt8) {construct : Construct} {kind : Kind}
    (field : Option String) (isLeaf : Bool) (typed : construct.type ≠ "")
    (token : kind = .token ↔ construct.isNamed = false) :
    (Attributes.of kind construct.span
      (if isLeaf then some (textOf source construct) else none) field construct.type).Describes
        source construct field isLeaf where
  span := rfl
  field := rfl
  grammarType := by simp [Attributes.of, typed]
  token := token
  text := rfl

section

variable (source : List UInt8)

mutual

theorem shape_fold_marked : (node : ParseNode) → (field : Option String) →
    (node.fold (convertMarked some none source) field).shape = node.fold (convertNode source) field
  | .mk construct children, field => by
      rw [ParseNode.fold, ParseNode.fold, shape_convertMarked, map_shape_foldAll_marked children]

theorem map_shape_foldAll_marked : (nodes : List ParseNode) →
    (ParseNode.foldAll (convertMarked some none source) nodes).map Node.shape =
      ParseNode.foldAll (convertNode source) nodes
  | [] => rfl
  | node :: nodes => by
      rw [ParseNode.foldAll, ParseNode.foldAll, List.map_cons, shape_fold_marked node,
        map_shape_foldAll_marked nodes]

end

/-- The marked normal form is the normal form with marks. -/
theorem shape_markedForm (root : ParseNode) :
    (markedForm source root).shape = normalize source root := by
  rw [markedForm, normalize, ParseNode.traversed_eq_fold, ParseNode.traversed_eq_fold,
    shape_fold_marked]

theorem isEmpty_foldAll {α : Type} (build : Build α) (nodes : List ParseNode) :
    (ParseNode.foldAll build nodes).isEmpty = nodes.isEmpty := by
  cases nodes <;> rfl

mutual

/-- Unwrapping a converted tree restores the parse tree. -/
theorem mirrors_fold : (node : ParseNode) → (field : Option String) →
    (∀ construct ∈ node.constructs, construct.type ≠ "") →
      ∃ tree, (node.fold (convertMarked some none source) field).unwrapped = [tree] ∧
        node.Mirrors source field tree
  | .mk construct children, field, typed => by
      rw [ParseNode.constructs, List.forall_mem_cons] at typed
      rw [ParseNode.fold, convertMarked_eq, Node.unwrapped,
        Node.unwrappedAll_of_grouped (grouped_wrapChildren none _ _), isEmpty_foldAll]
      refine ⟨_, rfl, rfl, ?_, mirrors_foldAll children typed.2⟩
      exact describes_of source field children.isEmpty typed.1 (kindOf_eq_token_iff ..)

theorem mirrors_foldAll : (nodes : List ParseNode) →
    (∀ construct ∈ ParseNode.constructsAll nodes, construct.type ≠ "") →
      ParseNode.MirrorsAll source nodes
        (Node.unwrappedAll (ParseNode.foldAll (convertMarked some none source) nodes))
  | [], _ => trivial
  | node :: nodes, typed => by
      rw [ParseNode.constructsAll, List.forall_mem_append] at typed
      obtain ⟨tree, unwrapped, mirrors⟩ := mirrors_fold node node.construct.field typed.1
      rw [ParseNode.foldAll, Node.unwrappedAll, unwrapped]
      exact ⟨mirrors, mirrors_foldAll nodes typed.2⟩

end

/-! ## Wrappers -/

theorem mark_fold (node : ParseNode) (field : Option String) :
    (node.fold (convertMarked some none source) field).mark = some node.construct := by
  rw [ParseNode.fold_eq, convertMarked_eq, Node.mark_mk]

theorem isSome_mark_of_mem_foldAll {nodes : List ParseNode} {tree : Node (Option Construct)}
    (member : tree ∈ ParseNode.foldAll (convertMarked some none source) nodes) :
    tree.mark.isSome := by
  induction nodes with
  | nil => simp [ParseNode.foldAll] at member
  | cons node nodes induction =>
      rw [ParseNode.foldAll, List.mem_cons] at member
      rcases member with rfl | later
      · rw [mark_fold]
        rfl
      · exact induction later

/-- A wrapper among the grouped children of a node. -/
theorem wrapper_in_place {kind : Kind} {children before after : List (Node (Option Construct))}
    {child : Node (Option Construct)} (marked : ∀ node ∈ children, node.mark.isSome)
    (split : wrapChildren none kind children = before ++ child :: after)
    (inserted : child.mark = none) :
    child.CoversChildren ∧ (kind = .ifStatement ∧ after = [] ∨ kind = .switchSection) := by
  have notRead : child ∉ children := by
    intro read
    simpa [inserted] using marked child read
  have member : child ∈ wrapChildren none kind children := by simp [split]
  constructor
  · rcases (grouped_wrapChildren none kind children).mem member with
      read | ⟨kind, field, grammarType, first, rest, rfl, -⟩
    · exact absurd read notRead
    · exact Node.coversChildren_wrapper none kind field grammarType first rest
  · by_cases isIf : kind = .ifStatement
    · refine .inl ⟨isIf, ?_⟩
      rw [wrapChildren, if_pos isIf] at split
      rcases wrapElse_cases none children with same | ⟨start, first, rest, parts, wrapped⟩
      · rw [same] at split
        exact absurd (by simp [split]) notRead
      · -- all that stands before the else clause was read, so the wrapper is the last child
        rw [wrapped] at split
        rcases List.append_eq_append_iff.mp split with ⟨middle, -, last⟩ | ⟨middle, earlier, last⟩
        · cases middle with
          | nil => exact (List.cons.inj last).2.symm
          | cons node middle => simp at last
        · cases middle with
          | nil => exact (List.cons.inj last).2
          | cons node middle =>
              obtain ⟨rfl, -⟩ := List.cons.inj last
              exact absurd (by simp [parts, earlier]) notRead
    · by_cases isSection : kind = .switchSection
      · exact .inr isSection
      · rw [wrapChildren, if_neg isIf, if_neg isSection] at member
        exact absurd member notRead

mutual

theorem wrappersInPlace_fold : (node : ParseNode) → (field : Option String) →
    (node.fold (convertMarked some none source) field).WrappersInPlace
  | .mk construct children, field => by
      refine ⟨by rw [mark_fold]; rfl, ?_⟩
      intro node member before child after split inserted
      have marked : ∀ tree ∈ ParseNode.foldAll (convertMarked some none source) children,
          tree.mark.isSome := fun _ listed => isSome_mark_of_mem_foldAll source listed
      rw [ParseNode.fold, convertMarked_eq, Node.preorder, List.mem_cons] at member
      rcases member with rfl | below
      · exact wrapper_in_place marked split inserted
      · rcases (grouped_wrapChildren none _ _).mem_preorderAll below with read | parts
        · obtain ⟨tree, listed, inside⟩ := Node.mem_preorderAll.mp read
          exact (wrappersInPlace_foldAll children tree listed).2 node inside before child after split
            inserted
        · have read := marked child (parts child (by simp [split]))
          simp [inserted] at read

theorem wrappersInPlace_foldAll : (nodes : List ParseNode) →
    ∀ tree ∈ ParseNode.foldAll (convertMarked some none source) nodes, tree.WrappersInPlace
  | [], _, member => by simp [ParseNode.foldAll] at member
  | node :: nodes, tree, member => by
      rw [ParseNode.foldAll, List.mem_cons] at member
      rcases member with rfl | later
      · exact wrappersInPlace_fold node node.construct.field
      · exact wrappersInPlace_foldAll nodes tree later

end

end

/-- The normal form loses, doubles and moves nothing: without its wrappers it is the parse tree, its
wrappers are in place, and of the nodes created for it each occurs once and is the parent of its
children. -/
theorem normalize_lossless (source : List UInt8) (root : ParseNode)
    (typed : ∀ construct ∈ root.constructs, construct.type ≠ "") :
    (markedForm source root).shape = normalize source root ∧
      (∃ tree, (markedForm source root).unwrapped = [tree] ∧ root.Mirrors source none tree) ∧
      (markedForm source root).WrappersInPlace ∧
      (create source root).1.shape = normalize source root ∧
      (create source root).1.Distinct ∧
      ∀ node ∈ (create source root).1.preorder, ∀ child ∈ node.children,
        (create source root).2.parent? child = some node := by
  have folded : markedForm source root = root.fold (convertMarked some none source) none :=
    ParseNode.traversed_eq_fold _ root
  have created := isTree_create source root
  refine ⟨shape_markedForm source root, ?_, ?_, shape_create source root, created.distinct, ?_⟩
  · rw [folded]
    exact mirrors_fold source root none typed
  · rw [folded]
    exact wrappersInPlace_fold source root none
  · intro node member child held
    exact created.parent?_eq member held

/-- A parse node of a type that lies between two offsets of the first row. -/
def sketchAt (type : String) (isNamed : Bool) (startByte endByte : Int)
    (children : List ParseNode) : ParseNode :=
  .mk ⟨type, isNamed, false, false, false, none, startByte, endByte, ⟨0, startByte⟩, ⟨0, endByte⟩⟩
    children

theorem children_sketchAt (type : String) (isNamed : Bool) (startByte endByte : Int)
    (children : List ParseNode) :
    (sketchAt type isNamed startByte endByte children).children = children := rfl

/-- The source text of `labelledElse`. -/
def labelledElseSource : List UInt8 := "case 1:if(a)b;else c;".toUTF8.toList

/-- A switch section with a label, over an if with an else. -/
def labelledElse : ParseNode :=
  sketchAt "switch_section" true 0 21
    [sketchAt "case" false 0 4 [], sketchAt "integer_literal" true 5 6 [],
      sketchAt ":" false 6 7 [],
      sketchAt "if_statement" true 7 21
        [sketchAt "if" false 7 9 [], sketchAt "(" false 9 10 [], sketchAt "identifier" true 10 11 [],
          sketchAt ")" false 11 12 [], sketchAt "expression_statement" true 12 14 [],
          sketchAt "else" false 14 18 [], sketchAt "expression_statement" true 19 21 []]]

theorem normalize_lossless_labelledElse :
    (∀ construct ∈ labelledElse.constructs, construct.type ≠ "") ∧
      (∃ tree, (markedForm labelledElseSource labelledElse).unwrapped = [tree] ∧
        labelledElse.Mirrors labelledElseSource none tree) ∧
      (markedForm labelledElseSource labelledElse).WrappersInPlace := by
  have typed : ∀ construct ∈ labelledElse.constructs, construct.type ≠ "" := by decide
  obtain ⟨-, restored, inPlace, -⟩ := normalize_lossless labelledElseSource labelledElse typed
  exact ⟨typed, restored, inPlace⟩

end Grammar

end CodeMetrics
