import CodeMetrics.Proofs.Grammar.PregroupedForm
import CodeMetrics.Proofs.Metrics.Agreement

/-!
# Analyses of pregrouped parse trees

No analysis looks at the slot or the grammar type of a node over an else or over a switch label. So
a parse tree gives the same results whether these are grouped in it or not.
-/

namespace CodeMetrics

/-! ## What the analyses see -/

namespace EqualButWrappers

variable {μ : Type} {tree : Node (Option μ)} {twin : Shape}

theorem forall₂_children (equal : EqualButWrappers tree twin) :
    List.Forall₂ EqualButWrappers tree.children twin.children := by
  cases equal with
  | read below => exact below
  | wrapper _ _ _ below => exact below

theorem kind_eq (equal : EqualButWrappers tree twin) : tree.kind = twin.kind := by
  cases equal with
  | read => rfl
  | wrapper kind => exact kind

theorem span_eq (equal : EqualButWrappers tree twin) : tree.span = twin.span := by
  cases equal with
  | read => rfl
  | wrapper _ span => exact span

theorem text_eq (equal : EqualButWrappers tree twin) : tree.text = twin.text := by
  cases equal with
  | read => rfl
  | wrapper _ _ text => exact text

theorem field_eq (equal : EqualButWrappers tree twin) (marked : tree.mark.isSome) :
    tree.field = twin.field := by
  cases equal with
  | read => rfl
  | wrapper => simp at marked

/-- Below trees that are equal up to wrappers, paired nodes are equal up to wrappers. -/
theorem exists_of_paired {marked : Node (Option μ)} {left right : Vertex}
    (equal : EqualButWrappers marked right.shape) (shape : left.shape = marked.shape)
    {node other : Vertex} (paired : Paired left right node other) :
    ∃ tree ∈ marked.preorder, node.shape = tree.shape ∧ EqualButWrappers tree other.shape := by
  induction paired with
  | roots => exact ⟨marked, Node.self_mem_preorder marked, shape, equal⟩
  | @children holder otherHolder child twin index _ here there induction =>
      obtain ⟨tree, inside, shapes, below⟩ := induction
      have children := congrArg (fun shape : Shape => shape.children[index]?) shapes
      have related := rel_getElem? below.forall₂_children index
      simp only [Node.children_shape, List.getElem?_map, here, Option.map_some] at children
      simp only [Node.children_shape, List.getElem?_map, there, Option.map_some] at related
      cases found : tree.children[index]? with
      | none => simp [found] at children
      | some inner =>
          rw [found] at related children
          have held := Node.child_mem_preorder (List.mem_of_getElem? found)
          cases related with
          | some equalInner =>
              exact ⟨inner, Node.mem_preorder_trans held marked inside, Option.some.inj children,
                equalInner⟩

end EqualButWrappers

theorem alike_of_equalButWrappers {μ : Type} {marked : Node (Option μ)} {first second : Forest}
    {left right : Vertex} (leftTree : first.IsTree left) (rightTree : second.IsTree right)
    (leftTop : first.parent? left = none) (rightTop : second.parent? right = none)
    (inPlace : marked.WrappersInPlace) (shape : left.shape = marked.shape)
    (equal : EqualButWrappers marked right.shape) : Alike first second left right := by
  refine ⟨leftTree, rightTree, leftTop, rightTop, ?_, ?_, ?_, ?_, ?_⟩
  all_goals
    intro node other paired
    obtain ⟨tree, inside, shapes, below⟩ := equal.exists_of_paired shape paired
    have children := congrArg Node.children shapes
    rw [Node.children_shape, Node.children_shape] at children
  · rw [← Node.kind_shape node, shapes, Node.kind_shape, below.kind_eq, Node.kind_shape]
  · rw [← Node.span_shape node, shapes, Node.span_shape, below.span_eq, Node.span_shape]
  · rw [← Node.text_shape node, shapes, Node.text_shape, below.text_eq, Node.text_shape]
  · have lengths := below.forall₂_children.length_eq
    rw [Node.children_shape, List.length_map] at lengths
    have sameLength := congrArg List.length children
    rw [List.length_map, List.length_map] at sameLength
    exact sameLength.trans lengths
  · intro slotted
    have kind : tree.kind = node.kind := by
      rw [← Node.kind_shape tree, ← shapes, Node.kind_shape]
    have read : ∀ child ∈ tree.children, child.mark.isSome := by
      intro child held
      cases isMarked : child.mark with
      | some _ => rfl
      | none =>
          obtain ⟨before, after, split⟩ := List.append_of_mem held
          rcases (inPlace.2 tree inside before child after split isMarked).2 with onIf | onSection
          · simp [← kind, onIf.1, Kind.isUnslotted] at slotted
          · simp [← kind, onSection, Kind.isUnslotted] at slotted
    have fields : tree.children.map Node.field = other.shape.children.map Node.field := by
      apply map_eq_of_forall₂ ((List.forall₂_and_left _ _).mpr ⟨read, below.forall₂_children⟩)
      intro child twin ⟨isMarked, equalChild⟩
      exact equalChild.field_eq isMarked
    rw [Node.children_shape, Node.map_field_map_shape] at fields
    rw [← fields, ← Node.map_field_map_shape, children, Node.map_field_map_shape]

/-! ## Nodes told apart by kind and span -/

/-- The kinds and spans of the nodes of a tree that are of selected kinds. -/
def Node.places {ι : Type} (selected : Kind → Bool) (tree : Node ι) : List (Kind × Span) :=
  (tree.preorder.filter fun node => selected node.kind).map fun node => (node.kind, node.span)

theorem Node.places_shape {ι : Type} (selected : Kind → Bool) (tree : Node ι) :
    tree.shape.places selected = tree.places selected := by
  rw [places, places, preorder_shape, List.filter_map, List.map_map]
  simp [Function.comp_def]

namespace Alike

variable {first second : Forest} {left right : Vertex}

theorem places_eq (alike : Alike first second left right) (selected : Kind → Bool) :
    left.places selected = right.places selected := by
  apply map_eq_of_forall₂ (forall₂_filter (alike.forall₂_preorder .roots) ?_)
  · intro node other paired
    rw [alike.kind paired, alike.span paired]
  · intro node other paired
    rw [alike.kind paired]

/-- Where nodes of a kind are told apart by their spans, two of them are equal when the nodes paired
with them are. -/
theorem shape_eq_iff_of_nodup (alike : Alike first second left right) {selected : Kind → Bool}
    (apart : (left.places selected).Nodup) {node other third fourth : Vertex}
    (paired : Paired left right node other) (pairedThird : Paired left right third fourth)
    (isSelected : selected node.kind = true) (kinds : node.kind = third.kind) :
    node.shape = third.shape ↔ other.shape = fourth.shape := by
  have otherApart : (right.places selected).Nodup := alike.places_eq selected ▸ apart
  have unique : ∀ {tree node third : Vertex}, (tree.places selected).Nodup →
      node ∈ tree.preorder → third ∈ tree.preorder → selected node.kind = true →
        node.kind = third.kind → node.span = third.span → node = third := by
    intro tree node third apart member memberThird isSelected kinds spans
    refine List.inj_on_of_nodup_map apart ?_ ?_ (Prod.ext kinds spans)
    · exact List.mem_filter.mpr ⟨member, isSelected⟩
    · exact List.mem_filter.mpr ⟨memberThird, kinds ▸ isSelected⟩
  have spanOf : ∀ {node third : Vertex}, node.shape = third.shape → node.span = third.span := by
    intro node third shapes
    rw [← Node.span_shape node, shapes, Node.span_shape]
  have otherKinds : other.kind = fourth.kind := by
    rw [← alike.kind paired, kinds, alike.kind pairedThird]
  obtain ⟨member, otherMember⟩ := paired.mem_preorder
  obtain ⟨memberThird, memberFourth⟩ := pairedThird.mem_preorder
  constructor
  · intro shapes
    have spans : other.span = fourth.span := by
      rw [← alike.span paired, spanOf shapes, alike.span pairedThird]
    rw [unique otherApart otherMember memberFourth (alike.kind paired ▸ isSelected) otherKinds
      spans]
  · intro shapes
    have spans : node.span = third.span := by
      rw [alike.span paired, spanOf shapes, alike.span pairedThird]
    rw [unique apart member memberThird isSelected kinds spans]

end Alike

/-! ## Analyses of pregrouped trees -/

namespace Grammar

theorem interchangeable_pregroup (source : List UInt8) (template : List ParseNode → Construct)
    (text filePath : String) (root : ParseNode)
    (members : ((normalize source root).places Kind.isMember).Nodup)
    (operators : ((normalize source root).places fun kind => kind.IsLogical).Nodup) :
    let plain := Parser.documentOver source text filePath root
    let grouped := Parser.documentOver source text filePath (root.pregroup source template)
    Interchangeable plain.forest grouped.forest plain.root grouped.root := by
  intro plain grouped
  have shape : plain.root.shape = normalize source root :=
    shape_create source root
  have equal : EqualButWrappers (markedForm source root) grouped.root.shape := by
    rw [show grouped.root.shape = _ from shape_create source (root.pregroup source template)]
    exact equal_pregroup source template root
  have inPlace : (markedForm source root).WrappersInPlace := by
    rw [markedForm, ParseNode.traversed_eq_fold]
    exact wrappersInPlace_fold source root none
  have alike : Alike plain.forest grouped.forest plain.root grouped.root :=
    alike_of_equalButWrappers (isTree_create source _) (isTree_create source _)
      (parent?_create_root source _) (parent?_create_root source _) inPlace
      (shape.trans (shape_markedForm source root).symm) equal
  refine ⟨alike, ?_⟩
  rw [← shape, Node.places_shape] at members operators
  intro node other third fourth paired pairedThird compared kinds
  rcases compared with logical | isMember
  · exact alike.shape_eq_iff_of_nodup operators paired pairedThird (decide_eq_true logical) kinds
  · exact alike.shape_eq_iff_of_nodup members paired pairedThird isMember kinds

/-- Grouping else clauses and switch labels on the parse tree changes nothing. The normal form stays
the same up to the slots and grammar types of the nodes over the groups. Where member declarations
and logical operators are told apart by kind and span, the metrics agree, with public surfaces at
the same places, every node has the score of the node at its place, and the reports under any
thresholds are the same. -/
theorem pregroup_invisible (source : List UInt8) (template : List ParseNode → Construct)
    (text filePath : String) (root : ParseNode) :
    let plain := Parser.documentOver source text filePath root
    let grouped := Parser.documentOver source text filePath (root.pregroup source template)
    (markedForm source root).shape = normalize source root ∧
      EqualButWrappers (markedForm source root) (normalize source (root.pregroup source template)) ∧
      (((normalize source root).places Kind.isMember).Nodup →
        ((normalize source root).places fun kind => kind.IsLogical).Nodup →
          (∀ ignoreHeader,
            Concur
              (Snapshot.Agrees fun node other => node.kind = other.kind ∧ node.span = other.span)
              (plain.metrics ignoreHeader) (grouped.metrics ignoreHeader)) ∧
          List.Forall₂ (fun node other => ∀ functionName,
              cognitiveScore plain.forest node functionName =
                cognitiveScore grouped.forest other functionName)
            plain.root.preorder grouped.root.preorder ∧
          ∀ thresholds, Concur Eq (Gauge.evaluate ⟨thresholds, .none⟩ plain)
            (Gauge.evaluate ⟨thresholds, .none⟩ grouped)) := by
  intro plain grouped
  refine ⟨shape_markedForm source root, equal_pregroup source template root, ?_⟩
  intro members operators
  have same : Interchangeable plain.forest grouped.forest plain.root grouped.root :=
    interchangeable_pregroup source template text filePath root members operators
  have origin : plain.SameOrigin grouped := ⟨rfl, rfl, rfl⟩
  refine ⟨?_, ?_, ?_⟩
  · intro ignoreHeader
    rcases same.metrics_agree origin ignoreHeader with
      ⟨snapshot, other, counted, otherCounted, fields, surfaces⟩ | ⟨foreign, -⟩
    · refine ⟨snapshot, other, counted, otherCounted, fields, surfaces.imp ?_⟩
      exact fun node other paired => ⟨same.kind paired, same.span paired⟩
    · exact absurd rfl foreign
  · exact (same.forall₂_preorder .roots).imp fun node other paired => same.cognitiveScore_eq paired
  · intro thresholds
    obtain ⟨declarations, reported, -⟩ :=
      Gauge.exists_measureAll same.leftTree.built thresholds plain.root.walk
    have evaluated : Gauge.evaluate ⟨thresholds, .none⟩ plain = .ok declarations :=
      (if_pos rfl).trans reported
    exact ⟨declarations, declarations, evaluated,
      (same.evaluate_eq origin thresholds).symm.trans evaluated, rfl⟩

/-- A method whose body is `labelledElse`. -/
def labelledElseMethod : ParseNode :=
  sketchAt "method_declaration" true 0 21 [sketchAt "block" true 0 21 [labelledElse]]

/-- A slot for the nodes over groups. -/
def alternativeSlot (_ : List ParseNode) : Construct :=
  ⟨"", false, false, false, false, some "alternative", 0, 0, ⟨0, 0⟩, ⟨0, 0⟩⟩

theorem pregroup_invisible_labelledElse :
    let plain := Parser.documentOver labelledElseSource "" "A.cs" labelledElseMethod
    let grouped := Parser.documentOver labelledElseSource "" "A.cs"
      (labelledElseMethod.pregroup labelledElseSource alternativeSlot)
    plain.root.shape ≠ grouped.root.shape ∧
      Concur (Snapshot.Agrees fun node other => node.kind = other.kind ∧ node.span = other.span)
        (plain.metrics true) (grouped.metrics true) ∧
      Concur Eq (Gauge.evaluate ⟨⟨0, 0⟩, .none⟩ plain)
        (Gauge.evaluate ⟨⟨0, 0⟩, .none⟩ grouped) := by
  obtain ⟨-, -, analyses⟩ :=
    pregroup_invisible labelledElseSource alternativeSlot "" "A.cs" labelledElseMethod
  obtain ⟨metrics, -, reports⟩ := analyses (by decide +kernel) (by decide +kernel)
  have differ : normalize labelledElseSource labelledElseMethod ≠ normalize labelledElseSource
      (labelledElseMethod.pregroup labelledElseSource alternativeSlot) := by decide +kernel
  rw [← shape_create, ← shape_create] at differ
  exact ⟨differ, metrics true, reports ⟨0, 0⟩⟩

end Grammar

end CodeMetrics
