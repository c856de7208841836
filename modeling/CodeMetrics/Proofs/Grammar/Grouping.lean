import CodeMetrics.Grammar.Normal
import CodeMetrics.Proofs.Tree.Lineage

/-!
# What grouping does to the children of a node

Grouping puts runs of consecutive children under wrappers and leaves everything else in its place. It
looks at attributes only, so it commutes with every change of the nodes that keeps these, such as
forgetting the marks.
-/

namespace CodeMetrics

namespace Grammar

variable {ι : Type}

/-- The second list is the first one with runs of nodes put under wrappers. -/
inductive Grouped (inserted : ι) : List (Node ι) → List (Node ι) → Prop
  | nil : Grouped inserted [] []
  | keep (node : Node ι) {nodes grouped : List (Node ι)} :
      Grouped inserted nodes grouped → Grouped inserted (node :: nodes) (node :: grouped)
  | wrap (kind : Kind) (field : Option String) (grammarType : String) (first : Node ι)
      (rest : List (Node ι)) {nodes grouped : List (Node ι)} :
      Grouped inserted nodes grouped →
      Grouped inserted (first :: rest ++ nodes)
        (wrapper inserted kind field grammarType first rest :: grouped)

namespace Grouped

variable {inserted : ι} {nodes grouped : List (Node ι)}

theorem refl (inserted : ι) (nodes : List (Node ι)) : Grouped inserted nodes nodes := by
  induction nodes with
  | nil => exact .nil
  | cons node nodes induction => exact .keep node induction

theorem prepend (before : List (Node ι)) (rest : Grouped inserted nodes grouped) :
    Grouped inserted (before ++ nodes) (before ++ grouped) := by
  induction before with
  | nil => exact rest
  | cons node before induction => exact .keep node induction

theorem eq_nil (isGrouped : Grouped inserted [] grouped) : grouped = [] := by
  cases isGrouped
  rfl

/-- What is among the grouped nodes was there before, or is a wrapper over nodes that were. -/
theorem mem (isGrouped : Grouped inserted nodes grouped) {node : Node ι} (member : node ∈ grouped) :
    node ∈ nodes ∨
      ∃ kind field grammarType first rest,
        node = wrapper inserted kind field grammarType first rest ∧
          ∀ part ∈ first :: rest, part ∈ nodes := by
  induction isGrouped with
  | nil => simp at member
  | keep kept _ induction =>
      rcases List.mem_cons.mp member with rfl | later
      · exact .inl List.mem_cons_self
      · rcases induction later with before | ⟨kind, field, grammarType, first, rest, rfl, parts⟩
        · exact .inl (List.mem_cons_of_mem _ before)
        · exact .inr ⟨kind, field, grammarType, first, rest, rfl, fun part held =>
            List.mem_cons_of_mem _ (parts part held)⟩
  | wrap kind field grammarType first rest _ induction =>
      rcases List.mem_cons.mp member with rfl | later
      · exact .inr ⟨kind, field, grammarType, first, rest, rfl, fun part held =>
          List.mem_append_left _ held⟩
      · rcases induction later with before | ⟨kind, field, grammarType, first, rest, rfl, parts⟩
        · exact .inl (List.mem_append_right _ before)
        · exact .inr ⟨kind, field, grammarType, first, rest, rfl, fun part held =>
            List.mem_append_right _ (parts part held)⟩

/-- Below the grouped nodes there is nothing new but the wrappers. -/
theorem mem_preorderAll (isGrouped : Grouped inserted nodes grouped) {node : Node ι}
    (member : node ∈ Node.preorderAll grouped) :
    node ∈ Node.preorderAll nodes ∨ ∀ part ∈ node.children, part ∈ nodes := by
  obtain ⟨top, inGrouped, inside⟩ := Node.mem_preorderAll.mp member
  rcases isGrouped.mem inGrouped with before | ⟨kind, field, grammarType, first, rest, rfl, parts⟩
  · exact .inl (Node.mem_preorderAll.mpr ⟨top, before, inside⟩)
  · rcases Node.mem_preorder.mp inside with rfl | below
    · exact .inr parts
    · obtain ⟨part, held, deeper⟩ := Node.mem_preorderAll.mp below
      exact .inl (Node.mem_preorderAll.mpr ⟨part, parts part held, deeper⟩)

end Grouped

/-! ## The groupings -/

/-- An else clause is the last child, if one is put in at all. -/
theorem wrapElse_cases (inserted : ι) (children : List (Node ι)) :
    wrapElse inserted children = children ∨
      ∃ before first rest,
        children = before ++ first :: rest ∧
          wrapElse inserted children =
            before ++ [wrapper inserted .elseClause (some "else") "else_clause" first rest] := by
  unfold wrapElse
  split
  · exact .inl rfl
  · rename_i first rest split
    refine .inr ⟨_, first, rest, ?_, rfl⟩
    rw [← split, List.takeWhile_append_dropWhile]

theorem grouped_wrapElse (inserted : ι) (children : List (Node ι)) :
    Grouped inserted children (wrapElse inserted children) := by
  rcases wrapElse_cases inserted children with same | ⟨before, first, rest, parts, wrapped⟩
  · rw [same]
    exact .refl inserted children
  · rw [wrapped, parts]
    simpa using (Grouped.wrap .elseClause (some "else") "else_clause" first rest .nil).prepend before

theorem grouped_groupLabels (inserted : ι) (pending children : List (Node ι)) :
    Grouped inserted (pending ++ children)
      ((groupLabels inserted pending children).1 ++ (groupLabels inserted pending children).2) := by
  induction children generalizing pending with
  | nil => simpa [groupLabels] using Grouped.refl inserted pending
  | cons child children induction =>
      cases pending with
      | nil =>
          rw [groupLabels]
          split
          · exact induction [child]
          · exact .keep child (induction [])
      | cons first parts =>
          rw [groupLabels]
          split
          · simpa [label] using Grouped.wrap (labelKind first (parts ++ [child])) none
              (labelKind first (parts ++ [child])).name first (parts ++ [child]) (induction [])
          · simpa using induction (first :: (parts ++ [child]))

/-- Without a colon no label is closed. -/
theorem groupLabels_of_none (inserted : ι) {nodes : List (Node ι)}
    (without : ∀ node ∈ nodes, isTokenOf ":" node = false) (pending : List (Node ι)) :
    (groupLabels inserted pending nodes).1 ++ (groupLabels inserted pending nodes).2 =
      pending ++ nodes := by
  induction nodes generalizing pending with
  | nil => simp [groupLabels]
  | cons node nodes induction =>
      rw [List.forall_mem_cons] at without
      cases pending with
      | nil =>
          rw [groupLabels]
          split
          · exact induction without.2 [node]
          · exact congrArg (node :: ·) (induction without.2 [])
      | cons first parts =>
          rw [groupLabels, if_neg (by simp [without.1]), induction without.2]
          simp

/-- A label that is open takes in what comes up to the next colon. -/
theorem groupLabels_open (inserted : ι) (first : Node ι) {children after : List (Node ι)}
    {colon : Node ι}
    (dropped : children.dropWhile (fun part => !isTokenOf ":" part) = colon :: after)
    (parts : List (Node ι)) :
    groupLabels inserted (first :: parts) children =
      (label inserted first
          (parts ++ (children.takeWhile (fun part => !isTokenOf ":" part) ++ [colon])) ::
        (groupLabels inserted [] after).1, (groupLabels inserted [] after).2) := by
  induction children generalizing parts with
  | nil => simp at dropped
  | cons child children induction =>
      rw [List.dropWhile_cons] at dropped
      rw [groupLabels, List.takeWhile_cons]
      by_cases ends : isTokenOf ":" child
      · obtain ⟨rfl, rfl⟩ : child = colon ∧ children = after := by simpa [ends] using dropped
        simp [ends]
      · simp only [ends, Bool.false_eq_true, if_false, Bool.not_false, if_true] at dropped ⊢
        simp [induction dropped]

theorem grouped_wrapChildren (inserted : ι) (kind : Kind) (children : List (Node ι)) :
    Grouped inserted children (wrapChildren inserted kind children) := by
  unfold wrapChildren
  split
  · exact grouped_wrapElse inserted children
  · split
    · unfold wrapLabels
      split
      · exact .refl inserted children
      · exact grouped_groupLabels inserted [] children
    · exact .refl inserted children

theorem convertMarked_eq (read : Construct → ι) (inserted : ι) (source : List UInt8)
    (construct : Construct) (field : Option String) (children : List (Node ι)) :
    convertMarked read inserted source construct field children =
      .mk (read construct)
        (.of (kindOf source construct children) construct.span
          (if children.isEmpty then some (textOf source construct) else none) field construct.type)
        (wrapChildren inserted (kindOf source construct children) children) := by
  unfold convertMarked
  split
  · rename_i empty
    obtain rfl := List.isEmpty_iff.mp empty
    rw [(grouped_wrapChildren inserted _ []).eq_nil]
  · rfl

/-! ## Changes of marks -/

/-- The change keeps the attributes of a node, and the place of a wrapper over its children. -/
structure Relabels {κ : Type} (change : Node ι → Node κ) (inserted : ι) (other : κ) : Prop where
  attributes : ∀ node, (change node).attributes = node.attributes
  wrapper : ∀ attributes children,
    change (.mk inserted attributes children) = .mk other attributes (children.map change)

namespace Relabels

variable {κ : Type} {change : Node ι → Node κ} {inserted : ι} {other : κ}
  (relabels : Relabels change inserted other)

include relabels

theorem kind_eq (node : Node ι) : (change node).kind = node.kind :=
  congrArg Attributes.kind (relabels.attributes node)

theorem span_eq (node : Node ι) : (change node).span = node.span :=
  congrArg Attributes.span (relabels.attributes node)

theorem text_eq (node : Node ι) : (change node).text = node.text :=
  congrArg Attributes.text (relabels.attributes node)

theorem field_eq (node : Node ι) : (change node).field = node.field :=
  congrArg Attributes.field (relabels.attributes node)

theorem grammarType_eq (node : Node ι) : (change node).grammarType = node.grammarType :=
  congrArg Attributes.grammarType (relabels.attributes node)

theorem isTokenOf_eq (text : String) (node : Node ι) :
    isTokenOf text (change node) = isTokenOf text node := by
  rw [isTokenOf, isTokenOf, Node.isToken, Node.isToken, relabels.kind_eq, relabels.text_eq]

theorem opensLabel_eq (node : Node ι) : opensLabel (change node) = opensLabel node := by
  rw [opensLabel, opensLabel, relabels.isTokenOf_eq, relabels.isTokenOf_eq]

theorem wrapper_eq (kind : Kind) (field : Option String) (grammarType : String) (first : Node ι)
    (rest : List (Node ι)) :
    change (Grammar.wrapper inserted kind field grammarType first rest) =
      Grammar.wrapper other kind field grammarType (change first) (rest.map change) := by
  have sameSpan : spanOver (change first) (rest.map change) = spanOver first rest := by
    rw [spanOver, spanOver, List.getLast?_map, relabels.span_eq]
    cases rest.getLast? with
    | none => rw [Option.map_none, Option.getD_none, Option.getD_none, relabels.span_eq]
    | some last => rw [Option.map_some, Option.getD_some, Option.getD_some, relabels.span_eq]
  rw [Grammar.wrapper, Grammar.wrapper, relabels.wrapper, List.map_cons, sameSpan]

theorem map_wrapElse (children : List (Node ι)) :
    (wrapElse inserted children).map change = wrapElse other (children.map change) := by
  have test : (fun child : Node κ => !isTokenOf "else" child) ∘ change =
      fun child : Node ι => !isTokenOf "else" child := by
    funext child
    rw [Function.comp_apply, relabels.isTokenOf_eq]
  unfold wrapElse
  rw [List.dropWhile_map, List.takeWhile_map, test]
  cases children.dropWhile fun child => !isTokenOf "else" child with
  | nil => rfl
  | cons first rest => simp [relabels.wrapper_eq]

theorem label_eq (first : Node ι) (rest : List (Node ι)) :
    change (label inserted first rest) = label other (change first) (rest.map change) := by
  have sameKind : labelKind (change first) (rest.map change) = labelKind first rest := by
    have patterns : (fun part : Node κ => decide (part.grammarType ∈ patternTypes)) ∘ change =
        fun part : Node ι => decide (part.grammarType ∈ patternTypes) := by
      funext part
      rw [Function.comp_apply, relabels.grammarType_eq]
    rw [labelKind, labelKind, ← List.map_cons, List.any_map, patterns, relabels.text_eq]
  rw [label, label, relabels.wrapper_eq, sameKind]

theorem groupLabels_map (pending children : List (Node ι)) :
    groupLabels other (pending.map change) (children.map change) =
      ((groupLabels inserted pending children).1.map change,
        (groupLabels inserted pending children).2.map change) := by
  induction children generalizing pending with
  | nil => rfl
  | cons child children induction =>
      cases pending with
      | nil =>
          simp only [List.map_cons, List.map_nil, groupLabels, relabels.opensLabel_eq]
          by_cases opens : opensLabel child
          · simp only [opens, if_true]
            exact induction [child]
          · simp only [opens, Bool.false_eq_true, if_false, List.map_cons]
            rw [← List.map_nil, induction []]
      | cons first parts =>
          simp only [List.map_cons, groupLabels, relabels.isTokenOf_eq]
          by_cases ends : isTokenOf ":" child
          · simp only [ends, if_true, List.map_cons, relabels.label_eq, List.map_append,
              List.map_nil]
            rw [← List.map_nil, induction []]
          · simp only [ends, Bool.false_eq_true, if_false]
            simpa using induction (first :: (parts ++ [child]))

theorem map_wrapLabels (children : List (Node ι)) :
    (wrapLabels inserted children).map change = wrapLabels other (children.map change) := by
  have labelled : hasLabel (children.map change) = hasLabel children := by
    simp only [hasLabel, List.any_map, Function.comp_def, relabels.kind_eq]
  have grouped := relabels.groupLabels_map [] children
  rw [List.map_nil] at grouped
  unfold wrapLabels
  rw [labelled, grouped]
  split
  · rfl
  · exact List.map_append

theorem map_wrapChildren (kind : Kind) (children : List (Node ι)) :
    (wrapChildren inserted kind children).map change =
      wrapChildren other kind (children.map change) := by
  unfold wrapChildren
  split
  · exact relabels.map_wrapElse children
  · split
    · exact relabels.map_wrapLabels children
    · rfl

theorem kindOf_map (source : List UInt8) (construct : Construct) (children : List (Node ι)) :
    kindOf source construct (children.map change) = kindOf source construct children := by
  simp only [kindOf, List.find?_map, Function.comp_def, relabels.field_eq]
  cases children.find? fun child => child.field == some "operator" with
  | none => rfl
  | some child => simp only [Option.map_some, Option.bind_some, relabels.text_eq]

/-- A node is converted alike before and after a change that keeps its own place as well. -/
theorem convertMarked_eq {read : Construct → ι} {construct : Construct} {mark : κ}
    (root : ∀ attributes children, change (.mk (read construct) attributes children) =
      .mk mark attributes (children.map change))
    (source : List UInt8) (field : Option String) (children : List (Node ι)) :
    change (convertMarked read inserted source construct field children) =
      convertMarked (fun _ => mark) other source construct field (children.map change) := by
  rw [Grammar.convertMarked_eq, Grammar.convertMarked_eq, root, relabels.map_wrapChildren,
    relabels.kindOf_map, List.isEmpty_map]

end Relabels

end Grammar

namespace Node

variable {ι : Type}

@[simp] theorem kind_shape (node : Node ι) : node.shape.kind = node.kind := by
  rw [kind, attributes_shape, kind]

@[simp] theorem span_shape (node : Node ι) : node.shape.span = node.span := by
  rw [span, attributes_shape, span]

@[simp] theorem text_shape (node : Node ι) : node.shape.text = node.text := by
  rw [text, attributes_shape, text]

end Node

namespace Grammar

variable {ι : Type}

theorem relabels_shape (inserted : ι) : Relabels Node.shape inserted () where
  attributes := Node.attributes_shape
  wrapper attributes children := by rw [Node.shape, Node.shapes_eq_map]

theorem shape_convertMarked (read : Construct → ι) (inserted : ι) (source : List UInt8)
    (construct : Construct) (field : Option String) (children : List (Node ι)) :
    (convertMarked read inserted source construct field children).shape =
      convertNode source construct field (children.map Node.shape) :=
  (relabels_shape inserted).convertMarked_eq (relabels_shape (read construct)).wrapper source field
    children

end Grammar

end CodeMetrics
