import CodeMetrics.Proofs.Grammar.Fidelity
import CodeMetrics.Tree.Classification

/-!
# Parse trees that are grouped already

Some versions of the grammar group an else and the parts of a switch label under nodes of their own.
`ParseNode.pregroup` does so on the parse tree. Tokens, kinds and labels can be read off a parse
tree before it is converted.
-/

namespace CodeMetrics

/-! ## Grouping a parse tree -/

namespace ParseNode

/-- An anonymous node without children that spells the given text. -/
def spells (source : List UInt8) (text : String) (node : ParseNode) : Bool :=
  !node.construct.isNamed && node.children.isEmpty && Grammar.textOf source node.construct == text

/-- A named node of a type over a run of nodes, from the start of the first to the end of the last.
Its slot and its flags are those that `template` has for the run. -/
def group (template : List ParseNode → Construct) (type : String) (first : ParseNode)
    (rest : List ParseNode) : ParseNode :=
  let last := rest.getLast?.getD first
  .mk
    { template (first :: rest) with
      type := type
      isNamed := true
      startByte := first.construct.startByte
      endByte := last.construct.endByte
      start := first.construct.start
      finish := last.construct.finish }
    (first :: rest)

section

variable (source : List UInt8) (template : List ParseNode → Construct)

/-- Group the first else token and all that follows it. -/
def groupElse (children : List ParseNode) : List ParseNode :=
  match children.dropWhile fun child => !child.spells source "else" with
  | [] => children
  | first :: rest =>
      children.takeWhile (fun child => !child.spells source "else") ++
        [group template "else_clause" first rest]

/-- The types of grouped labels. -/
def labelTypes : List String :=
  ["case_switch_label", "case_pattern_switch_label", "default_switch_label"]

/-- The type of a label with the given parts. -/
def labelType (first : ParseNode) (rest : List ParseNode) : String :=
  if first.spells source "default" then "default_switch_label"
  else if (first :: rest).any fun part => part.construct.type ∈ Grammar.patternTypes then
    "case_pattern_switch_label"
  else "case_switch_label"

/-- The node opens a label. -/
def opens (node : ParseNode) : Bool := node.spells source "case" || node.spells source "default"

/-- What there is up to the next colon, that included. -/
def upToColon (nodes : List ParseNode) : List ParseNode :=
  nodes.takeWhile (fun node => !node.spells source ":") ++
    (nodes.dropWhile fun node => !node.spells source ":").take 1

/-- What there is after the next colon. -/
def afterColon (nodes : List ParseNode) : List ParseNode :=
  (nodes.dropWhile fun node => !node.spells source ":").drop 1

/-- Group each run from an opening token up to the next colon. -/
def groupRuns : List ParseNode → List ParseNode
  | [] => []
  | child :: children =>
      if child.opens source && children.any (spells source ":") then
        group template (labelType source child (upToColon source children)) child
          (upToColon source children) :: groupRuns (afterColon source children)
      else child :: groupRuns children
termination_by children => children.length
decreasing_by
  · have shorter : (afterColon source children).length ≤ children.length :=
      ((List.drop_sublist _ _).trans (List.dropWhile_sublist _)).length_le
    simp only [List.length_cons]
    omega
  · simp

/-- A named node of one of the types. -/
def isOneOf (types : List String) (node : ParseNode) : Bool :=
  node.construct.isNamed && types.contains node.construct.type

/-- The children of a node: an else of a named if is grouped, and so are the labels of a named
switch section that has none yet. -/
def regroup (construct : Construct) (children : List ParseNode) : List ParseNode :=
  if construct.isNamed = true ∧ construct.type = "if_statement" then
    groupElse source template children
  else if construct.isNamed = true ∧ construct.type = "switch_section" ∧
      ¬ children.any (isOneOf labelTypes) then
    groupRuns source template children
  else children

mutual

/-- The parse tree with every else and every switch label grouped. -/
def pregroup : ParseNode → ParseNode
  | .mk construct children =>
      .mk construct (regroup source template construct (pregroupAll children))

/-- The parse trees with every else and every switch label grouped. -/
def pregroupAll : List ParseNode → List ParseNode
  | [] => []
  | node :: nodes => pregroup node :: pregroupAll nodes

end

end

theorem construct_pregroup (source : List UInt8) (template : List ParseNode → Construct)
    (node : ParseNode) : (node.pregroup source template).construct = node.construct := by
  obtain ⟨construct, children⟩ := node
  rw [pregroup]
  rfl

theorem foldAll_eq_map {α : Type} (build : Build α) (nodes : List ParseNode) :
    foldAll build nodes = nodes.map fun node => node.fold build node.construct.field := by
  induction nodes with
  | nil => rfl
  | cons node nodes induction => rw [foldAll, induction, List.map_cons]

end ParseNode

/-! ## Trees that differ in their wrappers -/

/-- The trees are equal, up to the slots and the grammar types of nodes that are unmarked in the
first. -/
inductive EqualButWrappers {μ : Type} : Node (Option μ) → Shape → Prop where
  | read {mark : μ} {attributes : Attributes} {children : List (Node (Option μ))}
      {twins : List Shape} (below : List.Forall₂ EqualButWrappers children twins) :
      EqualButWrappers (.mk (some mark) attributes children) (.mk () attributes twins)
  | wrapper {attributes others : Attributes} {children : List (Node (Option μ))}
      {twins : List Shape} (kind : attributes.kind = others.kind)
      (span : attributes.span = others.span) (text : attributes.text = others.text)
      (below : List.Forall₂ EqualButWrappers children twins) :
      EqualButWrappers (.mk none attributes children) (.mk () others twins)

namespace Grammar

section

variable (source : List UInt8)

/-- A parse tree, converted in its own slot. -/
def converted (node : ParseNode) : Shape := convert source node.construct.field node

theorem convert_eq (field : Option String) (node : ParseNode) :
    convert source field node =
      .mk ()
        (.of (kindOf source node.construct (node.children.map (converted source)))
          node.construct.span
          (if node.children.isEmpty then some (textOf source node.construct) else none)
          field node.construct.type)
        (wrapChildren () (kindOf source node.construct (node.children.map (converted source)))
          (node.children.map (converted source))) := by
  rw [convert, ParseNode.fold_eq, convertNode, convertMarked_eq, isEmpty_foldAll,
    ParseNode.foldAll_eq_map]
  rfl

theorem isTokenOf_converted (text : String) (node : ParseNode) :
    isTokenOf text (converted source node) = node.spells source text := by
  have token := kindOf_eq_token_iff source node.construct (node.children.map (converted source))
  rw [converted, convert_eq, isTokenOf, ParseNode.spells, Node.isToken, Node.kind, Node.text,
    Node.attributes_mk, Attributes.of]
  generalize kindOf source node.construct (node.children.map (converted source)) = kind at token
  cases named : node.construct.isNamed with
  | true =>
      have different : kind ≠ .token := by
        intro isToken
        rw [token, named] at isToken
        exact Bool.noConfusion isToken
      simp [different]
  | false =>
      obtain rfl := token.mpr named
      cases node.children.isEmpty <;> simp

theorem grammarType_converted (node : ParseNode) :
    (converted source node).grammarType ∈ patternTypes ↔ node.construct.type ∈ patternTypes := by
  have names : ∀ kind : Kind, kind.name ∉ patternTypes := by
    intro kind
    cases kind <;> decide
  rw [converted, convert_eq, Node.grammarType, Node.attributes_mk, Attributes.of]
  by_cases blank : node.construct.type.isEmpty
  · have empty : node.construct.type = "" := by simpa using blank
    simp only [if_pos blank]
    refine iff_of_false (names _) ?_
    rw [empty]
    decide
  · simp only [if_neg blank]

/-- The tree was read from the parse tree, and converting the parse tree gives the same up to
wrappers. -/
structure Reads (node : ParseNode) (tree : Node (Option Construct)) : Prop where
  marked : tree.mark.isSome
  equal : EqualButWrappers tree (converted source node)

end

namespace Reads

variable {source : List UInt8} {node : ParseNode} {tree : Node (Option Construct)}

theorem attributes (reads : Reads source node tree) :
    tree.attributes = (converted source node).attributes := by
  obtain ⟨marked, equal⟩ := reads
  generalize converted source node = twin at equal
  cases equal with
  | read => rfl
  | wrapper => simp at marked

theorem isTokenOf_eq (reads : Reads source node tree) (text : String) :
    isTokenOf text tree = node.spells source text := by
  rw [← isTokenOf_converted, isTokenOf, isTokenOf, Node.isToken, Node.isToken, Node.kind, Node.kind,
    Node.text, Node.text, reads.attributes]

theorem span_eq (reads : Reads source node tree) : tree.span = node.construct.span := by
  rw [Node.span, reads.attributes, converted, convert_eq]
  rfl

theorem kind_eq (reads : Reads source node tree) : tree.kind = (converted source node).kind := by
  rw [Node.kind, Node.kind, reads.attributes]

end Reads

/-! ## Which constructs are grouped -/

theorem mem_kindTable {type : String} (known : kindOfType type ≠ .other) :
    (type, kindOfType type) ∈ kindTable := by
  unfold kindOfType at known ⊢
  cases found : kindTable.find? fun entry => entry.1 == type with
  | none => simp [found] at known
  | some entry =>
      have same : entry.1 = type := by simpa using List.find?_some found
      have listed := List.mem_of_find?_eq_some found
      rw [← same]
      exact listed

/-- Kinds that a construct has by its type alone, and by one type only. -/
def isByType : Kind → Bool
  | .ifStatement | .switchSection | .caseLabel | .casePatternLabel | .defaultLabel => true
  | _ => false

theorem isByType_kindOfComment (text : String) : isByType (kindOfComment text) = false := by
  simp only [kindOfComment]
  split_ifs <;> rfl

theorem isByType_kindOfOperator (operator : Option String) :
    isByType (kindOfOperator operator) = false := by
  unfold kindOfOperator
  split <;> rfl

/-- The constructs of such a kind are the named ones of its type. -/
theorem kindOf_eq_iff {ι : Type} (source : List UInt8) (construct : Construct)
    (children : List (Node ι)) (kind : Kind) (type : String) (byType : isByType kind = true)
    (isKind : kindOfType type = kind)
    (only : ∀ entry ∈ kindTable, entry.2 = kind → entry.1 = type) :
    kindOf source construct children = kind ↔ construct.isNamed = true ∧ construct.type = type := by
  have apart : ∀ {plain : Kind}, isByType plain = false → plain ≠ kind := by
    rintro plain otherwise rfl
    rw [otherwise] at byType
    exact Bool.noConfusion byType
  have differs : ∀ {plain : String}, isByType (kindOfType plain) = false → type ≠ plain := by
    rintro plain otherwise rfl
    exact apart otherwise isKind
  unfold kindOf
  cases construct.isNamed with
  | false => simpa using apart rfl
  | true =>
      simp only [Bool.not_true, Bool.false_eq_true, if_false, true_and]
      split
      case isTrue isComment =>
        rw [isComment]
        exact iff_of_false (apart (isByType_kindOfComment _)) (differs rfl).symm
      case isFalse =>
        split
        case isTrue isBinary =>
          rw [isBinary]
          exact iff_of_false (apart (isByType_kindOfOperator _)) (differs rfl).symm
        case isFalse =>
          constructor
          · intro same
            have known : kindOfType construct.type ≠ .other := by
              rw [same]
              exact (apart rfl).symm
            exact only _ (mem_kindTable known) same
          · intro same
            rw [same, isKind]

theorem kindOf_eq_ifStatement_iff {ι : Type} (source : List UInt8) (construct : Construct)
    (children : List (Node ι)) :
    kindOf source construct children = .ifStatement ↔
      construct.isNamed = true ∧ construct.type = "if_statement" :=
  kindOf_eq_iff source construct children _ _ rfl rfl (by decide)

theorem kindOf_eq_switchSection_iff {ι : Type} (source : List UInt8) (construct : Construct)
    (children : List (Node ι)) :
    kindOf source construct children = .switchSection ↔
      construct.isNamed = true ∧ construct.type = "switch_section" :=
  kindOf_eq_iff source construct children _ _ rfl rfl (by decide)

theorem isLabel_converted (source : List UInt8) (node : ParseNode) :
    isLabel (converted source node).kind = node.isOneOf ParseNode.labelTypes := by
  have kind : (converted source node).kind =
      kindOf source node.construct (node.children.map (converted source)) := by
    rw [converted, convert_eq]
    rfl
  have cases := kindOf_eq_iff source node.construct (node.children.map (converted source))
  have isCase := cases .caseLabel "case_switch_label" rfl rfl (by decide)
  have isPattern := cases .casePatternLabel "case_pattern_switch_label" rfl rfl (by decide)
  have isDefault := cases .defaultLabel "default_switch_label" rfl rfl (by decide)
  rw [Bool.eq_iff_iff, isLabel, ParseNode.isOneOf, kind]
  simp only [Bool.or_eq_true, decide_eq_true_eq, Bool.and_eq_true, ParseNode.labelTypes,
    List.contains_eq_mem, List.mem_cons, List.not_mem_nil, or_false, isCase, isPattern, isDefault]
  rw [← and_or_left, ← and_or_left, or_assoc]

end Grammar

end CodeMetrics
