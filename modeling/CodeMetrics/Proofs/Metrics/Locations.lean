import CodeMetrics.Proofs.Metrics.Isolation
import CodeMetrics.Proofs.Tree.Drafts
import CodeMetrics.Proofs.Tree.Navigation

/-!
# Where reports point

A report points at a node that its declaration locates. Names, accessor keywords and declarators are
looked for inside the declaration. The token of an operator without a slot is the leaf after the
keyword, wherever that is: if the declaration has no leaf of its own there, `checked` passed over, the
report points behind the declaration.
-/

namespace CodeMetrics

/-! ## Operators -/

/-- The leaves behind the keyword of an operator, `checked` passed over. -/
def pastChecked : List Vertex → List Vertex
  | [] => []
  | leaf :: leaves => if leaf.text = some "checked" then leaves else leaf :: leaves

theorem pastChecked_subset (leaves : List Vertex) : pastChecked leaves ⊆ leaves := by
  intro leaf listed
  cases leaves with
  | nil => exact listed
  | cons first rest =>
      rw [pastChecked] at listed
      split at listed
      · exact List.mem_cons_of_mem first listed
      · exact listed

/-- Where nothing is left of the first leaves, what is left is among the others. -/
theorem pastChecked_append_subset {first others : List Vertex} (nothing : pastChecked first = []) :
    pastChecked (first ++ others) ⊆ others := by
  cases first with
  | nil => exact pastChecked_subset others
  | cons leaf leaves =>
      rw [pastChecked] at nothing
      split at nothing
      · rw [nothing, List.cons_append, List.nil_append, pastChecked, if_pos ‹_›]
        exact fun _ listed => listed
      · simp at nothing

/-- If the declaration is an operator without a slot for its token, it has a leaf behind the keyword
that can be the token. -/
def Node.HoldsOperator (node : Vertex) : Prop :=
  node.kind = .operatorDeclaration → node.childByField? "operator" = none →
    ∀ keyword, node.findToken? "operator" = some keyword →
      pastChecked (node.leavesAfter keyword) ≠ []

namespace Forest.IsTree

variable {forest : Forest} {root : Vertex}

/-- What is under a node of a tree is a tree. -/
theorem under (tree : IsTree forest root) {node : Vertex} (member : node ∈ root.preorder) :
    IsTree forest node where
  built := tree.built
  created := tree.mem_nodes member
  distinct := tree.distinct.of_mem member
  kept := fun holder below => tree.kept holder (Node.mem_preorder_trans below root member)

/-- The token of an operator whose keyword has a leaf behind it in a tree. -/
theorem operatorToken_of_cons (tree : IsTree forest root) {node keyword first : Vertex}
    {others : List Vertex} (slotless : node.childByField? "operator" = none)
    (found : node.findToken? "operator" = some keyword) (member : keyword ∈ root.preorder)
    (leaves : root.leavesAfter keyword = first :: others) :
    forest.operatorToken node =
      if first.text = some "checked" then
        others.head?.elim (forest.nextToken root) fun leaf => .ok (some leaf)
      else .ok (some first) := by
  have listed : first ∈ root.leavesAfter keyword := leaves ▸ List.mem_cons_self
  obtain ⟨inTree, -, -⟩ := Node.mem_preorder_of_leavesAfter tree.distinct member listed
  have next : forest.nextToken keyword = .ok (some first) := by
    rw [tree.nextToken_eq_head?_or member, leaves]
    rfl
  have second := tree.nextToken_eq_head?_or inTree
  rw [Node.leavesAfter_of_cons tree.distinct member leaves] at second
  rw [← second]
  simp only [operatorToken, slotless, found, next]
  rfl

/-- The token of an operator is the first leaf behind the keyword, `checked` passed over, in any tree
that has one there. -/
theorem operatorToken_of_behind (tree : IsTree forest root) {node keyword token : Vertex}
    {rest : List Vertex} (slotless : node.childByField? "operator" = none)
    (found : node.findToken? "operator" = some keyword) (member : keyword ∈ root.preorder)
    (behind : pastChecked (root.leavesAfter keyword) = token :: rest) :
    forest.operatorToken node = .ok (some token) := by
  cases leaves : root.leavesAfter keyword with
  | nil => simp [leaves, pastChecked] at behind
  | cons first others =>
      rw [leaves, pastChecked] at behind
      rw [tree.operatorToken_of_cons slotless found member leaves]
      split at behind
      · rw [if_pos ‹_›, behind]
        rfl
      · rw [if_neg ‹_›, (List.cons.inj behind).1]

/-- Without such a leaf in the whole tree an operator has no token. -/
theorem operatorToken_of_end (tree : IsTree forest root) (top : forest.parent? root = none)
    {node keyword : Vertex} (slotless : node.childByField? "operator" = none)
    (found : node.findToken? "operator" = some keyword) (member : keyword ∈ root.preorder)
    (behind : pastChecked (root.leavesAfter keyword) = []) :
    forest.operatorToken node = .ok none := by
  cases leaves : root.leavesAfter keyword with
  | nil =>
      have next := tree.nextToken_eq_head? top member
      simp only [operatorToken, slotless, found, next, leaves]
      rfl
  | cons first others =>
      rw [leaves, pastChecked] at behind
      rw [tree.operatorToken_of_cons slotless found member leaves]
      split at behind
      · rw [if_pos ‹_›, behind]
        exact tree.nextToken_root top
      · simp at behind

/-- The leaves after a node inside another are the rest of that one's leaves and those after it. -/
theorem leavesAfter_eq_append (tree : IsTree forest root) {node inner : Vertex}
    (member : node ∈ root.preorder) (below : inner ∈ node.preorder) :
    root.leavesAfter inner = node.leavesAfter inner ++ root.leavesAfter node := by
  obtain ⟨before, piece⟩ := Node.exists_leaves_eq tree.distinct member
  obtain ⟨earlier, innerPiece⟩ := Node.exists_leaves_eq (tree.distinct.of_mem member) below
  apply Node.leavesAfter_eq tree.distinct (Node.mem_preorder_trans below root member)
    (before ++ earlier)
  rw [piece, innerPiece]
  simp

end Forest.IsTree

/-! ## Locations -/

namespace Node

variable {node location : Vertex}

theorem mem_children_of_nameNode? (named : node.nameNode? = some location) :
    location ∈ node.children := by
  rcases Option.or_eq_some_iff.mp named with slot | ⟨-, last⟩
  · exact (mem_children_of_childByField? slot).1
  · exact List.mem_of_mem_filter (List.mem_of_getLast? last)

theorem mem_children_of_accessorKeyword? (isKeyword : node.accessorKeyword? = some location) :
    location ∈ node.children := by
  obtain ⟨found, -⟩ := Option.filter_eq_some_iff.mp isKeyword
  rcases Option.or_eq_some_iff.mp found with slot | ⟨-, first⟩
  · exact (mem_children_of_childByField? slot).1
  · exact List.mem_of_find?_eq_some first

theorem firstToken_mem_preorder (node : Vertex) : node.firstToken ∈ node.preorder :=
  List.mem_of_find?_eq_some node.find?_isLeaf_preorder

theorem mem_preorder_of_firstDeclaratorName? (named : node.firstDeclaratorName? = some location) :
    location ∈ node.preorder := by
  rw [firstDeclaratorName?] at named
  split at named
  · simp at named
  · rename_i declarator first
    have below : declarator ∈ node.preorder :=
      mem_preorder_iff_descendant.mpr (.inr (List.mem_of_find?_eq_some first))
    refine mem_preorder_trans ?_ node below
    cases isName : declarator.nameNode? with
    | none =>
        rw [isName, Option.getD_none, Option.some.injEq] at named
        exact named ▸ declarator.firstToken_mem_preorder
    | some name =>
        rw [isName, Option.getD_some, Option.some.injEq] at named
        exact named ▸ child_mem_preorder (mem_children_of_nameNode? isName)

end Node

/-- Declarations other than operators locate their report inside themselves. -/
theorem Kind.locate_inside {kind : Kind} {registration : Registration}
    (registered : kind.registration? = some registration) (notOperator : kind ≠ .operatorDeclaration)
    {forest : Forest} {node location : Vertex}
    (located : registration.locate forest node = .ok (some location)) : location ∈ node.preorder := by
  unfold registration? at registered
  split at registered
  case h_1 | h_2 | h_3 =>
    obtain rfl := Option.some.inj registered
    exact Node.child_mem_preorder (Node.mem_children_of_nameNode? (Except.ok.inj located))
  case h_4 => exact absurd rfl notOperator
  case h_5 =>
    obtain rfl := Option.some.inj registered
    exact Node.child_mem_preorder (Node.mem_children_of_accessorKeyword? (Except.ok.inj located))
  case h_6 =>
    obtain rfl := Option.some.inj registered
    exact Node.mem_preorder_of_firstDeclaratorName? (Except.ok.inj located)
  case h_7 => simp at registered

namespace Forest.IsTree

variable {forest : Forest} {root : Vertex}

/-- A declaration that holds what it points at locates its report inside itself. -/
theorem located_inside (tree : IsTree forest root) {node location : Vertex}
    {registration : Registration} (member : node ∈ root.preorder)
    (registered : node.kind.registration? = some registration)
    (located : registration.locate forest node = .ok (some location))
    (holds : node.HoldsOperator) : location ∈ node.preorder := by
  by_cases isOperator : node.kind = .operatorDeclaration
  · rw [isOperator] at registered
    obtain rfl := Option.some.inj registered
    replace located : forest.operatorToken node = .ok (some location) := located
    cases slot : node.childByField? "operator" with
    | some operator =>
        simp only [operatorToken, slot, Except.ok.injEq, Option.some.injEq] at located
        exact located ▸ Node.child_mem_preorder (Node.mem_children_of_childByField? slot).1
    | none =>
        cases found : node.findToken? "operator" with
        | none => simp [operatorToken, slot, found] at located
        | some keyword =>
            have below := Node.child_mem_preorder (List.mem_of_find?_eq_some found)
            obtain ⟨token, rest, behind⟩ :=
              List.exists_cons_of_ne_nil (holds isOperator slot keyword found)
            rw [(tree.under member).operatorToken_of_behind slot found below behind] at located
            obtain rfl := Option.some.inj (Except.ok.inj located)
            have listed := pastChecked_subset _ (behind ▸ List.mem_cons_self)
            exact (Node.mem_preorder_of_leavesAfter (tree.under member).distinct below listed).1
  · exact Kind.locate_inside registered isOperator located

/-- Any other declaration locates its report at a leaf after itself. -/
theorem located_behind (tree : IsTree forest root) (top : forest.parent? root = none)
    {node location : Vertex} {registration : Registration} (member : node ∈ root.preorder)
    (registered : node.kind.registration? = some registration)
    (located : registration.locate forest node = .ok (some location))
    (lacks : ¬ node.HoldsOperator) : location ∈ root.leavesAfter node := by
  simp only [Node.HoldsOperator, not_forall, not_not] at lacks
  obtain ⟨isOperator, slot, keyword, found, nothing⟩ := lacks
  rw [isOperator] at registered
  obtain rfl := Option.some.inj registered
  replace located : forest.operatorToken node = .ok (some location) := located
  have below := Node.child_mem_preorder (List.mem_of_find?_eq_some found)
  have inTree := Node.mem_preorder_trans below root member
  cases behind : pastChecked (root.leavesAfter keyword) with
  | nil => simp [tree.operatorToken_of_end top slot found inTree behind] at located
  | cons token rest =>
      rw [tree.operatorToken_of_behind slot found inTree behind] at located
      obtain rfl := Option.some.inj (Except.ok.inj located)
      apply pastChecked_append_subset nothing
      rw [← tree.leavesAfter_eq_append member below, behind]
      exact List.mem_cons_self

end Forest.IsTree

/-! ## Reports -/

namespace Gauge

variable {gauge : Gauge}

/-- A report has the place and the text of the node that the declaration locates. -/
theorem exists_location_of_measure {forest : Forest} {node : Vertex} {declaration : Declaration}
    (measured : gauge.measure forest node = .ok (some declaration)) :
    ∃ registration location, node.kind.registration? = some registration ∧
      registration.locate forest node = .ok (some location) ∧
      declaration.location = location.span ∧ declaration.name = location.text.getD "" := by
  rw [measure] at measured
  split at measured
  · simp at measured
  · rename_i registration registered
    split at measured
    · simp at measured
    · simp at measured
    · rename_i location located
      cases scored : (gauge.rules.table forest).score node none with
      | error failure => simp [scored, bind, Except.bind] at measured
      | ok walked =>
          rw [scored] at measured
          obtain rfl := Option.some.inj (Except.ok.inj measured)
          exact ⟨registration, location, registered, located, rfl, rfl⟩

/-- Whatever a list of nodes reports is the report on one of them. -/
theorem exists_split_of_mem {forest : Forest} {nodes : List Vertex} {declarations : List Declaration}
    (measured : gauge.measureAll forest nodes = .ok declarations) {declaration : Declaration}
    (listed : declaration ∈ declarations) :
    ∃ before node after earlier later, nodes = before ++ node :: after ∧
      gauge.measureAll forest before = .ok earlier ∧ gauge.measureAll forest after = .ok later ∧
      declarations = earlier ++ declaration :: later := by
  induction nodes generalizing declarations with
  | nil =>
      obtain rfl : [] = declarations := Except.ok.inj measured
      simp at listed
  | cons first nodes induction =>
      obtain ⟨report, reports, measuredFirst, measuredRest, rfl⟩ :=
        measureAll_cons_eq_ok.mp measured
      rcases List.mem_append.mp listed with here | later
      · obtain rfl := Option.mem_toList.mp here
        exact ⟨[], first, nodes, [], reports, rfl, rfl, measuredRest, rfl⟩
      · obtain ⟨before, node, after, earlier, others, rfl, isEarlier, isLater, rfl⟩ :=
          induction measuredRest later
        refine ⟨first :: before, node, after, report.toList ++ earlier, others, rfl, ?_, isLater,
          by simp⟩
        exact measureAll_cons_eq_ok.mpr ⟨report, earlier, measuredFirst, isEarlier, rfl⟩

end Gauge

/-- Every report of an evaluation is the report on a node of the tree, and has the place and the text
of a node that it points at. That node is inside the declaration if this is no operator, has a slot for
its token, or has a leaf behind the keyword, `checked` passed over. In any other case it is a leaf
after the declaration. -/
theorem report_inside_iff_holdsOperator {gauge : Gauge} {document : Document}
    {declarations : List Declaration} (tree : document.forest.IsTree document.root)
    (evaluated : gauge.evaluate document = .ok declarations) :
    (∀ declaration ∈ declarations, ∃ node, gauge.Reports document node declaration) ∧
    ∀ node declaration, gauge.Reports document node declaration →
      ∃ location : Vertex, declaration.location = location.span ∧
        declaration.name = location.text.getD "" ∧
        (node.HoldsOperator → location.Inside node) ∧
        (¬ node.HoldsOperator → document.forest.parent? document.root = none →
          location ∈ document.root.leavesAfter node ∧ ¬ location.Inside node) := by
  constructor
  · intro declaration listed
    have measured := evaluated
    rw [Gauge.evaluate] at measured
    split at measured
    · obtain ⟨before, node, after, earlier, later, walk, isEarlier, isLater, rfl⟩ :=
        Gauge.exists_split_of_mem measured listed
      exact ⟨node, before, after, earlier, later, walk, isEarlier, isLater, evaluated⟩
    · simp at measured
  · intro node declaration reports
    obtain ⟨registration, location, registered, located, place, name⟩ :=
      Gauge.exists_location_of_measure (Gauge.measure_of_reports reports)
    obtain ⟨before, after, -, -, walk, -⟩ := reports
    have member : node ∈ document.root.preorder := by
      rw [← Node.walk_eq_preorder, walk]
      exact List.mem_append_right before List.mem_cons_self
    simp only [← Node.mem_preorder_iff_inside]
    refine ⟨location, place, name, tree.located_inside member registered located, ?_⟩
    intro lacks top
    have behind := tree.located_behind top member registered located lacks
    exact ⟨behind, (Node.mem_preorder_of_leavesAfter tree.distinct member behind).2.2⟩

/-- A class with an operator that breaks off after its keyword, and a method behind it. -/
def brokenOperator : Draft :=
  .inner
    [.leaf 0 .token "class" none "", .leaf 0 .identifier "C" (some "name") "",
      .inner
        [.inner
            [.leaf 0 .modifier "static" none "", .leaf 0 .identifier "C" none "",
              .leaf 0 .token "operator" none ""]
            0 .operatorDeclaration none "",
          .inner [.leaf 0 .identifier "Next" (some "name") ""] 0 .methodDeclaration none ""]
        0 .declarationList (some "body") ""]
    0 .classDeclaration none ""

theorem report_inside_iff_holdsOperator_brokenOperator :
    brokenOperator.document.forest.IsTree brokenOperator.document.root ∧
      ∃ node declaration,
        Gauge.Reports .standard brokenOperator.document node declaration ∧
        node.kind = .operatorDeclaration ∧ declaration.name = "Next" ∧
        ∀ inner ∈ node.preorder, inner.span ≠ declaration.location := by
  obtain ⟨tree, top⟩ : brokenOperator.document.forest.IsTree brokenOperator.document.root ∧
      brokenOperator.document.forest.parent? brokenOperator.document.root = none :=
    brokenOperator.isTree_document
  have found : ∃ node ∈ brokenOperator.document.root.preorder,
      ∃ keyword ∈ node.children, ∃ name ∈ brokenOperator.document.root.preorder,
        node.kind = .operatorDeclaration ∧ node.childByField? "operator" = none ∧
        node.findToken? "operator" = some keyword ∧ node.leavesAfter keyword = [] ∧
        brokenOperator.document.root.leavesAfter keyword = [name] ∧
        brokenOperator.document.root.leavesAfter node = [name] ∧ name.text = some "Next" ∧
        ∀ inner ∈ node.preorder, inner.span ≠ name.span := by decide +kernel
  obtain ⟨node, member, keyword, held, next, -, isOperator, slot, isKeyword, nothing, behind, after,
    text, elsewhere⟩ := found
  have lacks : ¬ node.HoldsOperator := fun holds =>
    holds isOperator slot keyword isKeyword (by rw [nothing]; rfl)
  have keywordInTree := Node.mem_preorder_trans (Node.child_mem_preorder held) _ member
  have token : brokenOperator.document.forest.operatorToken node = .ok (some next) := by
    rw [tree.operatorToken_of_cons slot isKeyword keywordInTree behind, text, if_neg (by decide)]
  have registered : node.kind.registration? =
      some ⟨.operator, Forest.operatorToken, Thresholds.general⟩ :=
    congrArg Kind.registration? isOperator
  obtain ⟨declaration, measured⟩ := Gauge.exists_measure_of_located registered token .standard
  have reports := Gauge.reports_of_measure tree.built rfl member measured
  obtain ⟨declarations, evaluated⟩ :
      ∃ declarations, Gauge.standard.evaluate brokenOperator.document = .ok declarations := by
    obtain ⟨-, -, earlier, later, -, -, -, evaluated⟩ := reports
    exact ⟨_, evaluated⟩
  obtain ⟨location, place, name, -, outside⟩ :=
    (report_inside_iff_holdsOperator tree evaluated).2 node declaration reports
  obtain ⟨listed, -⟩ := outside lacks top
  obtain rfl : location = next := List.mem_singleton.mp (after ▸ listed)
  refine ⟨tree, node, declaration, reports, isOperator, by rw [name, text]; rfl, ?_⟩
  rw [place]
  exact elsewhere

end CodeMetrics
