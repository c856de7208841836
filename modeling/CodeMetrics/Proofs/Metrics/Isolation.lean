import CodeMetrics.Proofs.Metrics.Agreement

/-!
# Declarations by themselves

A node is created over its descendants, so the forest in which it has just been created holds its
tree and nothing around it. The scoring rules look up from an if only, and a declaration is none. So
the walk from a declaration goes as it would have gone when the declaration was created, and its
score depends on the shape of the declaration alone.
-/

namespace CodeMetrics

/-! ## The forest in which a node is created -/

namespace Forest

variable {forest : Forest} {root node : Vertex}

/-- Some time a node was the youngest one. -/
theorem Built.exists_creation (built : Built forest) (member : node ∈ forest.nodes) :
    ∃ earlier, Built earlier ∧ node ∈ earlier.nodes ∧
      ∀ other ∈ earlier.nodes, other ∈ forest.nodes ∧ other.mark ≤ node.mark := by
  induction built with
  | empty => exact absurd member (Array.not_mem_empty node)
  | @add forest built attributes children known induction =>
      rcases mem_nodes_add.mp member with old | rfl
      · obtain ⟨earlier, builtEarlier, created, bounds⟩ := induction old
        refine ⟨earlier, builtEarlier, created, fun other listed => ?_⟩
        obtain ⟨isOld, bound⟩ := bounds other listed
        exact ⟨mem_nodes_add.mpr (.inl isOld), bound⟩
      · refine ⟨_, built.add attributes children known, member, fun other listed => ⟨listed, ?_⟩⟩
        rcases mem_nodes_add.mp listed with old | rfl
        · exact Nat.le_of_lt (built.coherent.mark_lt old)
        · exact Nat.le_refl _

/-- The tree under a node of a tree stands by itself in the forest in which the node was created. -/
theorem IsTree.exists_alone (tree : IsTree forest root) (inside : node ∈ root.preorder) :
    ∃ earlier, IsTree earlier node ∧ earlier.parent? node = none := by
  obtain ⟨earlier, built, created, bounds⟩ := tree.built.exists_creation (tree.mem_nodes inside)
  refine ⟨earlier, ⟨built, created, tree.distinct.of_mem inside, ?_⟩, ?_⟩
  · intro holder below child held owner known owned
    exact tree.kept holder (Node.mem_preorder_trans below root inside) child held owner
      (bounds owner known).1 owned
  · cases isParent : earlier.parent? node with
    | none => rfl
    | some parent =>
        obtain ⟨known, -, younger⟩ := built.parent?_eq_some isParent
        have bound := (bounds parent known).2
        omega

end Forest

/-! ## Walks that look at the same nodes -/

/-- Two tables that reply alike to all nodes under those on the stack work it off alike. -/
theorem runFrames_congr {failure : Type} {handlers others : HandlerTable failure}
    {inside : Vertex → Prop} (down : ∀ node, inside node → ∀ child ∈ node.children, inside child)
    (agree : ∀ node, inside node → ∀ state, handlers.reply node state = others.reply node state)
    (frames : List Frame) (state : WalkState)
    (covered : ∀ node, .visit node ∈ frames → inside node) :
    runFrames handlers frames state = runFrames others frames state := by
  have below : ∀ {node : Vertex} {frames rest : List Frame},
      (∀ other, .visit other ∈ .visit node :: frames → inside other) →
        (∀ other, .visit other ∈ rest → .visit other ∈ frames) →
        ∀ other, Frame.visit other ∈ node.children.map Frame.visit ++ rest → inside other := by
    intro node frames rest covered kept other listed
    rcases List.mem_append.mp listed with child | later
    · obtain ⟨_, held, same⟩ := List.mem_map.mp child
      obtain rfl := Frame.visit.inj same
      exact down node (covered node List.mem_cons_self) _ held
    · exact covered other (List.mem_cons_of_mem _ (kept other later))
  fun_induction runFrames handlers frames state with
  | case1 state => rw [runFrames_nil]
  | case2 frames state induction =>
      rw [runFrames_close]
      exact induction fun node listed => covered node (List.mem_cons_of_mem _ listed)
  | case3 node frames state failed after replied =>
      rw [agree node (covered node List.mem_cons_self)] at replied
      rw [runFrames_visit_of_error replied]
  | case4 node frames state after replied induction =>
      rw [agree node (covered node List.mem_cons_self)] at replied
      rw [runFrames_visit_of_ok replied, induction (below covered (by simp))]
      rfl
  | case5 node frames state after replied induction =>
      rw [agree node (covered node List.mem_cons_self)] at replied
      rw [runFrames_visit_of_ok replied, induction (below covered (by simp))]
      rfl

/-- Only the rule for an if looks at the forest. -/
theorem HandlerTable.standard_congr (first second : Forest) {kind : Kind}
    (notIf : kind ≠ .ifStatement) : standard first kind = standard second kind := by
  cases kind with
  | ifStatement => exact absurd rfl notIf
  | _ => rfl

/-- The walk from a node that is no if goes alike in all forests in which the tree under the node
is a tree. -/
theorem cognitiveScore_congr {first second : Forest} {root start : Vertex}
    (tree : first.IsTree root) (inside : start ∈ root.preorder) (alone : second.IsTree start)
    (notIf : start.kind ≠ .ifStatement) (functionName : Option String) :
    cognitiveScore first start functionName = cognitiveScore second start functionName := by
  have agree : ∀ node, node ∈ start.preorder → ∀ state,
      (HandlerTable.standard first).reply node state =
        (HandlerTable.standard second).reply node state := by
    intro node below state
    by_cases isIf : node.kind = .ifStatement
    · -- the if is not the start, so its parent is under the start as well
      obtain rfl | ⟨holder, member, held⟩ := Node.eq_or_exists_holder below
      · exact absurd isIf notIf
      · have parent := tree.parent?_eq (Node.mem_preorder_trans member root inside) held
        have otherParent := alone.parent?_eq member held
        simp only [HandlerTable.reply, isIf, HandlerTable.standard, Handler.ifStatement, parent,
          otherParent]
    · rw [HandlerTable.reply, HandlerTable.reply, HandlerTable.standard_congr first second isIf]
  have down : ∀ node, node ∈ start.preorder → ∀ child ∈ node.children, child ∈ start.preorder :=
    fun node below child held =>
      Node.mem_preorder_trans (Node.child_mem_preorder held) start below
  rw [cognitiveScore, cognitiveScore, HandlerTable.score, HandlerTable.score,
    runFrames_congr down agree [.visit start] (.start functionName) (by simp)]

/-! ## Equal declarations -/

/-- Nodes of the same shape that are no ifs have the same score, whatever is around them. -/
theorem cognitiveScore_eq_of_shape {first second : Forest} {root otherRoot node other : Vertex}
    (tree : first.IsTree root) (otherTree : second.IsTree otherRoot)
    (inside : node ∈ root.preorder) (otherInside : other ∈ otherRoot.preorder)
    (shapes : node.shape = other.shape) (notIf : node.kind ≠ .ifStatement)
    (functionName : Option String) :
    cognitiveScore first node functionName = cognitiveScore second other functionName := by
  obtain ⟨earlier, alone, top⟩ := tree.exists_alone inside
  obtain ⟨otherEarlier, otherAlone, otherTop⟩ := otherTree.exists_alone otherInside
  have same := interchangeable_of_shape alone otherAlone top otherTop shapes
  have otherNotIf : other.kind ≠ .ifStatement := same.kind .roots ▸ notIf
  calc cognitiveScore first node functionName
      = cognitiveScore earlier node functionName :=
        cognitiveScore_congr tree inside alone notIf functionName
    _ = cognitiveScore otherEarlier other functionName :=
        same.cognitiveScore_eq .roots functionName
    _ = cognitiveScore second other functionName :=
        (cognitiveScore_congr otherTree otherInside otherAlone otherNotIf functionName).symm

/-! ## Reports -/

namespace Gauge

/-- The evaluation of the document has the declaration at the place of the node: between the reports
on the nodes before it and the reports on the nodes after it. -/
def Reports (gauge : Gauge) (document : Document) (node : Vertex) (declaration : Declaration) :
    Prop :=
  ∃ before after earlier later,
    document.root.walk = before ++ node :: after ∧
    gauge.measureAll document.forest before = .ok earlier ∧
    gauge.measureAll document.forest after = .ok later ∧
    gauge.evaluate document = .ok (earlier ++ declaration :: later)

/-- The reports on a list are the report on its first node and those on the others. -/
theorem measureAll_cons_eq_ok {gauge : Gauge} {forest : Forest} {node : Vertex}
    {nodes : List Vertex} {declarations : List Declaration} :
    gauge.measureAll forest (node :: nodes) = .ok declarations ↔
      ∃ report reports, gauge.measure forest node = .ok report ∧
        gauge.measureAll forest nodes = .ok reports ∧ declarations = report.toList ++ reports := by
  rw [measureAll]
  cases measured : gauge.measure forest node with
  | error failure => simp [bind, Except.bind]
  | ok report =>
      cases rest : gauge.measureAll forest nodes with
      | error failure => simp [bind, Except.bind]
      | ok reports => simp [bind, Except.bind, pure, Except.pure, eq_comm]

theorem measureAll_append {gauge : Gauge} {forest : Forest} {left right : List Vertex}
    {declarations : List Declaration} (measured : gauge.measureAll forest left = .ok declarations) :
    gauge.measureAll forest (left ++ right) =
      (gauge.measureAll forest right).map (declarations ++ ·) := by
  induction left generalizing declarations with
  | nil =>
      obtain rfl : [] = declarations := Except.ok.inj measured
      cases rest : gauge.measureAll forest right <;> simp [rest, Except.map]
  | cons node left induction =>
      obtain ⟨report, reports, first, rest, rfl⟩ := measureAll_cons_eq_ok.mp measured
      rw [List.cons_append, measureAll, first, induction rest]
      cases gauge.measureAll forest right <;>
        simp [bind, Except.bind, pure, Except.pure, Except.map]

/-- What the evaluation has at the place of a node is the report on that node. -/
theorem measure_of_reports {gauge : Gauge} {document : Document} {node : Vertex}
    {declaration : Declaration} (reports : gauge.Reports document node declaration) :
    gauge.measure document.forest node = .ok (some declaration) := by
  obtain ⟨before, after, earlier, later, walk, measured, measuredAfter, evaluated⟩ := reports
  rw [evaluate] at evaluated
  split at evaluated
  · rw [walk, measureAll_append measured, measureAll, measuredAfter] at evaluated
    cases measuredNode : gauge.measure document.forest node with
    | error failure => simp [measuredNode, bind, Except.bind, Except.map] at evaluated
    | ok report =>
        have listed : report.toList ++ later = declaration :: later := by
          simpa [measuredNode, bind, Except.bind, pure, Except.pure, Except.map] using evaluated
        cases report with
        | none => simp at listed
        | some reported =>
            obtain ⟨rfl, -⟩ := List.cons.inj listed
            rfl
  · simp at evaluated

/-- A node on which there is a report has it in the evaluation of every document that it is in. -/
theorem reports_of_measure {thresholds : Thresholds} {document : Document} {node : Vertex}
    {declaration : Declaration} (built : document.forest.Built)
    (analysed : document.language = analysedLanguage) (inside : node ∈ document.root.preorder)
    (measured : measure ⟨thresholds, .none⟩ document.forest node = .ok (some declaration)) :
    Reports ⟨thresholds, .none⟩ document node declaration := by
  obtain ⟨before, after, walk⟩ := List.append_of_mem inside
  rw [← Node.walk_eq_preorder] at walk
  obtain ⟨earlier, measuredBefore, -⟩ := exists_measureAll built thresholds before
  obtain ⟨later, measuredAfter, -⟩ := exists_measureAll built thresholds after
  refine ⟨before, after, earlier, later, walk, measuredBefore, measuredAfter, ?_⟩
  rw [evaluate, if_pos analysed, walk, measureAll_append measuredBefore, measureAll, measured,
    measuredAfter]
  rfl

theorem exists_measure_of_located {forest : Forest} {node location : Vertex}
    {registration : Registration} (registered : node.kind.registration? = some registration)
    (located : registration.locate forest node = .ok (some location)) (thresholds : Thresholds) :
    ∃ declaration, measure ⟨thresholds, .none⟩ forest node = .ok (some declaration) := by
  have scored : (RuleChanges.none.table forest).score node none = _ :=
    cognitiveScore_eq forest node none
  simp only [measure, registered, located, scored]
  exact ⟨_, rfl⟩

/-- A report has the score and the increments of the walk from its node. -/
theorem score_of_measure {thresholds : Thresholds} {forest : Forest} {node : Vertex}
    {declaration : Declaration}
    (measured : measure ⟨thresholds, .none⟩ forest node = .ok (some declaration)) :
    cognitiveScore forest node none = .ok ⟨declaration.score, declaration.increments⟩ := by
  have scored : (RuleChanges.none.table forest).score node none = _ :=
    cognitiveScore_eq forest node none
  rw [measure] at measured
  split at measured
  · simp at measured
  · split at measured
    · simp at measured
    · simp at measured
    · rw [scored] at measured
      obtain rfl := Option.some.inj (Except.ok.inj measured)
      exact scored

end Gauge

/-- Two declarations that are equal, each in a tree with every node at one place. Whatever is around
them, the walks from both come to the same result under any name, and so two reports on them agree
in score and increments. -/
theorem score_of_equalNodes {first second : Document} {node other : Vertex}
    (tree : first.forest.IsTree first.root) (otherTree : second.forest.IsTree second.root)
    (inside : node ∈ first.root.preorder) (otherInside : other ∈ second.root.preorder)
    (registered : node.kind.registration?.isSome)
    (equal : EqualNodes first.forest second.forest node other) :
    (∀ functionName, ∃ result,
      cognitiveScore first.forest node functionName = .ok result ∧
        cognitiveScore second.forest other functionName = .ok result) ∧
    ∀ thresholds otherThresholds declaration otherDeclaration,
      Gauge.Reports ⟨thresholds, .none⟩ first node declaration →
        Gauge.Reports ⟨otherThresholds, .none⟩ second other otherDeclaration →
          declaration.score = otherDeclaration.score ∧
            declaration.increments = otherDeclaration.increments := by
  have shapes := equal.shape_eq tree.built (tree.mem_nodes inside) (otherTree.mem_nodes otherInside)
  have notIf : node.kind ≠ .ifStatement := by
    intro isIf
    simp [isIf, Kind.registration?] at registered
  have scores := cognitiveScore_eq_of_shape tree otherTree inside otherInside shapes notIf
  refine ⟨fun functionName => ?_, ?_⟩
  · have scored := cognitiveScore_eq first.forest node functionName
    exact ⟨_, scored, scores functionName ▸ scored⟩
  · intro thresholds otherThresholds declaration otherDeclaration reports otherReports
    have scored := Gauge.score_of_measure (Gauge.measure_of_reports reports)
    have otherScored := Gauge.score_of_measure (Gauge.measure_of_reports otherReports)
    rw [scores none, otherScored] at scored
    obtain ⟨score, increments⟩ := CognitiveScore.mk.inj (Except.ok.inj scored)
    exact ⟨score.symm, increments.symm⟩

/-- A constructor over an if with an if in its else. -/
def branchingConstructor : Shape :=
  .sketch .constructorDeclaration none
    [.sketch .identifier (some "name") [],
      .sketch .ifStatement none
        [.sketch .elseClause none [.sketch .ifStatement none []]]]

/-- The document of a tree by itself. -/
def soleDocument (tree : Shape) : Document :=
  .ofTree (Forest.empty.plant tree) analysedLanguage "" "C.cs"

/-- The constructor as an else. -/
def constructorInElse : Document :=
  soleDocument (.sketch .ifStatement none [.sketch .elseClause none [branchingConstructor]])

/-- The constructor in a lambda in a loop, after a jump. -/
def constructorInLambda : Document :=
  soleDocument (.sketch .whileStatement none
    [.sketch .lambdaExpression none [.sketch .gotoStatement none [], branchingConstructor]])

theorem score_of_equalNodes_branchingConstructor :
    ∃ node other declaration otherDeclaration,
      node ∈ constructorInElse.root.preorder ∧ other ∈ constructorInLambda.root.preorder ∧
      Gauge.Reports ⟨⟨0, 0⟩, .none⟩ constructorInElse node declaration ∧
      Gauge.Reports ⟨⟨15, 3⟩, .none⟩ constructorInLambda other otherDeclaration ∧
      declaration.score = otherDeclaration.score ∧
      declaration.increments = otherDeclaration.increments := by
  obtain ⟨node, inside, other, otherInside, isConstructor, isOther, shapes, named, otherNamed⟩ :
      ∃ node ∈ constructorInElse.root.preorder, ∃ other ∈ constructorInLambda.root.preorder,
        node.kind = .constructorDeclaration ∧ other.kind = .constructorDeclaration ∧
        node.shape = other.shape ∧ node.nameNode?.isSome ∧ other.nameNode?.isSome := by
    decide +kernel
  have tree : constructorInElse.forest.IsTree constructorInElse.root := Forest.isTree_plant _
  have otherTree : constructorInLambda.forest.IsTree constructorInLambda.root :=
    Forest.isTree_plant _
  obtain ⟨location, isName⟩ := Option.isSome_iff_exists.mp named
  obtain ⟨otherLocation, isOtherName⟩ := Option.isSome_iff_exists.mp otherNamed
  have registered : node.kind.registration? = some (.named .constructor) :=
    congrArg Kind.registration? isConstructor
  have otherRegistered : other.kind.registration? = some (.named .constructor) :=
    congrArg Kind.registration? isOther
  obtain ⟨declaration, measured⟩ :=
    Gauge.exists_measure_of_located registered (congrArg Except.ok isName) ⟨0, 0⟩
  obtain ⟨otherDeclaration, otherMeasured⟩ :=
    Gauge.exists_measure_of_located otherRegistered (congrArg Except.ok isOtherName) ⟨15, 3⟩
  have reports := Gauge.reports_of_measure tree.built rfl inside measured
  have otherReports := Gauge.reports_of_measure otherTree.built rfl otherInside otherMeasured
  exact ⟨node, other, declaration, otherDeclaration, inside, otherInside, reports, otherReports,
    (score_of_equalNodes tree otherTree inside otherInside (by rw [registered]; rfl)
      (.inl shapes)).2 _ _ _ _ reports otherReports⟩

end CodeMetrics
