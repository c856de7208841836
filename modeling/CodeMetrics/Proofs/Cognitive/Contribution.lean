import CodeMetrics.Proofs.Cognitive.Visits
import CodeMetrics.Proofs.Tree.Planting

/-!
# What each node contributes to a score

A walk under the scoring rules succeeds. Its increments are, in pre-order, what each node contributes:
a node that is charged for its nesting adds one more than the number of its ancestors in the tree that
deepen the nesting.
-/

namespace CodeMetrics

/-! ## The name of the function -/

namespace Node

/-- The nodes of a tree that come before a node, in pre-order. -/
def preceding (root node : Vertex) : List Vertex := root.preorder.takeWhile fun other => other ≠ node

end Node

/-- The name that the last of the methods sets, or else the given name. -/
def lastMethodName (name : Option String) (nodes : List Vertex) : Option String :=
  match (nodes.filter fun node => node.kind = .methodDeclaration).getLast? with
  | none => name
  | some method => method.declarationName?

/-- The name of the function at a node of a tree: the one that the caller gave, or else the name of
the last method before the node. -/
def functionNameAt (functionName : Option String) (start node : Vertex) : Option String :=
  match functionName with
  | some name => some name
  | none => lastMethodName none (start.preceding node)

theorem lastMethodName_cons (name : Option String) (node : Vertex) (nodes : List Vertex) :
    lastMethodName name (node :: nodes) =
      lastMethodName (if node.kind = .methodDeclaration then node.declarationName? else name)
        nodes := by
  unfold lastMethodName
  by_cases method : node.kind = .methodDeclaration
  · rw [List.filter_cons_of_pos (by simpa using method), List.getLast?_cons]
    cases (nodes.filter fun node => node.kind = .methodDeclaration).getLast? <;> simp [method]
  · rw [List.filter_cons_of_neg (by simpa using method), if_neg method]

namespace Forest

/-- A name that the caller gave stays; any other is that of the last method. -/
theorem settle_functionName (forest : Forest) (entries : List (Vertex × List Vertex))
    (state : WalkState) :
    (forest.settle entries state).functionName =
      if state.nameGiven then state.functionName
      else lastMethodName state.functionName (entries.map Prod.fst) := by
  induction entries generalizing state with
  | nil => simp [settle, lastMethodName]
  | cons entry entries induction =>
      have given : (forest.visitEntry entry state).after.nameGiven = state.nameGiven := by
        rw [visitEntry_after]
        rfl
      have name : (forest.visitEntry entry state).after.functionName =
          (state.atLevel (forest.depth entry.2)).nameAfter entry.1 := by
        rw [visitEntry_after]
        rfl
      rw [settle, induction, given, name, List.map_cons, lastMethodName_cons]
      cases known : state.nameGiven <;> simp [WalkState.nameAfter, WalkState.atLevel, known]

/-! ## The whole walk -/

/-- Every increment is at least one. -/
theorem one_le_of_contributes {forest : Forest} {node : Vertex} {depth : Nat}
    {name : Option String} {recorded : List Increment}
    (contributes : Contributes forest node depth name recorded) :
    ∀ increment ∈ recorded, 1 ≤ increment.magnitude := by
  have positive : (1 : Int) ≤ 1 + depth := by omega
  have single : ∀ (token : Vertex) (magnitude : Int), 1 ≤ magnitude →
      ∀ increment ∈ [Increment.ofToken token magnitude], 1 ≤ increment.magnitude := by
    intro token magnitude atLeastOne increment member
    rwa [List.mem_singleton.mp member]
  cases kind : node.kind with
  | ifStatement =>
      rw [Contributes, kind] at contributes
      subst contributes
      split
      · simp
      · exact single _ _ positive
  | conditionalExpression | switchStatement | forStatement | whileStatement | doStatement
  | foreachStatement | catchClause | gotoStatement =>
      rw [Contributes, kind] at contributes
      subst contributes
      exact single _ _ positive
  | invocation =>
      rw [Contributes, kind] at contributes
      subst contributes
      intro increment member
      obtain ⟨callee, -, rfl⟩ := List.mem_map.mp member
      exact positive
  | elseClause =>
      rw [Contributes, kind] at contributes
      subst contributes
      exact single _ _ (Int.le_refl 1)
  | logicalAnd | logicalOr =>
      rw [Contributes, kind] at contributes
      rcases contributes with rfl | rfl
      · simp
      · exact single _ _ (Int.le_refl 1)
  | _ =>
      rw [Contributes, kind] at contributes
      subst contributes
      simp

/-- A visit is made in the state that the nodes before it leave, at the depth of its ancestors. -/
theorem exists_entry_of_visit {forest : Forest} {start : Vertex} {functionName : Option String}
    {left right : List Visit} {visit : Visit}
    (split : forest.scoringVisits start functionName = left ++ visit :: right) :
    ∃ before above after,
      start.lineage [] = before ++ (visit.node, above) :: after ∧
      left = forest.trail before (.start functionName) ∧
      visit = forest.visitEntry (visit.node, above) (forest.settle before (.start functionName)) := by
  rw [scoringVisits_eq_trail] at split
  exact exists_entry_of_trail split

theorem map_node_scoringVisits (forest : Forest) (start : Vertex) (functionName : Option String) :
    (forest.scoringVisits start functionName).map Visit.node = start.preorder := by
  rw [scoringVisits_eq_trail, map_node_trail, Node.map_fst_lineage]

/-- A visit is made at the depth of its ancestors, and records what its node contributes there. -/
theorem exists_lineage_of_visit {forest : Forest} {start : Vertex} {functionName : Option String}
    {visit : Visit} (visited : visit ∈ forest.scoringVisits start functionName) :
    ∃ above, (visit.node, above) ∈ start.lineage [] ∧
      visit.before.nesting = forest.depth above ∧
      Contributes forest visit.node (forest.depth above) visit.before.functionName
        visit.recorded := by
  obtain ⟨left, right, split⟩ := List.append_of_mem visited
  obtain ⟨before, above, after, lineage, -, isEntry⟩ := exists_entry_of_visit split
  obtain ⟨-, -, contributes⟩ :=
    forest.visitEntry_spec visit.node above (forest.settle before (.start functionName))
  have state : visit.before =
      (forest.settle before (.start functionName)).atLevel (forest.depth above) := by
    rw [isEntry]
    rfl
  rw [← isEntry] at contributes
  refine ⟨above, by simp [lineage], ?_, ?_⟩
  · rw [state, WalkState.atLevel_nesting]
  · rw [state]
    exact contributes

theorem one_le_of_visit {forest : Forest} {start : Vertex} {functionName : Option String}
    {visit : Visit} (member : visit ∈ forest.scoringVisits start functionName) :
    ∀ increment ∈ visit.recorded, 1 ≤ increment.magnitude := by
  obtain ⟨above, -, -, contributes⟩ := exists_lineage_of_visit member
  exact one_le_of_contributes contributes

/-- Every increment of a walk under the scoring rules adds at least one. -/
theorem one_le_of_recorded (forest : Forest) (start : Vertex) (functionName : Option String) :
    ∀ increment ∈ (forest.scoringVisits start functionName).flatMap Visit.recorded,
      1 ≤ increment.magnitude := by
  intro increment member
  obtain ⟨visit, visited, recorded⟩ := List.mem_flatMap.mp member
  exact one_le_of_visit visited increment recorded

end Forest

theorem Increment.total_nonneg {increments : List Increment}
    (positive : ∀ increment ∈ increments, 1 ≤ increment.magnitude) : 0 ≤ total increments := by
  induction increments with
  | nil => exact Int.le_refl 0
  | cons increment increments induction =>
      have head := positive increment List.mem_cons_self
      have rest := induction fun later member => positive later (List.mem_cons_of_mem _ member)
      rw [total_cons]
      omega

/-- A walk under the scoring rules succeeds with the increments of its visits, and their total. -/
theorem cognitiveScore_eq (forest : Forest) (start : Vertex) (functionName : Option String) :
    cognitiveScore forest start functionName =
      .ok ⟨Increment.total ((forest.scoringVisits start functionName).flatMap Visit.recorded),
        (forest.scoringVisits start functionName).flatMap Visit.recorded⟩ := by
  have increments : (forest.settle (start.lineage []) (.start functionName)).increments =
      (forest.scoringVisits start functionName).flatMap Visit.recorded := by
    rw [Forest.settle_increments, ← Forest.scoringVisits_eq_trail]
    rfl
  have complexity : (forest.settle (start.lineage []) (.start functionName)).complexity =
      Increment.total ((forest.scoringVisits start functionName).flatMap Visit.recorded) := by
    rw [Forest.settle_complexity, ← Forest.scoringVisits_eq_trail]
    exact Int.zero_add _
  have positive : 0 ≤ Increment.total
      ((forest.scoringVisits start functionName).flatMap Visit.recorded) :=
    Increment.total_nonneg (forest.one_le_of_recorded start functionName)
  rw [cognitiveScore, HandlerTable.score, Forest.runFrames_start]
  change (CognitiveScore.of? (forest.settle (start.lineage []) (.start functionName)).complexity
    (forest.settle (start.lineage []) (.start functionName)).increments).mapError _ = _
  rw [increments, complexity, CognitiveScore.of?, if_pos positive]
  rfl

/-! ## Node by node -/

/-- The increments that the walk from `start` records at a node. -/
def Forest.recordedAt (forest : Forest) (start : Vertex) (functionName : Option String)
    (node : Vertex) : List Increment :=
  ((forest.scoringVisits start functionName).filter fun visit => visit.node = node).flatMap
    Visit.recorded

theorem Node.Distinct.nodup {root : Vertex} (distinct : root.Distinct) : root.preorder.Nodup :=
  List.Nodup.of_map Node.mark distinct

theorem filter_node_eq_singleton {left right : List Visit} {visit : Visit}
    (distinct : ((left ++ visit :: right).map Visit.node).Nodup) :
    (left ++ visit :: right).filter (fun other => other.node = visit.node) = [visit] := by
  rw [List.map_append, List.map_cons, List.nodup_append, List.nodup_cons] at distinct
  obtain ⟨-, ⟨later, -⟩, earlier⟩ := distinct
  have noneBefore : left.filter (fun other => other.node = visit.node) = [] := by
    rw [List.filter_eq_nil_iff]
    intro other member same
    exact earlier _ (List.mem_map_of_mem member) _ List.mem_cons_self (of_decide_eq_true same)
  have noneAfter : right.filter (fun other => other.node = visit.node) = [] := by
    rw [List.filter_eq_nil_iff]
    intro other member same
    exact later (of_decide_eq_true same ▸ List.mem_map_of_mem member)
  rw [List.filter_append, noneBefore, List.filter_cons_of_pos (by simp), noneAfter, List.nil_append]

namespace Forest

/-- Where each node occurs once, the increments recorded at a node are those of its one visit. -/
theorem recordedAt_eq {forest : Forest} {start : Vertex} {functionName : Option String}
    {visit : Visit} (distinct : start.Distinct)
    (member : visit ∈ forest.scoringVisits start functionName) :
    forest.recordedAt start functionName visit.node = visit.recorded := by
  obtain ⟨left, right, split⟩ := List.append_of_mem member
  have once := distinct.nodup
  rw [← map_node_scoringVisits forest start functionName, split] at once
  rw [recordedAt, split, filter_node_eq_singleton once, List.flatMap_singleton]

theorem flatMap_recordedAt {forest : Forest} {start : Vertex} {functionName : Option String}
    (distinct : start.Distinct) :
    start.preorder.flatMap (forest.recordedAt start functionName) =
      (forest.scoringVisits start functionName).flatMap Visit.recorded := by
  rw [← map_node_scoringVisits forest start functionName, List.flatMap_map]
  exact List.flatMap_congr fun visit member => recordedAt_eq distinct member

end Forest

theorem Node.preceding_eq {root node : Vertex} {before after : List Vertex}
    (distinct : root.Distinct) (split : root.preorder = before ++ node :: after) :
    root.preceding node = before := by
  have once := distinct.nodup
  rw [split, List.nodup_append] at once
  obtain ⟨-, -, apart⟩ := once
  rw [preceding, split, List.takeWhile_append_of_pos]
  · simp
  · intro other member
    simpa using apart other member node List.mem_cons_self

/-- The scoring rules: a walk succeeds, and its increments are, in pre-order, what each node of the
tree contributes below its ancestors in the tree. -/
theorem cognitiveScore_contributions (forest : Forest) (start : Vertex)
    (functionName : Option String) (distinct : start.Distinct) :
    ∃ result,
      cognitiveScore forest start functionName = .ok result ∧
      result.increments = start.preorder.flatMap (forest.recordedAt start functionName) ∧
      ∀ node ∈ start.preorder,
        Contributes forest node (forest.depth (start.ancestorsIn node))
          (functionNameAt functionName start node)
          (forest.recordedAt start functionName node) := by
  refine ⟨_, cognitiveScore_eq forest start functionName,
    (Forest.flatMap_recordedAt distinct).symm, ?_⟩
  intro node member
  rw [← Forest.map_node_scoringVisits forest start functionName] at member
  obtain ⟨visit, visited, rfl⟩ := List.mem_map.mp member
  obtain ⟨left, right, split⟩ := List.append_of_mem visited
  obtain ⟨before, above, after, lineage, -, isEntry⟩ := Forest.exists_entry_of_visit split
  obtain ⟨-, -, contributes⟩ :=
    forest.visitEntry_spec visit.node above (forest.settle before (.start functionName))
  have depth : forest.depth above = forest.depth (start.ancestorsIn visit.node) := by
    have entry : (visit.node, above) ∈ start.lineage [] := by simp [lineage]
    rw [Node.path_eq_ancestorsIn start distinct entry, List.append_nil, Forest.depth, Forest.depth,
      List.countP_reverse]
  have name : (forest.settle before (.start functionName)).functionName =
      functionNameAt functionName start visit.node := by
    have preorder : start.preorder = before.map Prod.fst ++ visit.node :: after.map Prod.fst := by
      rw [← Node.map_fst_lineage [], lineage, List.map_append, List.map_cons]
    rw [Forest.settle_functionName]
    cases functionName with
    | some name => rfl
    | none =>
        rw [functionNameAt, Node.preceding_eq distinct preorder]
        rfl
  rw [← isEntry, depth, name] at contributes
  rw [Forest.recordedAt_eq distinct visited]
  exact contributes

/-- An if whose alternative is an if over a loop. -/
def elseIfLoop : Vertex × Forest :=
  Forest.empty.plant (.sketch .ifStatement none
    [.sketch .elseClause (some "else")
      [.sketch .ifStatement none [.sketch .whileStatement none []]]])

theorem cognitiveScore_contributions_elseIfLoop :
    elseIfLoop.1.Distinct ∧
      ∃ result,
        cognitiveScore elseIfLoop.2 elseIfLoop.1 none = .ok result ∧
        result.increments =
          elseIfLoop.1.preorder.flatMap (elseIfLoop.2.recordedAt elseIfLoop.1 none) ∧
        ∀ node ∈ elseIfLoop.1.preorder,
          Contributes elseIfLoop.2 node (elseIfLoop.2.depth (elseIfLoop.1.ancestorsIn node))
            (functionNameAt none elseIfLoop.1 node)
            (elseIfLoop.2.recordedAt elseIfLoop.1 none node) :=
  ⟨by decide, cognitiveScore_contributions elseIfLoop.2 elseIfLoop.1 none (by decide)⟩

end CodeMetrics
