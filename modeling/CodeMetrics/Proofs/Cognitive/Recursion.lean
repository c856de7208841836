import CodeMetrics.Proofs.Cognitive.Operators

/-!
# Calls that are charged as recursive

A walk that is given no name takes over the name of each method that it enters, and keeps it when it
leaves the method. So a call is charged when it names the last method before it, whether or not it
lies inside that method. The charges outside the methods that they recur into are those of the stray
calls: calls after the end of the method that they name.
-/

namespace CodeMetrics

namespace Node

/-- What is called is an identifier with the name of the method. -/
def Names (call method : Vertex) : Prop :=
  ∃ callee ∈ call.callee?, callee.kind = .identifier ∧ callee.text.isSome ∧
    method.declarationName? = callee.text

/-- The walk from `start` enters the method before it comes to the node, and none in between. -/
def LastMethodBefore (start method node : Vertex) : Prop :=
  method.kind = .methodDeclaration ∧
    ∃ before between after, start.preorder = before ++ method :: (between ++ node :: after) ∧
      ∀ other ∈ between, other.kind ≠ .methodDeclaration

/-- Inside the tree, the call lies in a method that it names. -/
def RecursIn (start call : Vertex) : Prop :=
  ∃ method ∈ start.preorder,
    method.kind = .methodDeclaration ∧ call ∈ method.preorder ∧ call.Names method

/-- The call lies in no method that it names, but it names the last method before it, which has
ended. -/
def Strays (start call : Vertex) : Prop :=
  ¬ start.RecursIn call ∧
    ∃ method, start.LastMethodBefore method call ∧ call ∉ method.preorder ∧ call.Names method

theorem names_iff {call method : Vertex} :
    call.Names method ↔ (call.recursiveCallee? method.declarationName?).isSome := by
  rw [Names, recursiveCallee?, Option.isSome_filter, Option.any_eq_true]
  refine exists_congr fun callee => and_congr_right fun _ => ?_
  rw [decide_eq_true_eq]
  constructor
  · rintro ⟨isIdentifier, named, same⟩
    exact ⟨isIdentifier, by rwa [same], same.symm⟩
  · rintro ⟨isIdentifier, named, same⟩
    exact ⟨isIdentifier, by rwa [same], same.symm⟩

instance (call method : Vertex) : Decidable (call.Names method) := decidable_of_iff' _ names_iff

instance (start call : Vertex) : Decidable (start.RecursIn call) :=
  inferInstanceAs (Decidable (∃ method ∈ start.preorder, _))

end Node

/-! ## The name in force -/

/-- The name that methods set is that of a method which no other one follows. -/
theorem lastMethodName_eq_some_iff {nodes : List Vertex} {name : String} :
    lastMethodName none nodes = some name ↔
      ∃ before method between, nodes = before ++ method :: between ∧
        method.kind = .methodDeclaration ∧
        (∀ other ∈ between, other.kind ≠ .methodDeclaration) ∧
        method.declarationName? = some name := by
  have last : lastMethodName none nodes = some name ↔
      ∃ method, (nodes.filter fun node => node.kind = .methodDeclaration).getLast? = some method ∧
        method.declarationName? = some name := by
    rw [lastMethodName]
    cases (nodes.filter fun node => node.kind = .methodDeclaration).getLast? <;> simp
  rw [last]
  constructor
  · rintro ⟨method, isLast, named⟩
    obtain ⟨methods, kept⟩ := List.getLast?_eq_some_iff.mp isLast
    obtain ⟨front, back, rfl, -, kept⟩ := List.filter_eq_append_iff.mp kept
    obtain ⟨skipped, between, rfl, -, isMethod, others⟩ := List.filter_eq_cons_iff.mp kept
    refine ⟨front ++ skipped, method, between, by simp, by simpa using isMethod, ?_, named⟩
    simpa using List.filter_eq_nil_iff.mp others
  · rintro ⟨before, method, between, rfl, isMethod, others, named⟩
    have none : between.filter (fun node => node.kind = .methodDeclaration) = [] := by
      simpa using others
    refine ⟨method, ?_, named⟩
    rw [List.filter_append, List.filter_cons_of_pos (by simpa using isMethod), none]
    simp

namespace Forest

variable {forest : Forest} {start : Vertex}

/-- The walk comes to a node with the name that the methods before the node leave. -/
theorem functionName_of_visit {visit : Visit} (distinct : start.Distinct)
    (visited : visit ∈ forest.scoringVisits start none) :
    visit.before.functionName = lastMethodName none (start.preceding visit.node) := by
  obtain ⟨left, right, split⟩ := List.append_of_mem visited
  obtain ⟨before, above, after, lineage, -, isEntry⟩ := exists_entry_of_visit split
  have preorder : start.preorder = before.map Prod.fst ++ visit.node :: after.map Prod.fst := by
    rw [← Node.map_fst_lineage [], lineage, List.map_append, List.map_cons]
  have name := forest.settle_functionName before (.start none)
  rw [Node.preceding_eq distinct preorder, isEntry]
  exact name

/-- The method that leaves its name for a node is told by the order of the nodes. -/
theorem lastMethodName_preceding_iff (distinct : start.Distinct) {node : Vertex}
    (member : node ∈ start.preorder) (name : String) :
    lastMethodName none (start.preceding node) = some name ↔
      ∃ method, start.LastMethodBefore method node ∧ method.declarationName? = some name := by
  obtain ⟨front, back, split⟩ := List.append_of_mem member
  rw [Node.preceding_eq distinct split, lastMethodName_eq_some_iff]
  constructor
  · rintro ⟨before, method, between, rfl, isMethod, others, named⟩
    exact ⟨method, ⟨isMethod, before, between, back, by rw [split]; simp, others⟩, named⟩
  · rintro ⟨method, ⟨isMethod, before, between, after, otherSplit, others⟩, named⟩
    -- the node occurs once, so both splits are at the same place
    have front_eq : front = before ++ method :: between := by
      have cut : start.preorder = (before ++ method :: between) ++ node :: after := by
        rw [otherSplit]
        simp
      rw [← Node.preceding_eq distinct split, Node.preceding_eq distinct cut]
    exact ⟨before, method, between, front_eq, isMethod, others, named⟩

/-! ## Charged calls -/

/-- A call is charged exactly if it names the last method before it. -/
theorem recordedAt_invocation_ne_nil_iff (distinct : start.Distinct) {call : Vertex}
    (member : call ∈ start.preorder) (isCall : call.kind = .invocation) :
    forest.recordedAt start none call ≠ [] ↔
      ∃ method, start.LastMethodBefore method call ∧ call.Names method := by
  obtain ⟨visit, visited, rfl⟩ := exists_visit forest none member
  obtain ⟨above, -, -, contributes⟩ := exists_lineage_of_visit visited
  rw [Contributes, isCall, functionName_of_visit distinct visited] at contributes
  rw [recordedAt_eq distinct visited, contributes, ne_eq, List.map_eq_nil_iff,
    Option.toList_eq_nil_iff, ← ne_eq, ← Option.isSome_iff_ne_none]
  have inForce := lastMethodName_preceding_iff distinct member
  generalize lastMethodName none (start.preceding visit.node) = current at inForce
  constructor
  · intro recognised
    cases current with
    | none => simp [Node.recursiveCallee?] at recognised
    | some name =>
        obtain ⟨method, isLast, named⟩ := (inForce name).mp rfl
        exact ⟨method, isLast, Node.names_iff.mpr (by rwa [named])⟩
  · rintro ⟨method, isLast, named⟩
    have recognised := Node.names_iff.mp named
    obtain ⟨callee, -, -, hasText, same⟩ := named
    obtain ⟨name, text⟩ := Option.isSome_iff_exists.mp hasText
    rw [same, text] at recognised
    rwa [(inForce name).mpr ⟨method, isLast, same.trans text⟩]

end Forest

theorem Node.LastMethodBefore.mem_preorder {start method node : Vertex}
    (isLast : start.LastMethodBefore method node) : method ∈ start.preorder := by
  obtain ⟨-, before, between, after, split, -⟩ := isLast
  rw [split]
  exact List.mem_append_right before List.mem_cons_self

/-- A charged call lies in a method that it names unless it strays, and stray calls are charged. -/
theorem Forest.charged_outside_iff_strays (forest : Forest) {start call : Vertex}
    (distinct : start.Distinct) (member : call ∈ start.preorder)
    (isCall : call.kind = .invocation) :
    forest.recordedAt start none call ≠ [] ∧ ¬ start.RecursIn call ↔ start.Strays call := by
  rw [recordedAt_invocation_ne_nil_iff distinct member isCall]
  constructor
  · rintro ⟨⟨method, isLast, named⟩, outside⟩
    refine ⟨outside, method, isLast, ?_, named⟩
    intro inside
    exact outside ⟨method, isLast.mem_preorder, isLast.1, inside, named⟩
  · rintro ⟨outside, method, isLast, -, named⟩
    exact ⟨⟨method, isLast, named⟩, outside⟩

/-- Where each node occurs once and no name is given, the calls that are charged are those that name
the last method before them. All of them lie in a method that they name exactly if no call
strays. -/
theorem recursion_charged_inside_iff (forest : Forest) {start : Vertex}
    (distinct : start.Distinct) :
    (∃ result, cognitiveScore forest start none = .ok result ∧
      result.increments = start.preorder.flatMap (forest.recordedAt start none)) ∧
    (∀ call ∈ start.preorder, call.kind = .invocation →
      (forest.recordedAt start none call ≠ [] ↔
        ∃ method, start.LastMethodBefore method call ∧ call.Names method)) ∧
    ((∀ call ∈ start.preorder, call.kind = .invocation →
        forest.recordedAt start none call ≠ [] → start.RecursIn call) ↔
      ∀ call ∈ start.preorder, call.kind = .invocation → ¬ start.Strays call) := by
  refine ⟨⟨_, cognitiveScore_eq forest start none, (Forest.flatMap_recordedAt distinct).symm⟩,
    fun call member isCall => Forest.recordedAt_invocation_ne_nil_iff distinct member isCall, ?_⟩
  refine forall_congr' fun call => forall_congr' fun member => forall_congr' fun isCall => ?_
  rw [← forest.charged_outside_iff_strays distinct member isCall, not_and_not_right]

/-- A named node of a kind over the given children. -/
def namedDeclaration (kind : Kind) (name : String) (children : List Shape) : Shape :=
  .sketch kind none
    (.mk () (.of .identifier ⟨0, 0, 1, 0, 1, 0⟩ (some name) (some "name") "") [] :: children)

/-- A class with a method and, after it, a constructor that calls the method. -/
def callFromConstructor : Vertex × Forest :=
  Forest.empty.plant (.sketch .declarationList none
    [namedDeclaration .methodDeclaration "Walk" [],
      namedDeclaration .constructorDeclaration "C"
        [.sketch .invocation none
          [.mk () (.of .identifier ⟨0, 0, 1, 0, 1, 0⟩ (some "Walk") (some "function") "") []]]])

theorem recursion_charged_inside_iff_callFromConstructor :
    callFromConstructor.1.Distinct ∧
      ¬ ∀ call ∈ callFromConstructor.1.preorder, call.kind = .invocation →
        callFromConstructor.2.recordedAt callFromConstructor.1 none call ≠ [] →
          callFromConstructor.1.RecursIn call := by
  have distinct : callFromConstructor.1.Distinct := by decide +kernel
  -- the list of members, the method and its name come first, then the constructor with its name
  obtain ⟨call, member, method, -, isCall, isMethod, outside, ended, named, split, others⟩ :
      ∃ call ∈ callFromConstructor.1.preorder, ∃ method ∈ callFromConstructor.1.preorder,
        call.kind = .invocation ∧ method.kind = .methodDeclaration ∧
        ¬ callFromConstructor.1.RecursIn call ∧ call ∉ method.preorder ∧ call.Names method ∧
        callFromConstructor.1.preorder =
          callFromConstructor.1.preorder.take 1 ++ method ::
            ((callFromConstructor.1.preorder.drop 2).take 3 ++ call ::
              callFromConstructor.1.preorder.drop 6) ∧
        ∀ other ∈ (callFromConstructor.1.preorder.drop 2).take 3,
          other.kind ≠ .methodDeclaration := by
    decide +kernel
  refine ⟨distinct, fun inside => ?_⟩
  have strays : callFromConstructor.1.Strays call :=
    ⟨outside, method, ⟨isMethod, _, _, _, split, others⟩, ended, named⟩
  exact (recursion_charged_inside_iff callFromConstructor.2 distinct).2.2.mp inside call member
    isCall strays

end CodeMetrics
