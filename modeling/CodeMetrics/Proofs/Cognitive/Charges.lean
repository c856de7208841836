import CodeMetrics.Cognitive.Handlers

/-!
# What each node is charged

The scoring rules as a table: whether a node deepens the nesting, what it adds to the score at a given
depth, and what it leaves in the state. One call of a handler follows the table.
-/

namespace CodeMetrics

/-! ## The table -/

/-- The increment of a token, with its standard message. -/
def Increment.ofToken (token : Vertex) (magnitude : Int) : Increment :=
  ⟨token.span, magnitude, messageFor magnitude⟩

/-- What the increments add up to. -/
def Increment.total (increments : List Increment) : Int :=
  increments.foldr (fun increment sum => increment.magnitude + sum) 0

@[simp] theorem Increment.total_nil : total [] = 0 := rfl

@[simp] theorem Increment.total_cons (increment : Increment) (increments : List Increment) :
    total (increment :: increments) = increment.magnitude + total increments := rfl

@[simp] theorem Increment.total_append (left right : List Increment) :
    total (left ++ right) = total left + total right := by
  induction left with
  | nil => simp
  | cons increment increments induction => simp [induction, Int.add_assoc]

/-- A logical operator. -/
def Kind.IsLogical (kind : Kind) : Prop := kind = .logicalAnd ∨ kind = .logicalOr

instance (kind : Kind) : Decidable kind.IsLogical := inferInstanceAs (Decidable (_ ∨ _))

/-- The kinds that deepen the nesting wherever they stand. -/
def Kind.deepening : List Kind :=
  [.lambdaExpression, .conditionalExpression, .switchStatement, .forStatement, .whileStatement,
   .doStatement, .foreachStatement, .catchClause]

namespace Forest

/-- The parent of the node is an else clause. -/
def IsAlternative (forest : Forest) (node : Vertex) : Prop :=
  (forest.parent? node).map Node.kind = some .elseClause

instance (forest : Forest) (node : Vertex) : Decidable (forest.IsAlternative node) :=
  inferInstanceAs (Decidable (_ = _))

/-- The children of the node lie one level deeper. -/
def Deepens (forest : Forest) (node : Vertex) : Prop :=
  node.kind ∈ Kind.deepening ∨ node.kind = .ifStatement ∧ ¬ forest.IsAlternative node

instance (forest : Forest) (node : Vertex) : Decidable (forest.Deepens node) :=
  inferInstanceAs (Decidable (_ ∨ _))

/-- How many of the nodes deepen the nesting. -/
def depth (forest : Forest) (nodes : List Vertex) : Nat := nodes.countP fun node => forest.Deepens node

end Forest

namespace Node

/-- The callee of a call of the function with the given name. -/
def recursiveCallee? (node : Vertex) (name : Option String) : Option Vertex :=
  node.callee?.filter fun callee => callee.kind = .identifier ∧ name.isSome ∧ callee.text = name

/-- The operand without its parentheses, if it is an operator of the same kind as the node. -/
def continuation? (node : Vertex) (operand : Option Vertex) : Option Vertex :=
  (operand.map stripParentheses).filter fun stripped => stripped.kind = node.kind

/-- The operator that the left operand continues a run with. -/
def leftContinuation? (node : Vertex) : Option Vertex := node.continuation? node.operands.1

/-- The operator that the right operand continues a run with. -/
def rightContinuation? (node : Vertex) : Option Vertex := node.continuation? node.operands.2

/-- The token of a logical operator. -/
def operatorToken (node : Vertex) : Vertex :=
  (node.childByField? "operator").getD (node.keyword (node.kind.logicalOperator?.getD ""))

/-- The increments of a logical operator: none if it is counted already or continues the run of its
left operand. -/
def operatorCharge (node : Vertex) (ignored : List Shape) : List Increment :=
  if node.shape ∈ ignored ∨ node.leftContinuation?.isSome then []
  else [.ofToken node.operatorToken 1]

theorem operatorCharge_cases (node : Vertex) (ignored : List Shape) :
    node.operatorCharge ignored = [] ∨
      node.operatorCharge ignored = [.ofToken node.operatorToken 1] := by
  unfold operatorCharge
  split
  · exact .inl rfl
  · exact .inr rfl

end Node

/-- The increments that a node contributes below `depth` nodes that deepen the nesting, where `name`
is the name of the function. -/
def Contributes (forest : Forest) (node : Vertex) (depth : Nat) (name : Option String)
    (recorded : List Increment) : Prop :=
  match node.kind with
  | .ifStatement =>
      recorded = if forest.IsAlternative node then [] else [.ofToken (node.keyword "if") (1 + depth)]
  | .conditionalExpression => recorded = [.ofToken (node.keyword "?") (1 + depth)]
  | .switchStatement => recorded = [.ofToken (node.keyword "switch") (1 + depth)]
  | .forStatement => recorded = [.ofToken (node.keyword "for") (1 + depth)]
  | .whileStatement => recorded = [.ofToken (node.keyword "while") (1 + depth)]
  | .doStatement => recorded = [.ofToken (node.keyword "do") (1 + depth)]
  | .foreachStatement => recorded = [.ofToken (node.keyword "foreach") (1 + depth)]
  | .catchClause => recorded = [.ofToken (node.keyword "catch") (1 + depth)]
  | .gotoStatement => recorded = [.ofToken (node.keyword "goto") (1 + depth)]
  | .invocation =>
      recorded = (node.recursiveCallee? name).toList.map fun callee => .ofToken callee (1 + depth)
  | .elseClause => recorded = [.ofToken (node.keyword "else") 1]
  | .logicalAnd | .logicalOr => recorded = [] ∨ recorded = [.ofToken node.operatorToken 1]
  | _ => recorded = []

/-! ## What a node leaves in the state -/

namespace WalkState

/-- The function name after a node: a method sets it, unless the caller gave one. -/
def nameAfter (state : WalkState) (node : Vertex) : Option String :=
  if node.kind = .methodDeclaration ∧ state.nameGiven = false then node.declarationName?
  else state.functionName

/-- The operators counted already, after a node: a logical operator that is not among them adds its
right operand if that continues the run. -/
def ignoredAfter (state : WalkState) (node : Vertex) : List Shape :=
  if node.kind.IsLogical ∧ node.shape ∉ state.ignored then (Handler.ignoreRight node state).ignored
  else state.ignored

/-- The state after a node that contributed the given increments. -/
def afterNode (state : WalkState) (node : Vertex) (recorded : List Increment) : WalkState where
  functionName := state.nameAfter node
  nameGiven := state.nameGiven
  nesting := state.nesting
  complexity := state.complexity + Increment.total recorded
  increments := state.increments ++ recorded
  ignored := state.ignoredAfter node

/-- A node that is neither a method nor a logical operator changes the score only. -/
theorem afterNode_of_plain (state : WalkState) {node : Vertex} (recorded : List Increment)
    (notMethod : node.kind ≠ .methodDeclaration) (notLogical : ¬ node.kind.IsLogical) :
    state.afterNode node recorded =
      { state with
        complexity := state.complexity + Increment.total recorded
        increments := state.increments ++ recorded } := by
  simp [afterNode, nameAfter, ignoredAfter, notMethod, notLogical]

theorem afterNode_nil_of_plain (state : WalkState) {node : Vertex}
    (notMethod : node.kind ≠ .methodDeclaration) (notLogical : ¬ node.kind.IsLogical) :
    state.afterNode node [] = state := by
  rw [afterNode_of_plain state [] notMethod notLogical]
  simp [Increment.total]

/-- A charge of at least one is never refused. -/
theorem charge_eq (state : WalkState) (token : Vertex) {magnitude : Int} (positive : 1 ≤ magnitude)
    (deeper : Bool) :
    state.charge token magnitude deeper =
      (.ok deeper,
        { state with
          complexity := state.complexity + magnitude
          increments := state.increments ++ [.ofToken token magnitude] }) := by
  simp [charge, Increment.at?, positive, Increment.ofToken]

theorem charge_eq_afterNode (state : WalkState) (node token : Vertex) {magnitude : Int}
    (positive : 1 ≤ magnitude) (deeper : Bool) (notMethod : node.kind ≠ .methodDeclaration)
    (notLogical : ¬ node.kind.IsLogical) :
    state.charge token magnitude deeper =
      (.ok deeper, state.afterNode node [.ofToken token magnitude]) := by
  rw [charge_eq state token positive, afterNode_of_plain state _ notMethod notLogical]
  simp [Increment.total, Increment.ofToken]

end WalkState

/-! ## One call -/

namespace Handler

/-- A charge for the nesting at which a node stands. -/
theorem nested_charge {state : WalkState} {depth : Nat} (level : state.nesting = depth)
    (node token : Vertex) (deeper : Bool)
    (notMethod : node.kind ≠ .methodDeclaration) (notLogical : ¬ node.kind.IsLogical) :
    state.charge token (state.nesting + 1) deeper =
      (.ok deeper, state.afterNode node [.ofToken token (1 + depth)]) := by
  rw [level, Int.add_comm]
  exact state.charge_eq_afterNode node token (by omega) deeper notMethod notLogical

theorem nestingConstruct_eq (forest : Forest) {state : WalkState} {node : Vertex} {depth : Nat}
    (level : state.nesting = depth) (keyword : String) (kind : node.kind ∈ Kind.deepening) :
    nestingConstruct keyword node state =
      (.ok (decide (forest.Deepens node)),
        state.afterNode node [.ofToken (node.keyword keyword) (1 + depth)]) := by
  have notMethod : node.kind ≠ .methodDeclaration := by
    intro method
    simp [method, Kind.deepening] at kind
  have notLogical : ¬ node.kind.IsLogical := by
    rintro (logical | logical) <;> simp [logical, Kind.deepening] at kind
  have deepens : forest.Deepens node := .inl kind
  rw [nestingConstruct, nested_charge level node _ true notMethod notLogical, decide_eq_true deepens]

theorem ifStatement_eq {forest : Forest} {state : WalkState} {node : Vertex} {depth : Nat}
    (level : state.nesting = depth) (kind : node.kind = .ifStatement) :
    ifStatement forest node state =
      (.ok (decide (forest.Deepens node)),
        state.afterNode node
          (if forest.IsAlternative node then []
          else [.ofToken (node.keyword "if") (1 + depth)])) := by
  have notMethod : node.kind ≠ .methodDeclaration := by simp [kind]
  have notLogical : ¬ node.kind.IsLogical := by simp [kind, Kind.IsLogical]
  have charged := nested_charge level node (node.keyword "if") true notMethod notLogical
  have deepens : forest.Deepens node ↔ ¬ forest.IsAlternative node := by
    simp [Forest.Deepens, kind, Kind.deepening]
  by_cases alternative : forest.IsAlternative node
  · obtain ⟨parent, found, parentKind⟩ := Option.map_eq_some_iff.mp alternative
    have unchanged := state.afterNode_nil_of_plain notMethod notLogical
    simp [ifStatement, found, parentKind, deepens, alternative, unchanged]
  · have reply : ifStatement forest node state = nestingConstruct "if" node state := by
      unfold ifStatement
      split
      · rename_i parent found
        rw [if_neg]
        intro parentKind
        exact alternative (by simp [Forest.IsAlternative, found, parentKind])
      · rfl
    rw [reply, nestingConstruct, charged]
    simp [deepens, alternative]

theorem invocation_eq {state : WalkState} {node : Vertex} {depth : Nat}
    (level : state.nesting = depth) (kind : node.kind = .invocation) :
    invocation node state =
      (.ok false,
        state.afterNode node
          ((node.recursiveCallee? state.functionName).toList.map fun callee =>
            .ofToken callee (1 + depth))) := by
  have notMethod : node.kind ≠ .methodDeclaration := by simp [kind]
  have notLogical : ¬ node.kind.IsLogical := by simp [kind, Kind.IsLogical]
  have recognised : isRecursiveCall state.functionName node =
      node.recursiveCallee? state.functionName := by
    unfold isRecursiveCall Node.recursiveCallee?
    cases node.callee? with
    | none => rfl
    | some callee => cases state.functionName <;> simp [Option.filter]
  rw [invocation, recognised]
  cases node.recursiveCallee? state.functionName with
  | none => simp [state.afterNode_nil_of_plain notMethod notLogical]
  | some callee => exact nested_charge level node callee false notMethod notLogical

theorem method_eq (state : WalkState) {node : Vertex} (kind : node.kind = .methodDeclaration) :
    method node state = (.ok false, state.afterNode node []) := by
  obtain ⟨functionName, nameGiven, nesting, complexity, increments, ignored⟩ := state
  cases nameGiven <;>
    simp [method, WalkState.afterNode, WalkState.nameAfter, WalkState.ignoredAfter, kind,
      Kind.IsLogical, Increment.total]

/-! ### Logical operators -/

theorem continuesRun_eq (node : Vertex) :
    continuesRun node.kind node.operands.1 = node.leftContinuation?.isSome := by
  unfold continuesRun Node.leftContinuation? Node.continuation?
  cases node.operands.1 with
  | none => rfl
  | some operand => by_cases same : operand.stripParentheses.kind = node.kind <;> simp [same]

theorem ignoreRight_eq (node : Vertex) (state : WalkState) :
    ignoreRight node state =
      match node.rightContinuation? with
      | none => state
      | some right => state.ignore right.shape := by
  unfold ignoreRight Node.rightContinuation? Node.continuation?
  cases node.operands.2 with
  | none => rfl
  | some operand =>
      by_cases same : operand.stripParentheses.kind = node.kind <;> simp [same, Option.filter]

/-- Remembering an operator does not touch the rest of the state. -/
theorem ignoreRight_frame (node : Vertex) (state : WalkState) (complexity : Int)
    (increments : List Increment) :
    ignoreRight node { state with complexity, increments } =
      { state with complexity, increments, ignored := (ignoreRight node state).ignored } := by
  rw [ignoreRight_eq, ignoreRight_eq]
  cases node.rightContinuation? with
  | none => rfl
  | some right =>
      by_cases known : right.shape ∈ state.ignored <;> simp [WalkState.ignore, known]

theorem chargeOperator_eq (state : WalkState) {node : Vertex} (kind : node.kind.IsLogical) :
    chargeOperator node state =
      if node.leftContinuation?.isSome then (.ok false, state)
      else
        (.ok false,
          { state with
            complexity := state.complexity + 1
            increments := state.increments ++ [.ofToken node.operatorToken 1] }) := by
  have charge := fun token => state.charge_eq token (Int.le_refl 1) false
  rw [chargeOperator, continuesRun_eq]
  split
  · rfl
  · unfold Node.operatorToken
    cases node.childByField? "operator" with
    | some operator => exact charge operator
    | none => rcases kind with kind | kind <;> simp [kind, Kind.logicalOperator?, charge]

theorem logical_eq (state : WalkState) {node : Vertex} (kind : node.kind.IsLogical) :
    logical node state = (.ok false, state.afterNode node (node.operatorCharge state.ignored)) := by
  have notMethod : node.kind ≠ .methodDeclaration := by
    rcases kind with kind | kind <;> simp [kind]
  unfold Node.operatorCharge
  by_cases skipped : node.shape ∈ state.ignored
  · simp [logical, skipped, WalkState.afterNode, WalkState.nameAfter, WalkState.ignoredAfter,
      notMethod, Increment.total]
  · rw [logical, if_neg skipped, chargeOperator_eq state kind]
    by_cases continued : node.leftContinuation?.isSome
    · simpa [continued, WalkState.afterNode, WalkState.nameAfter, WalkState.ignoredAfter, skipped,
        notMethod, Increment.total, kind] using
        ignoreRight_frame node state state.complexity state.increments
    · simp [skipped, continued, ignoreRight_frame, WalkState.afterNode, WalkState.nameAfter,
        WalkState.ignoredAfter, notMethod, Increment.total, Increment.ofToken, kind]

end Handler

theorem HandlerTable.reply_logical (forest : Forest) {node : Vertex} (logical : node.kind.IsLogical)
    (state : WalkState) :
    (standard forest).reply node state =
      (.ok false, state.afterNode node (node.operatorCharge state.ignored)) := by
  rw [← Handler.logical_eq state logical]
  rcases logical with kind | kind <;> simp [reply, kind, standard]

/-- One call follows the table: it never fails, deepens the nesting exactly for the nodes that do, and
adds to the state what the node contributes. -/
theorem HandlerTable.reply_standard (forest : Forest) (node : Vertex) {state : WalkState}
    {depth : Nat} (level : state.nesting = depth) :
    ∃ recorded,
      (standard forest).reply node state =
        (.ok (decide (forest.Deepens node)), state.afterNode node recorded) ∧
      Contributes forest node depth state.functionName recorded := by
  cases kind : node.kind with
  | ifStatement =>
      refine ⟨_, ?_, by rw [Contributes, kind]⟩
      rw [reply, kind]
      exact Handler.ifStatement_eq level kind
  | conditionalExpression | switchStatement | forStatement | whileStatement | doStatement
  | foreachStatement | catchClause =>
      refine ⟨_, ?_, by rw [Contributes, kind]⟩
      rw [reply, kind]
      exact Handler.nestingConstruct_eq forest level _ (by simp [kind, Kind.deepening])
  | lambdaExpression =>
      refine ⟨[], ?_, by rw [Contributes, kind]⟩
      rw [state.afterNode_nil_of_plain (by simp [kind]) (by simp [kind, Kind.IsLogical])]
      simp [reply, kind, standard, Handler.deepen, Forest.Deepens, Kind.deepening]
  | gotoStatement =>
      refine ⟨_, ?_, by rw [Contributes, kind]⟩
      have charged := Handler.nested_charge level node (node.keyword "goto") false
        (by simp [kind]) (by simp [kind, Kind.IsLogical])
      simp [reply, kind, standard, Handler.gotoStatement, charged, Forest.Deepens, Kind.deepening]
  | elseClause =>
      refine ⟨_, ?_, by rw [Contributes, kind]⟩
      have charged := state.charge_eq_afterNode node (node.keyword "else") (Int.le_refl 1)
        false (by simp [kind]) (by simp [kind, Kind.IsLogical])
      simp [reply, kind, standard, Handler.elseClause, charged, Forest.Deepens, Kind.deepening]
  | invocation =>
      refine ⟨_, ?_, by rw [Contributes, kind]⟩
      simp [reply, kind, standard, Handler.invocation_eq level kind, Forest.Deepens,
        Kind.deepening]
  | logicalAnd | logicalOr =>
      have logical : node.kind.IsLogical := by simp [kind, Kind.IsLogical]
      refine ⟨node.operatorCharge state.ignored, ?_, ?_⟩
      · simp [reply_logical forest logical, Forest.Deepens, kind, Kind.deepening]
      · rw [Contributes, kind]
        exact node.operatorCharge_cases state.ignored
  | methodDeclaration =>
      refine ⟨[], ?_, by rw [Contributes, kind]⟩
      simp [reply, kind, standard, Handler.method_eq state kind, Forest.Deepens, Kind.deepening]
  | _ =>
      refine ⟨[], ?_, by rw [Contributes, kind]⟩
      rw [state.afterNode_nil_of_plain (by simp [kind]) (by simp [kind, Kind.IsLogical])]
      simp [reply, kind, standard, Forest.Deepens, Kind.deepening]

end CodeMetrics
