import CodeMetrics.Cognitive.Walk

/-!
# Scoring rules

Structural constructs add one more than the nesting and deepen it for their children. An else adds
one. A logical operator adds one, unless its left operand is of the same kind or it is a right operand
that is marked as counted. A call of the enclosing method adds one more than the nesting, as does a
jump. A lambda deepens the nesting and adds nothing.
-/

namespace CodeMetrics

namespace Node

variable {ι : Type}

/-- The keyword of a construct, or else its first leaf. -/
def keyword (node : Node ι) (text : String) : Node ι :=
  (node.findToken? text).getD node.firstToken

/-- The left and right operands of a binary construct: by slot, or else the first and the last named
child, the last one only if there are two. -/
def operands (node : Node ι) : Option (Node ι) × Option (Node ι) :=
  let named := node.namedChildren
  ((node.childByField? "left").or named.head?,
    (node.childByField? "right").or (if 1 < named.length then named.getLast? else none))

mutual

/-- The expression inside any number of parentheses. -/
def stripParentheses : Node ι → Node ι
  | node@(.mk _ attributes children) =>
      if attributes.kind = .parenthesizedExpression then stripFirstNamed node children else node

/-- The first named child without its parentheses, or `node` if there is none. -/
def stripFirstNamed (node : Node ι) : List (Node ι) → Node ι
  | [] => node
  | child :: children =>
      if child.isToken then stripFirstNamed node children else child.stripParentheses

end

/-- The node that names a declaration: its name slot, or else its last identifier. -/
def nameNode? (node : Node ι) : Option (Node ι) :=
  (node.childByField? "name").or (node.childrenOfKind [.identifier]).getLast?

/-- The name of a declaration. -/
def declarationName? (node : Node ι) : Option String := node.nameNode?.bind text

/-- What is called: the function slot, or else the first named child. -/
def callee? (node : Node ι) : Option (Node ι) :=
  (node.childByField? "function").or node.namedChildren.head?

end Node

/-- The written form of a logical operator. -/
def Kind.logicalOperator? : Kind → Option String
  | .logicalAnd => some "&&"
  | .logicalOr => some "||"
  | _ => none

namespace Handler

/-- Add one more than the nesting at the keyword, and deepen. -/
def nestingConstruct (keyword : String) : Handler := fun node state =>
  state.charge (node.keyword keyword) (state.nesting + 1) true

/-- An if, unless it is the alternative of an else, which is charged there. -/
def ifStatement (forest : Forest) : Handler := fun node state =>
  match forest.parent? node with
  | some parent =>
      if parent.kind = .elseClause then (.ok false, state) else nestingConstruct "if" node state
  | none => nestingConstruct "if" node state

/-- Add one at the else. -/
def elseClause : Handler := fun node state => state.charge (node.keyword "else") 1 false

/-- Add one more than the nesting at the jump. -/
def gotoStatement : Handler := fun node state =>
  state.charge (node.keyword "goto") (state.nesting + 1) false

/-- Deepen only. -/
def deepen : Handler := fun _ state => (.ok true, state)

/-- Take over the name of the method, unless the caller gave one. -/
def method : Handler := fun node state =>
  (.ok false, if state.nameGiven then state else { state with functionName := node.declarationName? })

/-- The operand, without parentheses, is an operator of the same kind. -/
def continuesRun (kind : Kind) (operand : Option Vertex) : Bool :=
  match operand with
  | none => false
  | some node => node.stripParentheses.kind = kind

/-- Charge a logical operator whose left operand does not continue its run. -/
def chargeOperator (node : Vertex) (state : WalkState) : Reply :=
  if continuesRun node.kind node.operands.1 then (.ok false, state)
  else
    match node.childByField? "operator", node.kind.logicalOperator? with
    | some operator, _ => state.charge operator 1 false
    | none, some text => state.charge (node.keyword text) 1 false
    | none, none => (.error (.notLogical node.kind), state)

/-- Remember the right operand as counted if it continues the run. -/
def ignoreRight (node : Vertex) (state : WalkState) : WalkState :=
  match node.operands.2 with
  | none => state
  | some right =>
      if right.stripParentheses.kind = node.kind then state.ignore right.stripParentheses.shape
      else state

/-- Charge a logical operator that is not marked as counted, and mark the right operand that continues
its run. -/
def logical : Handler := fun node state =>
  if node.shape ∈ state.ignored then (.ok false, state)
  else
    match chargeOperator node state with
    | (.ok _, charged) => (.ok false, ignoreRight node charged)
    | failed => failed

/-- The call is of the function with the given name. -/
def isRecursiveCall (functionName : Option String) (node : Vertex) : Option Vertex :=
  match node.callee?, functionName with
  | some callee, some name =>
      if callee.kind = .identifier ∧ callee.text = some name then some callee else none
  | _, _ => none

/-- Add one more than the nesting at a recursive call. -/
def invocation : Handler := fun node state =>
  match isRecursiveCall state.functionName node with
  | some callee => state.charge callee (state.nesting + 1) false
  | none => (.ok false, state)

/-- Open a level and leave it open. -/
def leak : Handler := fun _ state => (.ok false, state.shift 1)

/-- Close a level that was not opened. -/
def unleak : Handler := fun _ state => (.ok false, state.shift (-1))

/-- Add one at the first leaf. -/
def flat : Handler := fun node state => state.charge node.firstToken 1 false

end Handler

/-- The scoring rules in a forest. -/
def HandlerTable.standard (forest : Forest) : HandlerTable
  | .methodDeclaration => some Handler.method
  | .ifStatement => some (Handler.ifStatement forest)
  | .elseClause => some Handler.elseClause
  | .conditionalExpression => some (Handler.nestingConstruct "?")
  | .switchStatement => some (Handler.nestingConstruct "switch")
  | .forStatement => some (Handler.nestingConstruct "for")
  | .whileStatement => some (Handler.nestingConstruct "while")
  | .doStatement => some (Handler.nestingConstruct "do")
  | .foreachStatement => some (Handler.nestingConstruct "foreach")
  | .catchClause => some (Handler.nestingConstruct "catch")
  | .gotoStatement => some Handler.gotoStatement
  | .logicalAnd => some Handler.logical
  | .logicalOr => some Handler.logical
  | .invocation => some Handler.invocation
  | .lambdaExpression => some Handler.deepen
  | _ => none

/-- A rule that can be put in the place of another. -/
inductive Rule where
  /-- The rule for a kind. -/
  | standard (kind : Kind)
  | leak
  | unleak
  | flat
  | nest
deriving DecidableEq, Repr

/-- The handler of a rule. -/
def Rule.handler (forest : Forest) : Rule → Option Handler
  | .standard kind => HandlerTable.standard forest kind
  | .leak => some Handler.leak
  | .unleak => some Handler.unleak
  | .flat => some Handler.flat
  | .nest => some Handler.deepen

/-- Which rules are replaced or, without a rule, removed. -/
structure RuleChanges where
  /-- Begin with no rules instead of the scoring rules. -/
  fromEmpty : Bool
  changes : List (Kind × Option Rule)

namespace RuleChanges

/-- No change. -/
def none : RuleChanges := ⟨false, []⟩

/-- The table with the changes made. -/
def table (changes : RuleChanges) (forest : Forest) : HandlerTable := fun kind =>
  match changes.changes.find? fun change => change.1 == kind with
  | some change => change.2.bind (Rule.handler forest)
  | Option.none => if changes.fromEmpty then Option.none else HandlerTable.standard forest kind

/-- The kinds that have a handler. -/
def kinds (changes : RuleChanges) : List Kind :=
  Kind.all.filter fun kind => (changes.table .empty kind).isSome

end RuleChanges

/-- The cognitive complexity of the tree under a node. -/
def cognitiveScore (forest : Forest) (node : Vertex) (functionName : Option String) :
    Except AnalysisError CognitiveScore :=
  (HandlerTable.standard forest).score node functionName

end CodeMetrics
