import CodeMetrics.AnalysisError
import CodeMetrics.Cognitive.Increment

/-!
# Walking a tree

A walk visits every node of a tree in pre-order with a stack. Each kind may have a handler, which
reads and changes the state of the walk and says whether the children of the node lie one level
deeper. A level that a node opens is closed by a frame that stays on the stack below its children.
-/

namespace CodeMetrics

/-- The state of a walk. -/
structure WalkState where
  /-- The name that a recursive call has. -/
  functionName : Option String
  /-- The name was given by the caller, so declarations leave it alone. -/
  nameGiven : Bool
  nesting : Int
  complexity : Int
  /-- The increments so far, in order. -/
  increments : List Increment
  /-- The logical operators counted already as part of a run. -/
  ignored : List Shape

namespace WalkState

/-- The state before the first node. -/
def start (functionName : Option String) : WalkState where
  functionName := functionName
  nameGiven := functionName.isSome
  nesting := 0
  complexity := 0
  increments := []
  ignored := []

/-- Open or close levels. -/
def shift (state : WalkState) (levels : Int) : WalkState :=
  { state with nesting := state.nesting + levels }

/-- Remember a logical operator as counted. -/
def ignore (state : WalkState) (operator : Shape) : WalkState :=
  if operator ∈ state.ignored then state
  else { state with ignored := state.ignored ++ [operator] }

end WalkState

/-- The answer of a handler, or its failure, with the state it leaves. -/
abbrev Reply (failure : Type := AnalysisError) := Except failure Bool × WalkState

/-- What is done at a node. The answer says whether the children lie one level deeper. -/
abbrev Handler (failure : Type := AnalysisError) := Vertex → WalkState → Reply failure

/-- The handler of each kind that has one. -/
abbrev HandlerTable (failure : Type := AnalysisError) := Kind → Option (Handler failure)

/-- Add to the score at a token and answer. The score has changed already when the increment is
refused. -/
def WalkState.charge (state : WalkState) (token : Vertex) (magnitude : Int) (deeper : Bool) : Reply :=
  let charged := { state with complexity := state.complexity + magnitude }
  match Increment.at? token.span magnitude with
  | .ok increment =>
      (.ok deeper, { charged with increments := charged.increments ++ [increment] })
  | .error rejection => (.error (.rejected rejection), charged)

/-- The reply of a table to a node: without a handler, the children are on the same level. -/
def HandlerTable.reply {failure : Type} (handlers : HandlerTable failure) (node : Vertex)
    (state : WalkState) : Reply failure :=
  match handlers node.kind with
  | none => (.ok false, state)
  | some handler => handler node state

/-- What is left to do: visit a node, or close a level. -/
inductive Frame where
  | visit (node : Vertex)
  | close

/-- The work that a stack of frames stands for. -/
def Frame.weight : List Frame → Nat
  | [] => 0
  | .visit node :: frames => 2 * node.size + weight frames
  | .close :: frames => 1 + weight frames

theorem Frame.weight_append (left right : List Frame) :
    Frame.weight (left ++ right) = Frame.weight left + Frame.weight right := by
  induction left with
  | nil => simp [Frame.weight]
  | cons frame frames induction =>
      cases frame <;> simp [Frame.weight, induction, Nat.add_assoc]

theorem Frame.weight_visits (nodes : List Vertex) :
    Frame.weight (nodes.map .visit) = 2 * Node.sizeAll nodes := by
  induction nodes with
  | nil => rfl
  | cons node nodes induction =>
      simp only [List.map_cons, Frame.weight, Node.sizeAll, induction]
      omega

/-- Work off a stack of frames, up to the first failure. -/
def runFrames {failure : Type} (handlers : HandlerTable failure) :
    List Frame → WalkState → Except failure Unit × WalkState
  | [], state => (.ok (), state)
  | .close :: frames, state => runFrames handlers frames (state.shift (-1))
  | .visit node :: frames, state =>
      match handlers.reply node state with
      | (.error error, after) => (.error error, after)
      | (.ok true, after) =>
          runFrames handlers (node.children.map .visit ++ .close :: frames) (after.shift 1)
      | (.ok false, after) => runFrames handlers (node.children.map .visit ++ frames) after
termination_by frames => Frame.weight frames
decreasing_by
  · simp only [Frame.weight]
    omega
  · simp only [Frame.weight, Frame.weight_append, Frame.weight_visits, Node.size_eq]
    omega
  · simp only [Frame.weight, Frame.weight_append, Frame.weight_visits, Node.size_eq]
    omega

/-- Score the tree under a node. -/
def HandlerTable.score (handlers : HandlerTable) (node : Vertex) (functionName : Option String) :
    Except AnalysisError CognitiveScore :=
  match runFrames handlers [.visit node] (.start functionName) with
  | (.error failure, _) => .error failure
  | (.ok (), state) =>
      if state.nesting = 0 then
        (CognitiveScore.of? state.complexity state.increments).mapError .rejected
      else .error (.unbalancedNesting state.nesting node.kind node.span)

end CodeMetrics
