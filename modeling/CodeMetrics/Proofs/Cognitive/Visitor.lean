import CodeMetrics.Cognitive.Walk

/-!
# Visiting a tree by recursion

The visitor calls the handler of a node and then visits the children from left to right, one level
deeper if the handler says so. A stack of frames does the same: a frame for a node stands for its
visit, and whatever lies below it on the stack comes after. This holds of every table of handlers,
whatever they do to the state and whether or not they fail.
-/

namespace CodeMetrics

variable {failure : Type}

/-- How a walk ends, well or with the first failure, and the state it leaves. -/
abbrev Outcome (failure : Type) := Except failure Unit × WalkState

namespace Outcome

/-- Go on from a walk that ended well. -/
def andThen (outcome : Outcome failure) (next : WalkState → Outcome failure) : Outcome failure :=
  match outcome with
  | (.ok (), state) => next state
  | (.error error, state) => (.error error, state)

@[simp] theorem andThen_ok (state : WalkState) (next : WalkState → Outcome failure) :
    andThen (.ok (), state) next = next state := rfl

@[simp] theorem andThen_error (error : failure) (state : WalkState)
    (next : WalkState → Outcome failure) :
    andThen (.error error, state) next = (.error error, state) := rfl

theorem andThen_assoc (outcome : Outcome failure) (next last : WalkState → Outcome failure) :
    (outcome.andThen next).andThen last = outcome.andThen fun state => (next state).andThen last := by
  obtain ⟨error | _, state⟩ := outcome <;> rfl

end Outcome

mutual

/-- Visit a node and all below it. -/
def visitTree (handlers : HandlerTable failure) : Vertex → WalkState → Outcome failure
  | node@(.mk _ _ children), state =>
      match handlers node.kind with
      | none => visitTrees handlers children state
      | some handler =>
          match handler node state with
          | (.error error, after) => (.error error, after)
          | (.ok true, after) =>
              (visitTrees handlers children (after.shift 1)).andThen fun last =>
                (.ok (), last.shift (-1))
          | (.ok false, after) => visitTrees handlers children after

/-- Visit trees from left to right, up to the first failure. -/
def visitTrees (handlers : HandlerTable failure) : List Vertex → WalkState → Outcome failure
  | [], state => (.ok (), state)
  | node :: nodes, state =>
      (visitTree handlers node state).andThen fun after => visitTrees handlers nodes after

end

/-! ## One frame -/

theorem runFrames_nil (handlers : HandlerTable failure) (state : WalkState) :
    runFrames handlers [] state = (.ok (), state) := by
  rw [runFrames]

theorem runFrames_close (handlers : HandlerTable failure) (frames : List Frame)
    (state : WalkState) :
    runFrames handlers (.close :: frames) state = runFrames handlers frames (state.shift (-1)) := by
  rw [runFrames]

theorem runFrames_visit_of_ok {handlers : HandlerTable failure} {node : Vertex} {deeper : Bool}
    {before after : WalkState} (replied : handlers.reply node before = (.ok deeper, after))
    (frames : List Frame) :
    runFrames handlers (.visit node :: frames) before =
      if deeper then
        runFrames handlers (node.children.map .visit ++ .close :: frames) (after.shift 1)
      else runFrames handlers (node.children.map .visit ++ frames) after := by
  rw [runFrames, replied]
  cases deeper <;> rfl

theorem runFrames_visit_of_error {handlers : HandlerTable failure} {node : Vertex}
    {error : failure} {before after : WalkState}
    (replied : handlers.reply node before = (.error error, after)) (frames : List Frame) :
    runFrames handlers (.visit node :: frames) before = (.error error, after) := by
  rw [runFrames, replied]

/-! ## A whole stack -/

mutual

/-- A node on top of a stack is visited before the rest of the stack is worked off. -/
theorem runFrames_visit (handlers : HandlerTable failure) :
    (node : Vertex) → (frames : List Frame) → (state : WalkState) →
      runFrames handlers (.visit node :: frames) state =
        (visitTree handlers node state).andThen (runFrames handlers frames)
  | .mk mark attributes children, frames, state => by
      rw [visitTree]
      cases found : handlers (Node.mk mark attributes children).kind with
      | none =>
          have replied : handlers.reply (.mk mark attributes children) state =
              (.ok false, state) := by
            rw [HandlerTable.reply, found]
          rw [runFrames_visit_of_ok replied]
          exact runFrames_visits handlers children frames state
      | some handler =>
          have replied : handlers.reply (.mk mark attributes children) state =
              handler (.mk mark attributes children) state := by
            rw [HandlerTable.reply, found]
          simp only
          rcases answer : handler (.mk mark attributes children) state with ⟨error | deeper, after⟩
          · rw [answer] at replied
            exact runFrames_visit_of_error replied frames
          · rw [answer] at replied
            rw [runFrames_visit_of_ok replied]
            cases deeper with
            | false => exact runFrames_visits handlers children frames after
            | true =>
                -- the closing frame is the part of the visit that comes after the children
                rw [if_pos rfl, Node.children_mk, runFrames_visits handlers children]
                simp only [Outcome.andThen_assoc, Outcome.andThen_ok]
                congr 1
                funext last
                exact runFrames_close handlers frames last

theorem runFrames_visits (handlers : HandlerTable failure) :
    (nodes : List Vertex) → (frames : List Frame) → (state : WalkState) →
      runFrames handlers (nodes.map .visit ++ frames) state =
        (visitTrees handlers nodes state).andThen (runFrames handlers frames)
  | [], frames, state => by simp [visitTrees]
  | node :: nodes, frames, state => by
      rw [List.map_cons, List.cons_append, runFrames_visit handlers node, visitTrees,
        Outcome.andThen_assoc]
      congr 1
      funext after
      exact runFrames_visits handlers nodes frames after

end

/-- Working off a stack that holds one node is visiting the node by recursion: with the same final
state, and the same first failure if a handler fails. -/
theorem runFrames_singleton_eq_visitTree (handlers : HandlerTable failure) (node : Vertex)
    (state : WalkState) :
    runFrames handlers [.visit node] state = visitTree handlers node state := by
  rw [runFrames_visit]
  obtain ⟨error | _, after⟩ := visitTree handlers node state
  · rfl
  · exact runFrames_nil handlers after

end CodeMetrics
