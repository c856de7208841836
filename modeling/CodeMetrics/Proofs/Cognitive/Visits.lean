import CodeMetrics.Proofs.Cognitive.Charges
import CodeMetrics.Proofs.Cognitive.Visitor
import CodeMetrics.Proofs.Tree.Lineage

/-!
# The visits of a walk

Each node that a walk comes to is a visit, with the state that its handler gets and the state that it
leaves. Under the scoring rules a walk visits the lineage of its tree from first to last, each node at
the depth of its ancestors, and no frame that closes a level is missing or left over.
-/

namespace CodeMetrics

/-- A node on the way of a walk, with the state before and after its handler. -/
structure Visit where
  node : Vertex
  before : WalkState
  after : WalkState

/-- The increments that the handler added. -/
def Visit.recorded (visit : Visit) : List Increment :=
  visit.after.increments.drop visit.before.increments.length

/-- The visits made while a stack of frames is worked off, in order. -/
def visits {failure : Type} (handlers : HandlerTable failure) :
    List Frame → WalkState → List Visit
  | [], _ => []
  | .close :: frames, state => visits handlers frames (state.shift (-1))
  | .visit node :: frames, state =>
      ⟨node, state, (handlers.reply node state).2⟩ ::
        match handlers.reply node state with
        | (.error _, _) => []
        | (.ok true, after) =>
            visits handlers (node.children.map .visit ++ .close :: frames) (after.shift 1)
        | (.ok false, after) => visits handlers (node.children.map .visit ++ frames) after
termination_by frames => Frame.weight frames
decreasing_by
  · simp only [Frame.weight]
    omega
  · simp only [Frame.weight, Frame.weight_append, Frame.weight_visits, Node.size_eq]
    omega
  · simp only [Frame.weight, Frame.weight_append, Frame.weight_visits, Node.size_eq]
    omega

theorem visits_nil {failure : Type} (handlers : HandlerTable failure) (state : WalkState) :
    visits handlers [] state = [] := by
  rw [visits]

theorem visits_close {failure : Type} (handlers : HandlerTable failure) (frames : List Frame)
    (state : WalkState) :
    visits handlers (.close :: frames) state = visits handlers frames (state.shift (-1)) := by
  rw [visits]

theorem visits_visit_of_ok {failure : Type} {handlers : HandlerTable failure} {node : Vertex}
    {deeper : Bool} {before after : WalkState}
    (replied : handlers.reply node before = (.ok deeper, after)) (frames : List Frame) :
    visits handlers (.visit node :: frames) before =
      ⟨node, before, after⟩ ::
        if deeper then
          visits handlers (node.children.map .visit ++ .close :: frames) (after.shift 1)
        else visits handlers (node.children.map .visit ++ frames) after := by
  rw [visits, replied]
  cases deeper <;> rfl

/-! ## Levels -/

namespace WalkState

/-- The state at the given level. -/
def atLevel (state : WalkState) (level : Nat) : WalkState := { state with nesting := level }

@[simp] theorem atLevel_nesting (state : WalkState) (level : Nat) :
    (state.atLevel level).nesting = level := rfl

theorem atLevel_of_nesting {state : WalkState} {level : Nat} (same : state.nesting = level) :
    state.atLevel level = state := by
  rw [atLevel, ← same]

theorem atLevel_shift_up (state : WalkState) (level : Nat) :
    (state.atLevel level).shift 1 = state.atLevel (level + 1) := rfl

theorem atLevel_shift_down (state : WalkState) (level : Nat) :
    (state.atLevel (level + 1)).shift (-1) = state.atLevel level := by
  have closed : ((level + 1 : Nat) : Int) + -1 = level := by omega
  simp only [shift, atLevel, closed]

end WalkState

namespace Forest

theorem depth_cons_of_deepens {forest : Forest} {node : Vertex} (deepens : forest.Deepens node)
    (above : List Vertex) : forest.depth (node :: above) = forest.depth above + 1 := by
  simp [depth, deepens]

theorem depth_cons_of_not_deepens {forest : Forest} {node : Vertex}
    (flat : ¬ forest.Deepens node) (above : List Vertex) :
    forest.depth (node :: above) = forest.depth above := by
  simp [depth, flat]

/-! ## Walking a lineage -/

/-- The visit of a listed node at the depth of its ancestors. -/
def visitEntry (forest : Forest) (entry : Vertex × List Vertex) (state : WalkState) : Visit where
  node := entry.1
  before := state.atLevel (forest.depth entry.2)
  after := ((HandlerTable.standard forest).reply entry.1 (state.atLevel (forest.depth entry.2))).2

/-- The visits of listed nodes, one after the other. -/
def trail (forest : Forest) : List (Vertex × List Vertex) → WalkState → List Visit
  | [], _ => []
  | entry :: entries, state =>
      forest.visitEntry entry state :: trail forest entries (forest.visitEntry entry state).after

/-- The state after the visits of listed nodes. -/
def settle (forest : Forest) : List (Vertex × List Vertex) → WalkState → WalkState
  | [], state => state
  | entry :: entries, state => settle forest entries (forest.visitEntry entry state).after

theorem trail_append (forest : Forest) (left right : List (Vertex × List Vertex))
    (state : WalkState) :
    forest.trail (left ++ right) state =
      forest.trail left state ++ forest.trail right (forest.settle left state) := by
  induction left generalizing state with
  | nil => rfl
  | cons entry entries induction => simp only [List.cons_append, trail, settle, induction]

theorem settle_append (forest : Forest) (left right : List (Vertex × List Vertex))
    (state : WalkState) :
    forest.settle (left ++ right) state = forest.settle right (forest.settle left state) := by
  induction left generalizing state with
  | nil => rfl
  | cons entry entries induction => simp only [List.cons_append, settle, induction]

/-- What the visit of a node records is what the node contributes, and it changes the state by that. -/
theorem visitEntry_spec (forest : Forest) (node : Vertex) (above : List Vertex)
    (state : WalkState) :
    (HandlerTable.standard forest).reply node (state.atLevel (forest.depth above)) =
        (.ok (decide (forest.Deepens node)), (forest.visitEntry (node, above) state).after) ∧
      (forest.visitEntry (node, above) state).after =
        (state.atLevel (forest.depth above)).afterNode node
          (forest.visitEntry (node, above) state).recorded ∧
      Contributes forest node (forest.depth above) state.functionName
        (forest.visitEntry (node, above) state).recorded := by
  obtain ⟨recorded, replied, contributes⟩ :=
    HandlerTable.reply_standard forest node (state.atLevel_nesting (forest.depth above))
  have after : (forest.visitEntry (node, above) state).after =
      (state.atLevel (forest.depth above)).afterNode node recorded := by
    simp only [visitEntry, replied]
  have same : (forest.visitEntry (node, above) state).recorded = recorded := by
    rw [Visit.recorded, after]
    exact List.drop_left
  rw [same]
  exact ⟨by rw [after, replied], after, contributes⟩

theorem visitEntry_after (forest : Forest) (entry : Vertex × List Vertex) (state : WalkState) :
    (forest.visitEntry entry state).after =
      (state.atLevel (forest.depth entry.2)).afterNode entry.1
        (forest.visitEntry entry state).recorded :=
  (forest.visitEntry_spec entry.1 entry.2 state).2.1

mutual

/-- A node on top of a stack, with its ancestors above it, stands for its lineage: the level is back
where it was once the lineage is done. -/
theorem work_lineage (forest : Forest) :
    (node : Vertex) → (above : List Vertex) → (frames : List Frame) → (state : WalkState) →
      runFrames (.standard forest) (.visit node :: frames) (state.atLevel (forest.depth above)) =
          runFrames (.standard forest) frames
            ((forest.settle (node.lineage above) state).atLevel (forest.depth above)) ∧
        visits (.standard forest) (.visit node :: frames) (state.atLevel (forest.depth above)) =
          forest.trail (node.lineage above) state ++
            visits (.standard forest) frames
              ((forest.settle (node.lineage above) state).atLevel (forest.depth above))
  | .mk mark attributes children, above, frames, state => by
      obtain ⟨replied, after, -⟩ :=
        forest.visitEntry_spec (.mk mark attributes children) above state
      rw [Node.lineage, trail, settle, runFrames_visit_of_ok replied, visits_visit_of_ok replied]
      -- the handler leaves the level alone, so the children are at the depth of their own ancestors
      have level : (forest.visitEntry (.mk mark attributes children, above) state).after.atLevel
          (forest.depth above) =
          (forest.visitEntry (.mk mark attributes children, above) state).after :=
        WalkState.atLevel_of_nesting (by rw [after]; rfl)
      by_cases deepens : forest.Deepens (.mk mark attributes children)
      · obtain ⟨ran, visited⟩ := work_lineageAll forest children
          (.mk mark attributes children :: above) (.close :: frames)
          (forest.visitEntry (.mk mark attributes children, above) state).after
        rw [depth_cons_of_deepens deepens, ← WalkState.atLevel_shift_up, level] at ran visited
        rw [runFrames_close, WalkState.atLevel_shift_down] at ran
        rw [visits_close, WalkState.atLevel_shift_down] at visited
        simp only [deepens, decide_true, if_true, Node.children_mk, ran, visited, true_and]
        rfl
      · obtain ⟨ran, visited⟩ := work_lineageAll forest children
          (.mk mark attributes children :: above) frames
          (forest.visitEntry (.mk mark attributes children, above) state).after
        rw [depth_cons_of_not_deepens deepens, level] at ran visited
        simp only [deepens, decide_false, Bool.false_eq_true, if_false, Node.children_mk, ran,
          visited, true_and]
        rfl

theorem work_lineageAll (forest : Forest) :
    (nodes : List Vertex) → (above : List Vertex) → (frames : List Frame) → (state : WalkState) →
      runFrames (.standard forest) (nodes.map .visit ++ frames)
            (state.atLevel (forest.depth above)) =
          runFrames (.standard forest) frames
            ((forest.settle (Node.lineageAll above nodes) state).atLevel (forest.depth above)) ∧
        visits (.standard forest) (nodes.map .visit ++ frames)
            (state.atLevel (forest.depth above)) =
          forest.trail (Node.lineageAll above nodes) state ++
            visits (.standard forest) frames
              ((forest.settle (Node.lineageAll above nodes) state).atLevel (forest.depth above))
  | [], above, frames, state => ⟨rfl, rfl⟩
  | node :: nodes, above, frames, state => by
      obtain ⟨ranFirst, visitedFirst⟩ :=
        work_lineage forest node above (nodes.map .visit ++ frames) state
      obtain ⟨ranRest, visitedRest⟩ :=
        work_lineageAll forest nodes above frames (forest.settle (node.lineage above) state)
      rw [List.map_cons, List.cons_append, Node.lineageAll, trail_append, settle_append, ranFirst,
        visitedFirst, ranRest, visitedRest, List.append_assoc]
      exact ⟨rfl, rfl⟩

end

/-! ## What a trail leaves -/

theorem map_node_trail (forest : Forest) (entries : List (Vertex × List Vertex))
    (state : WalkState) :
    (forest.trail entries state).map Visit.node = entries.map Prod.fst := by
  induction entries generalizing state with
  | nil => rfl
  | cons entry entries induction =>
      rw [trail, List.map_cons, List.map_cons, induction]
      rfl

theorem settle_increments (forest : Forest) (entries : List (Vertex × List Vertex))
    (state : WalkState) :
    (forest.settle entries state).increments =
      state.increments ++ (forest.trail entries state).flatMap Visit.recorded := by
  induction entries generalizing state with
  | nil => simp [settle, trail]
  | cons entry entries induction =>
      have added : (forest.visitEntry entry state).after.increments =
          state.increments ++ (forest.visitEntry entry state).recorded := by
        rw [visitEntry_after]
        rfl
      rw [settle, trail, induction, added, List.flatMap_cons, List.append_assoc]

theorem settle_complexity (forest : Forest) (entries : List (Vertex × List Vertex))
    (state : WalkState) :
    (forest.settle entries state).complexity =
      state.complexity +
        Increment.total ((forest.trail entries state).flatMap Visit.recorded) := by
  induction entries generalizing state with
  | nil => simp [settle, trail, Increment.total]
  | cons entry entries induction =>
      have added : (forest.visitEntry entry state).after.complexity =
          state.complexity + Increment.total (forest.visitEntry entry state).recorded := by
        rw [visitEntry_after]
        rfl
      rw [settle, trail, induction, added, List.flatMap_cons, Increment.total_append, Int.add_assoc]

/-- A visit on a trail is that of a listed node, in the state that the nodes before it leave. -/
theorem exists_entry_of_trail {forest : Forest} {entries : List (Vertex × List Vertex)}
    {state : WalkState} {left right : List Visit} {visit : Visit}
    (split : forest.trail entries state = left ++ visit :: right) :
    ∃ before above after,
      entries = before ++ (visit.node, above) :: after ∧
      left = forest.trail before state ∧
      visit = forest.visitEntry (visit.node, above) (forest.settle before state) := by
  induction entries generalizing state left with
  | nil => simp [trail] at split
  | cons entry entries induction =>
      rw [trail] at split
      cases left with
      | nil =>
          obtain ⟨rfl, -⟩ := List.cons.inj split
          exact ⟨[], entry.2, entries, rfl, rfl, rfl⟩
      | cons first left =>
          obtain ⟨rfl, rest⟩ := List.cons.inj split
          obtain ⟨before, above, after, rfl, rfl, isEntry⟩ := induction rest
          exact ⟨entry :: before, above, after, rfl, rfl, isEntry⟩

/-! ## A walk from its first state -/

/-- The visits of the walk that scores the tree under a node. -/
def scoringVisits (forest : Forest) (start : Vertex) (functionName : Option String) : List Visit :=
  visits (.standard forest) [.visit start] (.start functionName)

theorem scoringVisits_eq_trail (forest : Forest) (start : Vertex) (functionName : Option String) :
    forest.scoringVisits start functionName =
      forest.trail (start.lineage []) (.start functionName) := by
  have visited := (forest.work_lineage start [] [] (.start functionName)).2
  rw [visits_nil, List.append_nil] at visited
  exact visited

theorem runFrames_start (forest : Forest) (start : Vertex) (functionName : Option String) :
    runFrames (.standard forest) [.visit start] (.start functionName) =
      (.ok (), (forest.settle (start.lineage []) (.start functionName)).atLevel 0) := by
  have ran := (forest.work_lineage start [] [] (.start functionName)).1
  rw [runFrames_nil] at ran
  exact ran

end Forest

end CodeMetrics
