import CodeMetrics.Proofs.Cognitive.Contribution

/-!
# Levels under replaced rules

A rule may leave a level open, or close one that was not opened. A frame that closes a level takes one
off whatever the level has become, so the level and what the frames on the stack will still add to it
have the same sum throughout a walk. At its end the level is the number of nodes that leave one open,
less the number of nodes that close one. A charge is refused only below level zero.
-/

namespace CodeMetrics

/-! ## Tables of rules -/

/-- The levels that a node with the rule leaves open. -/
def Rule.levels : Option Rule → Int
  | some .leak => 1
  | some .unleak => -1
  | _ => 0

theorem Rule.levels_nonneg {rule : Option Rule} (sealed : rule ≠ some .unleak) :
    0 ≤ levels rule := by
  unfold levels
  split
  · omega
  · exact absurd rfl sealed
  · omega

/-- The number of nodes that have the rule. -/
def ruleCount (rules : Kind → Option Rule) (rule : Rule) (nodes : List Vertex) : Nat :=
  nodes.countP fun node => rules node.kind = some rule

/-- The levels that the nodes leave open. -/
def levelsLeft (rules : Kind → Option Rule) (nodes : List Vertex) : Int :=
  ruleCount rules .leak nodes - ruleCount rules .unleak nodes

theorem levelsLeft_append (rules : Kind → Option Rule) (left right : List Vertex) :
    levelsLeft rules (left ++ right) = levelsLeft rules left + levelsLeft rules right := by
  simp only [levelsLeft, ruleCount, List.countP_append]
  omega

theorem levelsLeft_cons (rules : Kind → Option Rule) (node : Vertex) (nodes : List Vertex) :
    levelsLeft rules (node :: nodes) = Rule.levels (rules node.kind) + levelsLeft rules nodes := by
  have single : levelsLeft rules [node] = Rule.levels (rules node.kind) := by
    simp only [levelsLeft, ruleCount, List.countP_singleton]
    rcases rules node.kind with _ | _ | _ | _ | _ | _ <;> simp [Rule.levels]
  rw [← single, ← levelsLeft_append, List.singleton_append]

/-- The table has the handler of a rule at each kind, and scoring rules at their own kinds only. -/
structure HandlerTable.Follows (handlers : HandlerTable) (forest : Forest)
    (rules : Kind → Option Rule) : Prop where
  handler : ∀ kind, handlers kind = (rules kind).bind (Rule.handler forest)
  own : ∀ kind owner, rules kind = some (.standard owner) → owner = kind

/-- The scoring rules follow themselves. -/
theorem HandlerTable.follows_standard (forest : Forest) :
    (standard forest).Follows forest fun kind => some (.standard kind) where
  handler _ := rfl
  own kind owner same := by
    obtain rfl : kind = owner := by simpa using same
    rfl

namespace RuleChanges

/-- The rule for a kind once the changes are made. -/
def rule? (changes : RuleChanges) (kind : Kind) : Option Rule :=
  match changes.changes.find? fun change => change.1 == kind with
  | some change => change.2
  | Option.none => if changes.fromEmpty then Option.none else some (.standard kind)

theorem follows_rule? (changes : RuleChanges) (forest : Forest)
    (own : ∀ change ∈ changes.changes, ∀ owner, change.2 = some (.standard owner) →
      owner = change.1) :
    (changes.table forest).Follows forest changes.rule? := by
  constructor
  case handler =>
    intro kind
    unfold table rule?
    cases changes.changes.find? fun change => change.1 == kind with
    | some change => rfl
    | none => cases changes.fromEmpty <;> rfl
  case own =>
    intro kind owner isRule
    unfold rule? at isRule
    split at isRule
    · rename_i change found
      have atKind : change.1 = kind := by simpa using List.find?_some found
      rw [own change (List.mem_of_find?_eq_some found) owner isRule, atKind]
    · split at isRule
      · simp at isRule
      · obtain rfl : kind = owner := by simpa using isRule
        rfl

end RuleChanges

/-! ## One call -/

@[simp] theorem WalkState.nesting_shift (state : WalkState) (levels : Int) :
    (state.shift levels).nesting = state.nesting + levels := rfl

/-- The reply of a handler that leaves so many levels open and takes nothing off the score, or that is
refused a charge below level zero. -/
inductive Accounted (state : WalkState) (levels : Int) : Reply → Prop where
  | answered (deeper : Bool) (after : WalkState) (level : after.nesting = state.nesting + levels)
      (score : state.complexity ≤ after.complexity) : Accounted state levels (.ok deeper, after)
  | refused (rejection : Rejection) (after : WalkState) (below : state.nesting < 0) :
      Accounted state levels (.error (.rejected rejection), after)

namespace Accounted

/-- A handler that changes neither the level nor the score. -/
theorem idle {state after : WalkState} (deeper : Bool) (level : after.nesting = state.nesting)
    (score : after.complexity = state.complexity) : Accounted state 0 (.ok deeper, after) :=
  .answered deeper after (by omega) (by omega)

/-- A charge of at least one is made at any level. -/
theorem charge_of_pos (state : WalkState) (token : Vertex) {magnitude : Int}
    (positive : 1 ≤ magnitude) (deeper : Bool) :
    Accounted state 0 (state.charge token magnitude deeper) := by
  rw [state.charge_eq token positive deeper]
  refine .answered deeper _ ?_ ?_
  · exact (Int.add_zero _).symm
  · show state.complexity ≤ state.complexity + magnitude
    omega

/-- A charge for the nesting is refused below level zero only. -/
theorem charge_nesting (state : WalkState) (token : Vertex) (deeper : Bool) :
    Accounted state 0 (state.charge token (state.nesting + 1) deeper) := by
  by_cases positive : 1 ≤ state.nesting + 1
  · exact charge_of_pos state token positive deeper
  · have rejected : state.charge token (state.nesting + 1) deeper =
        (.error (.rejected ⟨Increment.recordName, [⟨["magnitude"], .below 1⟩]⟩),
          { state with complexity := state.complexity + (state.nesting + 1) }) := by
      simp only [WalkState.charge, Increment.at?, if_neg positive]
    rw [rejected]
    exact .refused _ _ (by omega)

theorem ifStatement (forest : Forest) (node : Vertex) (state : WalkState) :
    Accounted state 0 (Handler.ifStatement forest node state) := by
  have nested := charge_nesting state (node.keyword "if") true
  rw [Handler.ifStatement]
  cases forest.parent? node with
  | none => exact nested
  | some parent =>
      by_cases alternative : parent.kind = .elseClause
      · simp only [alternative, if_true]
        exact idle false rfl rfl
      · simp only [alternative, if_false]
        exact nested

theorem method (node : Vertex) (state : WalkState) :
    Accounted state 0 (Handler.method node state) := by
  rw [Handler.method]
  cases state.nameGiven with
  | true => exact idle false rfl rfl
  | false => exact idle false rfl rfl

theorem invocation (node : Vertex) (state : WalkState) :
    Accounted state 0 (Handler.invocation node state) := by
  rw [Handler.invocation]
  cases Handler.isRecursiveCall state.functionName node with
  | none => exact idle false rfl rfl
  | some callee => exact charge_nesting state callee false

theorem logical {node : Vertex} (kind : node.kind.IsLogical) (state : WalkState) :
    Accounted state 0 (Handler.logical node state) := by
  rw [Handler.logical_eq state kind]
  refine .answered false _ (Int.add_zero _).symm ?_
  show state.complexity ≤ state.complexity + Increment.total (node.operatorCharge state.ignored)
  rcases node.operatorCharge_cases state.ignored with none | one
  · simp [none]
  · have magnitude : Increment.total (node.operatorCharge state.ignored) = 1 := by
      simp [one, Increment.ofToken]
    omega

/-- A scoring rule at its own kind opens levels for children only. -/
theorem standard (forest : Forest) {node : Vertex} {handler : Handler}
    (found : HandlerTable.standard forest node.kind = some handler) (state : WalkState) :
    Accounted state 0 (handler node state) := by
  cases kind : node.kind with
  | methodDeclaration =>
      obtain rfl : Handler.method = handler := by simpa [kind, HandlerTable.standard] using found
      exact method node state
  | ifStatement =>
      obtain rfl : Handler.ifStatement forest = handler := by
        simpa [kind, HandlerTable.standard] using found
      exact ifStatement forest node state
  | elseClause =>
      obtain rfl : Handler.elseClause = handler := by
        simpa [kind, HandlerTable.standard] using found
      exact charge_of_pos state _ (Int.le_refl 1) false
  | conditionalExpression | switchStatement | forStatement | whileStatement | doStatement
  | foreachStatement | catchClause =>
      rw [kind] at found
      obtain rfl := Option.some.inj found
      exact charge_nesting state _ true
  | gotoStatement =>
      obtain rfl : Handler.gotoStatement = handler := by
        simpa [kind, HandlerTable.standard] using found
      exact charge_nesting state _ false
  | logicalAnd | logicalOr =>
      obtain rfl : Handler.logical = handler := by simpa [kind, HandlerTable.standard] using found
      exact logical (by simp [kind, Kind.IsLogical]) state
  | invocation =>
      obtain rfl : Handler.invocation = handler := by
        simpa [kind, HandlerTable.standard] using found
      exact invocation node state
  | lambdaExpression =>
      obtain rfl : Handler.deepen = handler := by simpa [kind, HandlerTable.standard] using found
      exact idle true rfl rfl
  | _ => simp [kind, HandlerTable.standard] at found

end Accounted

namespace HandlerTable.Follows

variable {handlers : HandlerTable} {forest : Forest} {rules : Kind → Option Rule}

/-- One call leaves the levels of its rule open. -/
theorem reply_accounted (follows : handlers.Follows forest rules) (node : Vertex)
    (state : WalkState) :
    Accounted state (Rule.levels (rules node.kind)) (handlers.reply node state) := by
  rw [reply, follows.handler]
  cases inForce : rules node.kind with
  | none => exact .idle false rfl rfl
  | some rule =>
      cases rule with
      | standard owner =>
          obtain rfl := follows.own _ owner inForce
          simp only [Option.bind_some, Rule.handler, Rule.levels]
          cases found : HandlerTable.standard forest node.kind with
          | none => exact .idle false rfl rfl
          | some handler => exact .standard forest found state
      | leak => exact .answered false _ rfl (Int.le_refl _)
      | unleak => exact .answered false _ rfl (Int.le_refl _)
      | flat => exact .charge_of_pos state _ (Int.le_refl 1) false
      | nest => exact .idle true rfl rfl

end HandlerTable.Follows

/-! ## A whole stack -/

namespace Frame

/-- What the frames will still add to the level. -/
def levelsAhead (rules : Kind → Option Rule) : List Frame → Int
  | [] => 0
  | .visit node :: frames => levelsLeft rules node.preorder + levelsAhead rules frames
  | .close :: frames => levelsAhead rules frames - 1

/-- How many levels the frames will close. -/
def closings : List Frame → Nat
  | [] => 0
  | .visit _ :: frames => closings frames
  | .close :: frames => closings frames + 1

theorem levelsAhead_visits (rules : Kind → Option Rule) (nodes : List Vertex)
    (frames : List Frame) :
    levelsAhead rules (nodes.map .visit ++ frames) =
      levelsLeft rules (Node.preorderAll nodes) + levelsAhead rules frames := by
  induction nodes with
  | nil => simp [Node.preorderAll, levelsLeft, ruleCount]
  | cons node nodes induction =>
      rw [List.map_cons, List.cons_append, levelsAhead, induction, Node.preorderAll,
        levelsLeft_append, Int.add_assoc]

theorem levelsAhead_visit (rules : Kind → Option Rule) (node : Vertex) (frames : List Frame) :
    levelsAhead rules (.visit node :: frames) =
      Rule.levels (rules node.kind) +
        levelsAhead rules (node.children.map .visit ++ frames) := by
  rw [levelsAhead, levelsAhead_visits, Node.preorder_eq, levelsLeft_cons, Int.add_assoc]

theorem closings_visits (nodes : List Vertex) (frames : List Frame) :
    closings (nodes.map .visit ++ frames) = closings frames := by
  induction nodes with
  | nil => rfl
  | cons node nodes induction => rw [List.map_cons, List.cons_append, closings, induction]

end Frame

namespace HandlerTable.Follows

variable {handlers : HandlerTable} {forest : Forest} {rules : Kind → Option Rule}

open CodeMetrics.Frame

/-- The level and what the frames will add to it have the same sum before and after a walk, unless a
charge is refused on the way. -/
theorem runFrames_accounted (follows : handlers.Follows forest rules) (frames : List Frame)
    (state : WalkState) :
    (∃ last, runFrames handlers frames state = (.ok (), last) ∧
        last.nesting = state.nesting + levelsAhead rules frames ∧
        state.complexity ≤ last.complexity) ∨
      ∃ rejection last, runFrames handlers frames state = (.error (.rejected rejection), last) := by
  fun_induction runFrames handlers frames state with
  | case1 state => exact .inl ⟨state, rfl, (Int.add_zero _).symm, Int.le_refl _⟩
  | case2 frames state induction =>
      rcases induction with ⟨last, ran, level, score⟩ | refused
      · refine .inl ⟨last, ran, ?_, score⟩
        rw [level, levelsAhead, WalkState.nesting_shift]
        omega
      · exact .inr refused
  | case3 node frames state error after replied =>
      have accounted := follows.reply_accounted node state
      rw [replied] at accounted
      cases accounted with
      | refused rejection => exact .inr ⟨rejection, after, rfl⟩
  | case4 node frames state after replied induction =>
      have accounted := follows.reply_accounted node state
      rw [replied] at accounted
      cases accounted with
      | answered _ _ level score =>
          rcases induction with ⟨last, ran, rest, more⟩ | refused
          · refine .inl ⟨last, ran, ?_, Int.le_trans score more⟩
            -- the level opened for the children is closed by the frame below them
            rw [levelsAhead_visits, levelsAhead, ← Int.add_sub_assoc, ← levelsAhead_visits] at rest
            rw [rest, WalkState.nesting_shift, level, levelsAhead_visit]
            omega
          · exact .inr refused
  | case5 node frames state after replied induction =>
      have accounted := follows.reply_accounted node state
      rw [replied] at accounted
      cases accounted with
      | answered _ _ level score =>
          rcases induction with ⟨last, ran, rest, more⟩ | refused
          · refine .inl ⟨last, ran, ?_, Int.le_trans score more⟩
            rw [rest, level, levelsAhead_visit, Int.add_assoc]
          · exact .inr refused

/-- Where no rule closes a level that was not opened, there is a level for each frame that closes one,
and no charge is refused. -/
theorem runFrames_ok (follows : handlers.Follows forest rules)
    (sealed : ∀ kind, rules kind ≠ some .unleak) (frames : List Frame) (state : WalkState)
    (covered : closings frames ≤ state.nesting) :
    ∃ last, runFrames handlers frames state = (.ok (), last) := by
  fun_induction runFrames handlers frames state with
  | case1 state => exact ⟨state, rfl⟩
  | case2 frames state induction =>
      apply induction
      rw [closings] at covered
      rw [WalkState.nesting_shift]
      omega
  | case3 node frames state error after replied =>
      have accounted := follows.reply_accounted node state
      rw [replied] at accounted
      cases accounted with
      | refused rejection _ below => omega
  | case4 node frames state after replied induction =>
      have accounted := follows.reply_accounted node state
      rw [replied] at accounted
      cases accounted with
      | answered _ _ level _ =>
          have opened := Rule.levels_nonneg (sealed node.kind)
          apply induction
          rw [closings_visits, closings, WalkState.nesting_shift]
          rw [closings] at covered
          omega
  | case5 node frames state after replied induction =>
      have accounted := follows.reply_accounted node state
      rw [replied] at accounted
      cases accounted with
      | answered _ _ level _ =>
          have opened := Rule.levels_nonneg (sealed node.kind)
          apply induction
          rw [closings_visits]
          rw [closings] at covered
          omega

/-! ## The end of a walk -/

/-- A walk that goes through is judged by the level it ends at. -/
theorem score_of_run {handlers : HandlerTable} {start : Vertex} {functionName : Option String}
    {last : WalkState}
    (ran : runFrames handlers [.visit start] (.start functionName) = (.ok (), last))
    (score : 0 ≤ last.complexity) :
    handlers.score start functionName =
      if last.nesting = 0 then .ok ⟨last.complexity, last.increments⟩
      else .error (.unbalancedNesting last.nesting start.kind start.span) := by
  rw [HandlerTable.score, ran]
  simp only [CognitiveScore.of?, if_pos score]
  rfl

/-- A walk without a refused charge ends at the level that its nodes leave. -/
theorem exists_last (follows : handlers.Follows forest rules) (start : Vertex)
    (functionName : Option String)
    (unrefused : ∀ rejection, (runFrames handlers [.visit start] (.start functionName)).1 ≠
      .error (.rejected rejection)) :
    ∃ last, runFrames handlers [.visit start] (.start functionName) = (.ok (), last) ∧
      last.nesting = levelsLeft rules start.preorder ∧
      handlers.score start functionName =
        if levelsLeft rules start.preorder = 0 then .ok ⟨last.complexity, last.increments⟩
        else .error (.unbalancedNesting (levelsLeft rules start.preorder) start.kind
          start.span) := by
  rcases follows.runFrames_accounted [.visit start] (.start functionName) with
    ⟨last, ran, level, score⟩ | ⟨rejection, last, ran⟩
  · have ended : last.nesting = levelsLeft rules start.preorder := by
      simpa [levelsAhead, WalkState.start] using level
    have scored := score_of_run ran score
    rw [ended] at scored
    exact ⟨last, ran, ended, scored⟩
  · have refused := unrefused rejection
    rw [ran] at refused
    exact absurd rfl refused

theorem unrefused_of_sealed (follows : handlers.Follows forest rules)
    (sealed : ∀ kind, rules kind ≠ some .unleak) (start : Vertex) (functionName : Option String)
    (rejection : Rejection) :
    (runFrames handlers [.visit start] (.start functionName)).1 ≠ .error (.rejected rejection) := by
  obtain ⟨last, ran⟩ :=
    follows.runFrames_ok sealed [.visit start] (.start functionName) (Int.le_refl 0)
  rw [ran]
  simp

end HandlerTable.Follows

theorem ruleCount_eq_zero {rules : Kind → Option Rule} {rule : Rule}
    (absent : ∀ kind, rules kind ≠ some rule) (nodes : List Vertex) :
    ruleCount rules rule nodes = 0 := by
  apply List.countP_eq_zero.mpr
  intro node _ present
  exact absent node.kind (of_decide_eq_true present)

theorem ruleCount_pos {rules : Kind → Option Rule} {rule : Rule} {nodes : List Vertex} :
    0 < ruleCount rules rule nodes ↔ ∃ node ∈ nodes, rules node.kind = some rule := by
  simp [ruleCount]

/-- Accounting for the levels of a walk under replaced rules. If no charge is refused, the walk ends at
the number of nodes that leave a level open less the number of nodes that close one, and it fails as
unbalanced, by that number, exactly if the two numbers differ. Without a rule that closes levels no
charge is refused and the walk is unbalanced exactly if it comes to a node that leaves one open;
without either it succeeds, as it does under the scoring rules. -/
theorem score_balances_levels {handlers : HandlerTable} {forest : Forest}
    {rules : Kind → Option Rule} (follows : handlers.Follows forest rules) (start : Vertex)
    (functionName : Option String) :
    ((∀ rejection, (runFrames handlers [.visit start] (.start functionName)).1 ≠
        .error (.rejected rejection)) →
      ∃ last, runFrames handlers [.visit start] (.start functionName) = (.ok (), last) ∧
        last.nesting =
          ruleCount rules .leak start.preorder - ruleCount rules .unleak start.preorder ∧
        handlers.score start functionName =
          if ruleCount rules .leak start.preorder = ruleCount rules .unleak start.preorder then
            .ok ⟨last.complexity, last.increments⟩
          else
            .error (.unbalancedNesting
              (ruleCount rules .leak start.preorder - ruleCount rules .unleak start.preorder)
              start.kind start.span)) ∧
      ((∀ kind, rules kind ≠ some .unleak) →
        (∀ rejection, (runFrames handlers [.visit start] (.start functionName)).1 ≠
          .error (.rejected rejection)) ∧
        (∀ rejection, handlers.score start functionName ≠ .error (.rejected rejection)) ∧
        ((∃ nesting kind span,
            handlers.score start functionName = .error (.unbalancedNesting nesting kind span)) ↔
          ∃ node ∈ start.preorder, rules node.kind = some .leak)) ∧
      ((∀ kind, rules kind ≠ some .unleak) → (∀ kind, rules kind ≠ some .leak) →
        ∃ result, handlers.score start functionName = .ok result) ∧
      ∃ result, (HandlerTable.standard forest).score start functionName = .ok result := by
  have balanced : levelsLeft rules start.preorder = 0 ↔
      ruleCount rules .leak start.preorder = ruleCount rules .unleak start.preorder := by
    rw [levelsLeft]
    omega
  have succeeds : ∀ {handlers : HandlerTable} {rules : Kind → Option Rule},
      handlers.Follows forest rules → (∀ kind, rules kind ≠ some .unleak) →
      (∀ kind, rules kind ≠ some .leak) →
      ∃ result, handlers.score start functionName = .ok result := by
    intro handlers rules follows sealed tight
    obtain ⟨last, -, -, score⟩ := follows.exists_last start functionName
      (follows.unrefused_of_sealed sealed start functionName)
    rw [levelsLeft, ruleCount_eq_zero tight, ruleCount_eq_zero sealed, if_pos (by omega)] at score
    exact ⟨_, score⟩
  refine ⟨?_, ?_, succeeds follows, ?_⟩
  · intro unrefused
    obtain ⟨last, ran, level, score⟩ := follows.exists_last start functionName unrefused
    simp only [balanced] at score
    exact ⟨last, ran, level, score⟩
  · intro sealed
    have unrefused := follows.unrefused_of_sealed sealed start functionName
    obtain ⟨last, -, -, score⟩ := follows.exists_last start functionName unrefused
    have leaks : levelsLeft rules start.preorder = ruleCount rules .leak start.preorder := by
      rw [levelsLeft, ruleCount_eq_zero sealed]
      omega
    refine ⟨unrefused, ?_, ?_⟩
    · intro rejection
      rw [score]
      split <;> simp
    · rw [score, leaks, ← ruleCount_pos]
      split
      · simp
        omega
      · simp
        omega
  · exact succeeds (HandlerTable.follows_standard forest) (by simp) (by simp)

/-- Blocks leave a level open, and returns close one. -/
def leakyBlocks : RuleChanges :=
  ⟨false, [(.block, some .leak), (.returnStatement, some .unleak)]⟩

/-- A loop over two blocks, one of them with a return in an if. -/
def leakyLoop : Vertex × Forest :=
  Forest.empty.plant (.sketch .whileStatement none
    [.sketch .block none [.sketch .ifStatement none [.sketch .returnStatement none []]],
      .sketch .block none []])

theorem score_balances_levels_leakyLoop :
    (leakyBlocks.table leakyLoop.2).Follows leakyLoop.2 leakyBlocks.rule? ∧
      (∀ rejection,
        (runFrames (leakyBlocks.table leakyLoop.2) [.visit leakyLoop.1] (.start none)).1 ≠
          .error (.rejected rejection)) ∧
      (leakyBlocks.table leakyLoop.2).score leakyLoop.1 none =
        .error (.unbalancedNesting 1 .whileStatement leakyLoop.1.span) := by
  have follows := leakyBlocks.follows_rule? leakyLoop.2 (by simp [leakyBlocks])
  have ran : (runFrames (leakyBlocks.table leakyLoop.2) [.visit leakyLoop.1]
      (.start none)).1.isOk := by decide +kernel
  have unrefused : ∀ rejection,
      (runFrames (leakyBlocks.table leakyLoop.2) [.visit leakyLoop.1] (.start none)).1 ≠
        .error (.rejected rejection) := by
    intro rejection refused
    rw [refused] at ran
    exact Bool.false_ne_true ran
  obtain ⟨last, -, -, score⟩ := (score_balances_levels follows leakyLoop.1 none).1 unrefused
  have leaks : ruleCount leakyBlocks.rule? .leak leakyLoop.1.preorder = 2 := by decide
  have unleaks : ruleCount leakyBlocks.rule? .unleak leakyLoop.1.preorder = 1 := by decide
  rw [leaks, unleaks] at score
  exact ⟨follows, unrefused, score⟩

end CodeMetrics
