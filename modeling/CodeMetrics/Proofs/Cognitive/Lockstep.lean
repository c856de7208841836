import CodeMetrics.Proofs.Cognitive.Operators
import CodeMetrics.Tree.Classification
import Mathlib.Data.List.Forall2

/-!
# Two walks in lockstep

Two walks are in lockstep when each node of the first tree is linked to a node of the second that
the scoring rules treat alike, and the second tree has nothing more than some comments. Linked nodes
are then charged the same in both walks, whatever the places of their tokens are compared by.
-/

namespace CodeMetrics

/-! ## Lists with idle items -/

/-- The second list is linked to the first item by item, apart from idle items put in between. -/
inductive Padded {α β : Type} (link : α → β → Prop) (idle : β → Prop) : List α → List β → Prop where
  | nil : Padded link idle [] []
  | both {first : α} {second : β} {firsts : List α} {seconds : List β}
      (linked : link first second) (rest : Padded link idle firsts seconds) :
      Padded link idle (first :: firsts) (second :: seconds)
  | extra {second : β} {firsts : List α} {seconds : List β} (isIdle : idle second)
      (rest : Padded link idle firsts seconds) : Padded link idle firsts (second :: seconds)

namespace Padded

variable {α β : Type} {link wider : α → β → Prop} {idle : β → Prop}
  {firsts moreFirsts : List α} {seconds moreSeconds : List β}

theorem append (front : Padded link idle firsts seconds)
    (back : Padded link idle moreFirsts moreSeconds) :
    Padded link idle (firsts ++ moreFirsts) (seconds ++ moreSeconds) := by
  induction front with
  | nil => exact back
  | both linked _ induction => exact .both linked induction
  | extra isIdle _ induction => exact .extra isIdle induction

theorem of_forall₂ (linked : List.Forall₂ link firsts seconds) :
    Padded link idle firsts seconds := by
  induction linked with
  | nil => exact .nil
  | cons head _ induction => exact .both head induction

theorem imp {lazy : β → Prop} (widen : ∀ first second, link first second → wider first second)
    (relax : ∀ second, idle second → lazy second) (padded : Padded link idle firsts seconds) :
    Padded wider lazy firsts seconds := by
  induction padded with
  | nil => exact .nil
  | both linked _ induction => exact .both (widen _ _ linked) induction
  | extra isIdle _ induction => exact .extra (relax _ isIdle) induction

theorem reverse (padded : Padded link idle firsts seconds) :
    Padded link idle firsts.reverse seconds.reverse := by
  induction padded with
  | nil => exact .nil
  | both linked _ induction =>
      rw [List.reverse_cons, List.reverse_cons]
      exact induction.append (.both linked .nil)
  | @extra _ firsts _ isIdle _ induction =>
      rw [List.reverse_cons, ← List.append_nil firsts.reverse]
      exact induction.append (.extra isIdle .nil)

theorem length_le (padded : Padded link idle firsts seconds) : firsts.length ≤ seconds.length := by
  induction padded with
  | nil => exact Nat.le_refl 0
  | both _ _ induction => exact Nat.succ_le_succ induction
  | extra _ _ induction => exact Nat.le_succ_of_le induction

theorem exists_of_mem (padded : Padded link idle firsts seconds) {first : α}
    (listed : first ∈ firsts) :
    ∃ second ∈ seconds, link first second := by
  induction padded with
  | nil => simp at listed
  | both linked _ induction =>
      rcases List.mem_cons.mp listed with rfl | later
      · exact ⟨_, List.mem_cons_self, linked⟩
      · obtain ⟨second, listed, linked⟩ := induction later
        exact ⟨second, List.mem_cons_of_mem _ listed, linked⟩
  | extra _ _ induction =>
      obtain ⟨second, listed, linked⟩ := induction listed
      exact ⟨second, List.mem_cons_of_mem _ listed, linked⟩

section Filter

variable {keep : α → Bool} {keepOther : β → Bool}

theorem filter (padded : Padded link idle firsts seconds)
    (agree : ∀ first second, link first second → keep first = keepOther second) :
    Padded link idle (firsts.filter keep) (seconds.filter keepOther) := by
  induction padded with
  | nil => exact .nil
  | both linked _ induction =>
      rw [List.filter_cons, List.filter_cons, agree _ _ linked]
      split
      · exact .both linked induction
      · exact induction
  | extra isIdle _ induction =>
      rw [List.filter_cons]
      split
      · exact .extra isIdle induction
      · exact induction

/-- Nothing idle is left where none is kept. -/
theorem forall₂_filter (padded : Padded link idle firsts seconds)
    (agree : ∀ first second, link first second → keep first = keepOther second)
    (drop : ∀ second, idle second → keepOther second = false) :
    List.Forall₂ link (firsts.filter keep) (seconds.filter keepOther) := by
  induction padded with
  | nil => exact .nil
  | both linked _ induction =>
      rw [List.filter_cons, List.filter_cons, agree _ _ linked]
      split
      · exact .cons linked induction
      · exact induction
  | extra isIdle _ induction =>
      rw [List.filter_cons_of_neg (by simp [drop _ isIdle])]
      exact induction

end Filter

end Padded

/-- The second lookup finds what is linked to what the first one finds, or something idle. -/
def Found {α β : Type} (link : α → β → Prop) (idle : β → Prop) (first : Option α)
    (second : Option β) : Prop :=
  Option.Rel link first second ∨ ∃ item ∈ second, idle item

namespace Padded

variable {α β : Type} {link : α → β → Prop} {idle : β → Prop} {firsts : List α} {seconds : List β}

theorem found_head? (padded : Padded link idle firsts seconds) :
    Found link idle firsts.head? seconds.head? := by
  cases padded with
  | nil => exact .inl .none
  | both linked _ => exact .inl (.some linked)
  | extra isIdle _ => exact .inr ⟨_, rfl, isIdle⟩

theorem found_getLast? (padded : Padded link idle firsts seconds) :
    Found link idle firsts.getLast? seconds.getLast? := by
  rw [List.getLast?_eq_head?_reverse, List.getLast?_eq_head?_reverse]
  exact padded.reverse.found_head?

end Padded

/-! ## Linked nodes -/

/-- A comment without children. -/
def Node.IsCommentLeaf (node : Vertex) : Prop := node.kind.isComment ∧ node.children = []

/-- Linked nodes are alike to the scoring rules: their tokens are at places that look the same, the
same calls are recursive, and operands continue the runs of linked operators alike. Two linked
operators are equal in the one tree when they are in the other. -/
structure Lockstep (first second : Forest) {σ : Type} (view : Span → σ)
    (link : Vertex → Vertex → Prop) : Prop where
  kind : ∀ {node other}, link node other → node.kind = other.kind
  keyword : ∀ {node other}, link node other → ∀ text,
    view (node.keyword text).span = view (other.keyword text).span
  operator : ∀ {node other}, link node other → node.kind.IsLogical →
    view node.operatorToken.span = view other.operatorToken.span
  name : ∀ {node other}, link node other → node.kind = .methodDeclaration →
    node.declarationName? = other.declarationName?
  alternative : ∀ {node other}, link node other → node.kind = .ifStatement →
    (first.IsAlternative node ↔ second.IsAlternative other)
  children : ∀ {node other}, link node other →
    Padded link Node.IsCommentLeaf node.children other.children
  callee : ∀ {node other}, link node other → node.kind = .invocation → ∀ name,
    (node.recursiveCallee? name).map (fun callee => view callee.span) =
      (other.recursiveCallee? name).map fun callee => view callee.span
  left : ∀ {node other}, link node other → node.kind.IsLogical →
    node.leftContinuation?.isSome = other.leftContinuation?.isSome
  right : ∀ {node other}, link node other → node.kind.IsLogical →
    Option.Rel link node.rightContinuation? other.rightContinuation?
  equal : ∀ {node other third fourth}, link node other → link third fourth →
    node.kind.IsLogical → third.kind.IsLogical →
      (node.shape = third.shape ↔ other.shape = fourth.shape)

namespace Node

/-- Without its parentheses a parenthesised expression is its first named child without its own. -/
theorem stripParentheses_eq {ι : Type} (node : Node ι) :
    node.stripParentheses =
      if node.kind = .parenthesizedExpression then
        (node.namedChildren.head?.map stripParentheses).getD node
      else node := by
  have first : ∀ (holder : Node ι) (children : List (Node ι)),
      stripFirstNamed holder children =
        ((children.filter fun child => !child.isToken).head?.map stripParentheses).getD holder := by
    intro holder children
    induction children with
    | nil => rfl
    | cons child children induction =>
        rw [stripFirstNamed]
        cases isToken : child.isToken with
        | true => simp [isToken, induction]
        | false => simp [isToken]
  obtain ⟨mark, attributes, children⟩ := node
  rw [stripParentheses, first]
  rfl

end Node

/-! ## Lookups -/

section Lookups

variable {link : Vertex → Vertex → Prop} {idle : Vertex → Prop} {node other : Vertex}

/-- Without their parentheses linked nodes are linked, if the first named children of parentheses
are. -/
theorem stripParentheses_linked (kind : ∀ {node other}, link node other → node.kind = other.kind)
    (idleKind : ∀ node, idle node → node.kind ≠ .parenthesizedExpression)
    (heads : ∀ {node other}, link node other → node.kind = .parenthesizedExpression →
      Found link idle node.namedChildren.head? other.namedChildren.head?)
    {node other : Vertex} (linked : link node other) :
    link node.stripParentheses other.stripParentheses ∨ idle other.stripParentheses := by
  induction size : node.size using Nat.strongRecOn generalizing node other with
  | ind _ smaller =>
      subst size
      rw [Node.stripParentheses_eq node, Node.stripParentheses_eq other, ← kind linked]
      by_cases parenthesized : node.kind = .parenthesizedExpression
      · rw [if_pos parenthesized, if_pos parenthesized]
        have held : ∀ inner ∈ node.namedChildren.head?, inner ∈ node.children := fun _ isFirst =>
          (List.mem_filter.mp (List.mem_of_mem_head? isFirst)).1
        rcases heads linked parenthesized with found | ⟨inner, isFirst, isIdle⟩
        · generalize node.namedChildren.head? = head, other.namedChildren.head? = otherHead
            at found held
          cases found with
          | none => exact .inl linked
          | @some inner otherInner linkedInner =>
              have isSmaller := Node.size_lt_of_mem_children (held inner rfl)
              exact smaller inner.size isSmaller linkedInner rfl
        · have plain : inner.stripParentheses = inner := by
            rw [Node.stripParentheses_eq, if_neg (idleKind inner isIdle)]
          rw [Option.mem_def.mp isFirst, Option.map_some, Option.getD_some, plain]
          exact .inr isIdle
      · rw [if_neg parenthesized, if_neg parenthesized]
        exact .inl linked

/-- Operands that are found alike are found alike without their parentheses. -/
theorem Found.map_stripParentheses {operand otherOperand : Option Vertex}
    (strip : ∀ {node other}, link node other →
      link node.stripParentheses other.stripParentheses ∨ idle other.stripParentheses)
    (idleStrip : ∀ node, idle node → idle node.stripParentheses)
    (found : Found link idle operand otherOperand) :
    Found link idle (operand.map Node.stripParentheses)
      (otherOperand.map Node.stripParentheses) := by
  rcases found with found | ⟨inner, isOperand, isIdle⟩
  · cases found with
    | none => exact .inl .none
    | @some operand otherOperand linked =>
        rcases strip linked with stripped | isIdle
        · exact .inl (.some stripped)
        · exact .inr ⟨_, rfl, isIdle⟩
  · exact .inr ⟨inner.stripParentheses, Option.mem_map_of_mem _ isOperand, idleStrip inner isIdle⟩

theorem rel_continuation? (kind : ∀ {node other}, link node other → node.kind = other.kind)
    (sameKind : node.kind = other.kind) {operand otherOperand : Option Vertex}
    (stripped : Option.Rel link (operand.map Node.stripParentheses)
      (otherOperand.map Node.stripParentheses)) :
    Option.Rel link (node.continuation? operand) (other.continuation? otherOperand) := by
  rw [Node.continuation?, Node.continuation?, ← sameKind]
  generalize operand.map Node.stripParentheses = inner,
    otherOperand.map Node.stripParentheses = otherInner at stripped
  cases stripped with
  | none => exact .none
  | @some inner otherInner linked =>
      rw [Option.filter_some, Option.filter_some, ← kind linked]
      split
      · exact .some linked
      · exact .none

/-- Linked operands continue runs alike, if the first named children of parentheses are linked. -/
theorem rel_continuation?_of_heads (kind : ∀ {node other}, link node other → node.kind = other.kind)
    (heads : ∀ {node other}, link node other → node.kind = .parenthesizedExpression →
      Option.Rel link node.namedChildren.head? other.namedChildren.head?)
    (linked : link node other) {operand otherOperand : Option Vertex}
    (found : Option.Rel link operand otherOperand) :
    Option.Rel link (node.continuation? operand) (other.continuation? otherOperand) := by
  let idle : Vertex → Prop := fun _ => False
  have strip : ∀ {node other}, link node other →
      link node.stripParentheses other.stripParentheses ∨ idle other.stripParentheses :=
    stripParentheses_linked kind (fun _ => False.elim) fun linked parenthesized =>
      .inl (heads linked parenthesized)
  have stripped : Found link idle _ _ := Found.map_stripParentheses strip (fun _ => id) (.inl found)
  refine rel_continuation? kind (kind linked) (stripped.resolve_right ?_)
  rintro ⟨_, _, isIdle⟩
  exact isIdle

/-- The same calls are recursive, if what is called is linked. -/
theorem map_recursiveCallee?_eq {σ : Type} (view : Span → σ)
    (kind : ∀ {node other}, link node other → node.kind = other.kind)
    (text : ∀ {node other}, link node other → node.text = other.text)
    (place : ∀ {node other}, link node other → view node.span = view other.span)
    (found : Option.Rel link node.callee? other.callee?) (name : Option String) :
    (node.recursiveCallee? name).map (fun callee => view callee.span) =
      (other.recursiveCallee? name).map fun callee => view callee.span := by
  rw [Node.recursiveCallee?, Node.recursiveCallee?]
  generalize node.callee? = callee, other.callee? = otherCallee at found
  cases found with
  | none => rfl
  | @some callee otherCallee linked =>
      simp only [Option.filter_some, kind linked, text linked]
      split
      · simp [place linked]
      · rfl

end Lookups

namespace Lockstep

variable {first second : Forest} {σ : Type} {view : Span → σ} {link : Vertex → Vertex → Prop}
  {node other : Vertex}

theorem deepens_iff (lockstep : Lockstep first second view link) (linked : link node other) :
    first.Deepens node ↔ second.Deepens other := by
  unfold Forest.Deepens
  rw [← lockstep.kind linked]
  by_cases isIf : node.kind = .ifStatement
  · rw [lockstep.alternative linked isIf]
  · simp [isIf]

theorem depth_eq (lockstep : Lockstep first second view link) {above otherAbove : List Vertex}
    (linked : List.Forall₂ link above otherAbove) :
    first.depth above = second.depth otherAbove := by
  induction linked with
  | nil => rfl
  | @cons node other _ _ head _ induction =>
      have deepens := lockstep.deepens_iff head
      by_cases isDeeper : first.Deepens node
      · rw [Forest.depth_cons_of_deepens isDeeper,
          Forest.depth_cons_of_deepens (deepens.mp isDeeper), induction]
      · rw [Forest.depth_cons_of_not_deepens isDeeper,
          Forest.depth_cons_of_not_deepens (fun deeper => isDeeper (deepens.mpr deeper)), induction]

end Lockstep

/-! ## One visit -/

/-- What is compared of an increment: what `view` shows of its place, its magnitude and its
message. -/
def Increment.seen {σ : Type} (view : Span → σ) (increment : Increment) : σ × Int × String :=
  (view increment.location, increment.magnitude, increment.message)

/-- Two states with the same function name, in which linked operators are counted alike. -/
structure Abreast (link : Vertex → Vertex → Prop) (state otherState : WalkState) : Prop where
  functionName : state.functionName = otherState.functionName
  nameGiven : state.nameGiven = otherState.nameGiven
  ignored : ∀ {node other}, link node other → node.kind.IsLogical →
    (node.shape ∈ state.ignored ↔ other.shape ∈ otherState.ignored)

namespace Forest

theorem recorded_visitEntry_logical (forest : Forest) {node : Vertex}
    (logical : node.kind.IsLogical) (above : List Vertex) (state : WalkState) :
    (forest.visitEntry (node, above) state).recorded = node.operatorCharge state.ignored := by
  rw [Visit.recorded]
  simp only [visitEntry, HandlerTable.reply_logical forest logical]
  exact List.drop_left

/-- A comment is passed over. -/
theorem visitEntry_comment (forest : Forest) {node : Vertex} (comment : node.kind.isComment)
    (above : List Vertex) (state : WalkState) :
    (forest.visitEntry (node, above) state).recorded = [] ∧
      (forest.visitEntry (node, above) state).after = state.atLevel (forest.depth above) := by
  obtain ⟨-, after, contributes⟩ := forest.visitEntry_spec node above state
  have nothing : (forest.visitEntry (node, above) state).recorded = [] := by
    cases kind : node.kind with
    | singleLineComment | multiLineComment | singleLineDocComment | multiLineDocComment =>
        rwa [Contributes, kind] at contributes
    | _ => simp [kind, Kind.isComment] at comment
  rw [nothing] at after
  refine ⟨nothing, after.trans (WalkState.afterNode_nil_of_plain _ ?_ ?_)⟩
  · intro method
    simp [method, Kind.isComment] at comment
  · rintro (logical | logical) <;> simp [logical, Kind.isComment] at comment

end Forest

namespace Lockstep

variable {first second : Forest} {σ : Type} {view : Span → σ} {link : Vertex → Vertex → Prop}
  {node other : Vertex} {state otherState : WalkState} {above otherAbove : List Vertex}

/-- One increment at each of two tokens whose places look the same. -/
theorem map_seen_singleton {token otherToken : Vertex}
    (place : view token.span = view otherToken.span) (magnitude : Int) :
    [Increment.ofToken token magnitude].map (Increment.seen view) =
      [Increment.ofToken otherToken magnitude].map (Increment.seen view) := by
  simp [Increment.seen, Increment.ofToken, place]

theorem map_seen_operatorCharge (lockstep : Lockstep first second view link)
    (linked : link node other) (logical : node.kind.IsLogical)
    (abreast : Abreast link state otherState) :
    (node.operatorCharge state.ignored).map (Increment.seen view) =
      (other.operatorCharge otherState.ignored).map (Increment.seen view) := by
  have skipped := abreast.ignored linked logical
  have continued := lockstep.left linked logical
  unfold Node.operatorCharge
  by_cases free : node.shape ∈ state.ignored ∨ node.leftContinuation?.isSome
  · rw [if_pos free, if_pos (by rwa [← skipped, ← continued])]
  · rw [if_neg free, if_neg (by rwa [← skipped, ← continued])]
    exact map_seen_singleton (lockstep.operator linked logical) 1

/-- Linked nodes at the same depth are charged alike. -/
theorem map_seen_recorded (lockstep : Lockstep first second view link) (linked : link node other)
    (depth : first.depth above = second.depth otherAbove)
    (abreast : Abreast link state otherState) :
    (first.visitEntry (node, above) state).recorded.map (Increment.seen view) =
      (second.visitEntry (other, otherAbove) otherState).recorded.map (Increment.seen view) := by
  obtain ⟨-, -, contributes⟩ := first.visitEntry_spec node above state
  obtain ⟨-, -, otherContributes⟩ := second.visitEntry_spec other otherAbove otherState
  have sameKind := lockstep.kind linked
  have keyword := lockstep.keyword linked
  rw [← depth, ← abreast.functionName] at otherContributes
  cases kind : node.kind with
  | ifStatement =>
      rw [Contributes, kind] at contributes
      rw [Contributes, ← sameKind, kind] at otherContributes
      have alternative := lockstep.alternative linked kind
      rw [contributes, otherContributes]
      by_cases isAlternative : first.IsAlternative node
      · rw [if_pos isAlternative, if_pos (alternative.mp isAlternative)]
      · rw [if_neg isAlternative, if_neg fun is => isAlternative (alternative.mpr is)]
        exact map_seen_singleton (keyword "if") _
  | conditionalExpression | switchStatement | forStatement | whileStatement | doStatement
  | foreachStatement | catchClause | gotoStatement | elseClause =>
      rw [Contributes, kind] at contributes
      rw [Contributes, ← sameKind, kind] at otherContributes
      rw [contributes, otherContributes]
      exact map_seen_singleton (keyword _) _
  | invocation =>
      rw [Contributes, kind] at contributes
      rw [Contributes, ← sameKind, kind] at otherContributes
      have callee := lockstep.callee linked kind state.functionName
      rw [contributes, otherContributes]
      generalize node.recursiveCallee? state.functionName = found at callee
      generalize other.recursiveCallee? state.functionName = otherFound at callee
      cases found with
      | none =>
          cases otherFound with
          | none => rfl
          | some token => simp at callee
      | some token =>
          cases otherFound with
          | none => simp at callee
          | some otherToken => exact map_seen_singleton (Option.some.inj callee) _
  | logicalAnd | logicalOr =>
      have logical : node.kind.IsLogical := by simp [kind, Kind.IsLogical]
      rw [first.recorded_visitEntry_logical logical,
        second.recorded_visitEntry_logical (sameKind ▸ logical)]
      exact lockstep.map_seen_operatorCharge linked logical abreast
  | _ =>
      rw [Contributes, kind] at contributes
      rw [Contributes, ← sameKind, kind] at otherContributes
      rw [contributes, otherContributes]

/-- Visiting linked nodes keeps the states abreast. -/
theorem abreast_after (lockstep : Lockstep first second view link) (linked : link node other)
    (abreast : Abreast link state otherState) (above otherAbove : List Vertex) :
    Abreast link (first.visitEntry (node, above) state).after
      (second.visitEntry (other, otherAbove) otherState).after := by
  have sameKind := lockstep.kind linked
  rw [Forest.visitEntry_after, Forest.visitEntry_after]
  constructor
  case functionName =>
    change WalkState.nameAfter _ node = WalkState.nameAfter _ other
    unfold WalkState.nameAfter
    change (if node.kind = .methodDeclaration ∧ state.nameGiven = false then node.declarationName?
      else state.functionName) = (if other.kind = .methodDeclaration ∧ otherState.nameGiven = false
        then other.declarationName? else otherState.functionName)
    rw [← sameKind, ← abreast.nameGiven, ← abreast.functionName]
    by_cases isMethod : node.kind = .methodDeclaration
    · rw [lockstep.name linked isMethod]
    · simp [isMethod]
  case nameGiven => exact abreast.nameGiven
  case ignored =>
    intro operator otherOperator linkedOperator logical
    change operator.shape ∈ WalkState.ignoredAfter _ node ↔
      otherOperator.shape ∈ WalkState.ignoredAfter _ other
    rw [WalkState.mem_ignoredAfter, WalkState.mem_ignoredAfter]
    refine or_congr (abreast.ignored linkedOperator logical) ?_
    rw [← sameKind]
    refine and_congr_right fun nodeLogical => and_congr (not_congr ?_) ?_
    · exact abreast.ignored linked nodeLogical
    · -- the right operands that continue the runs are linked, so both or neither are the operator
      have continued := lockstep.right linked nodeLogical
      have right : ∀ next, node.rightContinuation? = some next → next.kind = node.kind := by
        intro next found
        have kept := (Option.filter_eq_some_iff.mp found).2
        simpa using kept
      generalize node.rightContinuation? = next, other.rightContinuation? = otherNext
        at continued right
      cases continued with
      | none => simp
      | @some next otherNext linkedNext =>
          have nextLogical : next.kind.IsLogical := right next rfl ▸ nodeLogical
          simpa using lockstep.equal linkedNext linkedOperator nextLogical logical

/-! ## Whole walks -/

/-- Listed nodes that are linked, and so are their ancestors. -/
def Entries (link : Vertex → Vertex → Prop) (entry otherEntry : Vertex × List Vertex) : Prop :=
  link entry.1 otherEntry.1 ∧ List.Forall₂ link entry.2 otherEntry.2

theorem map_seen_trail (lockstep : Lockstep first second view link)
    {entries otherEntries : List (Vertex × List Vertex)}
    (padded : Padded (Entries link) (fun entry => entry.1.kind.isComment) entries otherEntries)
    (abreast : Abreast link state otherState) :
    ((first.trail entries state).flatMap Visit.recorded).map (Increment.seen view) =
      ((second.trail otherEntries otherState).flatMap Visit.recorded).map
        (Increment.seen view) := by
  induction padded generalizing state otherState with
  | nil => rfl
  | @both entry otherEntry _ _ linked _ induction =>
      have depth := lockstep.depth_eq linked.2
      have recorded := lockstep.map_seen_recorded linked.1 depth abreast
      have after := lockstep.abreast_after linked.1 abreast entry.2 otherEntry.2
      simp only [Forest.trail, List.flatMap_cons, List.map_append]
      rw [recorded, induction after]
  | @extra comment _ _ isComment _ induction =>
      obtain ⟨nothing, after⟩ := second.visitEntry_comment isComment comment.2 otherState
      simp only [Forest.trail, List.flatMap_cons]
      rw [nothing, after, List.nil_append]
      exact induction ⟨abreast.functionName, abreast.nameGiven, abreast.ignored⟩

/-- The lineages of linked nodes are linked, apart from comments. -/
theorem padded_lineage (lockstep : Lockstep first second view link) {node other : Vertex}
    {above otherAbove : List Vertex} (linked : link node other)
    (linkedAbove : List.Forall₂ link above otherAbove) :
    Padded (Entries link) (fun entry => entry.1.kind.isComment) (node.lineage above)
      (other.lineage otherAbove) := by
  induction size : node.size using Nat.strongRecOn generalizing node other above otherAbove with
  | ind _ smaller =>
      subst size
      have below : ∀ {children others : List Vertex},
          Padded link Node.IsCommentLeaf children others →
            (∀ child ∈ children, child ∈ node.children) →
            Padded (Entries link) (fun entry => entry.1.kind.isComment)
              (Node.lineageAll (node :: above) children)
              (Node.lineageAll (other :: otherAbove) others) := by
        intro children others padded held
        induction padded with
        | nil => exact .nil
        | both linkedChild _ induction =>
            rw [List.forall_mem_cons] at held
            exact (smaller _ (Node.size_lt_of_mem_children held.1) linkedChild
              (.cons linked linkedAbove) rfl).append (induction held.2)
        | @extra comment _ _ isComment _ induction =>
            rw [Node.lineageAll, Node.lineage_eq, isComment.2]
            exact .extra isComment.1 (induction held)
      rw [Node.lineage_eq, Node.lineage_eq]
      exact .both ⟨linked, linkedAbove⟩ (below (lockstep.children linked) fun _ held => held)

end Lockstep

theorem Increment.total_eq_of_seen {σ : Type} {view : Span → σ} {left right : List Increment}
    (same : left.map (seen view) = right.map (seen view)) : total left = total right := by
  induction left generalizing right with
  | nil =>
      obtain rfl : right = [] := by simpa using same.symm
      rfl
  | cons increment left induction =>
      cases right with
      | nil => simp at same
      | cons other right =>
          obtain ⟨head, rest⟩ := List.cons.inj same
          have magnitude : increment.magnitude = other.magnitude :=
            congrArg (fun shown => shown.2.1) head
          rw [total_cons, total_cons, magnitude, induction rest]

/-- Walks in lockstep come to the same score, with increments that look the same. -/
theorem Lockstep.exists_scores {first second : Forest} {σ : Type} {view : Span → σ}
    {link : Vertex → Vertex → Prop} (lockstep : Lockstep first second view link)
    {start otherStart : Vertex} (linked : link start otherStart) (functionName : Option String) :
    ∃ result otherResult,
      cognitiveScore first start functionName = .ok result ∧
      cognitiveScore second otherStart functionName = .ok otherResult ∧
      result.score = otherResult.score ∧
      result.increments.map (Increment.seen view) =
        otherResult.increments.map (Increment.seen view) := by
  have abreast : Abreast link (WalkState.start functionName) (WalkState.start functionName) :=
    ⟨rfl, rfl, by simp [WalkState.start]⟩
  have same := lockstep.map_seen_trail (lockstep.padded_lineage linked .nil) abreast
  rw [← Forest.scoringVisits_eq_trail, ← Forest.scoringVisits_eq_trail] at same
  exact ⟨_, _, cognitiveScore_eq first start functionName,
    cognitiveScore_eq second otherStart functionName, Increment.total_eq_of_seen same, same⟩

end CodeMetrics
