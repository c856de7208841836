import CodeMetrics.Proofs.Cognitive.Contribution

/-!
# Logical operators and what a walk skips

An operand, once its parentheses are off, links its operator to the operator that it is. In a tree
whose logical operators are all different, no operator is linked from two others, and a walk skips
exactly the right operands of the operators that it does not skip.
-/

namespace CodeMetrics

namespace Node

/-- The logical operators of a tree, in pre-order. -/
def operators (start : Vertex) : List Vertex :=
  start.preorder.filter fun node => node.kind.IsLogical

theorem mem_operators {start node : Vertex} :
    node ∈ start.operators ↔ node ∈ start.preorder ∧ node.kind.IsLogical := by
  simp [operators]

/-- An operand of `operator` is `next` in parentheses, and `next` is an operator of the same kind. -/
def Continues (operator next : Vertex) : Prop :=
  operator.leftContinuation? = some next ∨ operator.rightContinuation? = some next

/-- The logical operators have both operands in their slots, and no two of them are structurally
equal. -/
structure OperatorsApart (start : Vertex) : Prop where
  left : ∀ operator ∈ start.operators, (operator.childByField? "left").isSome
  right : ∀ operator ∈ start.operators, (operator.childByField? "right").isSome
  nodup : (start.operators.map shape).Nodup

/-! ## Parentheses -/

mutual

/-- Between an operand and what is left of it without parentheses there are parentheses only. -/
theorem stripParentheses_mem_lineage {root : Vertex} {path : List Vertex} :
    (operand : Vertex) → (operand, path) ∈ root.lineage [] →
      ∃ inner, (operand.stripParentheses, inner ++ path) ∈ root.lineage [] ∧
        (∀ node ∈ inner, node.kind = .parenthesizedExpression) ∧
        (operand.stripParentheses :: inner).getLast? = some operand
  | .mk mark attributes children, entry => by
      rw [stripParentheses]
      split
      · rename_i parenthesized
        exact stripFirstNamed_mem_lineage (.mk mark attributes children) parenthesized entry children
          fun _ member => member
      · exact ⟨[], entry, by simp, rfl⟩

theorem stripFirstNamed_mem_lineage {root : Vertex} {path : List Vertex} (node : Vertex)
    (parenthesized : node.kind = .parenthesizedExpression) (entry : (node, path) ∈ root.lineage []) :
    (children : List Vertex) → (∀ child ∈ children, child ∈ node.children) →
      ∃ inner, (stripFirstNamed node children, inner ++ path) ∈ root.lineage [] ∧
        (∀ node ∈ inner, node.kind = .parenthesizedExpression) ∧
        (stripFirstNamed node children :: inner).getLast? = some node
  | [], _ => ⟨[], entry, by simp, rfl⟩
  | child :: children, held => by
      rw [stripFirstNamed]
      split
      · exact stripFirstNamed_mem_lineage node parenthesized entry children fun other member =>
          held other (List.mem_cons_of_mem child member)
      · obtain ⟨inner, inside, parentheses, -⟩ := stripParentheses_mem_lineage child
          (child_mem_lineage (held child List.mem_cons_self) root entry)
        refine ⟨inner ++ [node], by simpa using inside, ?_,
          by rw [← List.cons_append, List.getLast?_concat]⟩
        intro other member
        rcases List.mem_append.mp member with earlier | last
        · exact parentheses other earlier
        · rwa [List.mem_singleton.mp last]

end

/-! ## Links -/

theorem mem_children_of_childByField? {node child : Vertex} {name : String}
    (found : node.childByField? name = some child) :
    child ∈ node.children ∧ child.field = some name :=
  ⟨List.mem_of_find?_eq_some found, by simpa using List.find?_some found⟩

/-- A continuation stands under its operator, with parentheses only between them, and the outermost
of these is the operand. -/
theorem continuation_mem_lineage {root node operand next : Vertex} {path : List Vertex}
    (isChild : operand ∈ node.children) (entry : (node, path) ∈ root.lineage [])
    (continued : node.continuation? (some operand) = some next) :
    next.kind = node.kind ∧
      ∃ inner, (next, inner ++ node :: path) ∈ root.lineage [] ∧
        (∀ between ∈ inner, between.kind = .parenthesizedExpression) ∧
        (next :: inner).getLast? = some operand := by
  obtain ⟨stripped, sameKind⟩ := Option.filter_eq_some_iff.mp continued
  obtain rfl : operand.stripParentheses = next := by simpa using stripped
  exact ⟨of_decide_eq_true sameKind,
    stripParentheses_mem_lineage operand (child_mem_lineage isChild root entry)⟩

namespace OperatorsApart

variable {start : Vertex}

theorem operators_nodup (apart : start.OperatorsApart) : start.operators.Nodup :=
  List.Nodup.of_map shape apart.nodup

theorem eq_of_shape (apart : start.OperatorsApart) {first second : Vertex}
    (firstMember : first ∈ start.operators) (secondMember : second ∈ start.operators)
    (same : first.shape = second.shape) : first = second :=
  List.inj_on_of_nodup_map apart.nodup firstMember secondMember same

/-- A logical operator stands at one place of the tree. -/
theorem path_unique (apart : start.OperatorsApart) {node : Vertex} {first second : List Vertex}
    (logical : node.kind.IsLogical) (firstEntry : (node, first) ∈ start.lineage [])
    (secondEntry : (node, second) ∈ start.lineage []) : first = second := by
  have listed : ((start.lineage []).filter fun entry => entry.1.kind.IsLogical).map Prod.fst =
      start.operators := by
    rw [operators, ← map_fst_lineage [], List.filter_map]
    rfl
  have once := apart.operators_nodup
  rw [← listed] at once
  have same : (node, first) = (node, second) :=
    List.inj_on_of_nodup_map once (List.mem_filter.mpr ⟨firstEntry, by simpa using logical⟩)
      (List.mem_filter.mpr ⟨secondEntry, by simpa using logical⟩) rfl
  exact (Prod.mk.inj same).2

/-- The operands of an operator are its children in the two slots. -/
theorem operands_eq (apart : start.OperatorsApart) {operator : Vertex}
    (member : operator ∈ start.operators) :
    ∃ left right,
      operator.operands = (some left, some right) ∧ left ∈ operator.children ∧
        right ∈ operator.children ∧ left ≠ right := by
  obtain ⟨left, leftFound⟩ := Option.isSome_iff_exists.mp (apart.left operator member)
  obtain ⟨right, rightFound⟩ := Option.isSome_iff_exists.mp (apart.right operator member)
  obtain ⟨leftChild, leftField⟩ := mem_children_of_childByField? leftFound
  obtain ⟨rightChild, rightField⟩ := mem_children_of_childByField? rightFound
  refine ⟨left, right, by simp [operands, leftFound, rightFound], leftChild, rightChild, ?_⟩
  rintro rfl
  simp [leftField] at rightField

theorem exists_operand (apart : start.OperatorsApart) {operator next : Vertex}
    (member : operator ∈ start.operators) (linked : operator.Continues next) :
    ∃ operand ∈ operator.children, operator.continuation? (some operand) = some next := by
  obtain ⟨left, right, operands, leftChild, rightChild, -⟩ := apart.operands_eq member
  rcases linked with linked | linked
  · rw [leftContinuation?, operands] at linked
    exact ⟨left, leftChild, linked⟩
  · rw [rightContinuation?, operands] at linked
    exact ⟨right, rightChild, linked⟩

/-- A linked operator, seen from its place in the tree: the nearest ancestor that is no parenthesis
is the operator that it is linked from. -/
theorem continues_mem_lineage (apart : start.OperatorsApart) {operator next : Vertex}
    {path : List Vertex} (member : operator ∈ start.operators)
    (entry : (operator, path) ∈ start.lineage []) (linked : operator.Continues next) :
    next.kind = operator.kind ∧
      ∃ inner, (next, inner ++ operator :: path) ∈ start.lineage [] ∧
        ∀ between ∈ inner, between.kind = .parenthesizedExpression := by
  obtain ⟨operand, isChild, continued⟩ := apart.exists_operand member linked
  obtain ⟨sameKind, inner, inside, parentheses, -⟩ :=
    continuation_mem_lineage isChild entry continued
  exact ⟨sameKind, inner, inside, parentheses⟩

theorem next_mem_operators (apart : start.OperatorsApart) {operator next : Vertex}
    (member : operator ∈ start.operators) (linked : operator.Continues next) :
    next ∈ start.operators := by
  obtain ⟨inTree, logical⟩ := mem_operators.mp member
  obtain ⟨path, entry⟩ := exists_lineage [] inTree
  obtain ⟨sameKind, inner, inside, -⟩ := apart.continues_mem_lineage member entry linked
  exact mem_operators.mpr ⟨mem_preorder_of_lineage inside, sameKind ▸ logical⟩

/-- No operator is linked from two others. -/
theorem continues_unique (apart : start.OperatorsApart) {first second next : Vertex}
    (firstMember : first ∈ start.operators) (secondMember : second ∈ start.operators)
    (firstLinked : first.Continues next) (secondLinked : second.Continues next) :
    first = second := by
  have outermost : ∀ operator ∈ start.operators, ∀ inner path : List Vertex,
      (∀ between ∈ inner, between.kind = .parenthesizedExpression) →
      (inner ++ operator :: path).find? (fun node => node.kind ≠ .parenthesizedExpression) =
        some operator := by
    intro operator member inner path parentheses
    have logical := (mem_operators.mp member).2
    have plain : operator.kind ≠ .parenthesizedExpression := by
      rcases logical with kind | kind <;> simp [kind]
    rw [List.find?_append, List.find?_eq_none.mpr (by simpa using parentheses)]
    simp [plain]
  obtain ⟨firstPath, firstEntry⟩ := exists_lineage [] (mem_operators.mp firstMember).1
  obtain ⟨secondPath, secondEntry⟩ := exists_lineage [] (mem_operators.mp secondMember).1
  obtain ⟨-, firstInner, firstInside, firstParentheses⟩ :=
    apart.continues_mem_lineage firstMember firstEntry firstLinked
  obtain ⟨-, secondInner, secondInside, secondParentheses⟩ :=
    apart.continues_mem_lineage secondMember secondEntry secondLinked
  have logical := (mem_operators.mp (apart.next_mem_operators firstMember firstLinked)).2
  have samePath := apart.path_unique logical firstInside secondInside
  have firstFound := outermost first firstMember firstInner firstPath firstParentheses
  have secondFound := outermost second secondMember secondInner secondPath secondParentheses
  rw [samePath, secondFound] at firstFound
  exact (Option.some.inj firstFound).symm

/-- No operator is linked from both operands of another. -/
theorem right_ne_left (apart : start.OperatorsApart) {operator next : Vertex}
    (member : operator ∈ start.operators) (left : operator.leftContinuation? = some next) :
    operator.rightContinuation? ≠ some next := by
  intro right
  obtain ⟨inTree, logical⟩ := mem_operators.mp member
  obtain ⟨path, entry⟩ := exists_lineage [] inTree
  obtain ⟨leftOperand, rightOperand, operands, leftChild, rightChild, different⟩ :=
    apart.operands_eq member
  rw [leftContinuation?, operands] at left
  rw [rightContinuation?, operands] at right
  obtain ⟨sameKind, leftInner, leftInside, -, leftOuter⟩ :=
    continuation_mem_lineage leftChild entry left
  obtain ⟨-, rightInner, rightInside, -, rightOuter⟩ :=
    continuation_mem_lineage rightChild entry right
  -- one place, so the same parentheses, and their outermost node would be both operands
  have samePath := apart.path_unique (sameKind ▸ logical) leftInside rightInside
  rw [List.append_cancel_right samePath, rightOuter] at leftOuter
  exact different (Option.some.inj leftOuter).symm

end OperatorsApart

end Node

/-! ## Skipped operators -/

/-- The visit of a logical operator that is not skipped marks its right operand as counted. -/
def Visit.Marks (visit : Visit) (shape : Shape) : Prop :=
  visit.node.kind.IsLogical ∧ visit.node.shape ∉ visit.before.ignored ∧
    ∃ right, visit.node.rightContinuation? = some right ∧ right.shape = shape

theorem WalkState.mem_ignoredAfter {state : WalkState} {node : Vertex} {shape : Shape} :
    shape ∈ state.ignoredAfter node ↔
      shape ∈ state.ignored ∨
        node.kind.IsLogical ∧ node.shape ∉ state.ignored ∧
          ∃ right, node.rightContinuation? = some right ∧ right.shape = shape := by
  unfold ignoredAfter
  split
  · rename_i counted
    rw [Handler.ignoreRight_eq]
    cases node.rightContinuation? with
    | none => simp
    | some right =>
        by_cases known : right.shape ∈ state.ignored
        · simp only [ignore, known, if_true, Option.some.injEq, exists_eq_left']
          constructor
          · exact .inl
          · rintro (already | ⟨-, -, rfl⟩)
            · exact already
            · exact known
        · simp [ignore, known, counted, eq_comm]
  · rename_i uncounted
    constructor
    · exact .inl
    · rintro (already | ⟨logical, fresh, -⟩)
      · exact already
      · exact absurd ⟨logical, fresh⟩ uncounted

namespace Forest

theorem mem_ignored_settle {forest : Forest} {entries : List (Vertex × List Vertex)}
    {state : WalkState} {shape : Shape} :
    shape ∈ (forest.settle entries state).ignored ↔
      shape ∈ state.ignored ∨ ∃ visit ∈ forest.trail entries state, visit.Marks shape := by
  induction entries generalizing state with
  | nil => simp [settle, trail]
  | cons entry entries induction =>
      have step : shape ∈ (forest.visitEntry entry state).after.ignored ↔
          shape ∈ state.ignored ∨ (forest.visitEntry entry state).Marks shape := by
        rw [visitEntry_after]
        exact WalkState.mem_ignoredAfter
      rw [settle, trail, induction, step, or_assoc]
      simp

/-- The walk comes to an operator that it has counted already. -/
def Skips (forest : Forest) (start : Vertex) (functionName : Option String)
    (operator : Vertex) : Prop :=
  ∃ visit ∈ forest.scoringVisits start functionName,
    visit.node = operator ∧ operator.shape ∈ visit.before.ignored

section

variable {forest : Forest} {start : Vertex} {functionName : Option String}

theorem exists_visit (forest : Forest) (functionName : Option String) {node : Vertex}
    (member : node ∈ start.preorder) :
    ∃ visit ∈ forest.scoringVisits start functionName, visit.node = node := by
  rw [← map_node_scoringVisits forest start functionName] at member
  exact List.mem_map.mp member

/-- The visits of the logical operators, in order. -/
def operatorVisits (forest : Forest) (start : Vertex) (functionName : Option String) : List Visit :=
  (forest.scoringVisits start functionName).filter fun visit => visit.node.kind.IsLogical

theorem mem_operatorVisits {visit : Visit} :
    visit ∈ forest.operatorVisits start functionName ↔
      visit ∈ forest.scoringVisits start functionName ∧ visit.node.kind.IsLogical := by
  simp [operatorVisits]

theorem map_node_operatorVisits (forest : Forest) (start : Vertex) (functionName : Option String) :
    (forest.operatorVisits start functionName).map Visit.node = start.operators := by
  rw [operatorVisits, Node.operators, ← map_node_scoringVisits forest start functionName,
    List.filter_map]
  rfl

/-- An operator has one visit. -/
theorem visit_unique (apart : start.OperatorsApart) {first second : Visit}
    (firstMember : first ∈ forest.scoringVisits start functionName)
    (secondMember : second ∈ forest.scoringVisits start functionName)
    (logical : first.node.kind.IsLogical) (same : first.node = second.node) : first = second := by
  have once := apart.operators_nodup
  rw [← map_node_operatorVisits forest start functionName] at once
  exact List.inj_on_of_nodup_map once (mem_operatorVisits.mpr ⟨firstMember, logical⟩)
    (mem_operatorVisits.mpr ⟨secondMember, same ▸ logical⟩) same

theorem skips_iff_visit (apart : start.OperatorsApart) {visit : Visit}
    (member : visit ∈ forest.scoringVisits start functionName)
    (logical : visit.node.kind.IsLogical) :
    forest.Skips start functionName visit.node ↔ visit.node.shape ∈ visit.before.ignored := by
  constructor
  · rintro ⟨other, otherMember, same, skipped⟩
    obtain rfl := visit_unique apart member otherMember logical same.symm
    exact skipped
  · exact fun skipped => ⟨visit, member, rfl, skipped⟩

/-- A walk skips an operator exactly if it is the right operand of one that the walk does not skip. -/
theorem skips_iff (apart : start.OperatorsApart) {node : Vertex} (member : node ∈ start.operators) :
    forest.Skips start functionName node ↔
      ∃ operator ∈ start.operators,
        operator.rightContinuation? = some node ∧ ¬ forest.Skips start functionName operator := by
  obtain ⟨inTree, logical⟩ := Node.mem_operators.mp member
  obtain ⟨visit, visited, rfl⟩ := exists_visit forest functionName inTree
  obtain ⟨left, right, split⟩ := List.append_of_mem visited
  obtain ⟨before, above, after, lineage, earlier, isEntry⟩ := exists_entry_of_visit split
  have ignored : visit.node.shape ∈ visit.before.ignored ↔
      ∃ earlierVisit ∈ left, earlierVisit.Marks visit.node.shape := by
    have state : visit.before.ignored =
        (forest.settle before (.start functionName)).ignored := by
      rw [isEntry]
      rfl
    rw [state, mem_ignored_settle, earlier]
    simp [WalkState.start]
  rw [skips_iff_visit apart visited logical, ignored]
  constructor
  · rintro ⟨marking, inLeft, markingLogical, fresh, next, continued, sameShape⟩
    have markingVisited : marking ∈ forest.scoringVisits start functionName := by
      rw [split]
      exact List.mem_append_left _ inLeft
    have markingMember : marking.node ∈ start.operators := by
      rw [← map_node_operatorVisits forest start functionName]
      exact List.mem_map_of_mem (mem_operatorVisits.mpr ⟨markingVisited, markingLogical⟩)
    have nextMember := apart.next_mem_operators markingMember (.inr continued)
    refine ⟨marking.node, markingMember, ?_, ?_⟩
    · rw [continued, apart.eq_of_shape nextMember member sameShape]
    · rwa [skips_iff_visit apart markingVisited markingLogical]
  · rintro ⟨operator, operatorMember, continued, counted⟩
    obtain ⟨operatorInTree, operatorLogical⟩ := Node.mem_operators.mp operatorMember
    obtain ⟨path, entry⟩ := Node.exists_lineage [] operatorInTree
    obtain ⟨-, inner, inside, -⟩ :=
      apart.continues_mem_lineage operatorMember entry (.inr continued)
    -- the operator is an ancestor of its right operand, so its visit comes first
    have place : (visit.node, above) ∈ start.lineage [] := by simp [lineage]
    have ancestor : operator ∈ above := by
      rw [apart.path_unique logical place inside]
      simp
    have comesFirst : operator ∈ before.map Prod.fst := by
      rcases Node.grounded_lineage [] start before _ after lineage operator ancestor with first | none
      · exact first
      · simp at none
    rw [← map_node_trail forest before (.start functionName), ← earlier] at comesFirst
    obtain ⟨marking, inLeft, rfl⟩ := List.mem_map.mp comesFirst
    have markingVisited : marking ∈ forest.scoringVisits start functionName := by
      rw [split]
      exact List.mem_append_left _ inLeft
    rw [skips_iff_visit apart markingVisited operatorLogical] at counted
    exact ⟨marking, inLeft, operatorLogical, counted, visit.node, continued, rfl⟩

/-- What the visit of a logical operator records. -/
theorem recorded_of_logical {visit : Visit}
    (member : visit ∈ forest.scoringVisits start functionName)
    (logical : visit.node.kind.IsLogical) :
    visit.recorded = visit.node.operatorCharge visit.before.ignored := by
  obtain ⟨left, right, split⟩ := List.append_of_mem member
  obtain ⟨before, above, after, -, -, isEntry⟩ := exists_entry_of_visit split
  have replied : visit.after =
      visit.before.afterNode visit.node (visit.node.operatorCharge visit.before.ignored) := by
    rw [isEntry]
    simp only [visitEntry, HandlerTable.reply_logical forest logical]
  rw [Visit.recorded, replied]
  exact List.drop_left

end

end Forest

end CodeMetrics
