import CodeMetrics.Proofs.Cognitive.Operators
import Mathlib.Algebra.BigOperators.Group.Finset.Basic
import Mathlib.Combinatorics.SimpleGraph.Connectivity.Connected
import Mathlib.SetTheory.Cardinal.Finite

/-!
# Runs of one logical operator

A run is a connected component of the links between logical operators and their operands. A walk
records at least one increment for each run. It records exactly one for each if and only if no right
operand that continues a run is itself continued: a skipped operator does not mark its own right
operand, so a run that goes on below a right operand is counted again.
-/

namespace CodeMetrics

/-! ## Components and roots -/

section Components

variable {α : Type} {graph : SimpleGraph α} {link : α → α → Prop}

/-- What is linked from a root, in one or more steps, stays so along the edges. -/
theorem reflTransGen_of_reachable (edges : ∀ a b, graph.Adj a b ↔ link a b ∨ link b a)
    (unique : ∀ a b c, link a c → link b c → a = b) {root first last : α}
    (isRoot : ∀ parent, ¬ link parent root) (joined : graph.Reachable first last)
    (below : Relation.ReflTransGen link root first) : Relation.ReflTransGen link root last := by
  rw [SimpleGraph.reachable_iff_reflTransGen] at joined
  induction joined with
  | refl => exact below
  | @tail middle last _ edge induction =>
      rcases (edges middle last).mp edge with down | up
      · exact induction.tail down
      · rcases induction.cases_tail with rfl | ⟨parent, above, link⟩
        · exact absurd up (isRoot last)
        · exact unique parent last middle link up ▸ above

/-- Where no node is linked from two others, each component has one root. -/
theorem card_connectedComponent_eq_card_roots
    (edges : ∀ a b, graph.Adj a b ↔ link a b ∨ link b a)
    (unique : ∀ a b c, link a c → link b c → a = b) (founded : WellFounded link) :
    Nat.card graph.ConnectedComponent = Nat.card {node : α // ∀ parent, ¬ link parent node} := by
  symm
  refine Nat.card_congr (Equiv.ofBijective (fun root => graph.connectedComponentMk root.1) ⟨?_, ?_⟩)
  · rintro ⟨first, firstRoot⟩ ⟨second, secondRoot⟩ same
    have joined : graph.Reachable first second := SimpleGraph.ConnectedComponent.exact same
    have below := reflTransGen_of_reachable edges unique firstRoot joined .refl
    rcases below.cases_tail with rfl | ⟨parent, -, link⟩
    · rfl
    · exact absurd link (secondRoot parent)
  · intro component
    induction component using SimpleGraph.ConnectedComponent.ind with
    | _ node =>
        induction node using founded.induction with
        | _ node climb =>
            by_cases isRoot : ∀ parent, ¬ link parent node
            · exact ⟨⟨node, isRoot⟩, rfl⟩
            · push Not at isRoot
              obtain ⟨parent, linked⟩ := isRoot
              obtain ⟨root, same⟩ := climb parent linked
              refine ⟨root, same.trans ?_⟩
              exact SimpleGraph.ConnectedComponent.connectedComponentMk_eq_of_adj
                ((edges parent node).mpr (.inl linked))

end Components

namespace Node

/-- The links between the logical operators of a tree. -/
def runGraph (start : Vertex) : SimpleGraph {operator // operator ∈ start.operators} :=
  .fromRel fun operator next => operator.1.Continues next.1

/-- The number of maximal runs of one logical operator. -/
noncomputable def runCount (start : Vertex) : Nat := Nat.card start.runGraph.ConnectedComponent

/-- The operator is the left operand of an operator of its kind. -/
def LinkedLeft (start operator : Vertex) : Prop :=
  ∃ parent ∈ start.operators, parent.leftContinuation? = some operator

/-- The operator is the right operand of an operator of its kind. -/
def LinkedRight (start operator : Vertex) : Prop :=
  ∃ parent ∈ start.operators, parent.rightContinuation? = some operator

open Classical in
/-- The logical operators of a tree that have a property. -/
noncomputable def operatorsWith (start : Vertex) (property : Vertex → Prop) : Finset Vertex :=
  start.operators.toFinset.filter property

@[simp] theorem mem_operatorsWith {start operator : Vertex} {property : Vertex → Prop} :
    operator ∈ start.operatorsWith property ↔ operator ∈ start.operators ∧ property operator := by
  simp [operatorsWith]

theorem card_operatorsWith_congr {start : Vertex} {first second : Vertex → Prop}
    (same : ∀ operator ∈ start.operators, first operator ↔ second operator) :
    (start.operatorsWith first).card = (start.operatorsWith second).card := by
  congr 1
  ext operator
  simp only [mem_operatorsWith]
  exact and_congr_right (same operator)

/-- A property splits the operators that have another one. -/
theorem card_operatorsWith_split (start : Vertex) (property other : Vertex → Prop) :
    (start.operatorsWith property).card =
      (start.operatorsWith fun operator => property operator ∧ other operator).card +
        (start.operatorsWith fun operator => property operator ∧ ¬ other operator).card := by
  classical
  rw [← Finset.card_filter_add_card_filter_not (s := start.operatorsWith property) other]
  congr 2 <;> ext operator <;> simp [and_assoc]

namespace OperatorsApart

variable {start : Vertex}

/-- An operator that is linked from another one lies deeper in the tree. -/
theorem continues_wellFounded (apart : start.OperatorsApart) :
    WellFounded fun operator next : {operator // operator ∈ start.operators} =>
      operator.1.Continues next.1 := by
  choose path entry using fun operator : {operator // operator ∈ start.operators} =>
    exists_lineage [] (mem_operators.mp operator.2).1
  refine Subrelation.wf ?_ (measure fun operator => (path operator).length).wf
  intro operator next linked
  obtain ⟨-, inner, inside, -⟩ := apart.continues_mem_lineage operator.2 (entry operator) linked
  have deeper := apart.path_unique (mem_operators.mp next.2).2 (entry next) inside
  change (path operator).length < (path next).length
  rw [deeper, List.length_append, List.length_cons]
  omega

theorem runGraph_adj (apart : start.OperatorsApart)
    (first second : {operator // operator ∈ start.operators}) :
    start.runGraph.Adj first second ↔
      first.1.Continues second.1 ∨ second.1.Continues first.1 := by
  rw [runGraph, SimpleGraph.fromRel_adj, and_iff_right_iff_imp]
  rintro linked rfl
  have irreflexive : ¬ first.1.Continues first.1 := apart.continues_wellFounded.irrefl.irrefl first
  exact irreflexive (or_self_iff.mp linked)

/-- A run has one operator that is no operand of the same run. -/
theorem runCount_eq (apart : start.OperatorsApart) :
    start.runCount =
      (start.operatorsWith fun operator =>
        ¬ start.LinkedLeft operator ∧ ¬ start.LinkedRight operator).card := by
  have unique : ∀ first second next : {operator // operator ∈ start.operators},
      first.1.Continues next.1 → second.1.Continues next.1 → first = second := by
    intro first second next firstLinked secondLinked
    exact Subtype.ext (apart.continues_unique first.2 second.2 firstLinked secondLinked)
  rw [runCount, card_connectedComponent_eq_card_roots apart.runGraph_adj unique
    apart.continues_wellFounded]
  have roots : ∀ operator : {operator // operator ∈ start.operators},
      (∀ parent : {operator // operator ∈ start.operators}, ¬ parent.1.Continues operator.1) ↔
        ¬ start.LinkedLeft operator.1 ∧ ¬ start.LinkedRight operator.1 := by
    intro operator
    simp only [Subtype.forall, Continues, LinkedLeft, LinkedRight, not_or, not_exists, not_and]
    exact ⟨fun none => ⟨fun parent member => (none parent member).1,
      fun parent member => (none parent member).2⟩,
      fun none parent member => ⟨none.1 parent member, none.2 parent member⟩⟩
  rw [Nat.card_congr (Equiv.subtypeEquivRight roots),
    Nat.card_congr (Equiv.subtypeSubtypeEquivSubtypeInter _ fun operator =>
      ¬ start.LinkedLeft operator ∧ ¬ start.LinkedRight operator)]
  exact Nat.subtype_card _ fun operator => mem_operatorsWith

/-- As many operators are left operands as have one. -/
theorem card_linkedLeft (apart : start.OperatorsApart) :
    (start.operatorsWith start.LinkedLeft).card =
      (start.operatorsWith fun operator => operator.leftContinuation?.isSome).card := by
  symm
  refine Finset.card_bij (fun operator member => operator.leftContinuation?.get
    (mem_operatorsWith.mp member).2) ?_ ?_ ?_
  · intro operator member
    obtain ⟨listed, continued⟩ := mem_operatorsWith.mp member
    have linked := Option.some_get continued
    refine mem_operatorsWith.mpr ⟨?_, operator, listed, linked.symm⟩
    exact apart.next_mem_operators listed (.inl linked.symm)
  · intro first firstMember second secondMember same
    obtain ⟨firstListed, firstContinued⟩ := mem_operatorsWith.mp firstMember
    obtain ⟨secondListed, secondContinued⟩ := mem_operatorsWith.mp secondMember
    refine apart.continues_unique firstListed secondListed (.inl (Option.some_get firstContinued).symm)
      (.inl ?_)
    rw [same]
    exact (Option.some_get secondContinued).symm
  · intro next member
    obtain ⟨-, operator, listed, linked⟩ := mem_operatorsWith.mp member
    refine ⟨operator, mem_operatorsWith.mpr ⟨listed, by simp [linked]⟩, ?_⟩
    simp [linked]

/-- The operators without a left continuation are as many as the runs and the right operands
together. -/
theorem card_not_left (apart : start.OperatorsApart) :
    (start.operatorsWith fun operator => ¬ operator.leftContinuation?.isSome).card =
      start.runCount + (start.operatorsWith start.LinkedRight).card := by
  have byLeft := start.card_operatorsWith_split (fun _ => True) fun operator =>
    operator.leftContinuation?.isSome
  have byLink := start.card_operatorsWith_split (fun _ => True) start.LinkedLeft
  have byRight := start.card_operatorsWith_split (fun operator => ¬ start.LinkedLeft operator)
    start.LinkedRight
  have right : (start.operatorsWith fun operator =>
      ¬ start.LinkedLeft operator ∧ start.LinkedRight operator).card =
      (start.operatorsWith start.LinkedRight).card := by
    refine card_operatorsWith_congr fun operator member => and_iff_right_of_imp ?_
    rintro ⟨parent, parentMember, right⟩ ⟨other, otherMember, left⟩
    obtain rfl := apart.continues_unique otherMember parentMember (.inl left) (.inr right)
    exact apart.right_ne_left otherMember left right
  simp only [true_and] at byLeft byLink
  rw [apart.card_linkedLeft] at byLink
  rw [right, ← apart.runCount_eq] at byRight
  omega

end OperatorsApart

end Node

/-! ## What the walk counts -/

namespace Forest

/-- The increments recorded for logical operators. -/
def operatorIncrements (forest : Forest) (start : Vertex) (functionName : Option String) :
    List Increment :=
  (forest.operatorVisits start functionName).flatMap Visit.recorded

section

variable {forest : Forest} {start : Vertex} {functionName : Option String}

open Classical in
theorem length_recorded (apart : start.OperatorsApart) {visit : Visit}
    (member : visit ∈ forest.operatorVisits start functionName) :
    visit.recorded.length =
      if ¬ visit.node.leftContinuation?.isSome ∧ ¬ forest.Skips start functionName visit.node
        then 1 else 0 := by
  obtain ⟨visited, logical⟩ := mem_operatorVisits.mp member
  rw [recorded_of_logical visited logical, Node.operatorCharge]
  by_cases skipped : visit.node.shape ∈ visit.before.ignored <;>
    by_cases continued : visit.node.leftContinuation?.isSome <;>
    simp [skips_iff_visit apart visited logical, skipped, continued]

/-- The walk counts the operators that it does not skip and that have no left continuation. -/
theorem length_operatorIncrements (apart : start.OperatorsApart) :
    (forest.operatorIncrements start functionName).length =
      (start.operatorsWith fun operator =>
        ¬ operator.leftContinuation?.isSome ∧ ¬ forest.Skips start functionName operator).card := by
  classical
  rw [operatorIncrements, List.length_flatMap, Node.operatorsWith, Finset.card_filter,
    List.sum_toFinset _ apart.operators_nodup, ← map_node_operatorVisits forest start functionName,
    List.map_map]
  congr 1
  refine List.map_congr_left fun visit member => ?_
  rw [length_recorded apart member]
  congr 1

theorem linkedRight_of_skips (apart : start.OperatorsApart) {operator : Vertex}
    (member : operator ∈ start.operators) (skipped : forest.Skips start functionName operator) :
    start.LinkedRight operator := by
  obtain ⟨parent, parentMember, right, -⟩ := (skips_iff apart member).mp skipped
  exact ⟨parent, parentMember, right⟩

/-- Every right operand is skipped and without a left continuation exactly if none is continued. -/
theorem skipped_plain_iff (forest : Forest) (functionName : Option String)
    (apart : start.OperatorsApart) :
    (∀ next ∈ start.operators, start.LinkedRight next →
        ¬ next.leftContinuation?.isSome ∧ forest.Skips start functionName next) ↔
      ∀ operator ∈ start.operators, ∀ next, operator.rightContinuation? = some next →
        next.leftContinuation? = none ∧ next.rightContinuation? = none := by
  constructor
  · intro plain operator member next right
    have nextMember := apart.next_mem_operators member (.inr right)
    obtain ⟨noLeft, skipped⟩ := plain next nextMember ⟨operator, member, right⟩
    refine ⟨by simpa using noLeft, Option.eq_none_iff_forall_ne_some.mpr ?_⟩
    -- a skipped operator does not mark its own right operand
    intro last continued
    have lastMember := apart.next_mem_operators nextMember (.inr continued)
    obtain ⟨-, lastSkipped⟩ := plain last lastMember ⟨next, nextMember, continued⟩
    obtain ⟨parent, parentMember, parentRight, counted⟩ := (skips_iff apart lastMember).mp lastSkipped
    obtain rfl := apart.continues_unique parentMember nextMember (.inr parentRight) (.inr continued)
    exact counted skipped
  · rintro plain next nextMember ⟨operator, member, right⟩
    refine ⟨by simp [(plain operator member next right).1], ?_⟩
    refine (skips_iff apart nextMember).mpr ⟨operator, member, right, ?_⟩
    intro skipped
    obtain ⟨parent, parentMember, parentRight⟩ := linkedRight_of_skips apart member skipped
    have ended := (plain parent parentMember operator parentRight).2
    simp [ended] at right

end

/-- A walk counts every run of one logical operator at least once, and every run exactly once if and
only if no right operand that continues a run is continued itself. -/
theorem operatorIncrements_eq_runs_iff (forest : Forest) (start : Vertex)
    (functionName : Option String) (apart : start.OperatorsApart) :
    (∃ result, cognitiveScore forest start functionName = .ok result ∧
      (forest.operatorIncrements start functionName).Sublist result.increments) ∧
    start.runCount ≤ (forest.operatorIncrements start functionName).length ∧
    ((forest.operatorIncrements start functionName).length = start.runCount ↔
      ∀ operator ∈ start.operators, ∀ next, operator.rightContinuation? = some next →
        next.leftContinuation? = none ∧ next.rightContinuation? = none) := by
  have split := start.card_operatorsWith_split
    (fun operator => ¬ operator.leftContinuation?.isSome) (forest.Skips start functionName)
  rw [apart.card_not_left, ← length_operatorIncrements apart] at split
  have skippedRight : (start.operatorsWith fun operator =>
      ¬ operator.leftContinuation?.isSome ∧ forest.Skips start functionName operator) ⊆
      start.operatorsWith start.LinkedRight := by
    intro operator member
    obtain ⟨listed, -, skipped⟩ := Node.mem_operatorsWith.mp member
    exact Node.mem_operatorsWith.mpr ⟨listed, linkedRight_of_skips apart listed skipped⟩
  have fewer := Finset.card_le_card skippedRight
  refine ⟨⟨_, cognitiveScore_eq forest start functionName, ?_⟩, by omega, ?_⟩
  · exact List.filter_sublist.flatMap _
  · rw [← skipped_plain_iff forest functionName apart]
    constructor
    · intro exact next listed right
      have all := Finset.eq_of_subset_of_card_le skippedRight (by omega)
      have member : next ∈ start.operatorsWith start.LinkedRight :=
        Node.mem_operatorsWith.mpr ⟨listed, right⟩
      rw [← all] at member
      exact (Node.mem_operatorsWith.mp member).2
    · intro plain
      have all : (start.operatorsWith start.LinkedRight) ⊆ start.operatorsWith fun operator =>
          ¬ operator.leftContinuation?.isSome ∧ forest.Skips start functionName operator := by
        intro next member
        obtain ⟨listed, right⟩ := Node.mem_operatorsWith.mp member
        exact Node.mem_operatorsWith.mpr ⟨listed, plain next listed right⟩
      have same := Finset.card_le_card all
      omega

/-- One operator three times, each but the first in parentheses on the right of the one before. -/
def rightNestedRun : Vertex × Forest :=
  Forest.empty.plant (.sketch .logicalAnd none
    [.sketch .identifier (some "left") [],
      .sketch .parenthesizedExpression (some "right")
        [.sketch .logicalAnd none
          [.sketch .identifier (some "left") [],
            .sketch .parenthesizedExpression (some "right")
              [.sketch .logicalAnd none
                [.sketch .identifier (some "left") [], .sketch .identifier (some "right") []]]]]])

theorem operatorIncrements_rightNestedRun :
    rightNestedRun.1.OperatorsApart ∧
      rightNestedRun.1.runCount <
        (rightNestedRun.2.operatorIncrements rightNestedRun.1 none).length := by
  have apart : rightNestedRun.1.OperatorsApart := ⟨by decide, by decide, by decide⟩
  have continued : ∃ operator ∈ rightNestedRun.1.operators, ∃ next ∈ rightNestedRun.1.operators,
      operator.rightContinuation? = some next ∧ next.rightContinuation? ≠ none := by decide
  obtain ⟨-, least, exactly⟩ :=
    operatorIncrements_eq_runs_iff rightNestedRun.2 rightNestedRun.1 none apart
  refine ⟨apart, Nat.lt_of_le_of_ne least fun same => ?_⟩
  obtain ⟨operator, member, next, -, right, goesOn⟩ := continued
  exact goesOn (exactly.mp same.symm operator member next right).2

end Forest

end CodeMetrics
