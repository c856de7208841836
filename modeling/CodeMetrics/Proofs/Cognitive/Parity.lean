import CodeMetrics.Proofs.Cognitive.Runs
import Mathlib.Algebra.Ring.Parity

/-!
# Nested runs and parity

Along a run that nests to the right, a walk skips every second operator: whether it skips one depends
on the parity of the number of operators above it. A run that nests to the right therefore scores half
of its operators, rounded up, and one that nests to the left scores one.
-/

namespace CodeMetrics

namespace Node

/-- Operators of a tree from the outermost in, each the continuation of the one before. The outermost
is not the right operand of an operator of its kind. -/
structure Nests (start : Vertex) (next : Vertex → Option Vertex) (chain : List Vertex) : Prop where
  members : ∀ operator ∈ chain, operator ∈ start.operators
  links : chain.IsChain fun outer inner => next outer = some inner
  outermost : ∀ operator ∈ chain.head?, ¬ start.LinkedRight operator

/-- A run that nests to the right only. -/
structure RightNested (start : Vertex) (chain : List Vertex) : Prop
    extends start.Nests rightContinuation? chain where
  noLeft : ∀ operator ∈ chain, operator.leftContinuation? = none

/-- A run that nests to the left, down to its innermost operator. -/
structure LeftNested (start : Vertex) (chain : List Vertex) : Prop
    extends start.Nests leftContinuation? chain where
  innermost : ∀ operator ∈ chain.getLast?, operator.leftContinuation? = none

namespace Nests

variable {start operator parent : Vertex} {next : Vertex → Option Vertex} {chain : List Vertex}

theorem singleton_iff :
    start.Nests next [operator] ↔ operator ∈ start.operators ∧ ¬ start.LinkedRight operator := by
  constructor
  · intro nests
    exact ⟨nests.members operator (by simp), nests.outermost operator (by simp)⟩
  · rintro ⟨member, unlinked⟩
    exact ⟨by simpa using member, .singleton operator, by simpa using unlinked⟩

/-- Without its innermost operator, a chain is still one. -/
theorem init (nests : start.Nests next (chain ++ [operator])) : start.Nests next chain where
  members other member := nests.members other (List.mem_append_left _ member)
  links := nests.links.left_of_append
  outermost other first := nests.outermost other (by
    rw [List.head?_append, Option.mem_def.mp first, Option.some_or]
    rfl)

/-- A longer chain has one more link at its inner end. -/
theorem concat_iff :
    start.Nests next (chain ++ [parent] ++ [operator]) ↔
      start.Nests next (chain ++ [parent]) ∧ operator ∈ start.operators ∧
        next parent = some operator := by
  constructor
  · intro nests
    have last := (List.isChain_append.mp nests.links).2.2
    exact ⟨nests.init, nests.members operator (by simp), last parent (by simp) operator (by simp)⟩
  · rintro ⟨⟨members, links, outermost⟩, member, linked⟩
    refine ⟨?_, links.append (.singleton operator) (by simpa using linked), ?_⟩
    · intro other listed
      rcases List.mem_append.mp listed with earlier | last
      · exact members other earlier
      · rwa [List.mem_singleton.mp last]
    · rwa [List.head?_append_of_ne_nil _ (by simp)]

end Nests

namespace OperatorsApart

variable {start : Vertex}

/-- The operators that an operator is nested in on the right, up to the last. -/
theorem exists_nests (apart : start.OperatorsApart)
    (operator : {operator // operator ∈ start.operators}) :
    ∃ chain, start.Nests rightContinuation? (chain ++ [operator.1]) := by
  induction operator using apart.continues_wellFounded.induction with
  | _ operator climb =>
      by_cases linked : start.LinkedRight operator.1
      · obtain ⟨parent, member, right⟩ := linked
        obtain ⟨chain, nests⟩ := climb ⟨parent, member⟩ (.inr right)
        exact ⟨chain ++ [parent], Nests.concat_iff.mpr ⟨nests, operator.2, right⟩⟩
      · exact ⟨[], Nests.singleton_iff.mpr ⟨operator.2, linked⟩⟩

theorem nests_unique (apart : start.OperatorsApart) {operator : Vertex} {first second : List Vertex}
    (firstNests : start.Nests rightContinuation? (first ++ [operator]))
    (secondNests : start.Nests rightContinuation? (second ++ [operator])) : first = second := by
  have ends : ∀ {chain : List Vertex} {parent operator : Vertex},
      start.Nests rightContinuation? (chain ++ [parent] ++ [operator]) →
        parent ∈ start.operators ∧ parent.rightContinuation? = some operator := by
    intro chain parent operator nests
    obtain ⟨above, -, linked⟩ := Nests.concat_iff.mp nests
    exact ⟨above.members parent (by simp), linked⟩
  induction first using List.reverseRecOn generalizing second operator with
  | nil =>
      obtain ⟨-, unlinked⟩ := Nests.singleton_iff.mp firstNests
      rcases second.eq_nil_or_concat' with rfl | ⟨chain, parent, rfl⟩
      · rfl
      · exact absurd ⟨parent, ends secondNests⟩ unlinked
  | append_singleton first firstParent induction =>
      obtain ⟨firstMember, firstRight⟩ := ends firstNests
      rcases second.eq_nil_or_concat' with rfl | ⟨second, secondParent, rfl⟩
      · obtain ⟨-, unlinked⟩ := Nests.singleton_iff.mp secondNests
        exact absurd ⟨firstParent, firstMember, firstRight⟩ unlinked
      · obtain ⟨secondMember, secondRight⟩ := ends secondNests
        obtain rfl := apart.continues_unique firstMember secondMember (.inr firstRight)
          (.inr secondRight)
        rw [induction (Nests.concat_iff.mp firstNests).1 (Nests.concat_iff.mp secondNests).1]

/-- An operator is not the left operand of one operator and the right operand of another. -/
theorem not_linkedRight (apart : start.OperatorsApart) {operator next : Vertex}
    (member : operator ∈ start.operators) (left : operator.leftContinuation? = some next) :
    ¬ start.LinkedRight next := by
  rintro ⟨parent, parentMember, right⟩
  obtain rfl := apart.continues_unique parentMember member (.inr right) (.inl left)
  exact apart.right_ne_left member left right

end OperatorsApart

theorem leftContinuation?_eq_none_iff {operator left : Vertex}
    (isLeft : operator.operands.1 = some left) :
    operator.leftContinuation? = none ↔ left.stripParentheses.kind ≠ operator.kind := by
  rw [leftContinuation?, isLeft, continuation?, Option.map_some, Option.filter_some]
  split <;> simp_all

end Node

/-! ## What the walk skips and what it records -/

namespace Forest

section

variable {forest : Forest} {start : Vertex} {functionName : Option String}

/-- Along a link to the right, the walk skips one of the two operators. -/
theorem skips_right_iff (apart : start.OperatorsApart) {operator next : Vertex}
    (member : operator ∈ start.operators) (right : operator.rightContinuation? = some next) :
    forest.Skips start functionName next ↔ ¬ forest.Skips start functionName operator := by
  rw [skips_iff apart (apart.next_mem_operators member (.inr right))]
  constructor
  · rintro ⟨parent, parentMember, parentRight, counted⟩
    obtain rfl := apart.continues_unique parentMember member (.inr parentRight) (.inr right)
    exact counted
  · exact fun counted => ⟨operator, member, right, counted⟩

/-- The walk skips the operators with an odd number of operators above them on the right. -/
theorem skips_iff_odd (apart : start.OperatorsApart) {chain : List Vertex} {operator : Vertex}
    (nests : start.Nests Node.rightContinuation? (chain ++ [operator])) :
    forest.Skips start functionName operator ↔ Odd chain.length := by
  -- from the outermost operator in, each link turns the answer around
  induction chain using List.reverseRecOn generalizing operator with
  | nil =>
      obtain ⟨member, unlinked⟩ := Node.Nests.singleton_iff.mp nests
      have counted : ¬ forest.Skips start functionName operator := fun skipped =>
        unlinked (linkedRight_of_skips apart member skipped)
      simp [counted]
  | append_singleton chain parent induction =>
      obtain ⟨above, -, right⟩ := Node.Nests.concat_iff.mp nests
      rw [skips_right_iff apart (above.members parent (by simp)) right, induction above,
        List.length_append, List.length_singleton, Nat.odd_add_one]

open Classical in
/-- An operator that is neither skipped nor continued on the left adds one. -/
theorem recordedAt_operator (distinct : start.Distinct) (apart : start.OperatorsApart)
    {operator : Vertex} (member : operator ∈ start.operators) :
    forest.recordedAt start functionName operator =
      if forest.Skips start functionName operator ∨ operator.leftContinuation?.isSome then []
      else [.ofToken operator.operatorToken 1] := by
  obtain ⟨inTree, logical⟩ := Node.mem_operators.mp member
  obtain ⟨visit, visited, rfl⟩ := exists_visit forest functionName inTree
  rw [recordedAt_eq distinct visited, recorded_of_logical visited logical, Node.operatorCharge]
  simp only [skips_iff_visit apart visited logical]

/-- A run that nests to the right scores half of its operators, rounded up. -/
theorem total_rightNested (distinct : start.Distinct) (apart : start.OperatorsApart)
    {chain : List Vertex} (nested : start.RightNested chain) :
    Increment.total (chain.flatMap (forest.recordedAt start functionName)) =
      ((chain.length + 1) / 2 : Nat) := by
  classical
  induction chain using List.reverseRecOn with
  | nil => rfl
  | append_singleton chain operator induction =>
      have outer : start.RightNested chain :=
        ⟨nested.toNests.init, fun other member =>
          nested.noLeft other (List.mem_append_left _ member)⟩
      have added : Increment.total (forest.recordedAt start functionName operator) =
          if Odd chain.length then 0 else 1 := by
        rw [recordedAt_operator distinct apart (nested.members operator (by simp)),
          nested.noLeft operator (by simp), skips_iff_odd apart nested.toNests]
        by_cases odd : Odd chain.length <;> simp [odd, Increment.ofToken]
      rw [List.flatMap_append, Increment.total_append, induction outer, List.flatMap_singleton, added,
        List.length_append, List.length_singleton]
      split
      · rename_i odd
        rw [Nat.odd_iff] at odd
        omega
      · rename_i even
        rw [Nat.odd_iff] at even
        omega

/-- No operator of a run that nests to the left is skipped. -/
theorem not_skips_of_nests_left (apart : start.OperatorsApart) {chain : List Vertex}
    {operator : Vertex} (nests : start.Nests Node.leftContinuation? (chain ++ [operator])) :
    ¬ forest.Skips start functionName operator := by
  intro skipped
  have linked := linkedRight_of_skips apart (nests.members operator (by simp)) skipped
  rcases chain.eq_nil_or_concat' with rfl | ⟨above, parent, rfl⟩
  · exact (Node.Nests.singleton_iff.mp nests).2 linked
  · -- it is the left operand of its parent, and a walk skips right operands only
    obtain ⟨outer, -, left⟩ := Node.Nests.concat_iff.mp nests
    exact apart.not_linkedRight (outer.members parent (by simp)) left linked

/-- In a run that nests to the left, only the innermost operator adds to the score. -/
theorem total_leftNested (distinct : start.Distinct) (apart : start.OperatorsApart)
    {chain : List Vertex} (nested : start.LeftNested chain) (inhabited : chain ≠ []) :
    Increment.total (chain.flatMap (forest.recordedAt start functionName)) = 1 := by
  classical
  obtain ⟨chain, operator, rfl⟩ := chain.eq_nil_or_concat'.resolve_left inhabited
  have outer : chain.flatMap (forest.recordedAt start functionName) = [] := by
    rw [List.flatMap_eq_nil_iff]
    intro other member
    obtain ⟨before, after, rfl⟩ := List.append_of_mem member
    have continued : other.leftContinuation?.isSome := by
      have links := nested.links
      rw [List.append_assoc, List.cons_append] at links
      obtain ⟨first, rest, split⟩ := List.exists_cons_of_ne_nil (List.concat_ne_nil operator after)
      rw [split] at links
      exact Option.isSome_of_eq_some (List.isChain_append_cons_cons.mp links).2.1
    rw [recordedAt_operator distinct apart (nested.members other (by simp)), if_pos (.inr continued)]
  have counted : ¬ forest.Skips start functionName operator :=
    not_skips_of_nests_left apart nested.toNests
  have ended := nested.innermost operator (by simp)
  rw [List.flatMap_append, outer, List.nil_append, List.flatMap_singleton,
    recordedAt_operator distinct apart (nested.members operator (by simp)),
    if_neg (by simp [counted, ended])]
  rfl

/-- Where nothing but the logical operators is charged, they make up the increments of the walk. -/
theorem flatMap_recordedAt_operators {nodes : List Vertex}
    (uncharged : ∀ node ∈ nodes, ¬ node.kind.IsLogical →
      forest.recordedAt start functionName node = []) :
    (nodes.filter fun node => node.kind.IsLogical).flatMap (forest.recordedAt start functionName) =
      nodes.flatMap (forest.recordedAt start functionName) := by
  induction nodes with
  | nil => rfl
  | cons node nodes induction =>
      have rest := induction fun other member => uncharged other (List.mem_cons_of_mem node member)
      by_cases logical : node.kind.IsLogical
      · rw [List.filter_cons_of_pos (by simpa using logical), List.flatMap_cons, List.flatMap_cons,
          rest]
      · rw [List.filter_cons_of_neg (by simpa using logical), List.flatMap_cons, rest,
          uncharged node List.mem_cons_self logical, List.nil_append]

end

/-- A walk skips a logical operator exactly if it is nested, on the right, in an odd number of
operators of its kind, and records it exactly if it does not skip it and the left operand is of
another kind. So a run that nests to the right scores half of its operators, rounded up, and a run
that nests to the left scores one. -/
theorem skips_iff_odd_nesting (forest : Forest) (start : Vertex) (functionName : Option String)
    (distinct : start.Distinct) (apart : start.OperatorsApart) :
    (∀ operator ∈ start.operators,
      ∃ chain,
        start.Nests Node.rightContinuation? (chain ++ [operator]) ∧
        (∀ other, start.Nests Node.rightContinuation? (other ++ [operator]) → other = chain) ∧
        (forest.Skips start functionName operator ↔ Odd chain.length) ∧
        (forest.recordedAt start functionName operator ≠ [] ↔
          ¬ forest.Skips start functionName operator ∧
            ∃ left, operator.operands.1 = some left ∧
              left.stripParentheses.kind ≠ operator.kind)) ∧
    (∀ chain, start.RightNested chain →
      Increment.total (chain.flatMap (forest.recordedAt start functionName)) =
        ((chain.length + 1) / 2 : Nat)) ∧
    (∀ chain, start.LeftNested chain → chain ≠ [] →
      Increment.total (chain.flatMap (forest.recordedAt start functionName)) = 1) ∧
    ∃ result,
      cognitiveScore forest start functionName = .ok result ∧
      ((∀ node ∈ start.preorder, ¬ node.kind.IsLogical →
          forest.recordedAt start functionName node = []) →
        (start.RightNested start.operators →
          result.score = ((start.operators.length + 1) / 2 : Nat)) ∧
        (start.LeftNested start.operators → start.operators ≠ [] → result.score = 1)) := by
  classical
  refine ⟨?_, fun chain nested => total_rightNested distinct apart nested,
    fun chain nested inhabited => total_leftNested distinct apart nested inhabited, _,
    cognitiveScore_eq forest start functionName, ?_⟩
  · intro operator member
    obtain ⟨chain, nests⟩ := apart.exists_nests ⟨operator, member⟩
    refine ⟨chain, nests, fun other otherNests => apart.nests_unique otherNests nests,
      skips_iff_odd apart nests, ?_⟩
    obtain ⟨left, right, operands, -⟩ := apart.operands_eq member
    have isLeft : operator.operands.1 = some left := by rw [operands]
    have plain := Node.leftContinuation?_eq_none_iff isLeft
    rw [recordedAt_operator distinct apart member, isLeft]
    simp [← plain]
  · intro uncharged
    have score : Increment.total ((forest.scoringVisits start functionName).flatMap Visit.recorded) =
        Increment.total (start.operators.flatMap (forest.recordedAt start functionName)) := by
      rw [← flatMap_recordedAt distinct, Node.operators, flatMap_recordedAt_operators uncharged]
    refine ⟨fun nested => ?_, fun nested inhabited => ?_⟩
    · exact score.trans (total_rightNested distinct apart nested)
    · exact score.trans (total_leftNested distinct apart nested inhabited)

/-- Three operators, each nested on the right of the one before, score two. -/
theorem skips_iff_odd_nesting_rightNestedRun :
    rightNestedRun.1.Distinct ∧ rightNestedRun.1.OperatorsApart ∧
      ∃ result, cognitiveScore rightNestedRun.2 rightNestedRun.1 none = .ok result ∧
        result.score = 2 := by
  have distinct : rightNestedRun.1.Distinct := by decide
  have apart : rightNestedRun.1.OperatorsApart := ⟨by decide, by decide, by decide⟩
  have nested : rightNestedRun.1.RightNested rightNestedRun.1.operators := by
    refine ⟨⟨fun _ member => member, by decide, ?_⟩, by decide⟩
    unfold Node.LinkedRight
    decide
  have kinds : ∀ node ∈ rightNestedRun.1.preorder, ¬ node.kind.IsLogical →
      node.kind = .identifier ∨ node.kind = .parenthesizedExpression := by decide
  obtain ⟨-, -, -, result, success, scores⟩ :=
    skips_iff_odd_nesting rightNestedRun.2 rightNestedRun.1 none distinct apart
  refine ⟨distinct, apart, result, success, (scores ?_).1 nested⟩
  intro node member plain
  obtain ⟨visit, visited, rfl⟩ := exists_visit rightNestedRun.2 none member
  obtain ⟨above, -, -, contributes⟩ := exists_lineage_of_visit visited
  rw [recordedAt_eq distinct visited]
  rcases kinds visit.node member plain with kind | kind <;> simpa [Contributes, kind] using contributes

end Forest

end CodeMetrics
