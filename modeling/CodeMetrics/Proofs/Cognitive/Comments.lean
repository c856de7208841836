import CodeMetrics.Proofs.Cognitive.Lockstep
import CodeMetrics.Proofs.Tree.Correspondence

/-!
# Comments among the children

A walk passes over comments. But a comment is a named child, and where a slot is empty, and inside
parentheses, the scoring rules go by the positions of the named children. Comments put into a tree
leave its score alone if the operands still continue the same runs, the same calls are of names, and
the same operators are equal.
-/

namespace CodeMetrics

/-! ## Trees with more comments -/

/-- A comment leaf in no slot. -/
def Node.IsRemark (node : Vertex) : Prop := node.IsCommentLeaf ∧ node.field = none

theorem Node.IsRemark.kind_ne {node : Vertex} (isRemark : node.IsRemark) {kind : Kind}
    (plain : kind.isComment = false) : node.kind ≠ kind := by
  rintro rfl
  exact absurd isRemark.1.1 (by simp [plain])

/-- The second trees are the first ones with any number of comments put in among the children of
their nodes. The nodes keep all but their places. -/
inductive Commented : List Vertex → List Vertex → Prop where
  | nil : Commented [] []
  | keep {node other : Vertex} {nodes others : List Vertex}
      (same : other.attributes = { node.attributes with span := other.span })
      (below : Commented node.children other.children) (rest : Commented nodes others) :
      Commented (node :: nodes) (other :: others)
  | insert {comment : Vertex} {nodes others : List Vertex} (isRemark : comment.IsRemark)
      (rest : Commented nodes others) : Commented nodes (comment :: others)

namespace Node

/-- The calls in a tree, in pre-order. -/
def calls (start : Vertex) : List Vertex :=
  start.preorder.filter fun node => node.kind = .invocation

/-- What is called is a name. -/
def callsName (node : Vertex) : Bool := node.callee?.any fun callee => callee.kind = .identifier

theorem recursiveCallee?_eq_none {node : Vertex} (unnamed : node.callsName = false)
    (name : Option String) : node.recursiveCallee? name = none := by
  rw [callsName] at unnamed
  rw [recursiveCallee?]
  cases found : node.callee? with
  | none => rfl
  | some callee =>
      have different : callee.kind ≠ .identifier := by simpa [found] using unnamed
      simp [different]

/-- Which of the logical operators of a tree are structurally equal. -/
def operatorEqualities (start : Vertex) : List (List Bool) :=
  start.operators.map fun operator => start.operators.map fun other => operator.shape = other.shape

end Node

/-- The scoring rules overlook the comments that the second tree has in addition: the operators have
operands that continue their runs where they had, the calls are of names where they were, and the
operators are structurally equal where they were. -/
structure Overlooked (start other : Vertex) : Prop where
  left : start.operators.map (fun operator => operator.leftContinuation?.isSome) =
    other.operators.map fun operator => operator.leftContinuation?.isSome
  right : start.operators.map (fun operator => operator.rightContinuation?.isSome) =
    other.operators.map fun operator => operator.rightContinuation?.isSome
  calls : start.calls.map Node.callsName = other.calls.map Node.callsName
  equal : start.operatorEqualities = other.operatorEqualities

/-! ## Pairs of nodes -/

/-- The nodes are listed as a pair. -/
def Linked (pairs : List (Vertex × Vertex)) (node other : Vertex) : Prop := (node, other) ∈ pairs

/-- The nodes of the first trees, in pre-order, with what they are in the second. -/
structure Pairing (nodes others : List Vertex) (pairs : List (Vertex × Vertex)) : Prop where
  firsts : pairs.map Prod.fst = Node.preorderAll nodes
  seconds : Padded Eq (fun node : Vertex => node.kind.isComment) (pairs.map Prod.snd)
    (Node.preorderAll others)
  same : ∀ pair ∈ pairs, pair.2.attributes = { pair.1.attributes with span := pair.2.span }
  roots : Padded (Linked pairs) Node.IsRemark nodes others
  children : ∀ pair ∈ pairs,
    Padded (Linked pairs) Node.IsRemark pair.1.children pair.2.children
  origin : ∀ pair ∈ pairs, pair.1 ∈ nodes ∧ pair.2 ∈ others ∨
    ∃ holder ∈ pairs, pair.1 ∈ holder.1.children ∧ pair.2 ∈ holder.2.children

theorem Padded.mono_pairs {pairs morePairs : List (Vertex × Vertex)} {nodes others : List Vertex}
    (more : pairs ⊆ morePairs)
    (padded : Padded (Linked pairs) Node.IsRemark nodes others) :
    Padded (Linked morePairs) Node.IsRemark nodes others :=
  padded.imp (fun _ _ listed => more listed) fun _ => id

/-- Trees with more comments have their nodes paired. -/
theorem Commented.exists_pairing {nodes others : List Vertex} (commented : Commented nodes others) :
    ∃ pairs, Pairing nodes others pairs := by
  induction commented with
  | nil => exact ⟨[], rfl, .nil, by simp, .nil, by simp, by simp⟩
  | @keep node other nodes others same _ _ inner outer =>
      obtain ⟨inner, below⟩ := inner
      obtain ⟨outer, rest⟩ := outer
      have innerKept : inner ⊆ (node, other) :: (inner ++ outer) := by simp
      have outerKept : outer ⊆ (node, other) :: (inner ++ outer) := by simp
      refine ⟨(node, other) :: (inner ++ outer), ?_, ?_, ?_, ?_, ?_, ?_⟩
      · rw [List.map_cons, List.map_append, below.firsts, rest.firsts, Node.preorderAll,
          Node.preorder_eq, List.cons_append]
      · rw [List.map_cons, List.map_append, Node.preorderAll, Node.preorder_eq, List.cons_append]
        exact .both rfl (below.seconds.append rest.seconds)
      · rw [List.forall_mem_cons, List.forall_mem_append]
        exact ⟨same, below.same, rest.same⟩
      · exact .both List.mem_cons_self (rest.roots.mono_pairs outerKept)
      · rw [List.forall_mem_cons, List.forall_mem_append]
        exact ⟨below.roots.mono_pairs innerKept,
          fun pair listed => (below.children pair listed).mono_pairs innerKept,
          fun pair listed => (rest.children pair listed).mono_pairs outerKept⟩
      · rw [List.forall_mem_cons, List.forall_mem_append]
        refine ⟨.inl ⟨List.mem_cons_self, List.mem_cons_self⟩, ?_, ?_⟩
        · intro pair listed
          rcases below.origin pair listed with held | ⟨holder, known, held⟩
          · exact .inr ⟨(node, other), List.mem_cons_self, held⟩
          · exact .inr ⟨holder, innerKept known, held⟩
        · intro pair listed
          rcases rest.origin pair listed with ⟨isRoot, isOtherRoot⟩ | ⟨holder, known, held⟩
          · exact .inl ⟨List.mem_cons_of_mem _ isRoot, List.mem_cons_of_mem _ isOtherRoot⟩
          · exact .inr ⟨holder, outerKept known, held⟩
  | insert isRemark _ outer =>
      obtain ⟨outer, rest⟩ := outer
      refine ⟨outer, rest.firsts, ?_, rest.same, .extra isRemark rest.roots, rest.children, ?_⟩
      · rw [Node.preorderAll, Node.preorder_eq, isRemark.1.2]
        exact .extra isRemark.1.1 rest.seconds
      · intro pair listed
        exact (rest.origin pair listed).imp_left fun roots =>
          ⟨roots.1, List.mem_cons_of_mem _ roots.2⟩

theorem Kind.not_isLogical_of_isComment (kind : Kind) (isComment : kind.isComment) :
    decide kind.IsLogical = false := by
  rw [decide_eq_false_iff_not]
  rintro (rfl | rfl)
  · cases isComment
  · cases isComment

namespace Pairing

variable {start twin : Vertex} {pairs : List (Vertex × Vertex)} {node other : Vertex}

theorem kind (pairing : Pairing [start] [twin] pairs) (paired : Linked pairs node other) :
    node.kind = other.kind := by
  rw [Node.kind, Node.kind, pairing.same _ paired]

theorem text (pairing : Pairing [start] [twin] pairs) (paired : Linked pairs node other) :
    node.text = other.text := by
  rw [Node.text, Node.text, pairing.same _ paired]

theorem field (pairing : Pairing [start] [twin] pairs) (paired : Linked pairs node other) :
    node.field = other.field := by
  rw [Node.field, Node.field, pairing.same _ paired]

theorem mem_preorder (pairing : Pairing [start] [twin] pairs) (paired : Linked pairs node other) :
    node ∈ start.preorder ∧ other ∈ twin.preorder := by
  have listed : node ∈ pairs.map Prod.fst := List.mem_map_of_mem paired
  have otherListed : other ∈ pairs.map Prod.snd := List.mem_map_of_mem paired
  obtain ⟨_, inside, rfl⟩ := pairing.seconds.exists_of_mem otherListed
  rw [pairing.firsts] at listed
  simpa [Node.preorderAll] using And.intro listed inside

/-- The nodes of a sort other than comments are those of pairs. -/
theorem filter_preorder (pairing : Pairing [start] [twin] pairs) (keep : Kind → Bool)
    (drop : ∀ kind : Kind, kind.isComment → keep kind = false) :
    start.preorder.filter (fun node => keep node.kind) =
        (pairs.filter fun pair => keep pair.1.kind).map Prod.fst ∧
      twin.preorder.filter (fun node => keep node.kind) =
        (pairs.filter fun pair => keep pair.1.kind).map Prod.snd := by
  have single : ∀ node : Vertex, Node.preorderAll [node] = node.preorder := by
    intro node
    rw [Node.preorderAll, Node.preorderAll, List.append_nil]
  constructor
  · rw [← single, ← pairing.firsts, List.filter_map]
    rfl
  · have same : List.Forall₂ Eq
        ((pairs.map Prod.snd).filter fun node => keep node.kind)
        ((Node.preorderAll [twin]).filter fun node => keep node.kind) :=
      pairing.seconds.forall₂_filter (fun _ _ same => same ▸ rfl) fun node => drop node.kind
    rw [List.forall₂_eq_eq_eq] at same
    rw [← single, ← same, List.filter_map]
    congr 1
    refine List.filter_congr ?_
    intro pair listed
    exact congrArg keep (pairing.kind listed).symm

/-- A view of the nodes of a sort is the same in both trees if and only if it is for each pair. -/
theorem map_view_eq_iff (pairing : Pairing [start] [twin] pairs) (keep : Kind → Bool)
    (drop : ∀ kind : Kind, kind.isComment → keep kind = false) {γ : Type} (view : Vertex → γ) :
    (start.preorder.filter fun node => keep node.kind).map view =
        (twin.preorder.filter fun node => keep node.kind).map view ↔
      ∀ node other, Linked pairs node other → keep node.kind → view node = view other := by
  obtain ⟨first, second⟩ := pairing.filter_preorder keep drop
  rw [first, second, List.map_map, List.map_map, List.map_inj_left]
  constructor
  · intro same node other paired kept
    exact same (node, other) (List.mem_filter.mpr ⟨paired, kept⟩)
  · intro same pair listed
    obtain ⟨paired, kept⟩ := List.mem_filter.mp listed
    exact same pair.1 pair.2 paired kept

theorem map_operators_eq_iff (pairing : Pairing [start] [twin] pairs) {γ : Type}
    (view : Vertex → γ) :
    start.operators.map view = twin.operators.map view ↔
      ∀ node other, Linked pairs node other → node.kind.IsLogical → view node = view other := by
  have each :=
    pairing.map_view_eq_iff (fun kind => kind.IsLogical) Kind.not_isLogical_of_isComment view
  simpa [Node.operators] using each

theorem map_calls_eq_iff (pairing : Pairing [start] [twin] pairs) {γ : Type} (view : Vertex → γ) :
    start.calls.map view = twin.calls.map view ↔
      ∀ node other, Linked pairs node other → node.kind = .invocation → view node = view other := by
  have drop : ∀ kind : Kind, kind.isComment → decide (kind = .invocation) = false := by
    intro kind isComment
    rw [decide_eq_false_iff_not]
    rintro rfl
    cases isComment
  simpa [Node.calls] using pairing.map_view_eq_iff (fun kind => kind = .invocation) drop view

/-! ## What the rules find -/

theorem padded_namedChildren (pairing : Pairing [start] [twin] pairs)
    (paired : Linked pairs node other) :
    Padded (Linked pairs) Node.IsRemark node.namedChildren other.namedChildren := by
  refine (pairing.children _ paired).filter ?_
  intro child otherChild paired
  rw [Node.isToken, Node.isToken, pairing.kind paired]

/-- A slot holds the same in both trees, since no comment is in a slot. -/
theorem rel_childByField? (pairing : Pairing [start] [twin] pairs)
    (paired : Linked pairs node other) (name : String) :
    Option.Rel (Linked pairs) (node.childByField? name) (other.childByField? name) := by
  rw [Node.childByField?, Node.childByField?, ← List.head?_filter, ← List.head?_filter]
  refine rel_head? ((pairing.children _ paired).forall₂_filter ?_ ?_)
  · intro child otherChild paired
    rw [pairing.field paired]
  · intro comment isRemark
    rw [isRemark.2]
    rfl

theorem rel_nameNode? (pairing : Pairing [start] [twin] pairs) (paired : Linked pairs node other) :
    Option.Rel (Linked pairs) node.nameNode? other.nameNode? := by
  refine rel_or (pairing.rel_childByField? paired "name") (rel_getLast? ?_)
  refine (pairing.children _ paired).forall₂_filter ?_ ?_
  · intro child otherChild paired
    rw [pairing.kind paired]
  · intro comment isRemark
    simpa using isRemark.kind_ne rfl

/-- A slot, or else what is found by position. -/
theorem found_or {first third second fourth : Option Vertex}
    (slot : Option.Rel (Linked pairs) first second)
    (found : Found (Linked pairs) Node.IsRemark third fourth) :
    Found (Linked pairs) Node.IsRemark (first.or third) (second.or fourth) := by
  cases slot with
  | none => simpa using found
  | some head => exact .inl (.some head)

theorem found_callee? (pairing : Pairing [start] [twin] pairs) (paired : Linked pairs node other) :
    Found (Linked pairs) Node.IsRemark node.callee? other.callee? :=
  found_or (pairing.rel_childByField? paired "function")
    (pairing.padded_namedChildren paired).found_head?

/-- A right operand is found alike, unless there was none. -/
theorem found_rightOperand (pairing : Pairing [start] [twin] pairs)
    (paired : Linked pairs node other) :
    node.operands.2 = none ∨
      Found (Linked pairs) Node.IsRemark node.operands.2 other.operands.2 := by
  have named := pairing.padded_namedChildren paired
  have slot := pairing.rel_childByField? paired "right"
  rw [Node.operands, Node.operands]
  dsimp only
  by_cases several : 1 < node.namedChildren.length
  · rw [if_pos several, if_pos (Nat.lt_of_lt_of_le several named.length_le)]
    exact .inr (found_or slot named.found_getLast?)
  · rw [if_neg several]
    generalize node.childByField? "right" = inSlot, other.childByField? "right" = inOtherSlot
      at slot
    cases slot with
    | none => exact .inl rfl
    | some paired => exact .inr (.inl (.some paired))

theorem stripParentheses_remark {node : Vertex} (isRemark : node.IsRemark) :
    node.stripParentheses = node := by
  rw [Node.stripParentheses_eq, if_neg (isRemark.kind_ne rfl)]

/-- The right operands that continue the runs are paired, if both or neither do. -/
theorem rel_rightContinuation? (pairing : Pairing [start] [twin] pairs)
    (paired : Linked pairs node other) (logical : node.kind.IsLogical)
    (same : node.rightContinuation?.isSome = other.rightContinuation?.isSome) :
    Option.Rel (Linked pairs) node.rightContinuation? other.rightContinuation? := by
  have both : node.rightContinuation? = none ∨ other.rightContinuation? = none →
      Option.Rel (Linked pairs) node.rightContinuation? other.rightContinuation? := by
    intro stops
    have stop : node.rightContinuation? = none ∧ other.rightContinuation? = none := by
      rw [← Option.isNone_iff_eq_none, ← Option.isNone_iff_eq_none, ← Option.not_isSome,
        ← Option.not_isSome, same] at stops ⊢
      simpa using stops
    rw [stop.1, stop.2]
    exact .none
  rcases pairing.found_rightOperand paired with nothing | found
  · refine both (.inl ?_)
    rw [Node.rightContinuation?, nothing]
    rfl
  · have strip : ∀ {node other : Vertex}, Linked pairs node other →
        Linked pairs node.stripParentheses other.stripParentheses ∨
          other.stripParentheses.IsRemark :=
      stripParentheses_linked (pairing.kind ·) (fun _ isRemark => isRemark.kind_ne rfl)
        fun paired _ => (pairing.padded_namedChildren paired).found_head?
    have stripped := found.map_stripParentheses strip fun node isRemark =>
      (stripParentheses_remark isRemark).symm ▸ isRemark
    rcases stripped with stripped | ⟨comment, isOperand, isRemark⟩
    · exact rel_continuation? (pairing.kind ·) (pairing.kind paired) stripped
    · refine both (.inr ?_)
      have different : comment.kind ≠ other.kind := by
        rw [← pairing.kind paired]
        rcases logical with kind | kind
        · exact kind ▸ isRemark.kind_ne rfl
        · exact kind ▸ isRemark.kind_ne rfl
      rw [Node.rightContinuation?, Node.continuation?, Option.mem_def.mp isOperand,
        Option.filter_some, if_neg (by simpa using different)]

theorem map_recursiveCallee? (pairing : Pairing [start] [twin] pairs)
    (paired : Linked pairs node other) (same : node.callsName = other.callsName)
    (name : Option String) :
    (node.recursiveCallee? name).map (fun _ => ()) =
      (other.recursiveCallee? name).map fun _ => () := by
  rcases pairing.found_callee? paired with found | ⟨comment, isCallee, isRemark⟩
  · exact map_recursiveCallee?_eq (fun _ => ()) (pairing.kind ·) (pairing.text ·) (fun _ => rfl)
      found name
  · have unnamed : other.callsName = false := by
      rw [Node.callsName, Option.mem_def.mp isCallee]
      simpa using isRemark.kind_ne rfl
    rw [Node.recursiveCallee?_eq_none (same.trans unnamed), Node.recursiveCallee?_eq_none unnamed]

/-- Operators are equal in the one tree where they are in the other. -/
theorem shape_eq_iff (pairing : Pairing [start] [twin] pairs)
    (same : start.operatorEqualities = twin.operatorEqualities) {third fourth : Vertex}
    (paired : Linked pairs node other) (pairedThird : Linked pairs third fourth)
    (logical : node.kind.IsLogical) (thirdLogical : third.kind.IsLogical) :
    node.shape = third.shape ↔ other.shape = fourth.shape := by
  obtain ⟨first, second⟩ :=
    pairing.filter_preorder (fun kind => kind.IsLogical) Kind.not_isLogical_of_isComment
  rw [Node.operatorEqualities, Node.operatorEqualities, Node.operators, Node.operators, first,
    second, List.map_map, List.map_map, List.map_inj_left] at same
  have row := same (node, other) (List.mem_filter.mpr ⟨paired, by simpa using logical⟩)
  simp only [Function.comp_apply, List.map_map, List.map_inj_left] at row
  have entry := row (third, fourth) (List.mem_filter.mpr ⟨pairedThird, by simpa using thirdLogical⟩)
  simpa using entry

theorem isAlternative_iff {first second : Forest} {root otherRoot : Vertex}
    (pairing : Pairing [start] [twin] pairs) (tree : first.IsTree root)
    (otherTree : second.IsTree otherRoot) (inTree : start ∈ root.preorder)
    (otherInTree : twin ∈ otherRoot.preorder)
    (alternative : first.IsAlternative start ↔ second.IsAlternative twin)
    (paired : Linked pairs node other) : first.IsAlternative node ↔ second.IsAlternative other := by
  rcases pairing.origin _ paired with
    ⟨isRoot, isOtherRoot⟩ | ⟨⟨holder, otherHolder⟩, known, held, otherHeld⟩
  · obtain rfl : node = start := List.mem_singleton.mp isRoot
    obtain rfl : other = twin := List.mem_singleton.mp isOtherRoot
    exact alternative
  · obtain ⟨inside, otherInside⟩ := pairing.mem_preorder known
    have parent := tree.parent?_eq (Node.mem_preorder_trans inside root inTree) held
    have otherParent :=
      otherTree.parent?_eq (Node.mem_preorder_trans otherInside otherRoot otherInTree) otherHeld
    rw [Forest.IsAlternative, Forest.IsAlternative, parent, otherParent, Option.map_some,
      Option.map_some, pairing.kind known]

/-- The walks through paired nodes are in lockstep, if the comments are overlooked. -/
theorem lockstep {first second : Forest} {root otherRoot : Vertex}
    (pairing : Pairing [start] [twin] pairs) (tree : first.IsTree root)
    (otherTree : second.IsTree otherRoot) (inTree : start ∈ root.preorder)
    (otherInTree : twin ∈ otherRoot.preorder)
    (alternative : first.IsAlternative start ↔ second.IsAlternative twin)
    (overlooked : Overlooked start twin) :
    Lockstep first second (fun _ => ()) (Linked pairs) where
  kind := pairing.kind
  keyword := fun _ _ => rfl
  operator := fun _ _ => rfl
  name := fun {node other} paired _ => by
    have found := pairing.rel_nameNode? paired
    rw [Node.declarationName?, Node.declarationName?]
    generalize node.nameNode? = named, other.nameNode? = otherNamed at found
    cases found with
    | none => rfl
    | some paired => exact pairing.text paired
  alternative := fun paired _ =>
    pairing.isAlternative_iff tree otherTree inTree otherInTree alternative paired
  children := fun paired => (pairing.children _ paired).imp (fun _ _ => id) fun _ => And.left
  callee := fun paired call =>
    pairing.map_recursiveCallee? paired
      ((pairing.map_calls_eq_iff _).mp overlooked.calls _ _ paired call)
  left := (pairing.map_operators_eq_iff _).mp overlooked.left _ _
  right := fun paired logical =>
    pairing.rel_rightContinuation? paired logical
      ((pairing.map_operators_eq_iff _).mp overlooked.right _ _ paired logical)
  equal := fun paired pairedThird logical thirdLogical =>
    pairing.shape_eq_iff overlooked.equal paired pairedThird logical thirdLogical

end Pairing

/-- Where the operators have both operands in their slots and the calls what they call, comments are
overlooked unless one comes first in parentheses. -/
theorem Commented.overlooked {start twin : Vertex} (commented : Commented [start] [twin])
    (left : ∀ operator ∈ start.operators, (operator.childByField? "left").isSome)
    (right : ∀ operator ∈ start.operators, (operator.childByField? "right").isSome)
    (called : ∀ call ∈ start.calls, (call.childByField? "function").isSome)
    (enclosed : ∀ node ∈ twin.preorder, node.kind = .parenthesizedExpression →
      ∀ inner ∈ node.namedChildren.head?, inner.kind.isComment = false)
    (equal : start.operatorEqualities = twin.operatorEqualities) : Overlooked start twin := by
  obtain ⟨pairs, pairing⟩ := commented.exists_pairing
  have heads : ∀ {node other : Vertex}, Linked pairs node other →
      node.kind = .parenthesizedExpression →
      Option.Rel (Linked pairs) node.namedChildren.head?
        other.namedChildren.head? := by
    intro node other paired parenthesized
    refine (pairing.padded_namedChildren paired).found_head?.resolve_right ?_
    rintro ⟨inner, isFirst, isRemark⟩
    have inside := (pairing.mem_preorder paired).2
    have noComment := enclosed other inside (pairing.kind paired ▸ parenthesized) inner isFirst
    exact absurd isRemark.1.1 (by simp [noComment])
  -- a slot that is filled decides the lookup
  have continued : ∀ {node other : Vertex} {name : String} (rest otherRest : Option Vertex),
      Linked pairs node other → (node.childByField? name).isSome →
        (node.continuation? ((node.childByField? name).or rest)).isSome =
          (other.continuation? ((other.childByField? name).or otherRest)).isSome := by
    intro node other name rest otherRest paired filled
    have slot := pairing.rel_childByField? paired name
    refine isSome_eq_of_rel (rel_continuation?_of_heads (pairing.kind ·) heads paired ?_)
    generalize node.childByField? name = inSlot, other.childByField? name = inOtherSlot
      at slot filled
    cases slot with
    | none => cases filled
    | some paired => exact .some paired
  have isOperator : ∀ {node other : Vertex}, Linked pairs node other → node.kind.IsLogical →
      node ∈ start.operators := fun paired logical =>
    Node.mem_operators.mpr ⟨(pairing.mem_preorder paired).1, logical⟩
  refine ⟨?_, ?_, ?_, equal⟩
  · rw [pairing.map_operators_eq_iff]
    intro node other paired logical
    exact continued _ _ paired (left node (isOperator paired logical))
  · rw [pairing.map_operators_eq_iff]
    intro node other paired logical
    exact continued _ _ paired (right node (isOperator paired logical))
  · rw [pairing.map_calls_eq_iff]
    intro node other paired call
    have slot := pairing.rel_childByField? paired "function"
    have filled := called node (by simpa [Node.calls, call] using (pairing.mem_preorder paired).1)
    rw [Node.callsName, Node.callsName, Node.callee?, Node.callee?]
    generalize node.childByField? "function" = inSlot, other.childByField? "function" = inOtherSlot
      at slot filled
    cases slot with
    | none => cases filled
    | some paired => simp [pairing.kind paired]

/-- Comments that the scoring rules overlook leave the score alone. -/
theorem cognitiveScore_of_overlooked {first second : Forest} {root otherRoot start other : Vertex}
    (tree : first.IsTree root) (otherTree : second.IsTree otherRoot)
    (inTree : start ∈ root.preorder)
    (otherInTree : other ∈ otherRoot.preorder)
    (alternative : first.IsAlternative start ↔ second.IsAlternative other)
    (commented : Commented [start] [other]) (overlooked : Overlooked start other)
    (functionName : Option String) :
    ∃ result otherResult,
      cognitiveScore first start functionName = .ok result ∧
      cognitiveScore second other functionName = .ok otherResult ∧
      result.score = otherResult.score ∧
      result.increments.map (fun increment => (increment.magnitude, increment.message)) =
        otherResult.increments.map fun increment => (increment.magnitude, increment.message) := by
  obtain ⟨pairs, pairing⟩ := commented.exists_pairing
  have lockstep := pairing.lockstep tree otherTree inTree otherInTree alternative overlooked
  have isRoot : (start, other) ∈ pairs := by
    cases pairing.roots with
    | both paired _ => exact paired
    | extra _ rest => cases rest
  obtain ⟨result, otherResult, scored, otherScored, score, seen⟩ :=
    lockstep.exists_scores isRoot functionName
  refine ⟨result, otherResult, scored, otherScored, score, ?_⟩
  have shown := congrArg (List.map Prod.snd) seen
  rwa [List.map_map, List.map_map] at shown

/-- An operator with one of the same kind on its right, in parentheses with comments around it. -/
def commentedRun (before after : List Shape) : Vertex × Forest :=
  Forest.empty.plant (.sketch .logicalAnd none
    [.sketch .identifier (some "left") [],
      .sketch .parenthesizedExpression (some "right")
        (before ++
          .sketch .logicalAnd none
            [.sketch .identifier (some "left") [], .sketch .identifier (some "right") []] ::
          after)])

theorem cognitiveScore_of_overlooked_trailingComment :
    let plain := commentedRun [] []
    let commented := commentedRun [] [.sketch .multiLineComment none []]
    Commented [plain.1] [commented.1] ∧ Overlooked plain.1 commented.1 ∧
      ∃ result otherResult,
        cognitiveScore plain.2 plain.1 none = .ok result ∧
        cognitiveScore commented.2 commented.1 none = .ok otherResult ∧
        result.score = otherResult.score ∧
        result.increments.map (fun increment => (increment.magnitude, increment.message)) =
          otherResult.increments.map fun increment => (increment.magnitude, increment.message) := by
  intro plain commented
  have isCommented : Commented [plain.1] [commented.1] :=
    .keep rfl (.keep rfl .nil (.keep rfl
      (.keep rfl (.keep rfl .nil (.keep rfl .nil .nil)) (.insert ⟨⟨rfl, rfl⟩, rfl⟩ .nil)) .nil)) .nil
  have overlooked : Overlooked plain.1 commented.1 :=
    isCommented.overlooked (by decide) (by decide) (by decide) (by decide) (by decide)
  have alternative : plain.2.IsAlternative plain.1 ↔ commented.2.IsAlternative commented.1 := by
    decide
  exact ⟨isCommented, overlooked,
    cognitiveScore_of_overlooked (Forest.isTree_plant _) (Forest.isTree_plant _)
      (Node.self_mem_preorder _) (Node.self_mem_preorder _) alternative isCommented overlooked none⟩

-- a comment in front hides the operator in the parentheses, which is then charged on its own
example :
    let score := fun tree : Vertex × Forest =>
      (cognitiveScore tree.2 tree.1 none).toOption.map (·.score)
    score (commentedRun [] []) = some 1 ∧
      score (commentedRun [.sketch .multiLineComment none []] []) = some 2 := by
  decide +kernel

end CodeMetrics
