import CodeMetrics.Metrics.Snapshot
import CodeMetrics.Proofs.Cognitive.Lockstep
import CodeMetrics.Proofs.Metrics.Completion
import CodeMetrics.Proofs.Metrics.Exposure
import CodeMetrics.Proofs.Tree.Correspondence
import CodeMetrics.Proofs.Tree.StructuralEquality

/-!
# Analyses of trees that correspond

The analyses look at kinds, spans, texts and slots, and compare operators and member declarations
for equality. Where two trees correspond place by place in all of these, the metrics and the reports
on their declarations are the same. Trees that are structurally equal correspond in this way.
-/

namespace CodeMetrics

/-- Two trees in which paired nodes are alike, and two operators or two member declarations of the
one are equal when the nodes paired with them are. -/
structure Interchangeable (first second : Forest) (left right : Vertex) : Prop
    extends Alike first second left right where
  equal : ∀ {node other third fourth}, Paired left right node other →
    Paired left right third fourth → node.kind.IsLogical ∨ node.kind.isMember →
      node.kind = third.kind → (node.shape = third.shape ↔ other.shape = fourth.shape)

/-! ## What the scoring rules find -/

theorem Kind.isUnslotted_of_isLogical {kind : Kind} (logical : kind.IsLogical) :
    kind.isUnslotted = false := by
  rcases logical with rfl | rfl <;> rfl

namespace Alike

variable {first second : Forest} {left right node other : Vertex}

theorem paired_keyword (alike : Alike first second left right)
    (paired : Paired left right node other) (text : String) :
    Paired left right (node.keyword text) (other.keyword text) := by
  have tokens := alike.rel_findToken? paired text
  rw [Node.keyword, Node.keyword]
  generalize node.findToken? text = token, other.findToken? text = otherToken at tokens
  cases tokens with
  | none => exact alike.paired_firstToken paired
  | some pairedToken => exact pairedToken

theorem rel_nameNode? (alike : Alike first second left right)
    (paired : Paired left right node other) (slotted : node.kind.isUnslotted = false) :
    Option.Rel (Paired left right) node.nameNode? other.nameNode? := by
  apply rel_or (alike.rel_childByField? paired slotted "name")
  exact rel_getLast? (alike.forall₂_childrenOfKind paired [.identifier])

theorem declarationName?_eq (alike : Alike first second left right)
    (paired : Paired left right node other) (slotted : node.kind.isUnslotted = false) :
    node.declarationName? = other.declarationName? := by
  have names := alike.rel_nameNode? paired slotted
  rw [Node.declarationName?, Node.declarationName?]
  generalize node.nameNode? = name, other.nameNode? = otherName at names
  cases names with
  | none => rfl
  | some pairedName => exact alike.text pairedName

theorem rel_operands (alike : Alike first second left right)
    (paired : Paired left right node other) (slotted : node.kind.isUnslotted = false) :
    Option.Rel (Paired left right) node.operands.1 other.operands.1 ∧
      Option.Rel (Paired left right) node.operands.2 other.operands.2 := by
  have named := alike.forall₂_namedChildren paired
  constructor
  · exact rel_or (alike.rel_childByField? paired slotted "left") (rel_head? named)
  · apply rel_or (alike.rel_childByField? paired slotted "right")
    rw [named.length_eq]
    split
    · exact rel_getLast? named
    · exact .none

theorem rel_callee? (alike : Alike first second left right)
    (paired : Paired left right node other) (slotted : node.kind.isUnslotted = false) :
    Option.Rel (Paired left right) node.callee? other.callee? := by
  apply rel_or (alike.rel_childByField? paired slotted "function")
  exact rel_head? (alike.forall₂_namedChildren paired)

theorem paired_operatorToken (alike : Alike first second left right)
    (paired : Paired left right node other) (slotted : node.kind.isUnslotted = false) :
    Paired left right node.operatorToken other.operatorToken := by
  have operators := alike.rel_childByField? paired slotted "operator"
  rw [Node.operatorToken, Node.operatorToken, alike.kind paired]
  generalize node.childByField? "operator" = operator,
    other.childByField? "operator" = otherOperator at operators
  cases operators with
  | none => exact alike.paired_keyword paired _
  | some pairedOperator => exact pairedOperator

theorem isAlternative_iff (alike : Alike first second left right)
    (paired : Paired left right node other) :
    first.IsAlternative node ↔ second.IsAlternative other := by
  have parents := alike.rel_parent? paired
  rw [Forest.IsAlternative, Forest.IsAlternative]
  generalize first.parent? node = parent, second.parent? other = otherParent at parents
  cases parents with
  | none => rfl
  | some above => rw [Option.map_some, Option.map_some, alike.kind above]

end Alike

namespace Interchangeable

variable {first second : Forest} {left right node other : Vertex}

theorem shape_eq_iff (same : Interchangeable first second left right) {third fourth : Vertex}
    (paired : Paired left right node other) (pairedThird : Paired left right third fourth)
    (compared : node.kind.IsLogical ∨ node.kind.isMember) :
    node.shape = third.shape ↔ other.shape = fourth.shape := by
  by_cases kinds : node.kind = third.kind
  · exact same.equal paired pairedThird compared kinds
  · have otherKinds : other.kind ≠ fourth.kind := by
      rwa [← same.kind paired, ← same.kind pairedThird]
    have apart : ∀ {node third : Vertex}, node.kind ≠ third.kind → node.shape ≠ third.shape := by
      intro node third different shapes
      have attributes := congrArg Node.attributes shapes
      rw [Node.attributes_shape, Node.attributes_shape] at attributes
      exact different (congrArg Attributes.kind attributes)
    exact iff_of_false (apart kinds) (apart otherKinds)

/-- Operands of paired nodes continue runs alike. -/
theorem rel_continuation? (same : Interchangeable first second left right)
    (paired : Paired left right node other) {operand otherOperand : Option Vertex}
    (found : Option.Rel (Paired left right) operand otherOperand) :
    Option.Rel (Paired left right) (node.continuation? operand)
      (other.continuation? otherOperand) :=
  rel_continuation?_of_heads same.kind
    (fun paired _ => rel_head? (same.forall₂_namedChildren paired)) paired found

/-- Paired nodes are alike to the scoring rules. -/
theorem lockstep (same : Interchangeable first second left right) :
    Lockstep first second id (Paired left right) where
  kind := same.kind
  keyword := fun paired text => same.span (same.paired_keyword paired text)
  operator := fun paired logical =>
    same.span (same.paired_operatorToken paired (Kind.isUnslotted_of_isLogical logical))
  name := fun paired method => same.declarationName?_eq paired (by rw [method]; rfl)
  alternative := fun paired _ => same.isAlternative_iff paired
  children := fun paired => .of_forall₂ (same.forall₂_children paired)
  callee := fun paired call =>
    map_recursiveCallee?_eq id same.kind same.text same.span
      (same.rel_callee? paired (by rw [call]; rfl))
  left := fun paired logical =>
    isSome_eq_of_rel (same.rel_continuation? paired
      (same.rel_operands paired (Kind.isUnslotted_of_isLogical logical)).1)
  right := fun paired logical =>
    same.rel_continuation? paired
      (same.rel_operands paired (Kind.isUnslotted_of_isLogical logical)).2
  equal := fun paired pairedThird logical _ => same.shape_eq_iff paired pairedThird (.inl logical)

/-- Paired nodes have the same score. -/
theorem cognitiveScore_eq (same : Interchangeable first second left right)
    (paired : Paired left right node other) (functionName : Option String) :
    cognitiveScore first node functionName = cognitiveScore second other functionName := by
  obtain ⟨result, otherResult, scored, otherScored, score, seen⟩ :=
    same.lockstep.exists_scores paired functionName
  have increments : result.increments = otherResult.increments := by
    refine List.map_injective_iff.mpr ?_ seen
    rintro ⟨location, magnitude, message⟩ ⟨_, _, _⟩ ⟨⟩
    rfl
  have results : result = otherResult := by
    cases result
    cases otherResult
    cases score
    cases increments
    rfl
  rw [scored, otherScored, results]

end Interchangeable

/-! ## Metrics -/

namespace Alike

variable {first second : Forest} {left right node other : Vertex} {nodes others : List Vertex}

theorem concur_flatComplexity (alike : Alike first second left right)
    (pairs : List.Forall₂ (Paired left right) nodes others) :
    Concur Eq (first.flatComplexity nodes) (second.flatComplexity others) := by
  induction pairs with
  | nil => exact .ok rfl
  | cons head _ induction =>
      apply (alike.concur_isReturnButNotLast head).bind
      rintro early _ rfl
      apply induction.bind
      rintro rest _ rfl
      rw [alike.kind head]
      exact .ok rfl

theorem addLeaf_eq (alike : Alike first second left right) (paired : Paired left right node other)
    (tally : Tally) (ignoreHeader : Bool) :
    tally.addLeaf ignoreHeader node = tally.addLeaf ignoreHeader other := by
  have lines : ∀ sort, commentLines sort node = commentLines sort other := by
    intro sort
    rw [commentLines, commentLines, alike.text paired, alike.span paired]
  rw [Tally.addLeaf, Tally.addLeaf, alike.kind paired, alike.text paired, alike.span paired, lines,
    lines]

theorem concur_add (alike : Alike first second left right) (paired : Paired left right node other)
    (tally : Tally) (ignoreHeader : Bool) :
    Concur Eq (tally.add first ignoreHeader node) (tally.add second ignoreHeader other) := by
  simp only [Tally.add, Forest.functionComplexity, alike.isLeaf_eq paired,
    alike.addLeaf_eq paired, alike.kind paired, alike.isFunctionLike_eq paired]
  by_cases isFunction : second.isFunctionLike other
  · simp only [if_pos isFunction]
    apply (alike.concur_flatComplexity (alike.forall₂_descendants paired)).bind
    rintro complexity _ rfl
    exact .ok rfl
  · simp only [if_neg isFunction]
    exact .ok rfl

theorem concur_addAll (alike : Alike first second left right)
    (pairs : List.Forall₂ (Paired left right) nodes others) (tally : Tally) (ignoreHeader : Bool) :
    Concur Eq (tally.addAll first ignoreHeader nodes)
      (tally.addAll second ignoreHeader others) := by
  induction pairs generalizing tally with
  | nil => exact .ok rfl
  | cons head _ induction =>
      apply (alike.concur_add head tally ignoreHeader).bind
      rintro counted _ rfl
      exact induction counted

theorem concur_countUndocumented (alike : Alike first second left right)
    (pairs : List.Forall₂ (Paired left right) nodes others) :
    Concur Eq (first.countUndocumented nodes) (second.countUndocumented others) := by
  induction pairs with
  | nil => exact .ok rfl
  | @cons node other _ _ head _ induction =>
      have documented : Concur Eq (first.isDocumented node) (second.isDocumented other) := by
        apply (alike.concur_previousSibling head).bind
        intro sibling otherSibling siblings
        cases siblings with
        | none => exact .ok rfl
        | some pairedSibling => exact .ok (by rw [alike.kind pairedSibling])
      apply documented.bind
      rintro documented _ rfl
      apply induction.bind
      rintro rest _ rfl
      exact .ok rfl

/-- The members of paired nodes are paired. -/
theorem forall₂_memberDeclarations (alike : Alike first second left right)
    (paired : Paired left right node other) :
    List.Forall₂ (Paired left right) node.memberDeclarations other.memberDeclarations := by
  refine List.rel_flatMap (alike.forall₂_children paired) ?_
  intro child twin pairedChild
  rw [Node.ownMembers, Node.ownMembers, alike.kind pairedChild]
  split
  · exact .cons pairedChild .nil
  · split
    · refine forall₂_filter (alike.forall₂_children pairedChild) ?_
      intro member otherMember pairedMember
      rw [alike.kind pairedMember]
    · exact .nil

end Alike

namespace Interchangeable

variable {first second : Forest} {left right node other : Vertex}

/-- Paired member declarations. -/
def Members (left right node other : Vertex) : Prop :=
  Paired left right node other ∧ node.kind.isMember = true

theorem forall₂_members (same : Interchangeable first second left right)
    (paired : Paired left right node other) :
    List.Forall₂ (Members left right) node.memberDeclarations other.memberDeclarations := by
  have members := same.forall₂_memberDeclarations paired
  have isMember : ∀ member ∈ node.memberDeclarations, member.kind.isMember = true :=
    fun member listed => (Node.mem_memberDeclarations.mp listed).1
  exact ((List.forall₂_and_left _ _).mpr ⟨isMember, members⟩).imp fun _ _ both => ⟨both.2, both.1⟩

theorem forall₂_addDistinct (same : Interchangeable first second left right)
    {found otherFound : List Vertex} (pairs : List.Forall₂ (Members left right) found otherFound)
    (member : Members left right node other) :
    List.Forall₂ (Members left right) (addDistinct found node) (addDistinct otherFound other) := by
  have present : (found.any fun earlier => earlier.shape = node.shape) =
      otherFound.any fun earlier => earlier.shape = other.shape := by
    induction pairs with
    | nil => rfl
    | @cons earlier otherEarlier _ _ head _ induction =>
        have shapes := same.shape_eq_iff head.1 member.1 (.inr head.2)
        rw [List.any_cons, List.any_cons, induction, decide_eq_decide.mpr shapes]
  rw [addDistinct, addDistinct, present]
  split
  · exact pairs
  · exact List.rel_append pairs (.cons member .nil)

theorem forall₂_collectPublic (same : Interchangeable first second left right)
    {stack otherStack found otherFound : List Vertex}
    (pending : List.Forall₂ (Members left right) stack otherStack)
    (pairs : List.Forall₂ (Members left right) found otherFound) :
    List.Forall₂ (Members left right) (collectPublic stack found)
      (collectPublic otherStack otherFound) := by
  have isPublic : ∀ {node other}, Paired left right node other →
      node.isPublic = other.isPublic := by
    intro node other paired
    rw [Node.isPublic, Node.isPublic, Node.hasModifier, Node.hasModifier, same.modifiers_eq paired]
  have taken : ∀ {member twin : Vertex} {found otherFound : List Vertex},
      Members left right member twin → List.Forall₂ (Members left right) found otherFound →
        List.Forall₂ (Members left right)
          (if member.isPublic then addDistinct found member else found)
          (if twin.isPublic then addDistinct otherFound twin else otherFound) := by
    intro member twin found otherFound head pairs
    rw [isPublic head.1]
    split
    · exact same.forall₂_addDistinct pairs head
    · exact pairs
  fun_induction collectPublic stack found generalizing otherStack otherFound with
  | case1 found =>
      cases pending with
      | nil => simpa only [collectPublic] using pairs
  | case2 member stack found newFound isOpen =>
      rename_i induction
      cases pending with
      | @cons _ twin _ otherStack head rest =>
          have otherOpen : twin.isPublic || twin.kind.isNamespace := by
            rwa [← isPublic head.1, ← same.kind head.1]
          rw [collectPublic, if_pos otherOpen]
          apply induction
          · exact List.rel_append (List.rel_reverse (same.forall₂_members head.1)) rest
          · exact taken head pairs
  | case3 member stack found newFound isClosed =>
      rename_i induction
      cases pending with
      | @cons _ twin _ otherStack head rest =>
          have otherClosed : ¬ (twin.isPublic || twin.kind.isNamespace) := by
            rwa [← isPublic head.1, ← same.kind head.1]
          rw [collectPublic, if_neg otherClosed]
          exact induction rest (taken head pairs)

end Interchangeable

/-- The two snapshots are equal, up to linked nodes in their public surfaces. -/
def Snapshot.Agrees (link : Vertex → Vertex → Prop) (snapshot other : Snapshot) : Prop :=
  { snapshot with publicApi := [] } = { other with publicApi := [] } ∧
    List.Forall₂ link snapshot.publicApi other.publicApi

/-- The two documents have the same source text, language and path. -/
structure Document.SameOrigin (first second : Document) : Prop where
  language : first.language = second.language
  source : first.source = second.source
  filePath : first.filePath = second.filePath

namespace Interchangeable

theorem concur_snapshot {first second : Document}
    (same : Interchangeable first.forest second.forest first.root second.root)
    (origin : first.SameOrigin second) (ignoreHeader : Bool) :
    Concur (Snapshot.Agrees (Paired first.root second.root)) (first.snapshot ignoreHeader)
      (second.snapshot ignoreHeader) := by
  have walks : List.Forall₂ (Paired first.root second.root) first.root.walk second.root.walk := by
    rw [Node.walk_eq_preorder, Node.walk_eq_preorder]
    exact same.forall₂_preorder .roots
  have surfaces : List.Forall₂ (Paired first.root second.root) (publicSurface first.root)
      (publicSurface second.root) :=
    (same.forall₂_collectPublic (List.rel_reverse (same.forall₂_members .roots)) .nil).imp
      fun _ _ member => member.1
  apply (same.concur_addAll walks .empty ignoreHeader).bind
  rintro tally _ rfl
  apply (same.concur_countUndocumented surfaces).bind
  rintro undocumented _ rfl
  refine .ok ⟨?_, surfaces⟩
  simp only [Document.lineCount, origin.language, origin.source, origin.filePath]

/-- Documents with the same origin have snapshots that agree, or fail for their language. -/
theorem metrics_agree {first second : Document}
    (same : Interchangeable first.forest second.forest first.root second.root)
    (origin : first.SameOrigin second) (ignoreHeader : Bool) :
    Concur (Snapshot.Agrees (Paired first.root second.root)) (first.metrics ignoreHeader)
        (second.metrics ignoreHeader) ∨
      first.language ≠ analysedLanguage ∧
        first.metrics ignoreHeader = second.metrics ignoreHeader := by
  rw [Document.metrics, Document.metrics, ← origin.language]
  by_cases analysed : first.language = analysedLanguage
  · obtain ⟨snapshot, other, counted, otherCounted, agree⟩ :=
      same.concur_snapshot origin ignoreHeader
    rw [if_pos analysed, if_pos analysed, counted, otherCounted]
    exact .inl (.ok agree)
  · rw [if_neg analysed, if_neg analysed]
    exact .inr ⟨analysed, rfl⟩

end Interchangeable

/-! ## Reports on declarations -/

namespace Alike

variable {first second : Forest} {left right node other : Vertex}

theorem concur_operatorToken (alike : Alike first second left right)
    (paired : Paired left right node other) (slotted : node.kind.isUnslotted = false) :
    Concur (Option.Rel (Paired left right)) (first.operatorToken node)
      (second.operatorToken other) := by
  have slots := alike.rel_childByField? paired slotted "operator"
  have keywords := alike.rel_findToken? paired "operator"
  rw [Forest.operatorToken, Forest.operatorToken]
  generalize node.childByField? "operator" = slot, other.childByField? "operator" = otherSlot
    at slots
  generalize node.findToken? "operator" = keyword, other.findToken? "operator" = otherKeyword
    at keywords
  cases slots with
  | some pairedSlot => exact .ok (.some pairedSlot)
  | none =>
      cases keywords with
      | none => exact .ok .none
      | some pairedKeyword =>
          apply (alike.concur_nextToken pairedKeyword).bind
          intro following otherFollowing tokens
          cases tokens with
          | none => exact .ok .none
          | @some following otherFollowing pairedFollowing =>
              have text := alike.text pairedFollowing
              by_cases isChecked : following.text = some "checked"
              · simp only [if_pos isChecked, if_pos (text ▸ isChecked)]
                exact alike.concur_nextToken pairedFollowing
              · simp only [if_neg isChecked, if_neg (text ▸ isChecked)]
                exact .ok (.some pairedFollowing)

theorem rel_accessorKeyword? (alike : Alike first second left right)
    (paired : Paired left right node other) (slotted : node.kind.isUnslotted = false) :
    Option.Rel (Paired left right) node.accessorKeyword? other.accessorKeyword? := by
  have isKeyword : ∀ {node other}, Paired left right node other →
      node.isAccessorKeyword = other.isAccessorKeyword := by
    intro node other paired
    rw [Node.isAccessorKeyword, Node.isAccessorKeyword, alike.text paired]
  have found : Option.Rel (Paired left right) (node.children.find? Node.isAccessorKeyword)
      (other.children.find? Node.isAccessorKeyword) :=
    rel_find? ((alike.forall₂_children paired).imp fun _ _ paired => ⟨paired, isKeyword paired⟩)
  have chosen := rel_or (alike.rel_childByField? paired slotted "name") found
  rw [Node.accessorKeyword?, Node.accessorKeyword?]
  generalize (node.childByField? "name").or (node.children.find? Node.isAccessorKeyword) = keyword,
    (other.childByField? "name").or (other.children.find? Node.isAccessorKeyword) = otherKeyword
    at chosen
  cases chosen with
  | none => exact .none
  | some pairedKeyword =>
      rw [Option.filter_some, Option.filter_some, isKeyword pairedKeyword]
      split
      · exact .some pairedKeyword
      · exact .none

theorem rel_firstDeclaratorName? (alike : Alike first second left right)
    (paired : Paired left right node other) :
    Option.Rel (Paired left right) node.firstDeclaratorName? other.firstDeclaratorName? := by
  have declarators : Option.Rel (Paired left right)
      (node.descendants.find? fun inner => inner.kind == .variableDeclarator)
      (other.descendants.find? fun inner => inner.kind == .variableDeclarator) :=
    rel_find? ((alike.forall₂_descendants paired).imp fun _ _ paired =>
      ⟨paired, by rw [alike.kind paired]⟩)
  have isDeclarator : ∀ declarator ∈
      node.descendants.find? fun inner => inner.kind == .variableDeclarator,
      declarator.kind.isUnslotted = false := by
    intro declarator found
    have kind : declarator.kind = .variableDeclarator := by
      simpa using List.find?_some found
    rw [kind]
    rfl
  rw [Node.firstDeclaratorName?, Node.firstDeclaratorName?]
  generalize node.descendants.find? (fun inner => inner.kind == .variableDeclarator) = declarator
    at declarators isDeclarator
  generalize other.descendants.find? (fun inner => inner.kind == .variableDeclarator) =
    otherDeclarator at declarators
  cases declarators with
  | none => exact .none
  | @some declarator otherDeclarator pairedDeclarator =>
      have names := alike.rel_nameNode? pairedDeclarator (isDeclarator declarator rfl)
      refine .some ?_
      generalize declarator.nameNode? = name, otherDeclarator.nameNode? = otherName at names
      cases names with
      | none => exact alike.paired_firstToken pairedDeclarator
      | some pairedName => exact pairedName

/-- Reports on paired declarations point at paired nodes. -/
theorem concur_locate (alike : Alike first second left right)
    (paired : Paired left right node other) {registration : Registration}
    (registered : node.kind.registration? = some registration) :
    Concur (Option.Rel (Paired left right)) (registration.locate first node)
      (registration.locate second other) := by
  have slotted : node.kind.isUnslotted = false := by
    cases kind : node.kind with
    | ifStatement | switchSection => simp [kind, Kind.registration?] at registered
    | _ => rfl
  unfold Kind.registration? at registered
  split at registered
  case h_4 =>
    obtain rfl := Option.some.inj registered
    exact alike.concur_operatorToken paired slotted
  case h_5 =>
    obtain rfl := Option.some.inj registered
    exact .ok (alike.rel_accessorKeyword? paired slotted)
  case h_6 =>
    obtain rfl := Option.some.inj registered
    exact .ok (alike.rel_firstDeclaratorName? paired)
  case h_7 => simp at registered
  all_goals
    obtain rfl := Option.some.inj registered
    exact .ok (alike.rel_nameNode? paired slotted)

end Alike

namespace Interchangeable

variable {first second : Forest} {left right node other : Vertex}

theorem measure_eq (same : Interchangeable first second left right)
    (paired : Paired left right node other) (thresholds : Thresholds) :
    Gauge.measure ⟨thresholds, .none⟩ first node =
      Gauge.measure ⟨thresholds, .none⟩ second other := by
  have scores : (RuleChanges.none.table first).score node none =
      (RuleChanges.none.table second).score other none := same.cognitiveScore_eq paired none
  rw [Gauge.measure, Gauge.measure, ← same.kind paired]
  cases registered : node.kind.registration? with
  | none => rfl
  | some registration =>
      obtain ⟨location, otherLocation, located, otherLocated, locations⟩ :=
        same.concur_locate paired registered
      simp only [located, otherLocated]
      cases locations with
      | none => rfl
      | some pairedLocation =>
          simp only [scores, same.text pairedLocation, same.span pairedLocation]

theorem measureAll_eq (same : Interchangeable first second left right) {nodes others : List Vertex}
    (pairs : List.Forall₂ (Paired left right) nodes others) (thresholds : Thresholds) :
    Gauge.measureAll ⟨thresholds, .none⟩ first nodes =
      Gauge.measureAll ⟨thresholds, .none⟩ second others := by
  induction pairs with
  | nil => rfl
  | cons head _ induction =>
      rw [Gauge.measureAll, Gauge.measureAll, same.measure_eq head thresholds, induction]

theorem evaluate_eq {first second : Document}
    (same : Interchangeable first.forest second.forest first.root second.root)
    (origin : first.SameOrigin second) (thresholds : Thresholds) :
    Gauge.evaluate ⟨thresholds, .none⟩ first = Gauge.evaluate ⟨thresholds, .none⟩ second := by
  rw [Gauge.evaluate, Gauge.evaluate, ← origin.language, Node.walk_eq_preorder,
    Node.walk_eq_preorder, same.measureAll_eq (same.forall₂_preorder .roots) thresholds]

end Interchangeable

/-! ## Structurally equal trees -/

/-- The nodes compare equal. Nodes of one forest are compared as the nodes that they are; nodes of
two forests are never the same node, so that only their shapes count. -/
def EqualNodes (first second : Forest) (node other : Vertex) : Prop :=
  node.shape = other.shape ∨ first = second ∧ node.same other

theorem EqualNodes.shape_eq {first second : Forest} {node other : Vertex}
    (equal : EqualNodes first second node other) (built : first.Built)
    (member : node ∈ first.nodes) (otherMember : other ∈ second.nodes) :
    node.shape = other.shape := by
  rcases equal with shapes | ⟨rfl, same⟩
  · exact shapes
  · have known : ∀ pair ∈ [(node, other)], pair.1 ∈ first.nodes ∧ pair.2 ∈ first.nodes := by
      intro pair listed
      obtain rfl := List.mem_singleton.mp listed
      exact ⟨member, otherMember⟩
    exact built.coherent.shape_eq_of_sameAll _ known same _ (List.mem_singleton_self _)

/-- The roots compare equal. -/
def Document.EqualRoots (first second : Document) : Prop :=
  EqualNodes first.forest second.forest first.root second.root

theorem Paired.shape_eq {left right : Vertex} (roots : left.shape = right.shape)
    {node other : Vertex} (paired : Paired left right node other) : node.shape = other.shape := by
  induction paired with
  | roots => exact roots
  | @children holder otherHolder child twin index _ here there induction =>
      have children := congrArg Node.children induction
      rw [Node.children_shape, Node.children_shape] at children
      have shapes : (holder.children.map Node.shape)[index]? =
          (otherHolder.children.map Node.shape)[index]? := by rw [children]
      rw [List.getElem?_map, List.getElem?_map, here, there] at shapes
      exact Option.some.inj shapes

/-- Trees of the same shape are interchangeable. -/
theorem interchangeable_of_shape {first second : Forest} {left right : Vertex}
    (leftTree : first.IsTree left) (rightTree : second.IsTree right)
    (leftTop : first.parent? left = none) (rightTop : second.parent? right = none)
    (roots : left.shape = right.shape) : Interchangeable first second left right := by
  have attributes : ∀ {node other}, Paired left right node other →
      node.attributes = other.attributes := by
    intro node other paired
    have shapes := congrArg Node.attributes (paired.shape_eq roots)
    rwa [Node.attributes_shape, Node.attributes_shape] at shapes
  have children : ∀ {node other}, Paired left right node other →
      node.children.map Node.shape = other.children.map Node.shape := by
    intro node other paired
    have shapes := congrArg Node.children (paired.shape_eq roots)
    rwa [Node.children_shape, Node.children_shape] at shapes
  constructor
  case equal =>
    intro node other third fourth paired pairedThird _ _
    rw [paired.shape_eq roots, pairedThird.shape_eq roots]
  case toAlike =>
    refine ⟨leftTree, rightTree, leftTop, rightTop, ?_, ?_, ?_, ?_, ?_⟩
    · exact fun paired => congrArg Attributes.kind (attributes paired)
    · exact fun paired => congrArg Attributes.span (attributes paired)
    · exact fun paired => congrArg Attributes.text (attributes paired)
    · intro node other paired
      simpa using congrArg List.length (children paired)
    · intro node other paired _
      rw [← Node.map_field_map_shape, children paired, Node.map_field_map_shape]

/-- What a snapshot says, nodes being told apart by their shapes only. -/
def Snapshot.content (snapshot : Snapshot) : Snapshot × List Shape :=
  ({ snapshot with publicApi := [] }, snapshot.publicApi.map Node.shape)

/-- Two trees, each with every node at one place and without a parent above the root. If the roots
are equal and the documents agree in language, source and path, then the metrics are equal, with and
without header comments, and so are the reports on declarations under any thresholds. For documents
of the analysed language there are such results. -/
theorem analyses_eq_of_equalRoots {first second : Document}
    (tree : first.forest.IsTree first.root) (otherTree : second.forest.IsTree second.root)
    (top : first.forest.parent? first.root = none)
    (otherTop : second.forest.parent? second.root = none)
    (equal : first.EqualRoots second) (origin : first.SameOrigin second) (ignoreHeader : Bool)
    (thresholds : Thresholds) :
    (first.metrics ignoreHeader).map Snapshot.content =
        (second.metrics ignoreHeader).map Snapshot.content ∧
      Gauge.evaluate ⟨thresholds, .none⟩ first = Gauge.evaluate ⟨thresholds, .none⟩ second ∧
      (first.language = analysedLanguage →
        (∃ snapshot, first.metrics ignoreHeader = .ok snapshot) ∧
          ∃ declarations, Gauge.evaluate ⟨thresholds, .none⟩ first = .ok declarations) := by
  have roots : first.root.shape = second.root.shape :=
    equal.shape_eq tree.built tree.created otherTree.created
  have same := interchangeable_of_shape tree otherTree top otherTop roots
  have measured := same.metrics_agree origin ignoreHeader
  refine ⟨?_, same.evaluate_eq origin thresholds, ?_⟩
  · rcases measured with ⟨snapshot, other, counted, otherCounted, fields, surfaces⟩ | ⟨-, failed⟩
    · have shapes := map_eq_of_forall₂ surfaces fun _ _ paired => paired.shape_eq roots
      rw [counted, otherCounted]
      exact congrArg Except.ok (Prod.ext fields shapes)
    · rw [failed]
  · intro analysed
    constructor
    · rcases measured with ⟨snapshot, _, counted, -⟩ | ⟨foreign, -⟩
      · exact ⟨snapshot, counted⟩
      · exact absurd analysed foreign
    · obtain ⟨declarations, reported, -⟩ :=
        Gauge.exists_measureAll tree.built thresholds first.root.walk
      exact ⟨declarations, by rw [Gauge.evaluate, if_pos analysed, reported]⟩

/-- A file with one public method. -/
def publicMethod : Shape :=
  .sketch .compilationUnit none
    [.sketch .methodDeclaration none
      [.sketch .modifier none [], .sketch .identifier (some "name") [], .sketch .block none []]]

/-- A forest in which the file has been made twice. -/
def publicMethodTwice : Forest := (Forest.plant publicMethod (Forest.empty.plant publicMethod).2).2

/-- The document over a node of the forest in which the file has been made twice. -/
def publicMethodDocument (root : Vertex) : Document :=
  .ofTree (root, publicMethodTwice) analysedLanguage "public int M() { }" "M.cs"

theorem analyses_eq_of_equalRoots_publicMethod :
    let first := publicMethodDocument (Forest.empty.plant publicMethod).1
    let second :=
      publicMethodDocument (Forest.plant publicMethod (Forest.empty.plant publicMethod).2).1
    first.root ≠ second.root ∧
      (first.metrics true).map Snapshot.content = (second.metrics true).map Snapshot.content := by
  have built : publicMethodTwice.Built :=
    (Forest.freeTrees_plant _ (Forest.freeTrees_plant _ .empty).built).built
  intro first second
  have tree : first.forest.IsTree first.root :=
    ⟨built, by decide +kernel, by decide +kernel, by decide +kernel⟩
  have otherTree : second.forest.IsTree second.root :=
    ⟨built, by decide +kernel, by decide +kernel, by decide +kernel⟩
  have equal : first.EqualRoots second := .inr ⟨rfl, by decide +kernel⟩
  refine ⟨by decide +kernel, ?_⟩
  exact (analyses_eq_of_equalRoots tree otherTree rfl rfl equal ⟨rfl, rfl, rfl⟩ true ⟨0, 0⟩).1

end CodeMetrics
