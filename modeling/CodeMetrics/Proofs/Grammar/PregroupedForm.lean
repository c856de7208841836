import CodeMetrics.Proofs.Grammar.Pregrouping
import CodeMetrics.Proofs.Tree.Correspondence
import Mathlib.Data.List.TakeWhile

/-!
# The normal form of a pregrouped parse tree

The normal forms of a parse tree with and without its else clauses and switch labels grouped differ
in nothing but the slots and grammar types of the nodes over the groups.
-/

namespace CodeMetrics

namespace Grammar

/-! ## Groups -/

section

variable {source : List UInt8} (template : List ParseNode → Construct)

theorem forall₂_converted {nodes : List ParseNode} {trees : List (Node (Option Construct))}
    (equal : List.Forall₂ (fun node tree => EqualButWrappers tree (converted source node)) nodes
      trees) : List.Forall₂ EqualButWrappers trees (nodes.map (converted source)) := by
  induction equal with
  | nil => exact .nil
  | cons head _ induction => exact .cons head induction

theorem kindOf_group {type : String} (first : ParseNode) (rest : List ParseNode)
    (grouping : type ∈ "else_clause" :: ParseNode.labelTypes) (children : List Shape) :
    kindOf source (ParseNode.group template type first rest).construct children =
      kindOfType type := by
  have plain : type ≠ "comment" ∧ type ≠ "binary_expression" := by
    revert type
    decide
  simp [kindOf, ParseNode.group, ParseNode.construct, plain]

/-- Converting a group of parts gives the wrapper over the parts. -/
theorem equal_group {first : ParseNode} {rest : List ParseNode}
    {firstTree : Node (Option Construct)}
    {restTrees : List (Node (Option Construct))} (reads : Reads source first firstTree)
    (readsRest : List.Forall₂ (Reads source) rest restTrees) {type : String}
    (grouping : type ∈ "else_clause" :: ParseNode.labelTypes) (field : Option String)
    (grammarType : String) :
    EqualButWrappers (wrapper none (kindOfType type) field grammarType firstTree restTrees)
      (converted source (ParseNode.group template type first rest)) := by
  have plain : kindOfType type ≠ .ifStatement ∧ kindOfType type ≠ .switchSection := by
    revert type
    decide
  have last : (restTrees.getLast?.getD firstTree).span =
      (rest.getLast?.getD first).construct.span := by
    have lasts := rel_getLast? readsRest
    generalize rest.getLast? = node, restTrees.getLast? = tree at lasts
    cases lasts with
    | none => exact reads.span_eq
    | some readsLast => exact readsLast.span_eq
  rw
    [converted, convert_eq, kindOf_group template first rest grouping, wrapChildren, if_neg plain.1,
    if_neg plain.2]
  refine .wrapper rfl ?_ rfl ?_
  · change firstTree.span.join (restTrees.getLast?.getD firstTree).span = _
    rw [reads.span_eq, last]
    rfl
  · exact forall₂_converted ((List.Forall₂.cons reads readsRest).imp fun _ _ reads => reads.equal)

/-! ## Else clauses -/

theorem wrapElse_of_none {ι : Type} (inserted : ι) {nodes : List (Node ι)}
    (without : ∀ node ∈ nodes, isTokenOf "else" node = false) :
    wrapElse inserted nodes = nodes := by
  have dropped : nodes.dropWhile (fun child => !isTokenOf "else" child) = [] := by
    rw [List.dropWhile_eq_nil_iff]
    intro node listed
    rw [without node listed]
    rfl
  rw [wrapElse, dropped]

theorem spells_group (type text : String) (first : ParseNode) (rest : List ParseNode) :
    (ParseNode.group template type first rest).spells source text = false := rfl

/-- After grouping there is no else token left. -/
theorem spells_of_mem_groupElse {nodes : List ParseNode} {node : ParseNode}
    (listed : node ∈ ParseNode.groupElse source template nodes) :
    node.spells source "else" = false := by
  unfold ParseNode.groupElse at listed
  split at listed
  case h_1 dropped =>
    have passed := List.dropWhile_eq_nil_iff.mp dropped node listed
    simpa using passed
  case h_2 first rest _ =>
    rcases List.mem_append.mp listed with before | last
    · have passed := List.mem_takeWhile_imp before
      simpa using passed
    · obtain rfl := List.mem_singleton.mp last
      exact spells_group template _ _ first rest

theorem wrapElse_groupElse (nodes : List ParseNode) :
    wrapElse () ((ParseNode.groupElse source template nodes).map (converted source)) =
      (ParseNode.groupElse source template nodes).map (converted source) := by
  apply wrapElse_of_none
  intro tree listed
  obtain ⟨node, grouped, rfl⟩ := List.mem_map.mp listed
  rw [isTokenOf_converted]
  exact spells_of_mem_groupElse template grouped

theorem forall₂_groupElse {nodes : List ParseNode} {trees : List (Node (Option Construct))}
    (reads : List.Forall₂ (Reads source) nodes trees) :
    List.Forall₂ (fun node tree => EqualButWrappers tree (converted source node))
      (ParseNode.groupElse source template nodes) (wrapElse none trees) := by
  have alike : ∀ node tree, Reads source node tree →
      (!node.spells source "else") = !isTokenOf "else" tree := by
    intro node tree reads
    rw [reads.isTokenOf_eq]
  have before := forall₂_takeWhile reads alike
  have after := forall₂_dropWhile reads alike
  unfold ParseNode.groupElse wrapElse
  generalize nodes.dropWhile (fun child => !child.spells source "else") = dropped at after
  generalize trees.dropWhile (fun child => !isTokenOf "else" child) = droppedTrees at after
  cases after with
  | nil => exact reads.imp fun _ _ reads => reads.equal
  | cons first rest =>
      apply List.rel_append (before.imp fun _ _ reads => reads.equal)
      exact .cons (equal_group template first rest List.mem_cons_self _ _) .nil

/-! ## Switch labels -/

theorem labelType_mem (source : List UInt8) (first : ParseNode) (rest : List ParseNode) :
    ParseNode.labelType source first rest ∈ ParseNode.labelTypes := by
  unfold ParseNode.labelType
  split_ifs <;> decide

theorem labelKind_eq {first : ParseNode} {rest : List ParseNode}
    {firstTree : Node (Option Construct)}
    {restTrees : List (Node (Option Construct))} (reads : Reads source first firstTree)
    (readsRest : List.Forall₂ (Reads source) rest restTrees) (isOpening : first.opens source) :
    labelKind firstTree restTrees = kindOfType (ParseNode.labelType source first rest) := by
  have isToken : firstTree.isToken = true := by
    rw [ParseNode.opens, ← reads.isTokenOf_eq, ← reads.isTokenOf_eq, isTokenOf, isTokenOf,
      ← Bool.and_or_distrib_left, Bool.and_eq_true] at isOpening
    exact isOpening.1
  have isDefault : firstTree.text = some "default" ↔ first.spells source "default" = true := by
    rw [← reads.isTokenOf_eq, isTokenOf, isToken, Bool.true_and, beq_iff_eq]
  have patterns : ((firstTree :: restTrees).any fun part => part.grammarType ∈ patternTypes) =
      (first :: rest).any fun part => part.construct.type ∈ patternTypes := by
    have views : (first :: rest).map (fun part => decide (part.construct.type ∈ patternTypes)) =
        (firstTree :: restTrees).map fun part => decide (part.grammarType ∈ patternTypes) := by
      apply map_eq_of_forall₂ (List.Forall₂.cons reads readsRest)
      intro part tree reads
      rw [decide_eq_decide, Node.grammarType, reads.attributes]
      exact (grammarType_converted source part).symm
    have any := congrArg (List.any · id) views
    simpa only [List.any_map, Function.id_comp] using any.symm
  rw [labelKind, ParseNode.labelType, patterns]
  by_cases opensDefault : first.spells source "default"
  · rw [if_pos (isDefault.mpr opensDefault), if_pos opensDefault]
    rfl
  · rw [if_neg fun text => opensDefault (isDefault.mp text), if_neg opensDefault]
    split
    · rfl
    · rfl

theorem groupRuns_of_none {nodes : List ParseNode}
    (without : ∀ node ∈ nodes, node.spells source ":" = false) :
    ParseNode.groupRuns source template nodes = nodes := by
  induction nodes with
  | nil => rw [ParseNode.groupRuns]
  | cons node nodes induction =>
      rw [List.forall_mem_cons] at without
      have none : nodes.any (ParseNode.spells source ":") = false := by
        rw [List.any_eq_false]
        intro later listed
        simp [without.2 later listed]
      rw [ParseNode.groupRuns, none, Bool.and_false, if_neg Bool.false_ne_true, induction without.2]

theorem exists_colon {nodes : List ParseNode} (found : nodes.any (ParseNode.spells source ":")) :
    ∃ colon after, nodes.dropWhile (fun node => !node.spells source ":") = colon :: after ∧
      ParseNode.upToColon source nodes =
        nodes.takeWhile (fun node => !node.spells source ":") ++ [colon] ∧
      ParseNode.afterColon source nodes = after := by
  cases dropped : nodes.dropWhile fun node => !node.spells source ":" with
  | nil =>
      obtain ⟨colon, listed, isColon⟩ := List.any_eq_true.mp found
      have passed := List.dropWhile_eq_nil_iff.mp dropped colon listed
      simp [isColon] at passed
  | cons colon after =>
      refine ⟨colon, after, rfl, ?_, ?_⟩
      · rw [ParseNode.upToColon, dropped]
        rfl
      · rw [ParseNode.afterColon, dropped]
        rfl

theorem Reads.opensLabel_eq {node : ParseNode} {tree : Node (Option Construct)}
    (reads : Reads source node tree) : opensLabel tree = node.opens source := by
  rw [opensLabel, reads.isTokenOf_eq, reads.isTokenOf_eq, ParseNode.opens]

/-- Grouping the labels on the parse tree and on the trees read from it comes to the same. -/
theorem forall₂_groupRuns {nodes : List ParseNode} {trees : List (Node (Option Construct))}
    (reads : List.Forall₂ (Reads source) nodes trees) :
    List.Forall₂ (fun node tree => EqualButWrappers tree (converted source node))
      (ParseNode.groupRuns source template nodes)
      ((groupLabels none [] trees).1 ++ (groupLabels none [] trees).2) := by
  fun_induction ParseNode.groupRuns source template nodes generalizing trees with
  | case1 =>
      cases reads with
      | nil => exact .nil
  | case2 child children closed induction =>
      rw [Bool.and_eq_true] at closed
      cases reads with
      | @cons _ tree _ trees head rest =>
          have alike : ∀ node tree, Reads source node tree →
              (!node.spells source ":") = !isTokenOf ":" tree := by
            intro node tree reads
            rw [reads.isTokenOf_eq]
          obtain ⟨colon, after, dropped, parts, remaining⟩ := exists_colon closed.2
          have before := forall₂_takeWhile rest alike
          have behind := forall₂_dropWhile rest alike
          rw [dropped] at behind
          rw [groupLabels, if_pos (head.opensLabel_eq.trans closed.1)]
          cases found : trees.dropWhile fun part => !isTokenOf ":" part with
          | nil =>
              rw [found] at behind
              cases behind
          | cons colonTree afterTrees =>
              rw [found] at behind
              cases behind with
              | cons readsColon readsAfter =>
                  have readsParts := List.rel_append before (.cons readsColon .nil)
                  rw [groupLabels_open none tree found, List.nil_append, label,
                    labelKind_eq head readsParts closed.1, parts]
                  rw [remaining] at induction ⊢
                  refine .cons ?_ (induction readsAfter)
                  refine equal_group template head readsParts (List.mem_cons_of_mem _ ?_) none _
                  exact labelType_mem source child _
  | case3 child children plain induction =>
      cases reads with
      | @cons _ tree _ trees head rest =>
          by_cases isOpening : child.opens source
          · -- without a colon the label stays open, and nothing after it is grouped
            have none : ∀ node ∈ children, node.spells source ":" = false := by
              simpa [isOpening] using plain
            have noneTrees : ∀ part ∈ trees, isTokenOf ":" part = false := by
              refine forall_mem_of_forall₂ rest ?_ none
              intro node part reads plain
              rw [reads.isTokenOf_eq, plain]
            rw [groupLabels, if_pos (head.opensLabel_eq.trans isOpening),
              groupLabels_of_none _ noneTrees, groupRuns_of_none template none]
            exact (List.Forall₂.cons head rest).imp fun _ _ reads => reads.equal
          · rw [groupLabels, if_neg (by rwa [head.opensLabel_eq])]
            exact .cons head.equal (induction rest)

/-- Labels that are grouped on the parse tree are not grouped again. -/
theorem wrapLabels_groupRuns (nodes : List ParseNode) :
    wrapLabels () ((ParseNode.groupRuns source template nodes).map (converted source)) =
      (ParseNode.groupRuns source template nodes).map (converted source) := by
  rw [wrapLabels]
  split
  · rfl
  case isFalse unlabelled =>
    fun_induction ParseNode.groupRuns source template nodes with
    | case1 => rfl
    | case2 child children closed _ =>
        -- the group is a label
        have isLabelled : isLabel (converted source (ParseNode.group template
            (ParseNode.labelType source child (ParseNode.upToColon source children)) child
            (ParseNode.upToColon source children))).kind = true := by
          rw [isLabel_converted, ParseNode.isOneOf]
          simpa [ParseNode.group, ParseNode.construct] using labelType_mem source child _
        simp [hasLabel, isLabelled] at unlabelled
    | case3 child children plain induction =>
        have unlabelledRest : ¬ hasLabel
            ((ParseNode.groupRuns source template children).map (converted source)) := by
          intro labelled
          simp only [hasLabel, List.map_cons, List.any_cons, Bool.or_eq_true] at unlabelled labelled
          exact unlabelled (.inr labelled)
        have opens : opensLabel (converted source child) = child.opens source := by
          rw [opensLabel, isTokenOf_converted, isTokenOf_converted, ParseNode.opens]
        rw [List.map_cons, groupLabels, opens]
        by_cases isOpening : child.opens source
        · have none : ∀ node ∈ children, node.spells source ":" = false := by
            simpa [isOpening] using plain
          rw [if_pos isOpening, groupRuns_of_none template none]
          apply groupLabels_of_none
          intro part listed
          obtain ⟨node, isChild, rfl⟩ := List.mem_map.mp listed
          rw [isTokenOf_converted, none node isChild]
        · rw [if_neg isOpening]
          exact congrArg (converted source child :: ·) (induction unlabelledRest)

/-! ## Whole trees -/

theorem hasLabel_eq {nodes : List ParseNode} {trees : List (Node (Option Construct))}
    (reads : List.Forall₂ (Reads source) nodes trees) :
    hasLabel trees = nodes.any (ParseNode.isOneOf ParseNode.labelTypes) := by
  have views : nodes.map (ParseNode.isOneOf ParseNode.labelTypes) =
      trees.map fun tree => isLabel tree.kind := by
    apply map_eq_of_forall₂ reads
    intro node tree reads
    rw [reads.kind_eq, isLabel_converted]
  have any := congrArg (List.any · id) views
  simpa only [hasLabel, List.any_map, Function.id_comp] using any.symm

/-- What is grouped on the parse tree is not grouped again, and is what would have been grouped. -/
theorem forall₂_regroup {nodes : List ParseNode} {trees : List (Node (Option Construct))}
    (reads : List.Forall₂ (Reads source) nodes trees) (construct : Construct) :
    let kind := kindOf source construct trees
    let grouped := ParseNode.regroup source template construct nodes
    wrapChildren () kind (grouped.map (converted source)) = grouped.map (converted source) ∧
      List.Forall₂ (fun node tree => EqualButWrappers tree (converted source node)) grouped
        (wrapChildren none kind trees) := by
  intro kind grouped
  have isIf : kind = .ifStatement ↔ _ := kindOf_eq_ifStatement_iff source construct trees
  have isSection : kind = .switchSection ↔ _ := kindOf_eq_switchSection_iff source construct trees
  have unchanged := reads.imp fun _ _ reads => reads.equal
  by_cases onIf : kind = .ifStatement
  · have regrouped : grouped = ParseNode.groupElse source template nodes := if_pos (isIf.mp onIf)
    rw [regrouped, wrapChildren, wrapChildren, if_pos onIf, if_pos onIf]
    exact ⟨wrapElse_groupElse template nodes, forall₂_groupElse template reads⟩
  · rw [wrapChildren, wrapChildren, if_neg onIf, if_neg onIf]
    by_cases onSection : kind = .switchSection
    · have notIf := fun isTyped => onIf (isIf.mpr isTyped)
      rw [if_pos onSection, if_pos onSection]
      by_cases labelled : nodes.any (ParseNode.isOneOf ParseNode.labelTypes)
      · have regrouped : grouped = nodes :=
          (if_neg notIf).trans (if_neg fun ungrouped => ungrouped.2.2 labelled)
        have hasOne : hasLabel (nodes.map (converted source)) = true := by
          simpa only [hasLabel, List.any_map, Function.comp_def, isLabel_converted] using labelled
        rw [regrouped]
        constructor
        · rw [wrapLabels, if_pos hasOne]
        · rw [wrapLabels, hasLabel_eq reads, if_pos labelled]
          exact unchanged
      · have regrouped : grouped = ParseNode.groupRuns source template nodes :=
          (if_neg notIf).trans
            (if_pos ⟨(isSection.mp onSection).1, (isSection.mp onSection).2, labelled⟩)
        rw [regrouped]
        constructor
        · exact wrapLabels_groupRuns template nodes
        · rw [wrapLabels, hasLabel_eq reads, if_neg labelled]
          exact forall₂_groupRuns template reads
    · have regrouped : grouped = nodes :=
        (if_neg fun isTyped => onIf (isIf.mpr isTyped)).trans
          (if_neg fun isTyped => onSection (isSection.mpr ⟨isTyped.1, isTyped.2.1⟩))
      rw [if_neg onSection, if_neg onSection, regrouped]
      exact ⟨rfl, unchanged⟩

theorem isEmpty_regroup (construct : Construct) (nodes : List ParseNode) :
    (ParseNode.regroup source template construct nodes).isEmpty = nodes.isEmpty := by
  cases nodes with
  | nil => simp [ParseNode.regroup, ParseNode.groupElse, ParseNode.groupRuns]
  | cons node nodes =>
      unfold ParseNode.regroup
      split
      · unfold ParseNode.groupElse
        split
        · rfl
        · simp
      · split
        · rw [ParseNode.groupRuns]
          split
          · rfl
          · rfl
        · rfl

/-- Grouping the children of a construct does not change what kind it is of. -/
theorem kindOf_regroup {nodes : List ParseNode} {trees : List (Node (Option Construct))}
    (reads : List.Forall₂ (Reads source) nodes trees) (construct : Construct) :
    kindOf source construct
        ((ParseNode.regroup source template construct nodes).map (converted source)) =
      kindOf source construct trees := by
  unfold kindOf
  split
  · rfl
  · split
    · rfl
    · split
      case isTrue isBinary =>
        have unchanged : ParseNode.regroup source template construct nodes = nodes := by
          simp [ParseNode.regroup, isBinary]
        have alike : List.Forall₂ (fun shape tree => shape.attributes = tree.attributes)
            (nodes.map (converted source)) trees := by
          rw [List.forall₂_map_left_iff]
          exact reads.imp fun _ _ reads => reads.attributes.symm
        have operators : Option.Rel (fun shape tree => shape.attributes = tree.attributes)
            ((nodes.map (converted source)).find? fun child => child.field == some "operator")
            (trees.find? fun child => child.field == some "operator") := by
          refine rel_find? (alike.imp ?_)
          intro shape tree attributes
          exact ⟨attributes, by rw [Node.field, Node.field, attributes]⟩
        rw [unchanged]
        generalize (nodes.map (converted source)).find?
          (fun child => child.field == some "operator") =
          operator at operators
        generalize trees.find? (fun child => child.field == some "operator") = operatorTree
          at operators
        cases operators with
        | none => rfl
        | some attributes =>
            rw [Option.bind_some, Option.bind_some, Node.text, Node.text, attributes]
      case isFalse => rfl

mutual

theorem equal_fold : (node : ParseNode) → (field : Option String) →
    EqualButWrappers (node.fold (convertMarked some none source) field)
      (convert source field (node.pregroup source template))
  | .mk construct children, field => by
      have reads := forall₂_foldAll children
      have kind := kindOf_regroup template reads construct
      obtain ⟨unchanged, below⟩ := forall₂_regroup template reads construct
      have empty : (ParseNode.regroup source template construct
          (ParseNode.pregroupAll source template children)).isEmpty =
            (ParseNode.foldAll (convertMarked some none source) children).isEmpty := by
        rw [isEmpty_regroup]
        cases children <;> rfl
      rw [ParseNode.fold, convertMarked_eq, ParseNode.pregroup, convert_eq]
      simp only [ParseNode.construct, ParseNode.children, kind, empty]
      rw [unchanged]
      exact .read (forall₂_converted below)

theorem forall₂_foldAll : (nodes : List ParseNode) →
    List.Forall₂ (Reads source) (ParseNode.pregroupAll source template nodes)
      (ParseNode.foldAll (convertMarked some none source) nodes)
  | [] => .nil
  | node :: nodes => by
      rw [ParseNode.pregroupAll, ParseNode.foldAll]
      refine .cons ⟨?_, ?_⟩ (forall₂_foldAll nodes)
      · rw [mark_fold]
        rfl
      · rw [converted, ParseNode.construct_pregroup]
        exact equal_fold node node.construct.field

end

end

/-- The normal form of the pregrouped tree is the normal form, up to its wrappers. -/
theorem equal_pregroup (source : List UInt8) (template : List ParseNode → Construct)
    (root : ParseNode) :
    EqualButWrappers (markedForm source root)
      (normalize source (root.pregroup source template)) := by
  rw [markedForm, normalize, ParseNode.traversed_eq_fold, ParseNode.traversed_eq_fold]
  exact equal_fold template root none

end Grammar

end CodeMetrics
