import CodeMetrics.Proofs.Grammar.Grouping

/-!
# Switch labels as a segmentation

Grouping reads a switch section from left to right and cuts it into labels, each from an opening token
to the next colon, the nodes between them, and at most one label at the end that no colon closes. The
relation `LabelScan` states that reading without the buffer of the open label. It determines the
grouped nodes, and what is promised about them is proved by induction on it.
-/

namespace CodeMetrics

namespace Grammar

variable {ι : Type}

/-! ## Labels -/

/-- The parts of a label: an opening token and all that follows it up to the next colon. -/
structure LabelRun (ι : Type) where
  opener : Node ι
  middle : List (Node ι)
  colon : Node ι
  opens : opensLabel opener = true
  /-- The colon that ends the label is its only one. -/
  colonFree : ∀ part ∈ opener :: middle, isTokenOf ":" part = false
  closes : isTokenOf ":" colon = true

namespace LabelRun

/-- The parts in document order. -/
def parts (run : LabelRun ι) : List (Node ι) := run.opener :: (run.middle ++ [run.colon])

/-- The label over the parts. -/
def node (run : LabelRun ι) (inserted : ι) : Node ι :=
  label inserted run.opener (run.middle ++ [run.colon])

/-- The kind is the one that the parts ask for. -/
structure Classifies (run : LabelRun ι) (kind : Kind) : Prop where
  default_iff : kind = .defaultLabel ↔ isTokenOf "default" run.opener = true
  pattern_iff : kind ≠ .defaultLabel →
    (kind = .casePatternLabel ↔ ∃ part ∈ run.parts, part.grammarType ∈ patternTypes)
  otherwise : kind ≠ .defaultLabel → kind ≠ .casePatternLabel → kind = .caseLabel

end LabelRun

theorem isTokenOf_eq_true_iff {text : String} {node : Node ι} :
    isTokenOf text node = true ↔ node.kind = .token ∧ node.text = some text := by
  simp [isTokenOf, Node.isToken]

theorem colonFree_of_opensLabel {node : Node ι} (opens : opensLabel node = true) :
    isTokenOf ":" node = false := by
  rw [Bool.eq_false_iff]
  intro colon
  have text := (isTokenOf_eq_true_iff.mp colon).2
  simp [opensLabel, isTokenOf, text] at opens

theorem isLabel_labelKind (first : Node ι) (rest : List (Node ι)) :
    isLabel (labelKind first rest) = true := by
  unfold labelKind
  split
  · rfl
  · split <;> rfl

namespace LabelRun

@[simp] theorem kind_node (run : LabelRun ι) (inserted : ι) :
    (run.node inserted).kind = labelKind run.opener (run.middle ++ [run.colon]) := rfl

@[simp] theorem children_node (run : LabelRun ι) (inserted : ι) :
    (run.node inserted).children = run.parts := rfl

theorem isLabel_node (run : LabelRun ι) (inserted : ι) :
    isLabel (run.node inserted).kind = true :=
  isLabel_labelKind _ _

/-- A label is not a token, so it neither opens nor closes another one. -/
theorem isTokenOf_node (run : LabelRun ι) (inserted : ι) (text : String) :
    isTokenOf text (run.node inserted) = false := by
  rw [Bool.eq_false_iff]
  intro token
  have labelled := run.isLabel_node inserted
  rw [(isTokenOf_eq_true_iff.mp token).1] at labelled
  simp [isLabel] at labelled

theorem classifies_node (run : LabelRun ι) (inserted : ι) :
    run.Classifies (run.node inserted).kind := by
  have isToken : run.opener.kind = .token := by
    rcases Bool.or_eq_true_iff.mp run.opens with opens | opens <;>
      exact (isTokenOf_eq_true_iff.mp opens).1
  have default_iff : run.opener.text = some "default" ↔ isTokenOf "default" run.opener = true := by
    simp [isTokenOf_eq_true_iff, isToken]
  rw [kind_node, labelKind]
  split
  · rename_i isDefault
    exact ⟨by simp [default_iff.mp isDefault], fun other => absurd rfl other,
      fun other => absurd rfl other⟩
  · rename_i notDefault
    rw [default_iff] at notDefault
    split
    · rename_i pattern
      refine ⟨by simp [notDefault], fun _ => ?_, fun _ other => absurd rfl other⟩
      simpa [parts] using pattern
    · rename_i pattern
      refine ⟨by simp [notDefault], fun _ => ?_, fun _ _ => rfl⟩
      simpa [parts] using pattern

end LabelRun

/-! ## Reading a section -/

/-- The second list is the first one read from left to right, each opening token taken together with
all that follows it up to the next colon. -/
inductive LabelScan (inserted : ι) : List (Node ι) → List (Node ι) → Prop
  | nil : LabelScan inserted [] []
  | plain {node : Node ι} {nodes grouped : List (Node ι)} :
      opensLabel node = false → LabelScan inserted nodes grouped →
      LabelScan inserted (node :: nodes) (node :: grouped)
  | closed (run : LabelRun ι) {nodes grouped : List (Node ι)} :
      LabelScan inserted nodes grouped →
      LabelScan inserted (run.parts ++ nodes) (run.node inserted :: grouped)
  | unclosed {opener : Node ι} {rest : List (Node ι)} :
      opensLabel opener = true → (∀ part ∈ rest, isTokenOf ":" part = false) →
      LabelScan inserted (opener :: rest) (opener :: rest)

/-- What the buffer of an open label may hold: nothing, or an opening token and no colon. -/
def IsOpenLabel : List (Node ι) → Prop
  | [] => True
  | first :: parts =>
      opensLabel first = true ∧ ∀ part ∈ first :: parts, isTokenOf ":" part = false

theorem IsOpenLabel.start {node : Node ι} (opens : opensLabel node = true) : IsOpenLabel [node] :=
  ⟨opens, by simpa using colonFree_of_opensLabel opens⟩

theorem IsOpenLabel.push {first child : Node ι} {parts : List (Node ι)}
    (isOpen : IsOpenLabel (first :: parts)) (continues : isTokenOf ":" child = false) :
    IsOpenLabel (first :: (parts ++ [child])) := by
  refine ⟨isOpen.1, ?_⟩
  rw [← List.cons_append, List.forall_mem_append]
  exact ⟨isOpen.2, by simpa using continues⟩

/-- Whatever the open label holds so far, grouping goes on to read the section. -/
theorem labelScan_groupLabels (inserted : ι) (children pending : List (Node ι))
    (isOpen : IsOpenLabel pending) :
    LabelScan inserted (pending ++ children)
      ((groupLabels inserted pending children).1 ++ (groupLabels inserted pending children).2) := by
  induction children generalizing pending with
  | nil =>
      cases pending with
      | nil => exact .nil
      | cons first parts =>
          rw [List.append_nil]
          exact .unclosed isOpen.1 (List.forall_mem_cons.mp isOpen.2).2
  | cons child children induction =>
      cases pending with
      | nil =>
          rw [groupLabels]
          split
          · rename_i opens
            exact induction [child] (.start opens)
          · rename_i plain
            exact .plain (Bool.eq_false_iff.mpr plain) (induction [] trivial)
      | cons first parts =>
          rw [groupLabels]
          split
          · rename_i closes
            have scan := LabelScan.closed ⟨first, parts, child, isOpen.1, isOpen.2, closes⟩
              (induction [] trivial)
            simpa [LabelRun.parts, LabelRun.node] using scan
          · rename_i continues
            simpa using induction _ (isOpen.push (Bool.eq_false_iff.mpr continues))

/-- A section has one reading. -/
theorem LabelScan.groupLabels_eq {inserted : ι} {children grouped : List (Node ι)}
    (scan : LabelScan inserted children grouped) :
    (groupLabels inserted [] children).1 ++ (groupLabels inserted [] children).2 = grouped := by
  induction scan with
  | nil => rfl
  | plain plain _ induction =>
      rw [groupLabels, if_neg (by simp [plain])]
      exact congrArg _ induction
  | @closed run nodes grouped _ induction =>
      have colonFree := List.forall_mem_cons.mp run.colonFree
      have dropped : (run.middle ++ run.colon :: nodes).dropWhile
          (fun part => !isTokenOf ":" part) = run.colon :: nodes := by
        rw [List.dropWhile_append_of_pos (by simpa using colonFree.2)]
        simp [run.closes]
      have taken : (run.middle ++ run.colon :: nodes).takeWhile
          (fun part => !isTokenOf ":" part) = run.middle := by
        rw [List.takeWhile_append_of_pos (by simpa using colonFree.2)]
        simp [run.closes]
      rw [LabelRun.parts, List.cons_append, List.append_assoc, List.singleton_append, groupLabels,
        if_pos run.opens, groupLabels_open inserted run.opener dropped, taken]
      exact congrArg _ induction
  | unclosed opens colonFree =>
      rw [groupLabels, if_pos opens, groupLabels_of_none inserted colonFree]
      rfl

theorem wrapLabels_of_hasLabel (inserted : ι) {children : List (Node ι)}
    (labelled : hasLabel children = true) : wrapLabels inserted children = children :=
  if_pos labelled

/-- The grouped nodes are the ones that the section reads as, and no others. -/
theorem wrapLabels_eq_iff (inserted : ι) {children grouped : List (Node ι)}
    (unlabelled : hasLabel children = false) :
    wrapLabels inserted children = grouped ↔ LabelScan inserted children grouped := by
  rw [wrapLabels, if_neg (by simp [unlabelled])]
  constructor
  · rintro rfl
    exact labelScan_groupLabels inserted children [] trivial
  · exact LabelScan.groupLabels_eq

/-! ## The segmentation -/

theorem hasLabel_cons (node : Node ι) (nodes : List (Node ι)) :
    hasLabel (node :: nodes) = (isLabel node.kind || hasLabel nodes) := rfl

theorem hasLabel_append (before after : List (Node ι)) :
    hasLabel (before ++ after) = (hasLabel before || hasLabel after) :=
  List.any_append

/-- The nodes with each label replaced by its parts. -/
def ungroupLabels (nodes : List (Node ι)) : List (Node ι) :=
  nodes.flatMap fun node => if isLabel node.kind then node.children else [node]

theorem ungroupLabels_cons (node : Node ι) (nodes : List (Node ι)) :
    ungroupLabels (node :: nodes) =
      (if isLabel node.kind then node.children else [node]) ++ ungroupLabels nodes := rfl

theorem ungroupLabels_of_unlabelled {nodes : List (Node ι)} (unlabelled : hasLabel nodes = false) :
    ungroupLabels nodes = nodes := by
  have none : ∀ node ∈ nodes, (if isLabel node.kind then node.children else [node]) = [node] := by
    intro node member
    rw [hasLabel, List.any_eq_false] at unlabelled
    exact if_neg (unlabelled node member)
  rw [ungroupLabels, List.flatMap_congr none, List.flatMap_singleton']

/-- The grouped nodes are the given ones cut into labels and what stands between them. -/
structure LabelSegmentation (children grouped : List (Node ι)) : Prop where
  flattens : ungroupLabels grouped = children
  labels : ∀ node ∈ grouped, isLabel node.kind = true →
    ∃ run : LabelRun ι, node.children = run.parts ∧ run.Classifies node.kind
  /-- No label is left open that some later colon could close. -/
  maximal : grouped.Pairwise fun earlier later =>
    opensLabel earlier = true → isTokenOf ":" later = false

namespace LabelScan

variable {inserted : ι} {children grouped : List (Node ι)}

theorem ungroupLabels_eq (scan : LabelScan inserted children grouped)
    (unlabelled : hasLabel children = false) : ungroupLabels grouped = children := by
  induction scan with
  | nil => rfl
  | plain _ _ induction =>
      rw [hasLabel_cons, Bool.or_eq_false_iff] at unlabelled
      rw [ungroupLabels_cons, if_neg (by simp [unlabelled.1]), induction unlabelled.2]
      rfl
  | closed run _ induction =>
      rw [hasLabel_append, Bool.or_eq_false_iff] at unlabelled
      rw [ungroupLabels_cons, if_pos (run.isLabel_node inserted), run.children_node,
        induction unlabelled.2]
  | unclosed => exact ungroupLabels_of_unlabelled unlabelled

/-- A section without labels gets no others than the ones it was read as. -/
theorem exists_run (scan : LabelScan inserted children grouped)
    (unlabelled : hasLabel children = false) {node : Node ι} (member : node ∈ grouped)
    (labelled : isLabel node.kind = true) : ∃ run : LabelRun ι, node = run.node inserted := by
  induction scan with
  | nil => simp at member
  | plain _ _ induction =>
      rw [hasLabel_cons, Bool.or_eq_false_iff] at unlabelled
      rcases List.mem_cons.mp member with rfl | later
      · simp [unlabelled.1] at labelled
      · exact induction unlabelled.2 later
  | closed run _ induction =>
      rw [hasLabel_append, Bool.or_eq_false_iff] at unlabelled
      rcases List.mem_cons.mp member with rfl | later
      · exact ⟨run, rfl⟩
      · exact induction unlabelled.2 later
  | unclosed =>
      rw [hasLabel, List.any_eq_false] at unlabelled
      exact absurd labelled (unlabelled node member)

theorem maximal (scan : LabelScan inserted children grouped) :
    grouped.Pairwise fun earlier later =>
      opensLabel earlier = true → isTokenOf ":" later = false := by
  induction scan with
  | nil => exact .nil
  | plain plain _ induction =>
      exact .cons (fun later _ opens => absurd opens (by simp [plain])) induction
  | closed run _ induction =>
      refine .cons (fun later _ opens => ?_) induction
      simp [opensLabel, run.isTokenOf_node] at opens
  | unclosed _ colonFree =>
      refine .cons (fun later member _ => colonFree later member) ?_
      exact List.pairwise_of_forall_mem_list fun _ _ later member _ => colonFree later member

theorem segmentation (scan : LabelScan inserted children grouped)
    (unlabelled : hasLabel children = false) : LabelSegmentation children grouped where
  flattens := scan.ungroupLabels_eq unlabelled
  labels node member labelled := by
    obtain ⟨run, rfl⟩ := scan.exists_run unlabelled member labelled
    exact ⟨run, run.children_node inserted, run.classifies_node inserted⟩
  maximal := scan.maximal

end LabelScan

theorem labelSegmentation_wrapLabels (inserted : ι) {children : List (Node ι)}
    (unlabelled : hasLabel children = false) :
    LabelSegmentation children (wrapLabels inserted children) :=
  ((wrapLabels_eq_iff inserted unlabelled).mp rfl).segmentation unlabelled

theorem wrapLabels_wrapLabels (inserted : ι) (children : List (Node ι)) :
    wrapLabels inserted (wrapLabels inserted children) = wrapLabels inserted children := by
  by_cases grouped : hasLabel (wrapLabels inserted children) = true
  · exact wrapLabels_of_hasLabel inserted grouped
  · -- Without a label in the result nothing was grouped, so the second pass reads the same nodes.
    have unlabelled : hasLabel children = false := by
      rw [Bool.eq_false_iff]
      intro labelled
      exact grouped ((wrapLabels_of_hasLabel inserted labelled).symm ▸ labelled)
    have same : wrapLabels inserted children = children :=
      (ungroupLabels_of_unlabelled (Bool.eq_false_iff.mpr grouped)).symm.trans
        (labelSegmentation_wrapLabels inserted unlabelled).flattens
    rw [same, same]

/-- Grouping cuts a section without labels into labels, each from an opening token to the next colon
and of the kind its parts ask for, and the rest of the nodes, among which no colon follows an opening
token. What is grouped once stays as it is, and so does every section with a label in it. -/
theorem wrapLabels_segments_and_idempotent (inserted : ι) (children : List (Node ι)) :
    (hasLabel children = false → LabelSegmentation children (wrapLabels inserted children)) ∧
      wrapLabels inserted (wrapLabels inserted children) = wrapLabels inserted children ∧
      (hasLabel children = true → wrapLabels inserted children = children) :=
  ⟨labelSegmentation_wrapLabels inserted, wrapLabels_wrapLabels inserted children,
    wrapLabels_of_hasLabel inserted⟩

/-- A leaf with the given text. -/
def leafOf (kind : Kind) (text grammarType : String) : Shape :=
  .mk () (.of kind ⟨0, 0, 1, 0, 1, 0⟩ (some text) none grammarType) []

/-- A stray colon, a label with an opening token inside and a pattern, a statement, two labels in a
row, and a label that no colon closes. -/
def mixedSection : List Shape :=
  [leafOf .token ":" ":", leafOf .token "case" "case", leafOf .token "default" "default",
    leafOf .other "int n" "declaration_pattern", leafOf .token ":" ":",
    leafOf .breakStatement "break;" "break_statement",
    leafOf .token "case" "case", leafOf .other "1" "integer_literal", leafOf .token ":" ":",
    leafOf .token "default" "default", leafOf .token ":" ":",
    leafOf .token "case" "case", leafOf .token "default" "default"]

theorem wrapLabels_segments_and_idempotent_mixedSection :
    hasLabel mixedSection = false ∧
      LabelSegmentation mixedSection (wrapLabels () mixedSection) ∧
      (wrapLabels () mixedSection).map Node.kind =
        [.token, .casePatternLabel, .breakStatement, .caseLabel, .defaultLabel, .token, .token] ∧
      hasLabel (wrapLabels () mixedSection) = true ∧
      wrapLabels () (wrapLabels () mixedSection) = wrapLabels () mixedSection := by
  have unlabelled : hasLabel mixedSection = false := by decide +kernel
  have labelled : hasLabel (wrapLabels () mixedSection) = true := by decide +kernel
  exact ⟨unlabelled, (wrapLabels_segments_and_idempotent () mixedSection).1 unlabelled,
    by decide +kernel, labelled,
    (wrapLabels_segments_and_idempotent () (wrapLabels () mixedSection)).2.2 labelled⟩

end Grammar

end CodeMetrics
