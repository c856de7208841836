import CodeMetrics.Proofs.Metrics.CommentLines
import CodeMetrics.Proofs.Tree.Navigation
import Mathlib.Data.Set.Card

/-!
# Totals of a file

One pass over the tree keeps all counts of a file at once. Each of them comes out as if it had been
taken by itself: the numbers as numbers of nodes, the lines as the lines of leaves. Only the comments
before the first code depend on whether a header is ignored.
-/

namespace CodeMetrics

namespace Tally

/-! ## What the pass counts -/

theorem rightUnique_complexity (forest : Forest) : Relator.RightUnique (Complexity forest) := by
  rintro function _ _ ⟨count, measured, rfl⟩ ⟨other, again, rfl⟩
  rw [Except.ok.inj (measured.symm.trans again)]

/-- What counting the nodes adds, comments apart. -/
structure Advances (forest : Forest) (nodes : List Vertex) (before after : Tally) : Prop where
  codeLines : after.codeLines = before.codeLines ++
    (nodes.filter fun node => node.isLeaf && node.isCode).flatMap fun leaf => leaf.span.lines
  statements : after.statements = before.statements + nodes.countP fun node => node.kind.isStatement
  classes : after.classes = before.classes + nodes.countP fun node => node.kind.isClassLike
  complexity : after.complexity =
    before.complexity + nodes.countP fun node => node.kind.increasesComplexity
  functions : ∃ complexities, after.functions = before.functions ++ complexities ∧
    List.Forall₂ (Complexity forest) (nodes.filter forest.isFunctionLike) complexities

theorem Advances.refl (forest : Forest) (tally : Tally) : Advances forest [] tally tally where
  codeLines := by simp
  statements := by simp
  classes := by simp
  complexity := by simp
  functions := ⟨[], by simp, .nil⟩

theorem Advances.trans {forest : Forest} {nodes others : List Vertex} {first second third : Tally}
    (early : Advances forest nodes first second) (late : Advances forest others second third) :
    Advances forest (nodes ++ others) first third where
  codeLines := by
    rw [late.codeLines, early.codeLines, List.filter_append, List.flatMap_append, List.append_assoc]
  statements := by rw [late.statements, early.statements, List.countP_append, Nat.add_assoc]
  classes := by rw [late.classes, early.classes, List.countP_append, Nat.add_assoc]
  complexity := by rw [late.complexity, early.complexity, List.countP_append, Nat.add_assoc]
  functions := by
    obtain ⟨earlier, isEarlier, measured⟩ := early.functions
    obtain ⟨later, isLater, measuredLater⟩ := late.functions
    refine ⟨earlier ++ later, by rw [isLater, isEarlier, List.append_assoc], ?_⟩
    rw [List.filter_append]
    exact List.rel_append measured measuredLater

variable {forest : Forest} {ignoreHeader : Bool}

/-- A leaf adds its lines if it is code, and no other count. -/
theorem counts_addLeaf (tally : Tally) (ignoreHeader : Bool) (leaf : Vertex) :
    (tally.addLeaf ignoreHeader leaf).codeLines =
        tally.codeLines ++ (if leaf.isCode then leaf.span.lines else []) ∧
      (tally.addLeaf ignoreHeader leaf).statements = tally.statements ∧
      (tally.addLeaf ignoreHeader leaf).classes = tally.classes ∧
      (tally.addLeaf ignoreHeader leaf).complexity = tally.complexity ∧
      (tally.addLeaf ignoreHeader leaf).functions = tally.functions := by
  rw [addLeaf, Node.isCode]
  cases leaf.kind.isComment with
  | true => cases tally.seenCode <;> cases ignoreHeader <;> simp
  | false => cases (leaf.text.getD "").isEmpty <;> simp

theorem advances_add {tally counted : Tally} {node : Vertex}
    (added : tally.add forest ignoreHeader node = .ok counted) :
    Advances forest [node] tally counted := by
  obtain ⟨leafed, complexities, isLeafed, measured, rfl⟩ := exists_of_add added
  have counts : leafed.codeLines =
        tally.codeLines ++ (if node.isLeaf && node.isCode then node.span.lines else []) ∧
      leafed.statements = tally.statements ∧ leafed.classes = tally.classes ∧
      leafed.complexity = tally.complexity ∧ leafed.functions = tally.functions := by
    cases isLeaf : node.isLeaf with
    | true =>
        rw [isLeafed, if_pos isLeaf]
        exact tally.counts_addLeaf ignoreHeader node
    | false => simp [isLeafed, isLeaf]
  obtain ⟨codeLines, statements, classes, complexity, functions⟩ := counts
  have one : ∀ holds : Vertex → Bool, [node].countP holds = (holds node).toNat := by
    intro holds
    cases answer : holds node <;> simp [answer]
  constructor
  case codeLines =>
    show leafed.codeLines = _
    rw [codeLines, List.filter_cons, List.filter_nil]
    split <;> simp
  case statements => rw [one, ← statements]; rfl
  case classes => rw [one, ← classes]; rfl
  case complexity => rw [one, ← complexity]; rfl
  case functions => exact ⟨complexities, by rw [← functions], measured⟩

theorem advances_addAll {nodes : List Vertex} {tally counted : Tally}
    (added : tally.addAll forest ignoreHeader nodes = .ok counted) :
    Advances forest nodes tally counted := by
  induction nodes generalizing tally with
  | nil =>
      obtain rfl := Except.ok.inj added
      exact .refl forest tally
  | cons node nodes induction =>
      cases first : tally.add forest ignoreHeader node with
      | error failure => simp [addAll, first, bind, Except.bind] at added
      | ok next =>
          rw [addAll, first] at added
          exact (advances_add first).trans (induction added)

end Tally

/-! ## Comments after code -/

/-- The first node comes before the second in document order. -/
def Node.Precedes (root first second : Vertex) : Prop := [first, second].Sublist root.preorder

/-- The comment is counted: it is a leaf of the file, and if a header is ignored, a leaf that is code
comes before it. -/
def Document.Counts (document : Document) (ignoreHeader : Bool) (comment : Vertex) : Prop :=
  comment.Inside document.root ∧ comment.isLeaf ∧ comment.kind.isComment ∧
    (ignoreHeader → ∃ code : Vertex, code.isLeaf ∧ code.isCode ∧ document.root.Precedes code comment)

/-- A comment is left when everything before the first code is dropped exactly if code comes before
it. -/
theorem mem_dropWhile_iff {leaves : List Vertex} {comment : Vertex}
    (isComment : comment.kind.isComment) :
    comment ∈ leaves.dropWhile (fun leaf => !leaf.isCode) ↔
      ∃ code : Vertex, code.isCode ∧ [code, comment].Sublist leaves := by
  induction leaves with
  | nil => simp
  | cons leaf leaves induction =>
      cases isCode : leaf.isCode with
      | false =>
          rw [List.dropWhile_cons_of_pos (by simp [isCode]), induction]
          constructor
          · rintro ⟨code, codeIsCode, before⟩
            exact ⟨code, codeIsCode, before.cons leaf⟩
          · rintro ⟨code, codeIsCode, before⟩
            cases before with
            | cons _ before => exact ⟨code, codeIsCode, before⟩
            | cons_cons => simp [isCode] at codeIsCode
      | true =>
          rw [List.dropWhile_cons_of_neg (by simp [isCode])]
          constructor
          · intro listed
            rcases List.mem_cons.mp listed with rfl | later
            · simp [Node.isCode, isComment] at isCode
            · exact ⟨leaf, isCode, (List.singleton_sublist.mpr later).cons_cons leaf⟩
          · rintro ⟨code, -, before⟩
            exact before.subset (by simp)

theorem Document.mem_counted_iff {document : Document} {ignoreHeader : Bool} {comment : Vertex} :
    comment ∈ document.counted ignoreHeader ↔ document.Counts ignoreHeader comment := by
  rw [counted, countedComments, List.mem_filter, Counts]
  cases ignoreHeader with
  | false =>
      simp only [Bool.false_eq_true, if_false, Node.mem_leaves_iff, false_implies, and_true]
      exact and_assoc
  | true =>
      simp only [if_true, true_implies]
      constructor
      · rintro ⟨listed, isComment⟩
        obtain ⟨code, isCode, before⟩ := (mem_dropWhile_iff isComment).mp listed
        have codeLeaf := Node.mem_leaves_iff.mp (before.subset List.mem_cons_self)
        have leaf := Node.mem_leaves_iff.mp (before.subset (List.mem_cons_of_mem code
          List.mem_cons_self))
        refine ⟨leaf.1, leaf.2, isComment, code, codeLeaf.2, isCode, ?_⟩
        rw [Node.leaves_eq] at before
        exact before.trans List.filter_sublist
      · rintro ⟨-, isLeaf, isComment, code, codeLeaf, isCode, before⟩
        refine ⟨(mem_dropWhile_iff isComment).mpr ⟨code, isCode, ?_⟩, isComment⟩
        have kept := before.filter Node.isLeaf
        rwa [List.filter_cons_of_pos codeLeaf, List.filter_cons_of_pos isLeaf, List.filter_nil,
          ← Node.leaves_eq] at kept

/-! ## The totals of a document -/

/-- The counted nodes of a list in which each occurs once. -/
theorem Node.ncard_inside {root : Vertex} (distinct : root.Distinct) (holds : Vertex → Bool) :
    {node | Node.Inside node root ∧ holds node}.ncard = root.preorder.countP holds := by
  have members : {node | Node.Inside node root ∧ holds node} =
      ((root.preorder.filter holds).toFinset : Set Vertex) := by
    ext node
    simp [mem_preorder_iff_inside]
  rw [members, Set.ncard_coe_finset, List.toFinset_card_of_nodup (distinct.nodup.filter holds),
    List.countP_eq_length_filter]

/-- The counts of a snapshot are what the definition of each of them says about the tree. -/
structure Document.Totals (document : Document) (ignoreHeader : Bool) (snapshot : Snapshot) :
    Prop where
  statements : snapshot.statements =
    {node | Node.Inside node document.root ∧ node.kind.isStatement}.ncard
  classes : snapshot.classes =
    {node | Node.Inside node document.root ∧ node.kind.isClassLike}.ncard
  functions : snapshot.functions =
    {node | Node.Inside node document.root ∧ document.forest.isFunctionLike node}.ncard
  complexity : snapshot.complexity =
    {node | Node.Inside node document.root ∧ node.kind.increasesComplexity}.ncard
  codeLines : ∀ line, line ∈ snapshot.codeLines ↔
    ∃ leaf : Vertex, leaf.Inside document.root ∧ leaf.isLeaf ∧ leaf.isCode ∧
      leaf.span.startLine ≤ line ∧ line ≤ leaf.span.endLine
  commentLines : ∀ line, line ∈ snapshot.commentLines ↔
    ∃ comment, document.Counts ignoreHeader comment ∧
      line ∈ CodeMetrics.commentLines .meaningful comment
  nosonarLines : ∀ line, line ∈ snapshot.nosonarLines ↔
    ∃ comment, document.Counts ignoreHeader comment ∧
      line ∈ CodeMetrics.commentLines .nosonar comment

theorem Document.totals_of_metrics {document : Document} {ignoreHeader : Bool}
    {snapshot : Snapshot} (distinct : document.root.Distinct)
    (measured : document.metrics ignoreHeader = .ok snapshot) :
    document.Totals ignoreHeader snapshot := by
  obtain ⟨-, reported⟩ := lines_of_metrics measured
  obtain ⟨tally, undocumented, tallied, -, rfl⟩ := exists_tally_of_metrics measured
  rw [Node.walk_eq_preorder] at tallied
  have advances := Tally.advances_addAll tallied
  constructor
  case statements =>
    rw [Node.ncard_inside distinct fun node => node.kind.isStatement]
    exact advances.statements.trans (Nat.zero_add _)
  case classes =>
    rw [Node.ncard_inside distinct fun node => node.kind.isClassLike]
    exact advances.classes.trans (Nat.zero_add _)
  case functions =>
    obtain ⟨complexities, isList, counted⟩ := advances.functions
    rw [Node.ncard_inside distinct document.forest.isFunctionLike, List.countP_eq_length_filter,
      counted.length_eq]
    exact congrArg List.length isList
  case complexity =>
    rw [Node.ncard_inside distinct fun node => node.kind.increasesComplexity]
    exact advances.complexity.trans (Nat.zero_add _)
  case codeLines =>
    intro line
    have listed : tally.codeLines = _ := advances.codeLines
    simp only [summary, LineSet.mem_ofList, listed, Tally.empty, List.nil_append, List.mem_flatMap,
      List.mem_filter, Node.mem_preorder_iff_inside, Bool.and_eq_true, Span.mem_lines, and_assoc]
  case commentLines => simpa only [mem_counted_iff] using fun line => (reported line).1
  case nosonarLines => simpa only [mem_counted_iff] using fun line => (reported line).2

/-- Whether a header is ignored changes the lines of comments only. -/
theorem Document.metrics_eq_apart_from_comments {document : Document} {all headless : Snapshot}
    (measured : document.metrics false = .ok all) (again : document.metrics true = .ok headless) :
    headless = { all with
      commentLines := headless.commentLines
      nosonarLines := headless.nosonarLines } := by
  obtain ⟨tally, undocumented, tallied, missing, rfl⟩ := exists_tally_of_metrics measured
  obtain ⟨other, count, talliedAgain, missingAgain, rfl⟩ := exists_tally_of_metrics again
  obtain rfl : undocumented = count := Except.ok.inj (missing.symm.trans missingAgain)
  have advances := Tally.advances_addAll tallied
  have otherAdvances := Tally.advances_addAll talliedAgain
  obtain ⟨complexities, isList, counted⟩ := advances.functions
  obtain ⟨others, isOtherList, countedAgain⟩ := otherAdvances.functions
  have functions : tally.functions = other.functions := by
    rw [isList, isOtherList,
      List.right_unique_forall₂' (Tally.rightUnique_complexity _) counted countedAgain]
  have codeLines := advances.codeLines.trans otherAdvances.codeLines.symm
  have statements := advances.statements.trans otherAdvances.statements.symm
  have classes := advances.classes.trans otherAdvances.classes.symm
  have complexity := advances.complexity.trans otherAdvances.complexity.symm
  simp only [summary, functions, codeLines, statements, classes, complexity]

/-- One pass over a file of which each node occurs once counts what the definitions say, with or
without the comments of a header. The two results differ in the lines of comments only, and without
the header there are no others. -/
theorem one_pass_counts_each {document : Document}
    (analysed : document.language = analysedLanguage) (built : document.forest.Built)
    (distinct : document.root.Distinct) :
    ∃ all headless, document.metrics false = .ok all ∧ document.metrics true = .ok headless ∧
      document.Totals false all ∧ document.Totals true headless ∧
      headless = { all with
        commentLines := headless.commentLines
        nosonarLines := headless.nosonarLines } ∧
      headless.commentLines ⊆ all.commentLines ∧ headless.nosonarLines ⊆ all.nosonarLines := by
  obtain ⟨all, measured⟩ := Document.exists_metrics analysed built false
  obtain ⟨headless, again⟩ := Document.exists_metrics analysed built true
  have totals := Document.totals_of_metrics distinct measured
  have headlessTotals := Document.totals_of_metrics distinct again
  have keeps : ∀ comment, document.Counts true comment → document.Counts false comment := by
    rintro comment ⟨inside, isLeaf, isComment, -⟩
    exact ⟨inside, isLeaf, isComment, by simp⟩
  refine ⟨all, headless, measured, again, totals, headlessTotals,
    Document.metrics_eq_apart_from_comments measured again, ?_, ?_⟩
  · intro line listed
    obtain ⟨comment, counts, here⟩ := (headlessTotals.commentLines line).mp listed
    exact (totals.commentLines line).mpr ⟨comment, keeps comment counts, here⟩
  · intro line listed
    obtain ⟨comment, counts, here⟩ := (headlessTotals.nosonarLines line).mp listed
    exact (totals.nosonarLines line).mpr ⟨comment, keeps comment counts, here⟩

/-- A header, and a class with a comment in it on the next line. -/
def headedClass : Document :=
  let header := Layout.start.leaf .singleLineComment "// header" none ""
  let keyword := header.2.newline.token "class" none
  let remark := keyword.2.leaf .multiLineComment "/* remark */" none ""
  let declaration := remark.2.inner .classDeclaration [keyword.1, remark.1] none ""
  let root := declaration.2.inner .compilationUnit [header.1, declaration.1] none ""
  root.2.finish root.1 none none

theorem one_pass_counts_each_headedClass :
    headedClass.language = analysedLanguage ∧ headedClass.forest.Built ∧
      headedClass.root.Distinct ∧
      ∃ all headless, headedClass.metrics false = .ok all ∧ headedClass.metrics true = .ok headless ∧
        headless.codeLines = all.codeLines ∧ headless.classes = all.classes ∧
        1 ∈ all.commentLines ∧ 1 ∉ headless.commentLines ∧ 2 ∈ headless.commentLines := by
  have built : headedClass.forest.Built := by
    refine .add (.add (.add (.add (.add .empty _ [] ?_) _ [] ?_) _ [] ?_) _ _ ?_) _ _ ?_
    · simp
    · simp
    · simp
    · decide +kernel
    · decide +kernel
  have distinct : headedClass.root.Distinct := by decide +kernel
  obtain ⟨all, headless, measured, again, totals, headlessTotals, apart, -, -⟩ :=
    one_pass_counts_each rfl built distinct
  have first : ∃ comment ∈ headedClass.counted false, 1 ∈ commentLines .meaningful comment := by
    decide +kernel
  have skipped : ¬ ∃ comment ∈ headedClass.counted true, 1 ∈ commentLines .meaningful comment := by
    decide +kernel
  have second : ∃ comment ∈ headedClass.counted true, 2 ∈ commentLines .meaningful comment := by
    decide +kernel
  simp only [Document.mem_counted_iff] at first skipped second
  refine ⟨rfl, built, distinct, all, headless, measured, again, by rw [apart], by rw [apart], ?_, ?_,
    ?_⟩
  · exact (totals.commentLines 1).mpr first
  · exact fun listed => skipped ((headlessTotals.commentLines 1).mp listed)
  · exact (headlessTotals.commentLines 2).mpr second

end CodeMetrics
