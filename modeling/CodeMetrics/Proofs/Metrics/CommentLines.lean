import CodeMetrics.Proofs.Metrics.Completion
import CodeMetrics.Proofs.Tree.Positions

/-!
# Lines of comments

The lines of a comment are numbered from the line on which it starts, by the boundaries at which its
text is cut. A file counts line feeds only. So a reported line is the line of the file on which the
text stands, moved down by the boundaries before it that are no line feeds. A line is either marked or
meaningful within one comment, but two comments can meet on a line and report it as both.
-/

namespace CodeMetrics

/-! ## Stray line breaks -/

namespace Text

/-- The number of boundaries at which a text is cut into lines and which are no line feeds. A carriage
return and line feed together count as a line feed. -/
def strayBreaks : List Char → Nat
  | [] => 0
  | '\r' :: '\n' :: rest => strayBreaks rest
  | character :: rest =>
      if character ∈ lineBreaks ∧ character ≠ '\n' then strayBreaks rest + 1 else strayBreaks rest

theorem strayBreaks_cons {character : Char} {rest : List Char}
    (alone : character = '\r' → rest.head? ≠ some '\n') :
    strayBreaks (character :: rest) =
      if character ∈ lineBreaks ∧ character ≠ '\n' then strayBreaks rest + 1
      else strayBreaks rest := by
  rw [strayBreaks]
  rintro tail rfl rfl
  simp at alone

theorem strayBreaks_plain {character : Char} (plain : character ∉ lineBreaks) (rest : List Char) :
    strayBreaks (character :: rest) = strayBreaks rest := by
  rw [strayBreaks_cons, if_neg (fun both => plain both.1)]
  rintro rfl
  exact absurd (by decide) plain

/-- The number of boundaries at which a text is cut into lines. -/
def boundaries (text : List Char) : Nat := text.count '\n' + strayBreaks text

theorem boundaries_pair (rest : List Char) :
    boundaries ('\r' :: '\n' :: rest) = boundaries rest + 1 := by
  rw [boundaries, strayBreaks, List.count_cons_of_ne (by decide), List.count_cons_self, boundaries]
  omega

theorem boundaries_break {character : Char} {rest : List Char} (isBreak : character ∈ lineBreaks)
    (alone : character = '\r' → rest.head? ≠ some '\n') :
    boundaries (character :: rest) = boundaries rest + 1 := by
  rw [boundaries, strayBreaks_cons alone, boundaries]
  by_cases feed : character = '\n'
  · rw [feed, List.count_cons_self, if_neg (by simp)]
    omega
  · rw [List.count_cons_of_ne feed, if_pos ⟨isBreak, feed⟩]
    omega

theorem boundaries_plain {character : Char} (plain : character ∉ lineBreaks) (rest : List Char) :
    boundaries (character :: rest) = boundaries rest := by
  have notFeed : character ≠ '\n' := by
    rintro rfl
    exact plain (by decide)
  rw [boundaries, strayBreaks_plain plain, List.count_cons_of_ne notFeed, boundaries]

/-- A line of a text begins behind as many boundaries as there are lines before it, and there are no
more stray breaks before it than in the whole text. -/
theorem exists_cut_of_splitLines {text line : List Char} {index : Nat}
    (here : (splitLines text)[index]? = some line) :
    ∃ before after, text = before ++ line ++ after ∧ index = boundaries before ∧
      strayBreaks before ≤ strayBreaks text ∧ (index = 0 → before = []) := by
  fun_induction splitLines text generalizing index line with
  | case1 => simp at here
  | case2 rest induction =>
      cases index with
      | zero =>
          obtain rfl : [] = line := by simpa using here
          exact ⟨[], _, rfl, rfl, Nat.zero_le _, fun _ => rfl⟩
      | succ index =>
          obtain ⟨before, after, rfl, passed, fewer, -⟩ := induction (by simpa using here)
          refine ⟨'\r' :: '\n' :: before, after, rfl, ?_, fewer, by simp⟩
          rw [boundaries_pair, passed]
  | case3 character rest notPair isBreak induction =>
      cases index with
      | zero =>
          obtain rfl : [] = line := by simpa using here
          exact ⟨[], _, rfl, rfl, Nat.zero_le _, fun _ => rfl⟩
      | succ index =>
          obtain ⟨before, after, rfl, passed, fewer, -⟩ := induction (by simpa using here)
          -- the line feed of a pair would have been taken together with its carriage return
          have whole : character = '\r' → (before ++ line ++ after).head? ≠ some '\n' := by
            intro isReturn isFeed
            obtain ⟨tail, split⟩ := List.head?_eq_some_iff.mp isFeed
            exact notPair tail isReturn split
          have alone : character = '\r' → before.head? ≠ some '\n' := by
            intro isReturn isFeed
            obtain ⟨tail, rfl⟩ := List.head?_eq_some_iff.mp isFeed
            exact whole isReturn rfl
          refine ⟨character :: before, after, rfl, ?_, ?_, by simp⟩
          · rw [boundaries_break isBreak alone, passed]
          · rw [strayBreaks_cons alone, strayBreaks_cons whole]
            split <;> omega
  | case4 character rest notPair notBreak none induction =>
      obtain ⟨rfl, rfl⟩ : index = 0 ∧ [character] = line := by
        cases index <;> simp_all
      exact ⟨[], rest, rfl, rfl, Nat.zero_le _, fun _ => rfl⟩
  | case5 character rest notPair notBreak first lines split induction =>
      cases index with
      | zero =>
          obtain rfl : character :: first = line := by simpa using here
          have isFirst : (splitLines rest)[0]? = some first := by rw [split]; rfl
          obtain ⟨before, after, rfl, -, -, atStart⟩ := induction isFirst
          rw [atStart rfl]
          exact ⟨[], after, rfl, rfl, Nat.zero_le _, fun _ => rfl⟩
      | succ index =>
          have later : (splitLines rest)[index + 1]? = some line := by rw [split]; exact here
          obtain ⟨before, after, rfl, passed, fewer, -⟩ := induction later
          refine ⟨character :: before, after, rfl, ?_, ?_, by simp⟩
          · rw [boundaries_plain notBreak, passed]
          · rwa [strayBreaks_plain notBreak, strayBreaks_plain notBreak]

/-- The last line of the text is `last`, and no break comes after it. -/
def EndsIn (text last : List Char) : Prop :=
  (splitLines text).getLast? = some last ∧ ∀ final ∈ text.getLast?, final ∉ lineBreaks

/-- A text without a break at its end has one line more than boundaries. -/
theorem length_splitLines {text : List Char} (inhabited : text ≠ [])
    (ends : ∀ final ∈ text.getLast?, final ∉ lineBreaks) :
    (splitLines text).length = boundaries text + 1 := by
  fun_induction splitLines text with
  | case1 => exact absurd rfl inhabited
  | case2 rest induction =>
      cases rest with
      | nil => exact absurd (by decide) (ends '\n' rfl)
      | cons next rest =>
          rw [boundaries_pair, List.length_cons, induction (by simp) (by simpa using ends)]
  | case3 character rest notPair isBreak induction =>
      cases rest with
      | nil => exact absurd isBreak (ends character rfl)
      | cons next rest =>
          have alone : character = '\r' → (next :: rest).head? ≠ some '\n' := by
            intro isReturn isFeed
            obtain ⟨tail, split⟩ := List.head?_eq_some_iff.mp isFeed
            exact notPair tail isReturn split
          rw [boundaries_break isBreak alone, List.length_cons,
            induction (by simp) (by simpa using ends)]
  | case4 character rest notPair notBreak none induction =>
      cases rest with
      | nil => rw [boundaries_plain notBreak]; rfl
      | cons next rest =>
          have counted := induction (by simp) (by simpa using ends)
          simp [none] at counted
  | case5 character rest notPair notBreak first lines split induction =>
      cases rest with
      | nil => simp [splitLines] at split
      | cons next rest =>
          have counted := induction (by simp) (by simpa using ends)
          rw [split, List.length_cons] at counted
          rw [boundaries_plain notBreak, List.length_cons, counted]

end Text

/-! ## The lines of one comment -/

theorem mem_commentLines {sort : CommentLine} {comment : Vertex} {line : Int} :
    line ∈ commentLines sort comment ↔
      ∃ (index : Nat) (text : List Char),
        (Text.splitLines (comment.text.getD "").toList)[index]? = some text ∧
          CommentLine.of text = sort ∧ line = comment.span.startLine + index := by
  simp only [commentLines, List.mem_map, List.mem_filter, Prod.exists, List.mk_mem_zipIdx_iff_getElem?,
    decide_eq_true_eq]
  constructor
  · rintro ⟨text, index, ⟨here, isSort⟩, rfl⟩
    exact ⟨index, text, here, isSort, rfl⟩
  · rintro ⟨index, text, here, isSort, rfl⟩
    exact ⟨text, index, ⟨here, isSort⟩, rfl⟩

/-- No line of a comment is of two sorts. -/
theorem sort_unique {sort other : CommentLine} {comment : Vertex} {line : Int}
    (listed : line ∈ commentLines sort comment) (again : line ∈ commentLines other comment) :
    sort = other := by
  obtain ⟨index, text, here, rfl, rfl⟩ := mem_commentLines.mp listed
  obtain ⟨second, otherText, there, rfl, same⟩ := mem_commentLines.mp again
  obtain rfl : index = second := by omega
  rw [Option.some.inj (here.symm.trans there)]

/-- Where a reported line of a comment stands in its text. -/
theorem cut_of_commentLines {sort : CommentLine} {comment : Vertex} {line : Int}
    (listed : line ∈ commentLines sort comment) :
    ∃ text before after, comment.text = some text ∧ text.toList = before ++ after ∧
      line = comment.span.startLine + before.count '\n' + Text.strayBreaks before ∧
      Text.strayBreaks before ≤ Text.strayBreaks text.toList := by
  obtain ⟨index, here, found, -, rfl⟩ := mem_commentLines.mp listed
  cases isText : comment.text with
  | none => simp [isText, Text.splitLines] at found
  | some text =>
      rw [isText, Option.getD_some] at found
      obtain ⟨before, after, cut, passed, fewer, -⟩ := Text.exists_cut_of_splitLines found
      refine ⟨text, before, here ++ after, rfl, by rw [cut, List.append_assoc], ?_, fewer⟩
      rw [passed, Text.boundaries]
      omega

/-- The last line of a comment comes after all boundaries of its text. -/
theorem ending_mem_commentLines {comment : Vertex} {text : String} {last : List Char}
    (isText : comment.text = some text) (ends : Text.EndsIn text.toList last) :
    comment.span.startLine + Text.boundaries text.toList ∈
      commentLines (CommentLine.of last) comment := by
  obtain ⟨isLast, noBreak⟩ := ends
  have inhabited : text.toList ≠ [] := by
    intro none
    simp [none, Text.splitLines] at isLast
  refine mem_commentLines.mpr ⟨Text.boundaries text.toList, last, ?_, rfl, rfl⟩
  rw [List.getLast?_eq_getElem?, Text.length_splitLines inhabited noBreak] at isLast
  rw [isText, Option.getD_some]
  exact isLast

/-! ## The comments that are counted -/

/-- A leaf that is code: it has a text and is no comment. -/
def Node.isCode (leaf : Vertex) : Bool := !leaf.kind.isComment && !(leaf.text.getD "").isEmpty

/-- The comments among the leaves of a file that are counted: all of them, or those after the first
leaf that is code. -/
def countedComments (ignoreHeader : Bool) (leaves : List Vertex) : List Vertex :=
  (if ignoreHeader then leaves.dropWhile fun leaf => !leaf.isCode else leaves).filter
    fun leaf => leaf.kind.isComment

theorem mem_leaves_of_counted {ignoreHeader : Bool} {leaves : List Vertex} {comment : Vertex}
    (counted : comment ∈ countedComments ignoreHeader leaves) :
    comment ∈ leaves ∧ comment.kind.isComment := by
  obtain ⟨listed, isComment⟩ := List.mem_filter.mp counted
  refine ⟨?_, isComment⟩
  split at listed
  · exact (List.dropWhile_suffix _).subset listed
  · exact listed

/-- One leaf more in front: it is counted if it is a comment and nothing is skipped, and a leaf that is
code ends the skipping. -/
theorem countedComments_cons (skip : Bool) (leaf : Vertex) (leaves : List Vertex) :
    countedComments skip (leaf :: leaves) =
      (if leaf.kind.isComment && !skip then [leaf] else []) ++
        countedComments (skip && !leaf.isCode) leaves := by
  cases skip with
  | false => cases isComment : leaf.kind.isComment <;> simp [countedComments, isComment]
  | true =>
      cases isCode : leaf.isCode with
      | false => simp [countedComments, isCode]
      | true =>
          have notComment : leaf.kind.isComment = false := by
            rw [Node.isCode, Bool.and_eq_true, Bool.not_eq_true'] at isCode
            exact isCode.1
          simp [countedComments, isCode, notComment]

namespace Tally

/-- The lines of a sort that are counted so far; blank lines are not. -/
def lines (tally : Tally) : CommentLine → List Int
  | .meaningful => tally.commentLines
  | .nosonar => tally.nosonarLines
  | .blank => []

variable {forest : Forest} {ignoreHeader : Bool} {sort : CommentLine}

theorem seenCode_addLeaf (tally : Tally) (ignoreHeader : Bool) (leaf : Vertex) :
    (tally.addLeaf ignoreHeader leaf).seenCode = (tally.seenCode || leaf.isCode) := by
  rw [addLeaf, Node.isCode]
  cases leaf.kind.isComment with
  | true => cases seen : tally.seenCode <;> cases ignoreHeader <;> simp [seen]
  | false => cases (leaf.text.getD "").isEmpty <;> simp

theorem lines_addLeaf (tally : Tally) (ignoreHeader : Bool) (leaf : Vertex)
    (reported : sort ≠ .blank) :
    (tally.addLeaf ignoreHeader leaf).lines sort =
      tally.lines sort ++
        if leaf.kind.isComment && !(ignoreHeader && !tally.seenCode) then
          CodeMetrics.commentLines sort leaf
        else [] := by
  rw [addLeaf]
  cases leaf.kind.isComment with
  | true =>
      cases tally.seenCode <;> cases ignoreHeader <;> cases sort <;> simp_all [lines]
  | false => cases (leaf.text.getD "").isEmpty <;> cases sort <;> simp [lines]

/-- The flat complexity of a function, as it is counted. -/
def Complexity (forest : Forest) (function : Vertex) (complexity : Int) : Prop :=
  ∃ count : Nat, forest.functionComplexity function = .ok count ∧ complexity = count

/-- Counting a node counts it as a leaf if it is one, by its kind, and by its complexity if it is a
function. -/
theorem exists_of_add {tally counted : Tally} {node : Vertex}
    (added : tally.add forest ignoreHeader node = .ok counted) :
    ∃ leafed complexities,
      leafed = (if node.isLeaf then tally.addLeaf ignoreHeader node else tally) ∧
      List.Forall₂ (Complexity forest) ([node].filter forest.isFunctionLike) complexities ∧
      counted = { leafed.addKind node.kind with functions := leafed.functions ++ complexities } := by
  refine ⟨if node.isLeaf then tally.addLeaf ignoreHeader node else tally, ?_⟩
  by_cases isFunction : forest.isFunctionLike node
  · simp only [add, if_pos isFunction] at added
    cases measured : forest.functionComplexity node with
    | error failure => simp [measured, bind, Except.bind] at added
    | ok complexity =>
        rw [measured] at added
        refine ⟨[(complexity : Int)], rfl, ?_, (Except.ok.inj added).symm⟩
        rw [List.filter_cons_of_pos isFunction]
        exact .cons ⟨complexity, measured, rfl⟩ .nil
  · simp only [add, if_neg isFunction] at added
    refine ⟨[], rfl, ?_, ?_⟩
    · rw [List.filter_cons_of_neg isFunction]
      exact .nil
    · rw [List.append_nil]
      exact (Except.ok.inj added).symm

/-- Counting a node touches the lines and the sight of code only if the node is a leaf. -/
theorem of_add (sort : CommentLine) {tally counted : Tally} {node : Vertex}
    (added : tally.add forest ignoreHeader node = .ok counted) :
    counted.lines sort =
        (if node.isLeaf then tally.addLeaf ignoreHeader node else tally).lines sort ∧
      counted.seenCode =
        (if node.isLeaf then tally.addLeaf ignoreHeader node else tally).seenCode := by
  obtain ⟨leafed, complexities, rfl, -, rfl⟩ := exists_of_add added
  refine ⟨?_, rfl⟩
  cases sort <;> rfl

/-- The lines that a whole walk counts are those of the counted comments. -/
theorem lines_addAll (reported : sort ≠ .blank) {nodes : List Vertex} {tally counted : Tally}
    (added : tally.addAll forest ignoreHeader nodes = .ok counted) :
    counted.lines sort =
      tally.lines sort ++
        (countedComments (ignoreHeader && !tally.seenCode) (nodes.filter Node.isLeaf)).flatMap
          (CodeMetrics.commentLines sort) := by
  induction nodes generalizing tally with
  | nil =>
      obtain rfl := Except.ok.inj added
      cases ignoreHeader <;> cases tally.seenCode <;> simp [countedComments]
  | cons node nodes induction =>
      cases first : tally.add forest ignoreHeader node with
      | error failure => simp [addAll, first, bind, Except.bind] at added
      | ok next =>
          rw [addAll, first] at added
          obtain ⟨nextLines, nextSeen⟩ := of_add sort first
          rw [induction added, nextLines, nextSeen]
          cases isLeaf : node.isLeaf with
          | false => simp [isLeaf]
          | true =>
              rw [if_pos rfl, seenCode_addLeaf, lines_addLeaf _ _ _ reported,
                List.filter_cons_of_pos isLeaf, countedComments_cons, List.flatMap_append,
                List.append_assoc, Bool.not_or, ← Bool.and_assoc]
              split <;> simp

end Tally

/-! ## The lines of a document -/

/-- The comments of a document that are counted. -/
def Document.counted (document : Document) (ignoreHeader : Bool) : List Vertex :=
  countedComments ignoreHeader document.root.leaves

/-- The metrics of a document, given the counts of the walk and the number of public declarations that
are undocumented. -/
def Document.summary (document : Document) (tally : Tally) (undocumented : Nat) : Snapshot where
  filePath := document.filePath
  language := document.language
  lineCount := document.lineCount
  codeLines := LineSet.ofList tally.codeLines
  commentLines := LineSet.ofList tally.commentLines
  nosonarLines := LineSet.ofList tally.nosonarLines
  statements := tally.statements
  classes := tally.classes
  functions := tally.functions.length
  complexity := tally.complexity
  publicApi := publicSurface document.root
  publicUndocumentedApi := undocumented
  distribution := Histogram.ofValues Histogram.functionRanges tally.functions

/-- What a measurement that succeeds has counted. -/
theorem Document.exists_tally_of_metrics {document : Document} {ignoreHeader : Bool}
    {snapshot : Snapshot} (measured : document.metrics ignoreHeader = .ok snapshot) :
    ∃ tally undocumented,
      Tally.empty.addAll document.forest ignoreHeader document.root.walk = .ok tally ∧
      document.forest.countUndocumented (publicSurface document.root) = .ok undocumented ∧
      snapshot = document.summary tally undocumented := by
  have analysed : document.language = analysedLanguage := by
    by_contra other
    simp [metrics, if_neg other] at measured
  rw [metrics, if_pos analysed, Document.snapshot] at measured
  cases tallied : Tally.empty.addAll document.forest ignoreHeader document.root.walk with
  | error failure => simp [tallied, bind, Except.bind, Except.mapError] at measured
  | ok tally =>
      cases missing : document.forest.countUndocumented (publicSurface document.root) with
      | error failure => simp [tallied, missing, bind, Except.bind, Except.mapError] at measured
      | ok undocumented =>
          rw [tallied] at measured
          simp only [missing, bind, Except.bind, Except.mapError, pure, Except.pure,
            Except.ok.injEq] at measured
          exact ⟨tally, undocumented, rfl, rfl, measured.symm⟩

/-- The reported lines are those of the counted comments. -/
theorem Document.lines_of_metrics {document : Document} {ignoreHeader : Bool} {snapshot : Snapshot}
    (measured : document.metrics ignoreHeader = .ok snapshot) :
    snapshot.lineCount = document.lineCount ∧ ∀ line,
      (line ∈ snapshot.commentLines ↔
        ∃ comment ∈ document.counted ignoreHeader, line ∈ commentLines .meaningful comment) ∧
      (line ∈ snapshot.nosonarLines ↔
        ∃ comment ∈ document.counted ignoreHeader, line ∈ commentLines .nosonar comment) := by
  obtain ⟨tally, undocumented, tallied, -, rfl⟩ := exists_tally_of_metrics measured
  have listed : ∀ sort, sort ≠ .blank → tally.lines sort =
      (document.counted ignoreHeader).flatMap (commentLines sort) := by
    intro sort reported
    have added := Tally.lines_addAll reported tallied
    have nothing : Tally.empty.lines sort = [] := by cases sort <;> rfl
    rw [nothing, List.nil_append] at added
    simpa [Tally.empty, Document.counted, Node.leaves] using added
  have meaningful : tally.commentLines = _ := listed .meaningful (by decide)
  have marked : tally.nosonarLines = _ := listed .nosonar (by decide)
  refine ⟨rfl, fun line => ?_⟩
  simp only [summary, LineSet.mem_ofList, meaningful, marked, List.mem_flatMap, and_self]

/-- Every reported line is a line of a comment of the document. -/
theorem Document.exists_comment_of_line {document : Document} {ignoreHeader : Bool}
    {snapshot : Snapshot} (measured : document.metrics ignoreHeader = .ok snapshot) {line : Int}
    (listed : line ∈ snapshot.commentLines ++ snapshot.nosonarLines) :
    ∃ comment ∈ document.root.leaves, comment.kind.isComment ∧
      ∃ sort, line ∈ commentLines sort comment := by
  obtain ⟨meaningful, marked⟩ := (lines_of_metrics measured).2 line
  rw [List.mem_append, meaningful, marked] at listed
  rcases listed with ⟨comment, counted, here⟩ | ⟨comment, counted, here⟩
  · obtain ⟨isLeaf, isComment⟩ := mem_leaves_of_counted counted
    exact ⟨comment, isLeaf, isComment, .meaningful, here⟩
  · obtain ⟨isLeaf, isComment⟩ := mem_leaves_of_counted counted
    exact ⟨comment, isLeaf, isComment, .nosonar, here⟩

theorem Document.exists_metrics {document : Document}
    (analysed : document.language = analysedLanguage) (built : document.forest.Built)
    (ignoreHeader : Bool) : ∃ snapshot, document.metrics ignoreHeader = .ok snapshot := by
  obtain ⟨snapshot, counted, -⟩ := Document.exists_snapshot built ignoreHeader
  refine ⟨snapshot, ?_⟩
  rw [metrics, if_pos analysed, counted]
  rfl

/-- Which lines are reported both as marked and as meaningful: those on which two counted comments
meet, one of them with the marker there and the other with other text. -/
theorem marked_and_meaningful_iff {document : Document}
    (analysed : document.language = analysedLanguage) (built : document.forest.Built)
    (ignoreHeader : Bool) :
    ∃ snapshot, document.metrics ignoreHeader = .ok snapshot ∧ ∀ line,
      line ∈ snapshot.commentLines ∧ line ∈ snapshot.nosonarLines ↔
        ∃ first ∈ document.counted ignoreHeader, ∃ second ∈ document.counted ignoreHeader,
          first ≠ second ∧ line ∈ commentLines .meaningful first ∧
            line ∈ commentLines .nosonar second := by
  obtain ⟨snapshot, measured⟩ := Document.exists_metrics analysed built ignoreHeader
  refine ⟨snapshot, measured, fun line => ?_⟩
  obtain ⟨meaningful, marked⟩ := (Document.lines_of_metrics measured).2 line
  rw [meaningful, marked]
  constructor
  · rintro ⟨⟨first, isFirst, here⟩, second, isSecond, there⟩
    refine ⟨first, isFirst, second, isSecond, ?_, here, there⟩
    rintro rfl
    exact absurd (sort_unique here there) (by decide)
  · rintro ⟨first, isFirst, second, isSecond, -, here, there⟩
    exact ⟨⟨first, isFirst, here⟩, second, isSecond, there⟩

/-- Two comments on one line, the second one with the marker. -/
def sharedLine : Document :=
  let comment := Layout.start.leaf .multiLineComment "/* a */" none ""
  let marked := comment.2.leaf .singleLineComment "// NOSONAR" none ""
  let root := marked.2.inner .compilationUnit [comment.1, marked.1] none ""
  root.2.finish root.1 none none

theorem marked_and_meaningful_sharedLine :
    sharedLine.language = analysedLanguage ∧ sharedLine.forest.Built ∧
      ∃ snapshot, sharedLine.metrics false = .ok snapshot ∧
        1 ∈ snapshot.commentLines ∧ 1 ∈ snapshot.nosonarLines := by
  have built : sharedLine.forest.Built :=
    .add (.add (.add .empty _ [] (by simp)) _ [] (by simp)) _ _ (by decide +kernel)
  have meet : ∃ first ∈ sharedLine.counted false, ∃ second ∈ sharedLine.counted false,
      first ≠ second ∧ 1 ∈ commentLines .meaningful first ∧ 1 ∈ commentLines .nosonar second := by
    decide +kernel
  obtain ⟨snapshot, measured, both⟩ := marked_and_meaningful_iff rfl built false
  exact ⟨rfl, built, snapshot, measured, (both 1).mpr meet⟩

namespace Layout

/-! ## Comments of a laid-out text -/

/-- The forest is made node by node, and no node but the given leaves has a text. -/
structure Textual (layout : Layout) (leaves : List Vertex) : Prop where
  built : layout.forest.Built
  silent : ∀ node ∈ layout.forest.nodes, node ∈ leaves ∨ node.text = none

theorem Textual.leaf {layout : Layout} {leaves : List Vertex} (textual : layout.Textual leaves)
    (kind : Kind) (text : String) (field : Option String) (grammarType : String) :
    (layout.leaf kind text field grammarType).2.Textual
      (leaves ++ [(layout.leaf kind text field grammarType).1]) := by
  obtain ⟨built, silent⟩ := textual
  have same : (layout.separate.emit text).forest = layout.forest := layout.forest_separate
  rw [← same] at built silent
  refine ⟨built.add _ [] (by simp), ?_⟩
  intro node member
  rcases Forest.mem_nodes_add.mp member with old | rfl
  · exact (silent node old).imp_left (List.mem_append_left _)
  · exact .inl (List.mem_append_right leaves List.mem_cons_self)

theorem Reached.textual {layout : Layout} {leaves : List Vertex}
    (reached : Reached layout leaves) : layout.Textual leaves := by
  induction reached with
  | start => exact ⟨.empty, by simp [Layout.start, Forest.empty]⟩
  | token _ text field induction => exact induction.leaf .token text field ""
  | identifier _ text field induction => exact induction.leaf .identifier text field ""
  | leaf _ kind text field grammarType induction => exact induction.leaf kind text field grammarType
  | inner _ kind children field grammarType known induction =>
      refine ⟨induction.built.add _ children known, ?_⟩
      intro node member
      rcases Forest.mem_nodes_add.mp member with old | rfl
      · exact induction.silent node old
      · exact .inr rfl
  | newline _ induction => exact ⟨induction.built, induction.silent⟩

/-- A leaf with a text covers as many lines as the text has line feeds, and one more. -/
theorem Reached.lines_of_text {layout : Layout} {leaves : List Vertex}
    (reached : Reached layout leaves) {node : Vertex} {text : String}
    (member : node ∈ layout.forest.nodes) (isText : node.text = some text) :
    1 ≤ node.span.startLine ∧
      node.span.endLine = node.span.startLine + text.toList.count '\n' ∧
      node.span.endLine ≤ Text.lineCount layout.source := by
  rcases reached.textual.silent node member with isLeaf | textless
  · obtain ⟨before, same, after, isSame, isSource, isSpan⟩ := reached.faithful.stand node isLeaf
    obtain rfl : text = same := Option.some.inj (isText.symm.trans isSame)
    rw [isSpan, isSource]
    simp only [Span.behind, Text.lineCount_append]
    have positive : 1 ≤ Text.lineCount before := by
      rw [Text.lineCount]
      omega
    omega
  · simp [isText] at textless

end Layout

/-- A reported line is the line of the file on which the text stands, within its comment, moved down
by the stray breaks of the comment before that text. So without stray breaks the reported lines are
lines of comments, and lines of the file; and a comment that ends in a line with text is reported as
many lines below its end as it has stray breaks. -/
theorem Layout.reported_lines_drift {layout : Layout} {leaves : List Vertex}
    (reached : Reached layout leaves) {root : Vertex} (created : root ∈ layout.forest.nodes)
    (language filePath : Option String)
    (analysed : (layout.finish root language filePath).language = analysedLanguage)
    (ignoreHeader : Bool) :
    ∃ snapshot, (layout.finish root language filePath).metrics ignoreHeader = .ok snapshot ∧
      (∀ line ∈ snapshot.commentLines ++ snapshot.nosonarLines,
        ∃ comment ∈ root.leaves, comment.kind.isComment ∧
          ∃ text before after, comment.text = some text ∧ text.toList = before ++ after ∧
            line = comment.span.startLine + before.count '\n' + Text.strayBreaks before ∧
            1 ≤ comment.span.startLine ∧
            comment.span.startLine + before.count '\n' ≤ comment.span.endLine ∧
            comment.span.endLine ≤ snapshot.lineCount) ∧
      ((∀ comment ∈ root.leaves, comment.kind.isComment → ∀ text, comment.text = some text →
          Text.strayBreaks text.toList = 0) →
        ∀ line ∈ snapshot.commentLines ++ snapshot.nosonarLines,
          (∃ comment ∈ root.leaves, comment.kind.isComment ∧
            comment.span.startLine ≤ line ∧ line ≤ comment.span.endLine) ∧
          1 ≤ line ∧ line ≤ snapshot.lineCount) ∧
      ∀ comment ∈ countedComments ignoreHeader root.leaves, ∀ text last,
        comment.text = some text → Text.EndsIn text.toList last → CommentLine.of last ≠ .blank →
          comment.span.endLine + Text.strayBreaks text.toList ∈
            snapshot.commentLines ++ snapshot.nosonarLines := by
  have built := reached.textual.built
  obtain ⟨snapshot, measured⟩ := Document.exists_metrics analysed built ignoreHeader
  obtain ⟨lineCount, reported⟩ := Document.lines_of_metrics measured
  have covered : ∀ comment ∈ root.leaves, ∀ text, comment.text = some text →
      1 ≤ comment.span.startLine ∧
        comment.span.endLine = comment.span.startLine + text.toList.count '\n' ∧
        comment.span.endLine ≤ snapshot.lineCount := by
    intro comment isLeaf text isText
    rw [Node.leaves, Node.walk_eq_preorder] at isLeaf
    have inTree := List.mem_of_mem_filter isLeaf
    have known := (built.coherent.mem_nodes_of_preorder created inTree).1
    rw [lineCount]
    exact reached.lines_of_text known isText
  refine ⟨snapshot, measured, ?_, ?_, ?_⟩
  · intro line listed
    obtain ⟨comment, isLeaf, isComment, sort, here⟩ := Document.exists_comment_of_line measured listed
    obtain ⟨text, before, after, isText, cut, isLine, -⟩ := cut_of_commentLines here
    obtain ⟨positive, covers, inFile⟩ := covered comment isLeaf text isText
    refine ⟨comment, isLeaf, isComment, text, before, after, isText, cut, isLine, positive, ?_,
      inFile⟩
    rw [covers, cut, List.count_append]
    omega
  · intro none line listed
    obtain ⟨comment, isLeaf, isComment, sort, here⟩ := Document.exists_comment_of_line measured listed
    obtain ⟨text, before, after, isText, cut, isLine, fewer⟩ := cut_of_commentLines here
    obtain ⟨positive, covers, inFile⟩ := covered comment isLeaf text isText
    rw [none comment isLeaf isComment text isText] at fewer
    rw [cut, List.count_append] at covers
    refine ⟨⟨comment, isLeaf, isComment, ?_, ?_⟩, ?_, ?_⟩ <;> omega
  · intro comment counted text last isText ends written
    obtain ⟨-, covers, -⟩ := covered comment (mem_leaves_of_counted counted).1 text isText
    have here := ending_mem_commentLines isText ends
    rw [Text.boundaries, Int.natCast_add, ← Int.add_assoc, ← covers] at here
    rw [List.mem_append, (reported _).1, (reported _).2]
    cases sort : CommentLine.of last with
    | blank => exact absurd sort written
    | meaningful => exact .inl ⟨comment, counted, sort ▸ here⟩
    | nosonar => exact .inr ⟨comment, counted, sort ▸ here⟩

/-- One comment, with a form feed in it. -/
def brokenComment : Vertex × Vertex × Layout :=
  let comment := Layout.start.leaf .multiLineComment "/* a\x0cb */" none ""
  let root := comment.2.inner .compilationUnit [comment.1] none ""
  (comment.1, root.1, root.2)

theorem Layout.reported_lines_drift_brokenComment :
    Reached brokenComment.2.2 [brokenComment.1] ∧
      brokenComment.2.1 ∈ brokenComment.2.2.forest.nodes ∧
      ∃ snapshot, (brokenComment.2.2.finish brokenComment.2.1 none none).metrics false = .ok snapshot ∧
        snapshot.lineCount = 1 ∧ 2 ∈ snapshot.commentLines ++ snapshot.nosonarLines := by
  have reached : Reached brokenComment.2.2 [brokenComment.1] :=
    .inner (.leaf .start .multiLineComment "/* a\x0cb */" none "") .compilationUnit _ none ""
      (by decide +kernel)
  have created : brokenComment.2.1 ∈ brokenComment.2.2.forest.nodes := by decide +kernel
  obtain ⟨snapshot, measured, -, -, ending⟩ :=
    reported_lines_drift reached created none none rfl false
  have lineCount : snapshot.lineCount = _ := (Document.lines_of_metrics measured).1
  have ends : Text.EndsIn "/* a\x0cb */".toList "b */".toList := by
    refine ⟨by decide +kernel, fun final isFinal => ?_⟩
    have isSlash : "/* a\x0cb */".toList.getLast? = some '/' := by decide +kernel
    obtain rfl := Option.some.inj (isSlash.symm.trans isFinal)
    decide
  refine ⟨reached, created, snapshot, measured, lineCount.trans (by decide +kernel), ?_⟩
  exact ending brokenComment.1 (by decide +kernel) "/* a\x0cb */" "b */".toList rfl ends
    (by decide +kernel)

end CodeMetrics
