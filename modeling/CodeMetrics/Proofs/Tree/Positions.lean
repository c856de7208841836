import CodeMetrics.Tree.Layout
import CodeMetrics.Proofs.Tree.Construction

/-!
# Positions in a laid-out text

Whatever is written, the cursor of a layout stands behind the text so far: it counts the bytes, the
line feeds, and the characters after the last of these. So each leaf is found in the finished text
where its span says, and the leaves stand in the order of their creation.
-/

namespace CodeMetrics

namespace Text

/-- The number of characters after the last line feed, or of all if there is none. -/
def column (text : List Char) : Nat :=
  (text.reverse.takeWhile fun character => character ≠ '\n').length

theorem column_concat (text : List Char) (character : Char) :
    column (text ++ [character]) = if character = '\n' then 0 else column text + 1 := by
  rw [column, List.reverse_concat, List.takeWhile_cons]
  by_cases ends : character = '\n'
  · simp [ends]
  · simp [ends, column]

theorem lineCount_append (left right : String) :
    lineCount (left ++ right) = lineCount left + right.toList.count '\n' := by
  rw [lineCount, lineCount, String.toList_append, List.count_append]
  omega

end Text

namespace Layout

/-! ## The cursor -/

/-- The cursor stands behind the text. -/
structure Settled (layout : Layout) : Prop where
  byte : layout.byte = layout.source.utf8ByteSize
  line : layout.line = Text.lineCount layout.source
  column : layout.column = Text.column layout.source.toList

theorem settled_start : start.Settled where
  byte := rfl
  line := rfl
  column := rfl

theorem forest_separate (layout : Layout) : layout.separate.forest = layout.forest := by
  rw [separate]
  split <;> rfl

/-- Advancing over a text leads from behind one text to behind both. -/
theorem foldl_advance (before text : List Char) :
    text.foldl advance (before.count '\n' + 1, Text.column before) =
      ((before ++ text).count '\n' + 1, Text.column (before ++ text)) := by
  induction text generalizing before with
  | nil => simp
  | cons character text induction =>
      have step : advance (before.count '\n' + 1, Text.column before) character =
          ((before ++ [character]).count '\n' + 1, Text.column (before ++ [character])) := by
        rw [Text.column_concat, advance]
        by_cases ends : character = '\n'
        · simp [ends]
        · simp [ends]
      rw [List.foldl_cons, step, induction, List.append_assoc, List.singleton_append]

theorem Settled.emit {layout : Layout} (settled : layout.Settled) (text : String) :
    (layout.emit text).Settled := by
  have position : text.toList.foldl advance (layout.line, layout.column) =
      ((layout.source.toList ++ text.toList).count '\n' + 1,
        Text.column (layout.source.toList ++ text.toList)) := by
    rw [settled.line, settled.column]
    exact foldl_advance layout.source.toList text.toList
  constructor
  case byte =>
    show layout.byte + text.utf8ByteSize = (layout.source ++ text).utf8ByteSize
    rw [settled.byte, String.utf8ByteSize_append]
  case line =>
    show (text.toList.foldl advance (layout.line, layout.column)).1 = _
    rw [position, Text.lineCount, Layout.emit, String.toList_append]
  case column =>
    show (text.toList.foldl advance (layout.line, layout.column)).2 = _
    rw [position, Layout.emit, String.toList_append]

end Layout

/-! ## Leaves in a text -/

/-- The span of a text that stands behind another. -/
def Span.behind (before text : String) : Span where
  startByte := before.utf8ByteSize
  endByte := (before ++ text).utf8ByteSize
  startLine := Text.lineCount before
  startColumn := Text.column before.toList
  endLine := Text.lineCount (before ++ text)
  endColumn := Text.column (before ++ text).toList

/-- The text of the leaf stands in the source where the span says. -/
def Node.StandsIn (leaf : Vertex) (source : String) : Prop :=
  ∃ before text after, leaf.text = some text ∧ source = before ++ text ++ after ∧
    leaf.span = .behind before text

theorem Node.StandsIn.append {leaf : Vertex} {source : String} (stands : leaf.StandsIn source)
    (more : String) : leaf.StandsIn (source ++ more) := by
  obtain ⟨before, text, after, isText, rfl, isSpan⟩ := stands
  exact ⟨before, text, after ++ more, isText, String.append_assoc, isSpan⟩

/-- The bytes between the ends of a text that stands behind another are its own. -/
theorem extract_behind (before text after : String) :
    (before ++ text ++ after).toUTF8.extract (Span.behind before text).startByte.toNat
      (Span.behind before text).endByte.toNat = text.toUTF8 := by
  have bytes : (before ++ text ++ after).toUTF8 =
      (before.toUTF8 ++ text.toUTF8) ++ after.toUTF8 := by
    simp only [String.toUTF8, String.toByteArray_append]
  have size : (before ++ text).utf8ByteSize = (before.toUTF8 ++ text.toUTF8).size := by
    rw [String.utf8ByteSize_append, ByteArray.size_append]
    rfl
  show ByteArray.extract _ before.utf8ByteSize (before ++ text).utf8ByteSize = _
  rw [bytes, size, ByteArray.extract_append_size_left]
  exact ByteArray.extract_append_eq_right rfl ByteArray.size_append

namespace Layout

/-! ## Sequences of calls -/

/-- The layout is reached by a sequence of calls, which created the given leaves in this order. A node
may be put over any nodes that are there. -/
inductive Reached : Layout → List Vertex → Prop where
  | start : Reached .start []
  | token {layout : Layout} {leaves : List Vertex} (reached : Reached layout leaves)
      (text : String) (field : Option String) :
      Reached (layout.token text field).2 (leaves ++ [(layout.token text field).1])
  | identifier {layout : Layout} {leaves : List Vertex} (reached : Reached layout leaves)
      (text : String) (field : Option String) :
      Reached (layout.identifier text field).2 (leaves ++ [(layout.identifier text field).1])
  | leaf {layout : Layout} {leaves : List Vertex} (reached : Reached layout leaves) (kind : Kind)
      (text : String) (field : Option String) (grammarType : String) :
      Reached (layout.leaf kind text field grammarType).2
        (leaves ++ [(layout.leaf kind text field grammarType).1])
  | inner {layout : Layout} {leaves : List Vertex} (reached : Reached layout leaves) (kind : Kind)
      (children : List Vertex) (field : Option String) (grammarType : String)
      (known : ∀ child ∈ children, child ∈ layout.forest.nodes) :
      Reached (layout.inner kind children field grammarType).2 leaves
  | newline {layout : Layout} {leaves : List Vertex} (reached : Reached layout leaves) :
      Reached layout.newline leaves

/-- What the calls keep up about the leaves and the nodes so far. -/
structure Faithful (layout : Layout) (leaves : List Vertex) : Prop where
  settled : layout.Settled
  stand : ∀ leaf ∈ leaves, leaf.StandsIn layout.source
  passed : ∀ leaf ∈ leaves, leaf.span.endByte ≤ layout.byte
  ordered : leaves.Pairwise fun first second => first.span.endByte ≤ second.span.startByte
  /-- No node ends below the line of the cursor. -/
  above : ∀ node ∈ layout.forest.nodes, node.span.endLine ≤ layout.line

theorem faithful_start : start.Faithful [] where
  settled := settled_start
  stand := by simp
  passed := by simp
  ordered := List.Pairwise.nil
  above := by simp [start, Forest.empty]

namespace Faithful

variable {layout : Layout} {leaves : List Vertex}

/-- Writing moves the cursor on and leaves alone what is there. -/
theorem emit (faithful : layout.Faithful leaves) (text : String) :
    (layout.emit text).Faithful leaves := by
  have settled := faithful.settled.emit text
  constructor
  case settled => exact settled
  case stand =>
    intro leaf member
    exact (faithful.stand leaf member).append text
  case passed =>
    intro leaf member
    have before := faithful.passed leaf member
    have byte : (layout.emit text).byte = layout.byte + text.utf8ByteSize := rfl
    omega
  case ordered => exact faithful.ordered
  case above =>
    intro node member
    have before := faithful.above node member
    have line : (layout.emit text).line = layout.line + text.toList.count '\n' := by
      rw [settled.line, faithful.settled.line]
      exact Text.lineCount_append layout.source text
    omega

theorem separate (faithful : layout.Faithful leaves) : layout.separate.Faithful leaves := by
  rw [Layout.separate]
  split
  · exact faithful.emit " "
  · exact faithful

/-- A node that ends no lower than the cursor may be created. -/
theorem place (faithful : layout.Faithful leaves) {attributes : Attributes}
    (children : List Vertex) (above : attributes.span.endLine ≤ layout.line) :
    (layout.place attributes children).2.Faithful leaves where
  settled := ⟨faithful.settled.byte, faithful.settled.line, faithful.settled.column⟩
  stand := faithful.stand
  passed := faithful.passed
  ordered := faithful.ordered
  above node member := by
    rcases Forest.mem_nodes_add.mp member with old | rfl
    · exact faithful.above node old
    · exact above

theorem leaf (faithful : layout.Faithful leaves) (kind : Kind) (text : String)
    (field : Option String) (grammarType : String) :
    (layout.leaf kind text field grammarType).2.Faithful
      (leaves ++ [(layout.leaf kind text field grammarType).1]) := by
  have before := faithful.separate
  have after := before.emit text
  have span : (layout.leaf kind text field grammarType).1.span =
      .behind layout.separate.source text := by
    show layout.separate.spanTo (layout.separate.emit text) = _
    rw [spanTo, Span.behind, before.settled.byte, before.settled.line, before.settled.column,
      after.settled.byte, after.settled.line, after.settled.column]
    rfl
  have placed : (layout.leaf kind text field grammarType).2.Faithful leaves :=
    after.place [] (Int.le_refl _)
  constructor
  case settled => exact placed.settled
  case stand =>
    intro leaf member
    rcases List.mem_append.mp member with old | new
    · exact placed.stand leaf old
    · obtain rfl := List.mem_singleton.mp new
      refine ⟨layout.separate.source, text, "", rfl, ?_, span⟩
      rw [String.append_empty]
      rfl
  case passed =>
    intro leaf member
    rcases List.mem_append.mp member with old | new
    · exact placed.passed leaf old
    · obtain rfl := List.mem_singleton.mp new
      exact Int.le_refl _
  case ordered =>
    refine List.pairwise_append.mpr ⟨faithful.ordered, List.pairwise_singleton _ _, ?_⟩
    intro first member second new
    obtain rfl := List.mem_singleton.mp new
    exact before.passed first member
  case above => exact placed.above

theorem inner (faithful : layout.Faithful leaves) (kind : Kind) {children : List Vertex}
    (field : Option String) (grammarType : String)
    (known : ∀ child ∈ children, child ∈ layout.forest.nodes) :
    (layout.inner kind children field grammarType).2.Faithful leaves := by
  apply faithful.place children
  show (layout.spanOf children).endLine ≤ layout.line
  rw [spanOf]
  split
  · rename_i first last _ isLast
    exact faithful.above last (known last (List.mem_of_getLast? isLast))
  · exact Int.le_refl _

end Faithful

theorem Reached.faithful {layout : Layout} {leaves : List Vertex}
    (reached : Reached layout leaves) : layout.Faithful leaves := by
  induction reached with
  | start => exact faithful_start
  | token _ text field induction => exact induction.leaf .token text field ""
  | identifier _ text field induction => exact induction.leaf .identifier text field ""
  | leaf _ kind text field grammarType induction => exact induction.leaf kind text field grammarType
  | inner _ kind children field grammarType known induction =>
      exact induction.inner kind field grammarType known
  | newline _ induction => exact induction.emit "\n"

/-! ## The finished document -/

/-- A finished layout is faithful to its text. The source has the text of each leaf between the bytes
of its span, the lines and columns of the span count the line feeds before its ends and the characters
after the last of these, the leaves follow each other in the order of creation, and no node ends below
the last line. -/
theorem finish_faithful {layout : Layout} {leaves : List Vertex} (reached : Reached layout leaves)
    (root : Vertex) (language filePath : Option String) :
    (∀ leaf ∈ leaves, ∃ before text after,
        leaf.text = some text ∧
        (layout.finish root language filePath).source = before ++ text ++ after ∧
        leaf.span.startByte = before.utf8ByteSize ∧
        leaf.span.endByte = (before ++ text).utf8ByteSize ∧
        (layout.finish root language filePath).source.toUTF8.extract
          leaf.span.startByte.toNat leaf.span.endByte.toNat = text.toUTF8 ∧
        leaf.span.startLine = 1 + before.toList.count '\n' ∧
        leaf.span.startColumn = Text.column before.toList ∧
        leaf.span.endLine = 1 + (before ++ text).toList.count '\n' ∧
        leaf.span.endColumn = Text.column (before ++ text).toList) ∧
      (leaves.Pairwise fun first second => first.span.endByte ≤ second.span.startByte) ∧
      ∀ node ∈ (layout.finish root language filePath).forest.nodes,
        node.span.endLine ≤ (layout.finish root language filePath).lineCount := by
  have faithful := reached.faithful
  refine ⟨?_, faithful.ordered, ?_⟩
  · intro leaf member
    obtain ⟨before, text, after, isText, isSource, isSpan⟩ := faithful.stand leaf member
    have lineOf : ∀ text : String, (Text.lineCount text : Int) = 1 + text.toList.count '\n' := by
      intro text
      rw [Text.lineCount]
      omega
    refine ⟨before, text, after, isText, isSource, ?_⟩
    have source : (layout.finish root language filePath).source = before ++ text ++ after := isSource
    rw [source, isSpan]
    exact ⟨rfl, rfl, extract_behind before text after, lineOf before, rfl, lineOf _, rfl⟩
  · intro node member
    have above := faithful.above node member
    rw [faithful.settled.line] at above
    exact above

/-- A comment over two lines with a letter of two bytes, then an empty token on a line of its own. -/
def commentedToken : Vertex × Vertex × Layout :=
  let comment := start.leaf .multiLineComment "/* é\n*/" none "comment"
  let token := comment.2.newline.token "" (some "name")
  (comment.1, token.1, token.2)

theorem finish_faithful_commentedToken :
    Reached commentedToken.2.2 [commentedToken.1, commentedToken.2.1] ∧
      (∃ before text after,
        commentedToken.2.1.text = some text ∧
        (commentedToken.2.2.finish commentedToken.1 none none).source = before ++ text ++ after ∧
        commentedToken.2.1.span.startByte = before.utf8ByteSize ∧
        commentedToken.2.1.span.startLine = 1 + before.toList.count '\n') ∧
      (commentedToken.2.2.finish commentedToken.1 none none).source.toUTF8.extract
        commentedToken.1.span.startByte.toNat commentedToken.1.span.endByte.toNat =
          "/* é\n*/".toUTF8 ∧
      commentedToken.1.span.endByte ≤ commentedToken.2.1.span.startByte := by
  have reached : Reached commentedToken.2.2 [commentedToken.1, commentedToken.2.1] :=
    .token (.newline (.leaf .start .multiLineComment "/* é\n*/" none "comment")) "" (some "name")
  obtain ⟨stand, ordered, -⟩ := finish_faithful reached commentedToken.1 none none
  obtain ⟨before, text, after, isText, isSource, startByte, -, -, startLine, -⟩ :=
    stand commentedToken.2.1 (by simp)
  obtain ⟨-, comment, -, isComment, -, -, -, bytes, -⟩ := stand commentedToken.1 (by simp)
  obtain rfl : "/* é\n*/" = comment := Option.some.inj isComment
  exact ⟨reached, ⟨before, text, after, isText, isSource, startByte, startLine⟩, bytes,
    by simpa using ordered⟩

end Layout

end CodeMetrics
