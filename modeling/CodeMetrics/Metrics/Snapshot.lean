import CodeMetrics.AnalysisError
import CodeMetrics.Cognitive.Findings
import CodeMetrics.Metrics.Histogram
import CodeMetrics.Metrics.LineSet
import CodeMetrics.Metrics.PublicSurface
import CodeMetrics.Text.Alphanumeric
import CodeMetrics.Text.Lines

/-!
# Metrics of a file

One pass over the tree counts lines, statements, classes, functions and complexity; the public surface
is found from the top down.
-/

namespace CodeMetrics

/-- The metrics of a file. -/
structure Snapshot where
  filePath : String
  language : String
  lineCount : Nat
  codeLines : List Int
  commentLines : List Int
  nosonarLines : List Int
  statements : Nat
  classes : Nat
  functions : Nat
  complexity : Nat
  publicApi : List Vertex
  publicUndocumentedApi : Nat
  distribution : Histogram

namespace Snapshot

/-- The name of the record. -/
def recordName : String := "MetricsSnapshot"

/-- A set of lines. -/
def readLines : Value → Checked (List Int) := fun value =>
  (Reader.collection .setExpected Reader.integer value).map LineSet.ofList

/-- A set of nodes, which no loosely typed value can give. -/
def readNodes : Value → Checked (List Vertex) :=
  Reader.collection .setExpected fun _ => Checked.fail (.instanceExpected "SyntaxNode")

/-- A snapshot from the fields of a record. -/
def read (entries : List (String × Value)) : Checked Snapshot :=
  ((Reader.required entries "file_path" Reader.text).map Snapshot.mk).ap
    (Reader.required entries "language" Reader.text)
    |>.ap (Reader.optional entries "line_count" 0 Reader.natural)
    |>.ap (Reader.optional entries "code_lines" [] readLines)
    |>.ap (Reader.optional entries "comment_lines" [] readLines)
    |>.ap (Reader.optional entries "nosonar_lines" [] readLines)
    |>.ap (Reader.optional entries "statements" 0 Reader.natural)
    |>.ap (Reader.optional entries "classes" 0 Reader.natural)
    |>.ap (Reader.optional entries "functions" 0 Reader.natural)
    |>.ap (Reader.optional entries "complexity" 0 Reader.natural)
    |>.ap (Reader.optional entries "public_api" [] readNodes)
    |>.ap (Reader.optional entries "public_undocumented_api" 0 Reader.natural)
    |>.ap (Reader.optional entries "function_complexity_distribution"
      (Histogram.ofValues Histogram.functionRanges [])
      (Reader.record Histogram.recordName Histogram.read))

end Snapshot

/-! ## Comment lines -/

/-- The mark of a comment line that switches findings off. -/
def nosonarMarker : String := "NOSONAR"

/-- What one line of a comment is. -/
inductive CommentLine where
  | nosonar
  | meaningful
  | blank
deriving DecidableEq, Repr

/-- A line with the marker, else a line with a letter or a digit, else a blank one. -/
def CommentLine.of (line : List Char) : CommentLine :=
  if Text.occursIn nosonarMarker.toList line then .nosonar
  else if line.any Text.isAlphanumeric then .meaningful
  else .blank

/-- The numbered lines of a comment that are of the given sort. -/
def commentLines (sort : CommentLine) (comment : Vertex) : List Int :=
  ((Text.splitLines (comment.text.getD "").toList).zipIdx.filter fun line =>
    CommentLine.of line.1 = sort).map fun line => comment.span.startLine + line.2

/-! ## Counting -/

/-- One more than the number of complexity-increasing constructs and early returns in a list. -/
def Forest.flatComplexity (forest : Forest) : List Vertex → Except Detached Nat
  | [] => .ok 1
  | node :: nodes => do
      let early ← forest.isReturnButNotLast node
      let rest ← forest.flatComplexity nodes
      return if node.kind.increasesComplexity || early then rest + 1 else rest

/-- The flat complexity of a function. -/
def Forest.functionComplexity (forest : Forest) (node : Vertex) : Except Detached Nat :=
  forest.flatComplexity node.descendants

/-- The counts so far. -/
structure Tally where
  codeLines : List Int
  commentLines : List Int
  nosonarLines : List Int
  statements : Nat
  classes : Nat
  complexity : Nat
  /-- The complexity of each function. -/
  functions : List Int
  /-- A leaf that is code has been seen. -/
  seenCode : Bool

namespace Tally

/-- Nothing counted. -/
def empty : Tally := ⟨[], [], [], 0, 0, 0, [], false⟩

/-- Count the lines of a leaf. -/
def addLeaf (tally : Tally) (ignoreHeader : Bool) (leaf : Vertex) : Tally :=
  if leaf.kind.isComment then
    if tally.seenCode || !ignoreHeader then
      { tally with
        commentLines := tally.commentLines ++ CodeMetrics.commentLines .meaningful leaf
        nosonarLines := tally.nosonarLines ++ CodeMetrics.commentLines .nosonar leaf }
    else tally
  else if (leaf.text.getD "").isEmpty then tally
  else { tally with codeLines := tally.codeLines ++ leaf.span.lines, seenCode := true }

/-- Count a node as a statement, a class and a complexity-increasing construct. -/
def addKind (tally : Tally) (kind : Kind) : Tally :=
  { tally with
    statements := tally.statements + kind.isStatement.toNat
    classes := tally.classes + kind.isClassLike.toNat
    complexity := tally.complexity + kind.increasesComplexity.toNat }

/-- Count one node. -/
def add (tally : Tally) (forest : Forest) (ignoreHeader : Bool) (node : Vertex) :
    Except Detached Tally := do
  let counted := (if node.isLeaf then tally.addLeaf ignoreHeader node else tally).addKind node.kind
  if forest.isFunctionLike node then
    let complexity ← forest.functionComplexity node
    return { counted with functions := counted.functions ++ [(complexity : Int)] }
  else return counted

/-- Count a list of nodes. -/
def addAll (tally : Tally) (forest : Forest) (ignoreHeader : Bool) :
    List Vertex → Except Detached Tally
  | [] => .ok tally
  | node :: nodes => do
      let counted ← tally.add forest ignoreHeader node
      counted.addAll forest ignoreHeader nodes

end Tally

/-- The number of declarations in a list that have no documentation comment. -/
def Forest.countUndocumented (forest : Forest) : List Vertex → Except Detached Nat
  | [] => .ok 0
  | node :: nodes => do
      let documented ← forest.isDocumented node
      let rest ← forest.countUndocumented nodes
      return if documented then rest else rest + 1

/-- The metrics of a document of the right language. -/
def Document.snapshot (document : Document) (ignoreHeader : Bool) : Except Detached Snapshot := do
  let tally ← Tally.empty.addAll document.forest ignoreHeader document.root.walk
  let surface := publicSurface document.root
  let undocumented ← document.forest.countUndocumented surface
  return {
    filePath := document.filePath
    language := document.language
    lineCount := document.lineCount
    codeLines := LineSet.ofList tally.codeLines
    commentLines := LineSet.ofList tally.commentLines
    nosonarLines := LineSet.ofList tally.nosonarLines
    statements := tally.statements
    classes := tally.classes
    functions := tally.functions.length
    complexity := tally.complexity
    publicApi := surface
    publicUndocumentedApi := undocumented
    distribution := Histogram.ofValues Histogram.functionRanges tally.functions }

/-- The metrics of a document. -/
def Document.metrics (document : Document) (ignoreHeader : Bool) : Except AnalysisError Snapshot :=
  if document.language = analysedLanguage then
    (document.snapshot ignoreHeader).mapError .detached
  else .error (.languageMismatch analysedLanguage document.language)

/-- The public surface of a document of the right language. -/
def Document.publicApi (document : Document) : Except AnalysisError (List Vertex) :=
  if document.language = analysedLanguage then .ok (publicSurface document.root)
  else .error (.languageMismatch analysedLanguage document.language)

/-- What a measurement leaves in the log. -/
def metricsEvents : Except AnalysisError Snapshot → List Event
  | .error failure => failure.events
  | .ok snapshot =>
      [{ level := .debug
         message := "Computed file metrics"
         fields := [("component", .text "metrics_calculator"),
           ("file_path", .text snapshot.filePath),
           ("lines_of_code", .integer snapshot.codeLines.length),
           ("statements", .integer snapshot.statements), ("classes", .integer snapshot.classes),
           ("functions", .integer snapshot.functions),
           ("complexity", .integer snapshot.complexity)] }]

end CodeMetrics
