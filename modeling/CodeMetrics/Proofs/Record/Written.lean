import CodeMetrics.Metrics.Snapshot

/-!
# Records written out

A finished record, written out field by field, passes the checks of its own reader and is read back
unchanged. A set of nodes has no written form, so a snapshot is written without its public surface.
-/

namespace CodeMetrics

/-! ## Fields and items -/

namespace Reader

theorem required_eq {α : Type} {entries : List (String × Value)} {name : String} {value : Value}
    {read : Value → Checked α} {item : α} (written : Value.get? name entries = some value)
    (reads : read value = .ok item) : required entries name read = .ok item := by
  simp only [required, written, reads, Checked.under]

theorem optional_eq {α : Type} {entries : List (String × Value)} {name : String} {value : Value}
    {default : α} {read : Value → Checked α} {item : α}
    (written : Value.get? name entries = some value) (reads : read value = .ok item) :
    optional entries name default read = .ok item := by
  simp only [optional, written, reads, Checked.under]

theorem text_eq (text : String) : Reader.text (.text text) = .ok text := rfl

theorem integerFrom_eq {bound number : Int} (within : bound ≤ number) :
    integerFrom bound (.integer number) = .ok number := by
  change (if bound ≤ number then .ok number else Checked.fail (.below bound)) = _
  exact if_pos within

theorem natural_eq (number : Nat) : natural (.integer number) = .ok number := by
  rw [natural, integerFrom_eq (Int.natCast_nonneg number)]
  rfl

section

variable {α : Type} {read : Value → Checked α} {write : α → Value}

theorem items_map (position : Nat) {list : List α}
    (reads : ∀ item ∈ list, read (write item) = .ok item) :
    items read position (list.map write) = (list, []) := by
  induction list generalizing position with
  | nil => rfl
  | cons item list induction =>
      have first := reads item List.mem_cons_self
      have rest := induction (position + 1) fun later member =>
        reads later (List.mem_cons_of_mem item member)
      simp only [List.map_cons, items, first, rest, Checked.under]

theorem collection_map (fault : Fault) {list : List α}
    (reads : ∀ item ∈ list, read (write item) = .ok item) :
    collection fault read (.list (list.map write)) = .ok list := by
  simp [collection, items_map 0 reads]

theorem nonemptyTuple_map {list : List α} (nonempty : list ≠ [])
    (reads : ∀ item ∈ list, read (write item) = .ok item) :
    nonemptyTuple read (.list (list.map write)) = .ok list := by
  simp [nonemptyTuple, items_map 0 reads, nonempty]

end

end Reader

theorem LineSet.ofList_of_ascending {lines : List Int} (ascending : lines.Pairwise (· < ·)) :
    ofList lines = lines := by
  induction lines with
  | nil => rfl
  | cons first rest induction =>
      obtain ⟨below, ascending⟩ := List.pairwise_cons.mp ascending
      rw [ofList, List.foldr_cons, ← ofList, induction ascending]
      cases rest with
      | nil => rfl
      | cons second rest => rw [insert, if_pos (below second List.mem_cons_self)]

/-! ## Declarations -/

/-- The six entries of a span, in order. -/
def Span.written (span : Span) : Value :=
  .list [.integer span.startByte, .integer span.endByte, .integer span.startLine,
    .integer span.startColumn, .integer span.endLine, .integer span.endColumn]

theorem Reader.span_written (span : Span) : Reader.span span.written = .ok span := rfl

theorem Category.read_name (category : Category) : read (.text category.name) = .ok category := by
  cases category <;> rfl

/-- The fields of an increment. -/
def Increment.written (increment : Increment) : List (String × Value) :=
  [("location", increment.location.written), ("magnitude", .integer increment.magnitude),
    ("message", .text increment.message)]

theorem Increment.read_written {increment : Increment} (positive : 1 ≤ increment.magnitude) :
    read increment.written = .ok increment := by
  rw [read, Reader.required_eq rfl (Reader.span_written increment.location),
    Reader.required_eq rfl (Reader.integerFrom_eq positive),
    Reader.required_eq rfl (Reader.text_eq increment.message)]
  rfl

/-- The fields of a declaration. -/
def Declaration.written (declaration : Declaration) : List (String × Value) :=
  [("category", .text declaration.category.name), ("name", .text declaration.name),
    ("location", declaration.location.written), ("score", .integer declaration.score),
    ("threshold", .integer declaration.threshold),
    ("increments", .list (declaration.increments.map fun increment => .object increment.written))]

theorem Declaration.read_written {declaration : Declaration} (nonnegative : 0 ≤ declaration.score)
    (positive : ∀ increment ∈ declaration.increments, 1 ≤ increment.magnitude) :
    read declaration.written = .ok declaration := by
  have increments : Increment.readAll (.list (declaration.increments.map fun increment =>
      .object increment.written)) = .ok declaration.increments :=
    Reader.collection_map .tupleExpected fun increment member =>
      Increment.read_written (positive increment member)
  rw [read, Reader.required_eq rfl (Category.read_name declaration.category),
    Reader.required_eq rfl (Reader.text_eq declaration.name),
    Reader.required_eq rfl (Reader.span_written declaration.location),
    Reader.required_eq rfl (Reader.integerFrom_eq nonnegative),
    Reader.required_eq rfl (Reader.natural_eq declaration.threshold),
    Reader.optional_eq rfl increments]
  rfl

/-! ## Snapshots -/

/-- The fields of a histogram. -/
def Histogram.written (histogram : Histogram) : List (String × Value) :=
  [("ranges", .list (histogram.ranges.map .integer)),
    ("counts", .list (histogram.counts.map .integer))]

theorem Histogram.read_written {histogram : Histogram} (nonempty : histogram.ranges ≠ []) :
    read histogram.written = .ok histogram := by
  have ranges : Reader.nonemptyTuple Reader.integer (.list (histogram.ranges.map .integer)) =
      .ok histogram.ranges := Reader.nonemptyTuple_map nonempty fun _ _ => rfl
  have counts : Reader.collection .tupleExpected Reader.integer
      (.list (histogram.counts.map .integer)) = .ok histogram.counts :=
    Reader.collection_map .tupleExpected fun _ _ => rfl
  rw [read, Reader.required_eq rfl ranges, Reader.required_eq rfl counts]
  rfl

namespace Snapshot

/-- The fields of a snapshot but for the public surface. -/
def written (snapshot : Snapshot) : List (String × Value) :=
  [("file_path", .text snapshot.filePath), ("language", .text snapshot.language),
    ("line_count", .integer snapshot.lineCount),
    ("code_lines", .list (snapshot.codeLines.map .integer)),
    ("comment_lines", .list (snapshot.commentLines.map .integer)),
    ("nosonar_lines", .list (snapshot.nosonarLines.map .integer)),
    ("statements", .integer snapshot.statements), ("classes", .integer snapshot.classes),
    ("functions", .integer snapshot.functions), ("complexity", .integer snapshot.complexity),
    ("public_undocumented_api", .integer snapshot.publicUndocumentedApi),
    ("function_complexity_distribution", .object snapshot.distribution.written)]

theorem readLines_eq {lines : List Int} (ascending : lines.Pairwise (· < ·)) :
    readLines (.list (lines.map .integer)) = .ok lines := by
  have items : Reader.collection .setExpected Reader.integer (.list (lines.map .integer)) =
      .ok lines := Reader.collection_map .setExpected fun _ _ => rfl
  rw [readLines, items, Checked.map, LineSet.ofList_of_ascending ascending]

/-- The sets of lines are in order, and the histogram has buckets. -/
structure Orderly (snapshot : Snapshot) : Prop where
  codeLines : snapshot.codeLines.Pairwise (· < ·)
  commentLines : snapshot.commentLines.Pairwise (· < ·)
  nosonarLines : snapshot.nosonarLines.Pairwise (· < ·)
  ranges : snapshot.distribution.ranges ≠ []

theorem read_written {snapshot : Snapshot} (orderly : snapshot.Orderly) :
    read snapshot.written = .ok { snapshot with publicApi := [] } := by
  have distribution : Reader.record Histogram.recordName Histogram.read
      (.object snapshot.distribution.written) = .ok snapshot.distribution :=
    Histogram.read_written orderly.ranges
  have surface : Reader.optional snapshot.written "public_api" [] readNodes = .ok [] := rfl
  rw [read, Reader.required_eq rfl (Reader.text_eq snapshot.filePath),
    Reader.required_eq rfl (Reader.text_eq snapshot.language),
    Reader.optional_eq rfl (Reader.natural_eq snapshot.lineCount),
    Reader.optional_eq rfl (readLines_eq orderly.codeLines),
    Reader.optional_eq rfl (readLines_eq orderly.commentLines),
    Reader.optional_eq rfl (readLines_eq orderly.nosonarLines),
    Reader.optional_eq rfl (Reader.natural_eq snapshot.statements),
    Reader.optional_eq rfl (Reader.natural_eq snapshot.classes),
    Reader.optional_eq rfl (Reader.natural_eq snapshot.functions),
    Reader.optional_eq rfl (Reader.natural_eq snapshot.complexity), surface,
    Reader.optional_eq rfl (Reader.natural_eq snapshot.publicUndocumentedApi),
    Reader.optional_eq rfl distribution]
  rfl

end Snapshot

end CodeMetrics
