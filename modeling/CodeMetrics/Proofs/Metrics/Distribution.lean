import CodeMetrics.Proofs.Metrics.Totals
import CodeMetrics.Proofs.Tree.Drafts

/-!
# The distribution of complexity

A value goes to the last bucket whose bound it reaches. If the bounds ascend, that is the one bucket
whose bound it reaches and whose next bound it does not, so that each count is the number of values in
an interval. The distribution of a file counts its functions by their flat complexity.
-/

namespace CodeMetrics

namespace Histogram

/-! ## The bucket of a value -/

/-- The value belongs into the bucket: it reaches the bound of the bucket, which the first one does not
ask for, and it does not reach the next bound, if there is one. -/
def belongs (ranges : List Int) (bucket : Nat) (value : Int) : Bool :=
  (bucket == 0 || ranges[bucket]?.any (· ≤ value)) && ranges[bucket + 1]?.all (value < ·)

theorem belongs_iff {ranges : List Int} {bucket : Nat} {value : Int} :
    belongs ranges bucket value ↔
      (bucket = 0 ∨ ∃ bound, ranges[bucket]? = some bound ∧ bound ≤ value) ∧
        ∀ next, ranges[bucket + 1]? = some next → value < next := by
  simp [belongs, Option.any_eq_true, Option.all_eq_true]

/-- Scanning the bounds from a position on ends at the last one that is reached, or at the best one so
far if none is. -/
theorem bucketFrom_cases (value : Int) (position best : Nat) (bounds : List Int) :
    (bucketFrom value position best bounds = best ∧ ∀ bound ∈ bounds, value < bound) ∨
      ∃ index, bucketFrom value position best bounds = position + index ∧
        (∃ bound, bounds[index]? = some bound ∧ bound ≤ value) ∧
        ∀ next, bounds[index + 1]? = some next → value < next := by
  induction bounds generalizing position best with
  | nil => exact .inl ⟨rfl, by simp⟩
  | cons bound bounds induction =>
      rw [bucketFrom]
      rcases induction (position + 1) (if bound ≤ value then position else best) with
        ⟨isBest, unreached⟩ | ⟨index, isIndex, reached, unreached⟩
      · by_cases reached : bound ≤ value
        · refine .inr ⟨0, ?_, ⟨bound, rfl, reached⟩, ?_⟩
          · rw [isBest, if_pos reached, Nat.add_zero]
          · intro next isNext
            exact unreached next (List.mem_of_getElem? isNext)
        · refine .inl ⟨by rw [isBest, if_neg reached], ?_⟩
          rw [List.forall_mem_cons]
          exact ⟨Int.not_le.mp reached, unreached⟩
      · refine .inr ⟨index + 1, ?_, reached, unreached⟩
        rw [isIndex]
        omega

/-- A value belongs into the bucket that it is put into. -/
theorem belongs_bucket (ranges : List Int) (value : Int) :
    belongs ranges (bucket ranges value) value := by
  rw [belongs_iff]
  rcases bucketFrom_cases value 0 0 ranges with ⟨isFirst, unreached⟩ | ⟨index, isIndex, reached, next⟩
  · rw [bucket, isFirst]
    exact ⟨.inl rfl, fun next isNext => unreached next (List.mem_of_getElem? isNext)⟩
  · rw [bucket, isIndex, Nat.zero_add]
    exact ⟨.inr reached, next⟩

theorem bucket_lt {ranges : List Int} (nonempty : ranges ≠ []) (value : Int) :
    bucket ranges value < ranges.length := by
  rcases bucketFrom_cases value 0 0 ranges with ⟨isFirst, -⟩ | ⟨index, isIndex, ⟨bound, there, -⟩, -⟩
  · rw [bucket, isFirst]
    exact List.length_pos_of_ne_nil nonempty
  · rw [bucket, isIndex, Nat.zero_add]
    exact (List.getElem?_eq_some_iff.mp there).1

/-- Among ascending bounds no value belongs into a later bucket as well. -/
theorem not_belongs_of_lt {ranges : List Int} (ascending : ranges.Pairwise (· < ·))
    {earlier later : Nat} {value : Int} (order : earlier < later)
    (isEarlier : belongs ranges earlier value) : ¬ belongs ranges later value := by
  intro isLater
  obtain ⟨-, unreached⟩ := belongs_iff.mp isEarlier
  rcases (belongs_iff.mp isLater).1 with isFirst | ⟨bound, there, reached⟩
  · omega
  · obtain ⟨inside, rfl⟩ := List.getElem?_eq_some_iff.mp there
    have between : earlier + 1 < ranges.length := by omega
    have below := unreached ranges[earlier + 1] (List.getElem?_eq_getElem between)
    rcases Nat.lt_or_eq_of_le order with further | next
    · have steps := List.pairwise_iff_getElem.mp ascending (earlier + 1) later between inside further
      omega
    · simp only [Nat.succ_eq_add_one] at next
      simp only [next] at below
      omega

theorem bucket_eq_iff {ranges : List Int} (ascending : ranges.Pairwise (· < ·)) {position : Nat}
    {value : Int} : bucket ranges value = position ↔ belongs ranges position value := by
  constructor
  · rintro rfl
    exact belongs_bucket ranges value
  · intro isThere
    have isBucket := belongs_bucket ranges value
    rcases Nat.lt_trichotomy (bucket ranges value) position with earlier | same | later
    · exact absurd isThere (not_belongs_of_lt ascending earlier isBucket)
    · exact same
    · exact absurd isBucket (not_belongs_of_lt ascending later isThere)

/-! ## Counts -/

/-- How many of the values go to a bucket. -/
def share (ranges values : List Int) (position : Nat) : Nat :=
  values.countP fun value => bucket ranges value == position

theorem share_cons (ranges values : List Int) (value : Int) (position : Nat) :
    share ranges (value :: values) position =
      share ranges values position + if bucket ranges value = position then 1 else 0 := by
  simp [share, List.countP_cons]

/-- One more value adds one to the count of its bucket. -/
theorem getElem?_count (ranges counts : List Int) (value : Int) (position : Nat) :
    (count ranges counts value)[position]? =
      counts[position]?.map (· + if bucket ranges value = position then 1 else 0) := by
  rw [count, List.getElem?_modify]
  cases counts[position]? with
  | none => rfl
  | some number => split <;> simp

/-- Counting values adds to each count the share of its bucket. -/
theorem getElem?_foldl_count (ranges values counts : List Int) (position : Nat) :
    (values.foldl (count ranges) counts)[position]? =
      counts[position]?.map (· + (share ranges values position : Int)) := by
  induction values generalizing counts with
  | nil => simp [share]
  | cons value values induction =>
      rw [List.foldl_cons, induction, getElem?_count, share_cons, Option.map_map]
      congr 1
      funext number
      simp only [Function.comp_apply, Nat.cast_add, Nat.cast_ite, Nat.cast_one, Nat.cast_zero]
      omega

/-- The counts of a histogram are the shares of its buckets. -/
theorem counts_ofValues (ranges values : List Int) :
    (ofValues ranges values).counts =
      (List.range ranges.length).map fun position => (share ranges values position : Int) := by
  apply List.ext_getElem?
  intro position
  rw [ofValues, getElem?_foldl_count, List.getElem?_map, List.getElem?_replicate]
  by_cases inside : position < ranges.length
  · rw [if_pos inside, List.getElem?_range inside]
    simp
  · rw [if_neg inside, List.getElem?_eq_none (by simpa using inside)]
    rfl

/-- The counts do not depend on the order of the values. -/
theorem ofValues_perm {ranges values others : List Int} (perm : values.Perm others) :
    ofValues ranges values = ofValues ranges others := by
  have counts : (ofValues ranges values).counts = (ofValues ranges others).counts := by
    simp only [counts_ofValues, share, perm.countP_eq]
  exact congrArg (Histogram.mk ranges) counts

/-- The counts of two lists together are the sums of their counts. -/
theorem counts_ofValues_append (ranges values others : List Int) :
    (ofValues ranges (values ++ others)).counts =
      List.zipWith (· + ·) (ofValues ranges values).counts (ofValues ranges others).counts := by
  simp only [counts_ofValues, share, List.countP_append, List.zipWith_map, List.zipWith_self,
    Nat.cast_add]

/-- One more value adds one to the total. -/
theorem sum_count {ranges counts : List Int} {value : Int}
    (inside : bucket ranges value < counts.length) :
    (count ranges counts value).sum = counts.sum + 1 := by
  rw [count]
  generalize bucket ranges value = position at inside ⊢
  induction counts generalizing position with
  | nil => simp at inside
  | cons number counts induction =>
      cases position with
      | zero =>
          simp only [List.modify_zero_cons, List.sum_cons]
          omega
      | succ position =>
          have rest := induction position (Nat.lt_of_succ_lt_succ inside)
          simp only [List.modify_succ_cons, List.sum_cons, rest]
          omega

theorem sum_foldl_count {ranges : List Int} (nonempty : ranges ≠ []) (values : List Int)
    {counts : List Int} (size : counts.length = ranges.length) :
    (values.foldl (count ranges) counts).sum = counts.sum + values.length := by
  induction values generalizing counts with
  | nil => simp
  | cons value values induction =>
      have inside : bucket ranges value < counts.length := size ▸ bucket_lt nonempty value
      have kept : (count ranges counts value).length = ranges.length := by
        rw [count, List.length_modify, size]
      rw [List.foldl_cons, induction kept, sum_count inside, List.length_cons]
      omega

/-- Every value is counted. -/
theorem total_ofValues {ranges : List Int} (nonempty : ranges ≠ []) (values : List Int) :
    (ofValues ranges values).total = values.length := by
  have size : (List.replicate ranges.length (0 : Int)).length = ranges.length :=
    List.length_replicate
  have nothing : (List.replicate ranges.length (0 : Int)).sum = 0 := by simp
  calc (ofValues ranges values).total
      = (List.replicate ranges.length (0 : Int)).sum + values.length :=
        sum_foldl_count nonempty values size
    _ = values.length := by rw [nothing, Int.zero_add]

/-- The histogram has a count for each bound, and each count is the number of values that belong into
the bucket. -/
structure Exact (histogram : Histogram) (ranges values : List Int) : Prop where
  bounds : histogram.ranges = ranges
  size : histogram.counts.length = ranges.length
  counts : ∀ position < ranges.length,
    histogram.counts[position]? = some (values.countP (belongs ranges position) : Int)
  total : histogram.total = values.length

theorem exact_ofValues {ranges : List Int} (nonempty : ranges ≠ [])
    (ascending : ranges.Pairwise (· < ·)) (values : List Int) :
    (ofValues ranges values).Exact ranges values where
  bounds := rfl
  size := by rw [counts_ofValues, List.length_map, List.length_range]
  counts := by
    intro position inside
    have same : share ranges values position = values.countP (belongs ranges position) := by
      apply List.countP_congr
      intro value _
      rw [beq_iff_eq, bucket_eq_iff ascending]
    rw [counts_ofValues, List.getElem?_map, List.getElem?_range inside, Option.map_some, same]
  total := total_ofValues nonempty values

theorem ofValues?_eq {ranges : List Int} (nonempty : ranges ≠ []) (values : List Int) :
    ofValues? ranges values = .ok (ofValues ranges values) := by
  rw [ofValues?, if_neg (by simpa using nonempty)]

end Histogram

/-! ## The complexity of functions -/

namespace Forest

/-- The node adds to the complexity of the functions that it is in: it increases complexity by its
kind, or it returns before the end of its function. -/
def addsComplexity (forest : Forest) (node : Vertex) : Bool :=
  node.kind.increasesComplexity ||
    match forest.isReturnButNotLast node with
    | .ok early => early
    | .error _ => false

/-- One more than the number of descendants that add to the complexity of a function. -/
def complexityOf (forest : Forest) (function : Vertex) : Nat :=
  1 + function.descendants.countP forest.addsComplexity

theorem flatComplexity_eq {forest : Forest} {nodes : List Vertex} {complexity : Nat}
    (measured : forest.flatComplexity nodes = .ok complexity) :
    complexity = 1 + nodes.countP forest.addsComplexity := by
  induction nodes generalizing complexity with
  | nil => exact (Except.ok.inj measured).symm
  | cons node nodes induction =>
      rw [flatComplexity] at measured
      cases returns : forest.isReturnButNotLast node with
      | error orphan => simp [returns, bind, Except.bind] at measured
      | ok early =>
          cases rest : forest.flatComplexity nodes with
          | error orphan => simp [returns, rest, bind, Except.bind] at measured
          | ok others =>
              have adds : forest.addsComplexity node = (node.kind.increasesComplexity || early) := by
                rw [addsComplexity, returns]
              rw [returns, rest] at measured
              rw [List.countP_cons, adds, ← Except.ok.inj measured, induction rest]
              split <;> omega

/-- The complexities that a pass counts are those of the functions of the tree, in pre-order. -/
theorem complexities_eq {forest : Forest} {functions : List Vertex} {complexities : List Int}
    (counted : List.Forall₂ (Tally.Complexity forest) functions complexities) :
    complexities = functions.map fun function => (forest.complexityOf function : Int) := by
  induction counted with
  | nil => rfl
  | cons head _ induction =>
      obtain ⟨complexity, measured, rfl⟩ := head
      rw [List.map_cons, ← induction, flatComplexity_eq measured, complexityOf]

end Forest

/-- The complexities of the functions of a document, in pre-order. -/
def Document.complexities (document : Document) : List Int :=
  (document.root.preorder.filter document.forest.isFunctionLike).map fun function =>
    (document.forest.complexityOf function : Int)

/-- The distribution of a file is the histogram of the complexities of its functions. -/
theorem Document.distribution_of_metrics {document : Document} {ignoreHeader : Bool}
    {snapshot : Snapshot} (measured : document.metrics ignoreHeader = .ok snapshot) :
    snapshot.functions = document.complexities.length ∧
      snapshot.distribution = .ofValues Histogram.functionRanges document.complexities := by
  obtain ⟨tally, undocumented, tallied, -, rfl⟩ := exists_tally_of_metrics measured
  rw [Node.walk_eq_preorder] at tallied
  obtain ⟨complexities, isList, counted⟩ := (Tally.advances_addAll tallied).functions
  have functions : tally.functions = document.complexities :=
    isList.trans (Forest.complexities_eq counted)
  rw [← functions]
  exact ⟨rfl, rfl⟩

/-- Histograms over bounds that ascend, and the one that the metrics of a file have. Each count is the
number of values from the bound of its bucket up to the next bound, the first bucket also taking what is
below and the last one all above. All values are counted, in whatever order they come, and the counts of
two lists together are the sums of their counts. The values of a file are the complexities of its
functions. -/
theorem histogram_counts_intervals :
    (∀ ranges : List Int, ranges ≠ [] → ranges.Pairwise (· < ·) → ∀ values, ∃ histogram,
      Histogram.ofValues? ranges values = .ok histogram ∧ histogram.Exact ranges values ∧
      (∀ others, values.Perm others → Histogram.ofValues? ranges others = .ok histogram) ∧
      ∀ others, ∃ second both,
        Histogram.ofValues? ranges others = .ok second ∧
        Histogram.ofValues? ranges (values ++ others) = .ok both ∧
        both.counts = List.zipWith (· + ·) histogram.counts second.counts) ∧
    ∀ (document : Document) (ignoreHeader : Bool), document.language = analysedLanguage →
      document.forest.Built → ∃ snapshot,
        document.metrics ignoreHeader = .ok snapshot ∧
        snapshot.distribution.total = snapshot.functions ∧
        ∀ position < Histogram.functionRanges.length,
          snapshot.distribution.counts[position]? =
            some (document.root.preorder.countP fun node =>
              document.forest.isFunctionLike node &&
                Histogram.belongs Histogram.functionRanges position
                  (document.forest.complexityOf node) : Int) := by
  constructor
  · intro ranges nonempty ascending values
    refine ⟨.ofValues ranges values, Histogram.ofValues?_eq nonempty values,
      Histogram.exact_ofValues nonempty ascending values, ?_, ?_⟩
    · intro others perm
      rw [Histogram.ofValues?_eq nonempty, Histogram.ofValues_perm perm]
    · intro others
      exact ⟨_, _, Histogram.ofValues?_eq nonempty others, Histogram.ofValues?_eq nonempty _,
        Histogram.counts_ofValues_append ranges values others⟩
  · intro document ignoreHeader analysed built
    obtain ⟨snapshot, measured⟩ := Document.exists_metrics analysed built ignoreHeader
    obtain ⟨functions, distribution⟩ := Document.distribution_of_metrics measured
    have isExact : snapshot.distribution.Exact Histogram.functionRanges document.complexities := by
      rw [distribution]
      exact Histogram.exact_ofValues (by decide) (by decide) document.complexities
    refine ⟨snapshot, measured, ?_, ?_⟩
    · rw [isExact.total, functions]
    · intro position inside
      rw [isExact.counts position inside, Document.complexities, List.countP_map, List.countP_filter]
      simp only [Function.comp_apply, Bool.and_comm]

/-- A method that returns early under an if, with a constructor in it that does not. -/
def earlyReturn : Draft :=
  .inner
    [.inner
      [.inner [.inner [.leaf 0 .token "return" none ""] 0 .returnStatement none ""]
          0 .ifStatement none "",
        .inner
          [.inner
            [.inner [.leaf 0 .token "return" none ""] 0 .returnStatement none "",
              .leaf 0 .token "end" none ""]
            0 .block none ""]
          0 .constructorDeclaration none "",
        .leaf 0 .token "end" none ""]
      0 .block none ""]
    0 .methodDeclaration none ""

theorem histogram_counts_intervals_earlyReturn :
    (∃ histogram, Histogram.ofValues? [0, 5, 10] [5, -3, 12, 4] = .ok histogram ∧
      histogram.counts[0]? = some 2 ∧ histogram.counts[1]? = some 1 ∧
      histogram.counts[2]? = some 1 ∧ histogram.total = 4) ∧
    earlyReturn.document.language = analysedLanguage ∧ earlyReturn.document.forest.Built ∧
    ∃ snapshot, earlyReturn.document.metrics false = .ok snapshot ∧
      snapshot.distribution.total = snapshot.functions ∧
      snapshot.distribution.counts[0]? = some 1 ∧ snapshot.distribution.counts[1]? = some 1 := by
  have built : earlyReturn.document.forest.Built := earlyReturn.isTree_document.1.built
  obtain ⟨histogram, isHistogram, isExact, -, -⟩ :=
    histogram_counts_intervals.1 [0, 5, 10] (by decide) (by decide) [5, -3, 12, 4]
  obtain ⟨snapshot, measured, total, counts⟩ :=
    histogram_counts_intervals.2 earlyReturn.document false rfl built
  refine ⟨⟨histogram, isHistogram, ?_, ?_, ?_, isExact.total⟩, rfl, built, snapshot, measured, total,
    ?_, ?_⟩
  · exact isExact.counts 0 (by decide)
  · exact isExact.counts 1 (by decide)
  · exact isExact.counts 2 (by decide)
  · exact (counts 0 (by decide)).trans (by decide +kernel)
  · exact (counts 1 (by decide)).trans (by decide +kernel)

end CodeMetrics
