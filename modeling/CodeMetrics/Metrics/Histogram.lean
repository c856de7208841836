import CodeMetrics.Record.Reader

/-!
# Histograms

A histogram counts values in buckets, each given by its lower bound. A value lands in the last bucket
whose bound it reaches, and in the first one if it reaches none.
-/

namespace CodeMetrics

/-- Lower bounds of buckets, with a count for each. -/
structure Histogram where
  ranges : List Int
  counts : List Int
deriving DecidableEq, Repr

/-- Why values cannot be counted. -/
inductive HistogramError where
  /-- There is a value and no bucket. -/
  | noBucket
  | rejected (rejection : Rejection)
deriving DecidableEq, Repr

/-- The wording of a failure. -/
def HistogramError.message : HistogramError → String
  | .noBucket => "list index out of range"
  | .rejected rejection => rejection.record

namespace Histogram

/-- The name of the record. -/
def recordName : String := "ComplexityDistribution"

/-- The usual buckets for the complexity of functions. -/
def functionRanges : List Int := [1, 2, 4, 6, 8, 10, 12]

/-- The last position, from `position` on, whose bound the value reaches, or `best`. -/
def bucketFrom (value : Int) (position best : Nat) : List Int → Nat
  | [] => best
  | bound :: bounds =>
      bucketFrom value (position + 1) (if bound ≤ value then position else best) bounds

/-- The bucket of a value. -/
def bucket (ranges : List Int) (value : Int) : Nat := bucketFrom value 0 0 ranges

/-- The counts with one more value. -/
def count (ranges : List Int) (counts : List Int) (value : Int) : List Int :=
  counts.modify (bucket ranges value) (· + 1)

/-- The histogram of a list of values. -/
def ofValues (ranges values : List Int) : Histogram :=
  ⟨ranges, values.foldl (count ranges) (List.replicate ranges.length 0)⟩

/-- The histogram of a list of values, refused without buckets. -/
def ofValues? (ranges values : List Int) : Except HistogramError Histogram :=
  if ranges.isEmpty then
    if values.isEmpty then .error (.rejected ⟨recordName, [⟨["ranges"], .tooFew 0⟩]⟩)
    else .error .noBucket
  else .ok (ofValues ranges values)

/-- A histogram from the fields of a record. -/
def read (entries : List (String × Value)) : Checked Histogram :=
  ((Reader.required entries "ranges" (Reader.nonemptyTuple Reader.integer)).map Histogram.mk).ap
    (Reader.required entries "counts" (Reader.collection .tupleExpected Reader.integer))

/-- The number of values counted. -/
def total (histogram : Histogram) : Int := histogram.counts.foldr (· + ·) 0

/-- The buckets as `bound=count`, separated by semicolons. -/
def render (histogram : Histogram) : String :=
  String.intercalate ";"
    ((histogram.ranges.zip histogram.counts).map fun bucket => s!"{bucket.1}={bucket.2}")

end Histogram

end CodeMetrics
