import CodeMetrics.Number.IntegerText
import CodeMetrics.Record.Fault
import CodeMetrics.Record.Value
import CodeMetrics.Tree.Span

/-!
# Reading records

A record is read from loosely typed values field by field. Numbers and truth values are read
leniently, from numbers and from text; every field is read even when an earlier one is at fault, and
the issues are listed in the order of the fields.
-/

namespace CodeMetrics

/-- A value of the right type, or everything that is wrong with it. -/
abbrev Checked (α : Type) := Except (List Issue) α

namespace Checked

/-- A single fault of the value itself. -/
def fail {α : Type} (fault : Fault) : Checked α := .error [⟨[], fault⟩]

/-- The value seen from one level further out. -/
def under {α : Type} (step : String) : Checked α → Checked α
  | .ok value => .ok value
  | .error issues => .error (issues.map (Issue.under step))

/-- Change the value. -/
def map {α β : Type} (change : α → β) : Checked α → Checked β
  | .ok value => .ok (change value)
  | .error issues => .error issues

/-- Apply one to the other; the issues of both are listed. -/
def ap {α β : Type} : Checked (α → β) → Checked α → Checked β
  | .ok function, .ok value => .ok (function value)
  | .ok _, .error issues => .error issues
  | .error issues, .ok _ => .error issues
  | .error first, .error second => .error (first ++ second)

/-- The value, unless there are further issues. -/
def also {α : Type} (further : List Issue) : Checked α → Checked α
  | .ok value => if further.isEmpty then .ok value else .error further
  | .error issues => .error (issues ++ further)

/-- The record, or its refusal under the name of the record. -/
def close {α : Type} (record : String) : Checked α → Except Rejection α
  | .ok value => .ok value
  | .error issues => .error ⟨record, issues⟩

end Checked

namespace Reader

/-! ## Numbers -/

/-- The integers that fit a signed word of 64 bits. -/
def fitsWord (number : Int) : Bool := -Int.pow 2 63 ≤ number && number < Int.pow 2 63

/-- A number without a fraction as an integer. The bounds of a word are themselves out of range. -/
def wholeNumber (number : Binary64) : Checked Int :=
  match number with
  | .infinite _ => Checked.fail .notFinite
  | .undefined => Checked.fail .notFinite
  | .finite _ _ _ =>
      match number.toInt? with
      | none => Checked.fail .fractional
      | some whole =>
          if whole.natAbs < Nat.pow 2 63 then .ok whole else Checked.fail .integerTooLong

/-- An integer, from an integer, a truth value, a number without a fraction or text. -/
def integer : Value → Checked Int
  | .integer value => .ok value
  | .boolean value => .ok (if value then 1 else 0)
  | .real value => wholeNumber value
  | .text text =>
      match IntegerText.read text with
      | .value number => .ok number
      | .tooLong => Checked.fail .integerTooLong
      | .unreadable => Checked.fail .integerUnreadable
  | _ => Checked.fail .integerExpected

/-- An integer from the bound up. -/
def integerFrom (bound : Int) (value : Value) : Checked Int := do
  let number ← integer value
  if bound ≤ number then return number else Checked.fail (.below bound)

/-- A natural number. -/
def natural (value : Value) : Checked Nat := (integerFrom 0 value).map Int.toNat

/-! ## Truth values and text -/

/-- The words for the two truth values. -/
def booleanText (text : String) : Option Bool :=
  let word := text.toLower
  if word ∈ ["1", "t", "y", "true", "yes", "on"] then some true
  else if word ∈ ["0", "f", "n", "false", "no", "off"] then some false
  else none

/-- A truth value from the numbers zero and one. -/
def booleanNumber (number : Int) : Checked Bool :=
  if number = 0 then .ok false
  else if number = 1 then .ok true
  else Checked.fail .booleanUnreadable

/-- A truth value, from itself, a number or a word. A number out of range is none of these. -/
def boolean : Value → Checked Bool
  | .boolean value => .ok value
  | .integer value => if fitsWord value then booleanNumber value else Checked.fail .booleanExpected
  | .real value =>
      match wholeNumber value with
      | .ok whole => booleanNumber whole
      | .error _ => Checked.fail .booleanExpected
  | .text text =>
      match booleanText text with
      | some value => .ok value
      | none => Checked.fail .booleanUnreadable
  | _ => Checked.fail .booleanExpected

/-- A truth value or nothing. -/
def optionalBoolean : Value → Checked (Option Bool)
  | .null => .ok none
  | value => (boolean value).map some

/-- Text. -/
def text : Value → Checked String
  | .text value => .ok value
  | _ => Checked.fail .textExpected

/-! ## Collections -/

/-- The items read, and the issues of those that could not be, under their positions. -/
def items {α : Type} (read : Value → Checked α) : Nat → List Value → List α × List Issue
  | _, [] => ([], [])
  | position, value :: values =>
      let rest := items read (position + 1) values
      match (read value).under (toString position) with
      | .ok item => (item :: rest.1, rest.2)
      | .error issues => (rest.1, issues ++ rest.2)

/-- A list of items, or `other` for a value that is no list. -/
def collection {α : Type} (other : Fault) (read : Value → Checked α) : Value → Checked (List α)
  | .list values =>
      let found := items read 0 values
      if found.2.isEmpty then .ok found.1 else .error found.2
  | _ => Checked.fail other

/-- A list of items that is not empty; only items that could be read count. -/
def nonemptyTuple {α : Type} (read : Value → Checked α) : Value → Checked (List α)
  | .list values =>
      let found := items read 0 values
      let issues := if found.1.isEmpty then found.2 ++ [⟨[], .tooFew 0⟩] else found.2
      if issues.isEmpty then .ok found.1 else .error issues
  | _ => Checked.fail .tupleExpected

/-- One entry of a span by position. -/
def spanEntry (values : List Value) (position : Nat) : Checked Int :=
  match values[position]? with
  | some value => (integer value).under (toString position)
  | none => .error [⟨[toString position], .missing⟩]

/-- One entry of a span by name. -/
def namedSpanEntry (entries : List (String × Value)) (name : String) : Checked Int :=
  match Value.get? name entries with
  | some value => (integer value).under name
  | none => .error [⟨[name], .missing⟩]

/-- The names of the entries of a span. -/
def spanNames : List String :=
  ["start_byte", "end_byte", "start_line", "start_column", "end_line", "end_column"]

/-- The issues of the keys of an object that are none of the given names. -/
def strangers (names : List String) (entries : List (String × Value)) : List Issue :=
  (entries.filter fun entry => entry.1 ∉ names).map fun entry => ⟨[entry.1], .notAllowed⟩

/-- A span, from its six entries in order or by name. By name there must be no others. -/
def span : Value → Checked Span
  | .list values =>
      if 6 < values.length then Checked.fail (.tooMany values.length)
      else
        ((spanEntry values 0).map Span.mk).ap (spanEntry values 1) |>.ap (spanEntry values 2)
          |>.ap (spanEntry values 3) |>.ap (spanEntry values 4) |>.ap (spanEntry values 5)
  | .object entries =>
      ((namedSpanEntry entries "start_byte").map Span.mk).ap (namedSpanEntry entries "end_byte")
        |>.ap (namedSpanEntry entries "start_line") |>.ap (namedSpanEntry entries "start_column")
        |>.ap (namedSpanEntry entries "end_line") |>.ap (namedSpanEntry entries "end_column")
        |>.also (strangers spanNames entries)
  | _ => Checked.fail .spanExpected

/-! ## Records -/

/-- The value of a field that must be there. -/
def required {α : Type} (entries : List (String × Value)) (name : String)
    (read : Value → Checked α) : Checked α :=
  (match Value.get? name entries with
    | some value => read value
    | none => Checked.fail .missing).under name

/-- The value of a field, or what it is when left out. -/
def optional {α : Type} (entries : List (String × Value)) (name : String) (default : α)
    (read : Value → Checked α) : Checked α :=
  match Value.get? name entries with
  | some value => (read value).under name
  | none => .ok default

/-- A record given as an object. -/
def record {α : Type} (name : String) (read : List (String × Value) → Checked α) :
    Value → Checked α
  | .object entries => read entries
  | _ => Checked.fail (.recordExpected name)

end Reader

end CodeMetrics
