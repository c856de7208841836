import CodeMetrics.Text.Blank

/-!
# Integers in text

An integer is read first as it stands, in its shortest form, and then once more after tidying: blanks
around it, a plus sign, zeros in front, underscores between digits and a fraction of zeros are dropped.
-/

namespace CodeMetrics

/-- What text says as an integer. -/
inductive IntegerReading where
  | value (number : Int)
  /-- More characters than are read. -/
  | tooLong
  | unreadable
deriving DecidableEq, Repr

namespace IntegerText

/-- The most characters of an integer, its sign included. -/
def maximumWidth : Nat := 4300

/-- The number that decimal digits stand for. -/
def digitsValue (digits : List Char) : Nat :=
  digits.foldl (fun value digit => 10 * value + (digit.toNat - 48)) 0

/-- Digits without a sign, as an integer of the given sign. -/
def readDigits (negative : Bool) (characters : List Char) : IntegerReading :=
  let digits := characters.takeWhile Char.isDigit
  if characters = ['0'] then .value 0
  else if digits.isEmpty || digits.head? = some '0' then .unreadable
  else if maximumWidth < digits.length + negative.toNat then .tooLong
  else if digits.length < characters.length then .unreadable
  else .value (if negative then -(digitsValue digits : Int) else digitsValue digits)

/-- An integer in its shortest form: a minus sign at most, and no zero in front of other digits. -/
def readShortest : List Char → IntegerReading
  | '-' :: characters => readDigits true characters
  | characters => readDigits false characters

/-! ## Tidying -/

/-- The text without a plus sign in front, which must not have a minus sign behind it. -/
def dropPlus : List Char → Option (List Char)
  | '+' :: '-' :: _ => none
  | '+' :: characters => some characters
  | characters => some characters

/-- The text behind zeros and underscores, which begins with another digit or a minus sign. Where they
run up to a point or to the end, the last of them stays. -/
def pastZeros (last : Char) : List Char → Option (List Char)
  | [] => some [last]
  | character :: characters =>
      if character = '0' ∨ character = '_' then pastZeros character characters
      else if character.isDigit ∨ character = '-' then some (character :: characters)
      else if character = '.' then some (last :: character :: characters)
      else none

/-- The text without the zeros in front, or behind a minus sign in front; it must begin with a digit or
a minus sign. -/
def dropZeros : List Char → Option (List Char)
  | [] => none
  | '-' :: '0' :: characters => (pastZeros '0' characters).map ('-' :: ·)
  | character :: characters =>
      if character = '0' then pastZeros '0' characters
      else if character.isDigit ∨ character = '-' then some (character :: characters)
      else none

/-- The text before the point, if only zeros are behind it, and at least one. -/
def dropZeroFraction (characters : List Char) : List Char :=
  match characters.dropWhile (· != '.') with
  | _ :: zeros =>
      if !zeros.isEmpty && zeros.all (· == '0') then characters.takeWhile (· != '.') else characters
  | [] => characters

/-- Some two neighbours are underscores. -/
def hasDoubleUnderscore : List Char → Bool
  | '_' :: '_' :: _ => true
  | _ :: characters => hasDoubleUnderscore characters
  | [] => false

/-- The text without its underscores, if each stands alone and none at an end. -/
def dropUnderscores (characters : List Char) : List Char :=
  if characters.head? = some '_' || characters.getLast? = some '_' ||
      hasDoubleUnderscore characters then characters
  else characters.filter (· != '_')

/-- The text in its shortest form, so far as tidying brings it there. -/
def tidy (characters : List Char) : Option (List Char) := do
  let signed ← dropPlus (Text.trim characters)
  let whole ← dropZeros signed
  return dropUnderscores (dropZeroFraction whole)

/-- Read text as an integer. Only text that is in its shortest form from the start is called too
long. -/
def read (text : String) : IntegerReading :=
  match readShortest text.toList with
  | .unreadable =>
      match (tidy text.toList).map readShortest with
      | some (.value number) => .value number
      | _ => .unreadable
  | reading => reading

end IntegerText

end CodeMetrics
