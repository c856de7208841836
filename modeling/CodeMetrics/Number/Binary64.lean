/-!
# Binary floating point with 53 significant bits

A decimal is read as the nearest number `significand * 2 ^ exponent`, a tie going to the even
significand. A number is written with the fewest decimal digits that read back, and of those with the
nearest to it.
-/

namespace CodeMetrics

/-- A binary floating-point number: `significand * 2 ^ exponent` with a sign, an infinity, or no number
at all. -/
inductive Binary64 where
  | finite (negative : Bool) (significand : Nat) (exponent : Int)
  | infinite (negative : Bool)
  | undefined
deriving DecidableEq, Repr

namespace Binary64

/-- The quotient rounded to the nearest integer, a tie going to the even one. -/
def roundDiv (numerator denominator : Nat) : Nat :=
  let quotient := numerator / denominator
  let twice := 2 * (numerator % denominator)
  if twice < denominator then quotient
  else if denominator < twice then quotient + 1
  else quotient + quotient % 2

/-- The fraction `numerator / denominator * base ^ exponent`, as numerator and denominator. -/
def scale (base : Nat) (numerator denominator : Nat) (exponent : Int) : Nat × Nat :=
  if 0 ≤ exponent then (numerator * Nat.pow base exponent.toNat, denominator)
  else (numerator, denominator * Nat.pow base (-exponent).toNat)

/-- The exponent of the last of 53 significant bits of a fraction, at least the smallest one. -/
def unitExponent (numerator denominator : Nat) : Int :=
  let estimate : Int := Nat.log2 numerator - Nat.log2 denominator - 52
  let scaled := scale 2 numerator denominator (-estimate)
  let exponent := if scaled.1 < Nat.pow 2 52 * scaled.2 then estimate - 1 else estimate
  max exponent (-1074)

/-- The number nearest to `numerator / denominator`. -/
def ofFraction (negative : Bool) (numerator denominator : Nat) : Binary64 :=
  let exponent := unitExponent numerator denominator
  let scaled := scale 2 numerator denominator (-exponent)
  let significand := roundDiv scaled.1 scaled.2
  let normal :=
    if significand = Nat.pow 2 53 then (Nat.pow 2 52, exponent + 1) else (significand, exponent)
  if numerator = 0 then .finite negative 0 (-1074)
  else if 971 < normal.2 then .infinite negative
  else .finite negative normal.1 normal.2

/-- The value as an integer, if it is one. -/
def toInt? : Binary64 → Option Int
  | .infinite _ => none
  | .undefined => none
  | .finite negative significand exponent =>
      let fraction := scale 2 significand 1 exponent
      if fraction.1 % fraction.2 = 0 then
        let magnitude : Int := (fraction.1 / fraction.2 : Nat)
        some (if negative then -magnitude else magnitude)
      else none

/-- The number of decimal digits of a natural number. -/
def digitCount (number : Nat) : Nat := (Nat.toDigits 10 number).length

/-- The number nearest to the decimal `digits * 10 ^ exponent`. From `10 ^ 310` on it is infinite, and
below `10 ^ (-330)` it is zero. -/
def ofDecimal (negative : Bool) (digits : Nat) (exponent : Int) : Binary64 :=
  let places := digitCount digits + exponent
  if digits = 0 ∨ places < -330 then .finite negative 0 (-1074)
  else if 310 < places then .infinite negative
  else
    let fraction := scale 10 digits 1 exponent
    ofFraction negative fraction.1 fraction.2

/-- The decimal exponent of the leading digit of a positive fraction. -/
def leadingExponent (numerator denominator : Nat) : Int :=
  let estimate : Int := digitCount numerator - digitCount denominator
  let scaled := scale 10 numerator denominator (-estimate)
  if scaled.1 < scaled.2 then estimate - 1 else estimate

/-- Of the two decimals with `count` digits around a positive fraction, one that reads back as the
number, the nearer if both do: its digits and the exponent of the last one. -/
def candidate? (significand : Nat) (exponent : Int) (count : Nat) : Option (Nat × Int) :=
  let fraction := scale 2 significand 1 exponent
  let last := leadingExponent fraction.1 fraction.2 - count + 1
  let scaled := scale 10 fraction.1 fraction.2 (-last)
  let below := scaled.1 / scaled.2
  let readsBack (digits : Nat) : Bool := ofDecimal false digits last = .finite false significand exponent
  let nearest := roundDiv scaled.1 scaled.2
  let other := if nearest = below then below + 1 else below
  if readsBack nearest then some (nearest, last)
  else if readsBack other then some (other, last)
  else none

/-- The fewest decimal digits that read back, with the exponent of the last one. -/
def shortest (significand : Nat) (exponent : Int) : Nat × Int :=
  ((List.range 17).findSome? fun count => candidate? significand exponent (count + 1)).getD
    (significand, 0)

/-- Drop the zeros at the end of a list of digits. -/
def stripZeros (digits : List Char) : List Char :=
  (digits.reverse.dropWhile (· == '0')).reverse

/-- The written exponent: a sign and at least two digits. -/
def renderExponent (exponent : Int) : String :=
  let digits := toString exponent.natAbs
  (if exponent < 0 then "e-" else "e+") ++ (if digits.length < 2 then "0" ++ digits else digits)

/-- Digits with the point after the first `point` of them: positional for exponents from `-4` to `15`,
with a digit on both sides of the point, and in powers of ten otherwise. -/
def renderDigits (digits : List Char) (point : Int) : String :=
  if -4 < point ∧ point ≤ 16 then
    if point ≤ 0 then "0." ++ String.ofList (List.replicate (-point).toNat '0' ++ digits)
    else
      let whole := digits.take point.toNat
      let rest := digits.drop point.toNat
      String.ofList (whole ++ List.replicate (point.toNat - whole.length) '0') ++ "." ++
        (if rest.isEmpty then "0" else String.ofList rest)
  else
    let rest := digits.drop 1
    String.ofList (digits.take 1) ++ (if rest.isEmpty then "" else "." ++ String.ofList rest) ++
      renderExponent (point - 1)

/-- The number in decimal, with the given words for an infinity and for no number. -/
def render (infinity undefined : String) : Binary64 → String
  | .infinite negative => (if negative then "-" else "") ++ infinity
  | .undefined => undefined
  | .finite negative significand exponent =>
      let sign := if negative then "-" else ""
      if significand = 0 then sign ++ "0.0"
      else
        let decimal := shortest significand exponent
        let digits := Nat.toDigits 10 decimal.1
        sign ++ renderDigits (stripZeros digits) (digits.length + decimal.2)

end Binary64

end CodeMetrics
