import OverloadResolution.Numeral.Binary64
import OverloadResolution.Numeral.Decimal

/-!
# Writing a number with a fixed count of significant digits

The text of a number is computed from its exact value, rounded half to even to a given count of
significant digits.  Trailing zeros after the point are dropped.  A number is written positionally
when its decimal exponent is at least -4 and below the count of digits, and otherwise with an
exponent of at least two digits and always with a sign.
-/

set_option autoImplicit false

namespace OverloadResolution.Significant

/-- Whether a ratio is at least a power of ten. -/
def atLeastPower (numerator denominator : Nat) : Int → Bool
  | .ofNat places => denominator * tenTo places ≤ numerator
  | .negSucc less => denominator ≤ numerator * tenTo (less + 1)

/-- The exponent of the largest power of ten that is not above a positive ratio.  The lengths of
the two numerals leave two candidates. -/
def decimalExponent (numerator denominator : Nat) : Int :=
  let upper : Int :=
    (Decimal.digits numerator).length - (Decimal.digits denominator).length
  if atLeastPower numerator denominator upper then upper else upper - 1

/-- A ratio times a power of ten, rounded to a natural number. -/
def roundScaled (numerator denominator : Nat) : Int → Nat
  | .ofNat places => roundRatio (numerator * tenTo places) denominator
  | .negSucc less => roundRatio numerator (denominator * tenTo (less + 1))

/-- The significant digits of a positive ratio, as one number, and the exponent of the first. -/
def scientific (count numerator denominator : Nat) : Nat × Int :=
  let exponent := decimalExponent numerator denominator
  let rounded := roundScaled numerator denominator ((count : Int) - 1 - exponent)
  if rounded = tenTo count then (tenTo (count - 1), exponent + 1) else (rounded, exponent)

/-- Drops the zeros at the end. -/
def dropTrailingZeros (digits : List Char) : List Char :=
  (digits.reverse.dropWhile (· = '0')).reverse

/-- Digits before and after a point; the point is written only when digits follow it. -/
def pointed (whole fraction : List Char) : List Char :=
  if fraction.isEmpty then whole else whole ++ '.' :: fraction

/-- An exponent with its sign and at least two digits. -/
def exponentMark (exponent : Int) : List Char :=
  let digits := Decimal.digits exponent.natAbs
  'e' :: (if exponent < 0 then '-' else '+') ::
    (if digits.length < 2 then '0' :: digits else digits)

/-- The text of a positive ratio. -/
def ratio (count numerator denominator : Nat) : List Char :=
  let (rounded, exponent) := scientific count numerator denominator
  let digits := Decimal.digits rounded
  if exponent < -4 || (count : Int) ≤ exponent then
    pointed (digits.take 1) (dropTrailingZeros (digits.drop 1)) ++ exponentMark exponent
  else
    match exponent with
    | .ofNat before =>
      pointed (digits.take (before + 1)) (dropTrailingZeros (digits.drop (before + 1)))
    | .negSucc zeros => pointed ['0'] (List.replicate zeros '0' ++ dropTrailingZeros digits)

/-- The text of a magnitude. -/
def magnitude (count : Nat) : Binary64.Magnitude → List Char
  | .finite code =>
    if code.val = 0 then ['0'] else ratio count (Binary64.units code) Binary64.unitsOfOne
  | .infinite => ['i', 'n', 'f']
  | .nan => ['n', 'a', 'n']

/-- The text of a number, with a minus sign in front of every negative one, zero included. -/
def text (count : Nat) (number : Binary64) : String :=
  String.ofList ((if number.negative then ['-'] else []) ++ magnitude count number.magnitude)

end OverloadResolution.Significant
