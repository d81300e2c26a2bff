import OverloadResolution.Numeral.Rounding

/-!
# Binary64 numbers

Floating-point numbers of double precision, as exact data.  A number has a sign and a magnitude;
the finite magnitudes are numbered in increasing order, so that the number of a magnitude is its
pattern of exponent and fraction bits.  Every finite magnitude is a whole multiple of the least
positive one, and `units` says which: comparison with any bound is comparison of natural numbers.

`ofDecimal?` rounds a decimal to the nearest number, a tie going to the even pattern.  It refuses a
decimal beyond the finite range, and a decimal other than zero that would round to zero.
-/

set_option autoImplicit false

namespace OverloadResolution

namespace Binary64

/-- How many finite magnitudes there are: 2047 exponents with 52 fraction bits each. -/
abbrev finiteCount : Nat := 2047 * twoTo 52

/-- A magnitude without its sign. -/
inductive Magnitude where
  | finite (code : Fin finiteCount)
  | infinite
  | nan
deriving DecidableEq

end Binary64

/-- A floating-point number of double precision; a number that is not a number has a sign too. -/
structure Binary64 where
  negative : Bool
  magnitude : Binary64.Magnitude
deriving DecidableEq

namespace Binary64

/-- A finite magnitude as a multiple of the least positive one, `2 ^ (-1074)`.  The first exponent
has no leading bit; each later one doubles the step. -/
def units (code : Nat) : Nat :=
  if code < twoTo 52 then code
  else (twoTo 52 + code % twoTo 52) * twoTo (code / twoTo 52 - 1)

/-- One, in multiples of the least positive magnitude. -/
def unitsOfOne : Nat := twoTo 1074

/-- The largest magnitude of single precision, in multiples of the least positive magnitude. -/
def largestSingle : Nat := (twoTo 24 - 1) * twoTo 104 * unitsOfOne

/-- Whether the number is finite and its magnitude is above the largest of single precision. -/
def exceedsSingle (number : Binary64) : Bool :=
  match number.magnitude with
  | .finite code => largestSingle < units code
  | .infinite | .nan => false

/-- Zero with a sign. -/
def zero (negative : Bool) : Binary64 := ⟨negative, .finite ⟨0, by decide⟩⟩

/-- The number with a pattern of sign, exponent and fraction bits. -/
def ofBits (bits : UInt64) : Binary64 :=
  let code := bits.toNat % twoTo 63
  ⟨twoTo 63 ≤ bits.toNat,
    if finite : code < finiteCount then .finite ⟨code, finite⟩
    else if code = finiteCount then .infinite
    else .nan⟩

/-- The bit pattern of a number; of the patterns that are not numbers, the quiet one. -/
def toBits (number : Binary64) : UInt64 :=
  let code := match number.magnitude with
    | .finite code => code.val
    | .infinite => finiteCount
    | .nan => finiteCount + twoTo 51
  UInt64.ofNat ((if number.negative then twoTo 63 else 0) + code)

/-- The code nearest to a ratio that is given in multiples of the least positive magnitude.  The
ratio is rounded at the step of its own exponent; a ratio that rounds up into the next exponent
gets the right code without a special case, because codes continue across exponents.  The result
lies beyond the finite codes when the ratio is beyond the finite range. -/
def nearestCode (numerator denominator : Nat) : Nat :=
  let step := (numerator / denominator).log2 - 52
  step * twoTo 52 + roundRatio numerator (denominator * twoTo step)

/-- The finite number nearest to a ratio given in multiples of the least positive magnitude, unless
the ratio is beyond the finite range or rounds to zero. -/
def nearest? (negative : Bool) (numerator denominator : Nat) : Option Binary64 :=
  let code := nearestCode numerator denominator
  if code = 0 then none
  else if finite : code < finiteCount then some ⟨negative, .finite ⟨code, finite⟩⟩
  else none

/-- The number nearest to `mantissa * 10 ^ exponent`.  A decimal is refused when it is beyond the
finite range, or rounds to zero without being zero.  Exponents that decide the matter on their own
are answered before any power is formed: from `10 ^ 400` on everything is out of range, and a
mantissa below `2 ^ (log2 + 1)` over `8 ^ places` is below half of the least magnitude once
`3 * places` exceeds `log2` by more than 1080. -/
def ofDecimal? (negative : Bool) (mantissa : Nat) (exponent : Int) : Option Binary64 :=
  if mantissa = 0 then some (zero negative)
  else
    match exponent with
    | .ofNat places =>
      if 400 ≤ places then none
      else nearest? negative (mantissa * tenTo places * unitsOfOne) 1
    | .negSucc less =>
      let places := less + 1
      if mantissa.log2 + 1080 < 3 * places then none
      else nearest? negative (mantissa * unitsOfOne) (tenTo places)

end Binary64

end OverloadResolution
