import OverloadResolution.Numeral.Binary64
import OverloadResolution.Numeral.Decimal

/-!
# Floating-point literals

A literal is a decimal, an infinity or a not-a-number, each with an optional minus sign.  `scan`
reads the longest literal at the front of a list of characters and returns what follows it: an
exponent mark without digits, or an open parenthesis that is never closed, is left to what follows.
Words are recognised in either case of the ASCII letters.
-/

set_option autoImplicit false

namespace OverloadResolution

/-- A floating-point literal.  A decimal denotes `mantissa * 10 ^ exponent`, with its sign. -/
inductive Literal where
  | decimal (negative : Bool) (mantissa : Nat) (exponent : Int)
  | infinity (negative : Bool)
  | nan (negative : Bool)
deriving DecidableEq, Repr

namespace Literal

/-- Splits off an optional minus sign. -/
def scanMinus : List Char → Bool × List Char
  | '-' :: rest => (true, rest)
  | chars => (false, chars)

/-- Splits off an optional sign, which is negative only when it is a minus. -/
def scanSign : List Char → Bool × List Char
  | '-' :: rest => (true, rest)
  | '+' :: rest => (false, rest)
  | chars => (false, chars)

/-- Splits off the digits of a fraction, together with the point before them.  The point alone is a
fraction without digits. -/
def scanFraction : List Char → List Char × List Char
  | '.' :: rest => (rest.takeWhile Char.isDigit, rest.dropWhile Char.isDigit)
  | chars => ([], chars)

/-- Splits off an exponent: a mark, an optional sign and at least one digit.  Without all of these
there is no exponent, and nothing is split off. -/
def scanExponent (chars : List Char) : Int × List Char :=
  match chars with
  | mark :: rest =>
    if mark = 'e' || mark = 'E' then
      let (negative, rest) := scanSign rest
      let digits := rest.takeWhile Char.isDigit
      if digits.isEmpty then (0, chars)
      else
        let magnitude : Int := Decimal.value digits
        (if negative then -magnitude else magnitude, rest.dropWhile Char.isDigit)
    else (0, chars)
  | [] => (0, chars)

/-- Reads an unsigned decimal: digits, a fraction, an exponent, with at least one digit before the
exponent. -/
def scanDecimal (negative : Bool) (chars : List Char) : Option (Literal × List Char) :=
  let whole := chars.takeWhile Char.isDigit
  let (fraction, rest) := scanFraction (chars.dropWhile Char.isDigit)
  if whole.isEmpty && fraction.isEmpty then none
  else
    let (exponent, rest) := scanExponent rest
    some (.decimal negative (Decimal.value (whole ++ fraction)) (exponent - fraction.length), rest)

/-- What follows a word at the front, if the word is there in either case of its letters.  The word
is given in lower case. -/
def dropWord? (word chars : List Char) : Option (List Char) :=
  if (chars.take word.length).map Char.toLower = word then some (chars.drop word.length) else none

/-- Whether a character may stand between the parentheses after a not-a-number. -/
def isTagChar (char : Char) : Bool := char.isAlphanum || char = '_'

/-- Drops a parenthesised tag, if there is a complete one at the front. -/
def dropTag : List Char → List Char
  | '(' :: rest =>
    match rest.dropWhile isTagChar with
    | ')' :: after => after
    | _ => '(' :: rest
  | chars => chars

/-- Reads an unsigned infinity, in its short or its long spelling, or a not-a-number with an
optional tag. -/
def scanSpecial (negative : Bool) (chars : List Char) : Option (Literal × List Char) :=
  match dropWord? ['n', 'a', 'n'] chars with
  | some rest => some (.nan negative, dropTag rest)
  | none =>
    match dropWord? ['i', 'n', 'f'] chars with
    | some rest =>
      some (.infinity negative, (dropWord? ['i', 'n', 'i', 't', 'y'] rest).getD rest)
    | none => none

/-- Reads the longest literal at the front, and returns what follows it. -/
def scan (chars : List Char) : Option (Literal × List Char) :=
  let (negative, rest) := scanMinus chars
  (scanDecimal negative rest).or (scanSpecial negative rest)

/-- Reads a literal and nothing else. -/
def ofChars? (chars : List Char) : Option Literal :=
  match scan chars with
  | some (literal, []) => some literal
  | _ => none

/-- The number that a literal denotes.  A decimal is refused when it is beyond the finite range, or
rounds to zero without being zero. -/
def toBinary64? : Literal → Option Binary64
  | .decimal negative mantissa exponent => Binary64.ofDecimal? negative mantissa exponent
  | .infinity negative => some ⟨negative, .infinite⟩
  | .nan negative => some ⟨negative, .nan⟩

end Literal

end OverloadResolution
