import OverloadResolution.Call
import OverloadResolution.Numeral.Literal

/-!
# Readers

A reader turns a raw token into a value, or says what is wrong with the token.  The readers for the
primitive types do nothing else; a reader supplied from outside may have effects.

The numeric readers share their treatment of signs: a plus sign in front is dropped, and what
follows it must not have a minus sign of its own.
-/

set_option autoImplicit false

namespace OverloadResolution

/-- What a reader may know beside the token: who calls, and the token of the invocation. -/
structure ReadContext where
  caller : Caller
  token : Token

/-- A reader with the label it is described by. -/
structure Reader where
  label : String
  read : String → ReadContext → Run (Except Diagnostic Value)

namespace Reader

/-- A reader that looks at nothing but the token. -/
def ofFunction (label : String) (read : String → Except Diagnostic Value) : Reader :=
  ⟨label, fun raw _ => pure (read raw)⟩

/-- The error for a token that does not have the form of a type's values. -/
def unreadable (raw type : String) : Diagnostic :=
  .error type ("cannot parse '" ++ raw ++ "' as " ++ type)

/-- The error for a token that has the right form but denotes a value beyond the bounds. -/
def outOfRange (raw type : String) : Diagnostic :=
  .error type ("value " ++ raw ++ " is out of range for " ++ type)

/-- Drops one plus sign; a minus sign directly after it spoils the token. -/
def withoutPlus : List Char → Option (List Char)
  | '+' :: '-' :: _ => none
  | '+' :: rest => some rest
  | chars => some chars

/-- The integer of 64 bits that a token spells, if it spells one. -/
def int64? (raw : String) : Option Int64 := do
  let chars ← withoutPlus raw.toList
  let number ← Decimal.integer? chars
  if Int64.minValue.toInt ≤ number ∧ number ≤ Int64.maxValue.toInt then
    some (Int64.ofInt number)
  else
    none

/-- Reads a token as an integer between two bounds. -/
def readIntegral (type : Ty) (low high : Int64) (raw : String) : Except Diagnostic Value :=
  match int64? raw with
  | none => .error (unreadable raw type.render)
  | some number =>
    if number < low ∨ high < number then .error (outOfRange raw type.render)
    else .ok (.integer type number)

/-- The number of double precision that a token spells, if it spells one. -/
def binary64? (raw : String) : Option Binary64 := do
  let chars ← withoutPlus raw.toList
  let literal ← Literal.ofChars? chars
  literal.toBinary64?

/-- Reads a token as a number; a single-precision type admits no finite magnitude above its
largest, but the number read is not rounded to it. -/
def readFloating (type : Ty) (single : Bool) (raw : String) : Except Diagnostic Value :=
  match binary64? raw with
  | none => .error (unreadable raw type.render)
  | some number =>
    if single && number.exceedsSingle then .error (outOfRange raw type.render)
    else .ok (.floating type number)

/-- The words for true, in lower case. -/
def trueWords : List String := ["true", "yes", "on", "enabled", "1"]

/-- The words for false, in lower case. -/
def falseWords : List String := ["false", "no", "off", "disabled", "0"]

/-- Reads a word for true or false, in either case of the ASCII letters. -/
def readBoolean (raw : String) : Except Diagnostic Value :=
  if raw.toLower ∈ trueWords then .ok (.boolean true)
  else if raw.toLower ∈ falseWords then .ok (.boolean false)
  else .error (unreadable raw Ty.boolean.render)

/-- The reader of integers between two bounds. -/
def integral (type : Ty) (low high : Int64) : Reader :=
  ofFunction type.render (readIntegral type low high)

/-- The reader of floating-point numbers. -/
def floating (type : Ty) (single : Bool) : Reader :=
  ofFunction type.render (readFloating type single)

/-- The reader of truth values. -/
def boolean : Reader := ofFunction Ty.boolean.render readBoolean

/-- The reader that takes every token as the string it spells. -/
def string : Reader := ofFunction Ty.string.render fun raw => .ok (.string raw)

end Reader

end OverloadResolution
