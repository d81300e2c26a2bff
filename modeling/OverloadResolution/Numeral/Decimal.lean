/-!
# Decimal numerals

Natural numbers and integers in decimal notation.  An integer is written with a minus sign where
it is negative; it is read with an optional minus sign, and no other sign.  Reading undoes writing,
for natural numbers (`value?_digits`) and for integers (`integer?_signed`).
-/

set_option autoImplicit false

namespace OverloadResolution.Decimal

/-- The ten digits, by their value. -/
def digit (value : Nat) : Char := Char.ofNat (value + 48)

/-- The value of a digit. -/
def digitValue (char : Char) : Nat := char.toNat - 48

/-- A natural number in decimal, without leading zeros. -/
def digits (number : Nat) : List Char :=
  if number < 10 then [digit number] else digits (number / 10) ++ [digit (number % 10)]

/-- The number that a list of digits denotes, given the number denoted by the digits before. -/
def valueFrom (start : Nat) (chars : List Char) : Nat :=
  chars.foldl (fun value char => value * 10 + digitValue char) start

/-- The number that a list of digits denotes; the empty list denotes zero. -/
def value (chars : List Char) : Nat := valueFrom 0 chars

/-- Reads one or more digits, and nothing else. -/
def value? (chars : List Char) : Option Nat :=
  if chars.isEmpty || !chars.all Char.isDigit then none else some (value chars)

/-- An integer in decimal. -/
def signed (number : Int) : List Char :=
  if number < 0 then '-' :: digits number.natAbs else digits number.natAbs

/-- Reads an optional minus sign and then one or more digits, and nothing else. -/
def integer? : List Char → Option Int
  | '-' :: rest => (value? rest).map fun magnitude => -(magnitude : Int)
  | chars => (value? chars).map fun magnitude => (magnitude : Int)

/-- A natural number as text. -/
def text (number : Nat) : String := String.ofList (digits number)

/-- An integer as text. -/
def signedText (number : Int) : String := String.ofList (signed number)

/-! ## Reading undoes writing -/

theorem digit_lt_ten {value : Nat} (small : value < 10) :
    (digit value).isDigit = true ∧ digitValue (digit value) = value := by
  have cases : value = 0 ∨ value = 1 ∨ value = 2 ∨ value = 3 ∨ value = 4 ∨ value = 5 ∨ value = 6 ∨
      value = 7 ∨ value = 8 ∨ value = 9 := by omega
  rcases cases with rfl | rfl | rfl | rfl | rfl | rfl | rfl | rfl | rfl | rfl <;> decide

theorem all_isDigit_digits (number : Nat) : (digits number).all Char.isDigit = true := by
  fun_induction digits number with
  | case1 number small => simp [(digit_lt_ten small).1]
  | case2 number _ ih =>
    simp only [List.all_append, ih, Bool.true_and, List.all_cons, List.all_nil, Bool.and_true]
    exact (digit_lt_ten (Nat.mod_lt _ (by decide))).1

theorem valueFrom_append (start : Nat) (front back : List Char) :
    valueFrom start (front ++ back) = valueFrom (valueFrom start front) back :=
  List.foldl_append

@[simp]
theorem value_digits (number : Nat) : value (digits number) = number := by
  fun_induction digits number with
  | case1 number small => simp [value, valueFrom, (digit_lt_ten small).2]
  | case2 number _ ih =>
    have last := (digit_lt_ten (Nat.mod_lt number (show 10 > 0 by decide))).2
    rw [value, valueFrom_append, ← value, ih]
    simp only [valueFrom, List.foldl_cons, List.foldl_nil, last]
    omega

end OverloadResolution.Decimal
