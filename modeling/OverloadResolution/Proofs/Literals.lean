import Mathlib.Algebra.Order.Field.Rat
import Mathlib.Data.List.TakeWhile
import Mathlib.Tactic.FieldSimp
import Mathlib.Tactic.Ring
import OverloadResolution.Numeral.Literal
import OverloadResolution.Proofs.IntegerTokens

/-!
# The grammar of floating-point literals

What a floating-point literal is, and what it stands for, is said by a grammar that knows nothing of
the scanner: a decimal has a digit before the point or behind it and may have an exponent, and its
exact value is a rational number (`Literal.SpellsDecimal`); the other magnitudes are words
(`Literal.SpellsSpecial`).

The scanner goes through the characters once.  Where a mark has no digits behind it, a parenthesis is
not closed, or the long word for an infinity breaks off, it goes back to the last place at which a
literal was complete.  So what it reads is always spelled by the grammar, and it is the longest front
that is (`Literal.scan_readsLongest`).  Digits are taken as far as they go.  Nothing is lost by that,
because what may come behind them, a point or a mark, is not a digit (`Literal.Ends`).

A list of characters is then read as a literal and nothing else exactly if the grammar spells it, and
is read as what it spells (`Literal.ofChars?_spells`, `Literal.ofChars?_of_spells`).
-/

set_option autoImplicit false

namespace OverloadResolution

namespace Decimal

theorem placeValue_nil : placeValue [] = 0 := rfl

theorem placeValue_append (front back : List Char) :
    placeValue (front ++ back) = placeValue front * 10 ^ back.length + placeValue back := by
  simp only [placeValue, List.reverse_append, List.map_append, Nat.ofDigits_append,
    List.length_map, List.length_reverse]
  ring

end Decimal

namespace Literal

open Decimal
open Reader (SpellsInteger)

/-! ## The grammar -/

/-- What a literal stands for, its sign apart. -/
inductive Amount where
  | decimal (exact : ℚ)
  | infinite
  | nan

/-- A fraction is a point with digits behind it, or with none; there need not be one. -/
inductive SpellsFraction : List Char → ℚ → Prop where
  | none : SpellsFraction [] 0
  | pointed {digits : List Char} (decimal : ∀ char ∈ digits, char.isDigit = true) :
      SpellsFraction ('.' :: digits) (placeValue digits / 10 ^ digits.length)

/-- An exponent is a mark with an integer behind it; there need not be one. -/
inductive SpellsExponent : List Char → Int → Prop where
  | none : SpellsExponent [] 0
  | marked {mark : Char} {chars : List Char} {power : Int} (mark_eq : mark = 'e' ∨ mark = 'E')
      (spelled : SpellsInteger chars power) : SpellsExponent (mark :: chars) power

/-- A decimal has a digit before the point or behind it. -/
inductive SpellsDecimal : List Char → ℚ → Prop where
  | whole {digits fraction exponent : List Char} {part : ℚ} {power : Int}
      (numeral : IsNumeral digits) (fractional : SpellsFraction fraction part)
      (powered : SpellsExponent exponent power) :
      SpellsDecimal (digits ++ (fraction ++ exponent)) ((placeValue digits + part) * 10 ^ power)
  | pointed {digits exponent : List Char} {power : Int} (numeral : IsNumeral digits)
      (powered : SpellsExponent exponent power) :
      SpellsDecimal ('.' :: (digits ++ exponent))
        (placeValue digits / 10 ^ digits.length * 10 ^ power)

/-- A word in either case of its letters. -/
def SpellsWord (word chars : List Char) : Prop := chars.map Char.toLower = word

/-- The other magnitudes: the two words for an infinity, and a not-a-number, which may have a tag in
parentheses. -/
inductive SpellsSpecial : List Char → Amount → Prop where
  | inf {chars : List Char} (spelled : SpellsWord ['i', 'n', 'f'] chars) :
      SpellsSpecial chars .infinite
  | infinity {chars : List Char}
      (spelled : SpellsWord ['i', 'n', 'f', 'i', 'n', 'i', 't', 'y'] chars) :
      SpellsSpecial chars .infinite
  | nan {chars : List Char} (spelled : SpellsWord ['n', 'a', 'n'] chars) :
      SpellsSpecial chars .nan
  | tagged {chars tag : List Char} (spelled : SpellsWord ['n', 'a', 'n'] chars)
      (allowed : ∀ char ∈ tag, char.isAlphanum = true ∨ char = '_') :
      SpellsSpecial (chars ++ '(' :: (tag ++ [')'])) .nan

/-- A magnitude is a decimal, or one of the others. -/
inductive SpellsMagnitude : List Char → Amount → Prop where
  | decimal {chars : List Char} {exact : ℚ} (spelled : SpellsDecimal chars exact) :
      SpellsMagnitude chars (.decimal exact)
  | special {chars : List Char} {amount : Amount} (spelled : SpellsSpecial chars amount) :
      SpellsMagnitude chars amount

/-- A literal is a magnitude with an optional minus sign. -/
inductive Spells : List Char → Bool → Amount → Prop where
  | unsigned {chars : List Char} {amount : Amount} (spelled : SpellsMagnitude chars amount) :
      Spells chars false amount
  | minus {chars : List Char} {amount : Amount} (spelled : SpellsMagnitude chars amount) :
      Spells ('-' :: chars) true amount

/-! ## What a literal stands for -/

/-- Whether there is a minus sign. -/
def negative : Literal → Bool
  | .decimal negative _ _ | .infinity negative | .nan negative => negative

/-- What there is behind the sign. -/
def amount : Literal → Amount
  | .decimal _ mantissa exponent => .decimal (mantissa * 10 ^ exponent)
  | .infinity _ => .infinite
  | .nan _ => .nan

/-- The digits of a fraction may be read together with those before the point. -/
theorem amount_decimal (negative : Bool) (whole fraction : List Char) (power : Int) :
    (decimal negative (value (whole ++ fraction)) (power - fraction.length)).amount =
      .decimal ((placeValue whole + placeValue fraction / 10 ^ fraction.length) * 10 ^ power) := by
  rw [amount, value_eq_placeValue, placeValue_append, zpow_sub₀ (by norm_num), zpow_natCast]
  push_cast
  congr 1
  field_simp

/-! ## Digits at the front -/

section Digits

variable {digits rest : List Char}

theorem dropWhile_eq_self (ends : rest.takeWhile Char.isDigit = []) :
    rest.dropWhile Char.isDigit = rest := by
  have parts := @List.takeWhile_append_dropWhile _ Char.isDigit rest
  rwa [ends, List.nil_append] at parts

theorem takeWhile_digits (decimal : ∀ char ∈ digits, char.isDigit = true)
    (ends : rest.takeWhile Char.isDigit = []) :
    (digits ++ rest).takeWhile Char.isDigit = digits := by
  rw [List.takeWhile_append_of_pos decimal, ends, List.append_nil]

theorem dropWhile_digits (decimal : ∀ char ∈ digits, char.isDigit = true)
    (ends : rest.takeWhile Char.isDigit = []) :
    (digits ++ rest).dropWhile Char.isDigit = rest := by
  rw [List.dropWhile_append_of_pos decimal, dropWhile_eq_self ends]

theorem takeWhile_ne_nil (numeral : IsNumeral digits) (rest : List Char) :
    (digits ++ rest).takeWhile Char.isDigit ≠ [] := by
  rw [List.takeWhile_append_of_pos numeral.2]
  exact List.append_ne_nil_of_left_ne_nil numeral.1 _

theorem isNumeral_takeWhile (some : rest.takeWhile Char.isDigit ≠ []) :
    IsNumeral (rest.takeWhile Char.isDigit) :=
  ⟨some, fun _ => List.mem_takeWhile_imp⟩

end Digits

/-! ## The exponent -/

/-- The integer of a numeral with a sign. -/
def signedValue (negative : Bool) (digits : List Char) : Int :=
  if negative then -(placeValue digits) else placeValue digits

theorem scanSign_of_ne {chars : List Char} (minus : ∀ rest, chars ≠ '-' :: rest)
    (plus : ∀ rest, chars ≠ '+' :: rest) : scanSign chars = (false, chars) := by
  rw [scanSign]
  · exact minus
  · exact plus

/-- An integer has a sign that is split off, whatever comes behind it. -/
theorem exists_scanSign {chars : List Char} {power : Int} (spelled : SpellsInteger chars power)
    (after : List Char) :
    ∃ negative digits, scanSign (chars ++ after) = (negative, digits ++ after) ∧
      IsNumeral digits ∧ power = signedValue negative digits := by
  cases spelled with
  | unsigned numeral =>
      refine ⟨false, chars, scanSign_of_ne ?_ ?_, numeral, rfl⟩
      · exact numeral.append_ne_cons rfl after
      · exact numeral.append_ne_cons rfl after
  | plus numeral => exact ⟨false, _, rfl, numeral, rfl⟩
  | minus numeral => exact ⟨true, _, rfl, numeral, rfl⟩

/-- What is split off makes an integer of the digits behind it. -/
theorem scanSign_spells (chars : List Char) :
    ∃ sign, chars = sign ++ (scanSign chars).2 ∧ ∀ digits, IsNumeral digits →
      SpellsInteger (sign ++ digits) (signedValue (scanSign chars).1 digits) := by
  unfold scanSign
  split
  case h_1 => exact ⟨['-'], rfl, fun _ => .minus⟩
  case h_2 => exact ⟨['+'], rfl, fun _ => .plus⟩
  case h_3 => exact ⟨[], rfl, fun _ => .unsigned⟩

/-- There is an exponent only if there is a mark and at least one digit. -/
theorem scanExponent_cons (mark : Char) (chars : List Char) :
    scanExponent (mark :: chars) =
      if (mark = 'e' ∨ mark = 'E') ∧ (scanSign chars).2.takeWhile Char.isDigit ≠ [] then
        (signedValue (scanSign chars).1 ((scanSign chars).2.takeWhile Char.isDigit),
          (scanSign chars).2.dropWhile Char.isDigit)
      else (0, mark :: chars) := by
  simp only [scanExponent, signedValue, ← value_eq_placeValue, Bool.or_eq_true, decide_eq_true_eq,
    List.isEmpty_iff]
  by_cases marked : mark = 'e' ∨ mark = 'E'
  · rw [if_pos marked]
    by_cases none : (scanSign chars).2.takeWhile Char.isDigit = []
    · rw [if_pos none, if_neg fun both => both.2 none]
    · rw [if_neg none]
      exact (if_pos ⟨marked, none⟩).symm
  · rw [if_neg marked, if_neg fun both => marked both.1]

/-- What is split off spells the exponent that is read. -/
theorem scanExponent_spells (chars : List Char) :
    ∃ front, chars = front ++ (scanExponent chars).2 ∧
      SpellsExponent front (scanExponent chars).1 := by
  cases chars with
  | nil => exact ⟨[], rfl, .none⟩
  | cons mark chars =>
      rw [scanExponent_cons]
      split
      case isTrue exponent =>
        obtain ⟨marked, some⟩ := exponent
        obtain ⟨sign, split, spelled⟩ := scanSign_spells chars
        refine ⟨_, ?_, .marked marked (spelled _ (isNumeral_takeWhile some))⟩
        rw [List.cons_append, List.append_assoc, List.takeWhile_append_dropWhile, ← split]
      case isFalse => exact ⟨[], rfl, .none⟩

theorem scanExponent_of_spells {chars : List Char} {power : Int}
    (spelled : SpellsExponent chars power) : scanExponent chars = (power, []) := by
  cases spelled with
  | none => rfl
  | @marked mark chars power marked spelled =>
      obtain ⟨negative, digits, sign, numeral, rfl⟩ := exists_scanSign spelled []
      rw [List.append_nil, List.append_nil] at sign
      rw [scanExponent_cons, sign, List.takeWhile_eq_self_iff.mpr numeral.2,
        List.dropWhile_eq_nil_iff.mpr numeral.2, if_pos ⟨marked, numeral.1⟩]

theorem length_scanExponent_le (chars : List Char) :
    (scanExponent chars).2.length ≤ chars.length := by
  obtain ⟨front, split, _⟩ := scanExponent_spells chars
  exact List.IsSuffix.length_le ⟨front, split.symm⟩

/-- No more is left than behind an exponent. -/
theorem scanExponent_longest {front : List Char} {power : Int}
    (spelled : SpellsExponent front power) (after : List Char) :
    (scanExponent (front ++ after)).2.length ≤ after.length := by
  cases spelled with
  | none => exact length_scanExponent_le after
  | marked marked spelled =>
      obtain ⟨negative, digits, sign, numeral, _⟩ := exists_scanSign spelled after
      rw [List.cons_append, scanExponent_cons, sign,
        if_pos ⟨marked, takeWhile_ne_nil numeral after⟩, List.dropWhile_append_of_pos numeral.2]
      exact List.length_dropWhile_le _ _

/-! ## The fraction -/

theorem scanFraction_of_ne {chars : List Char} (other : ∀ rest, chars ≠ '.' :: rest) :
    scanFraction chars = ([], chars) := by
  rw [scanFraction]
  exact other

/-- What is split off is nothing, or a point with the digits that are read. -/
theorem scanFraction_spells (chars : List Char) :
    ∃ front, chars = front ++ (scanFraction chars).2 ∧
      SpellsFraction front
        (placeValue (scanFraction chars).1 / 10 ^ (scanFraction chars).1.length) ∧
      ((scanFraction chars).1 ≠ [] →
        front = '.' :: (scanFraction chars).1 ∧ IsNumeral (scanFraction chars).1) := by
  by_cases pointed : ∃ rest, chars = '.' :: rest
  · obtain ⟨rest, rfl⟩ := pointed
    refine ⟨'.' :: rest.takeWhile Char.isDigit, ?_, ?_, ?_⟩
    · rw [List.cons_append, scanFraction, List.takeWhile_append_dropWhile]
    · exact .pointed fun _ => List.mem_takeWhile_imp
    · exact fun some => ⟨rfl, isNumeral_takeWhile some⟩
  · rw [scanFraction_of_ne (not_exists.mp pointed)]
    refine ⟨[], rfl, ?_, fun some => absurd rfl some⟩
    have nothing : (placeValue [] / 10 ^ ([] : List Char).length : ℚ) = 0 := by simp [placeValue]
    rw [nothing]
    exact .none

theorem length_scanFraction_le (chars : List Char) :
    (scanFraction chars).2.length ≤ chars.length := by
  obtain ⟨front, split, _⟩ := scanFraction_spells chars
  exact List.IsSuffix.length_le ⟨front, split.symm⟩

/-- Nothing at the front goes on with the digits or the point of a decimal. -/
structure Ends (rest : List Char) : Prop where
  digits : rest.takeWhile Char.isDigit = []
  point : ∀ more, rest ≠ '.' :: more

theorem ends_nil : Ends [] := ⟨rfl, fun _ => by simp⟩

theorem SpellsExponent.ends {exponent after : List Char} {power : Int}
    (powered : SpellsExponent exponent power) (none : exponent = [] → Ends after) :
    Ends (exponent ++ after) := by
  cases powered with
  | none => exact none rfl
  | marked marked _ =>
      rcases marked with rfl | rfl
      · exact ⟨rfl, fun _ => by simp⟩
      · exact ⟨rfl, fun _ => by simp⟩

theorem SpellsExponent.ends_self {exponent : List Char} {power : Int}
    (powered : SpellsExponent exponent power) : Ends exponent := by
  have ends := powered.ends fun _ => ends_nil
  rwa [List.append_nil] at ends

theorem SpellsFraction.takeWhile_append {fraction rest : List Char} {part : ℚ}
    (fractional : SpellsFraction fraction part) (ends : Ends rest) :
    (fraction ++ rest).takeWhile Char.isDigit = [] := by
  cases fractional with
  | none => exact ends.digits
  | pointed => rfl

/-- The digits of a fraction are what is behind the point. -/
theorem scanFraction_append {fraction rest : List Char} {part : ℚ}
    (fractional : SpellsFraction fraction part) (ends : Ends rest) :
    scanFraction (fraction ++ rest) = (fraction.tail, rest) ∧
      part = placeValue fraction.tail / 10 ^ fraction.tail.length := by
  cases fractional with
  | none => exact ⟨scanFraction_of_ne ends.point, by simp [placeValue]⟩
  | pointed decimal =>
      refine ⟨?_, rfl⟩
      rw [List.cons_append, scanFraction, takeWhile_digits decimal ends.digits,
        dropWhile_digits decimal ends.digits, List.tail_cons]

/-- No more is left than behind a fraction. -/
theorem scanFraction_longest {fraction : List Char} {part : ℚ}
    (fractional : SpellsFraction fraction part) (after : List Char) :
    (scanFraction (fraction ++ after)).2.length ≤ after.length := by
  cases fractional with
  | none => exact length_scanFraction_le after
  | pointed decimal =>
      rw [List.cons_append, scanFraction, List.dropWhile_append_of_pos decimal]
      exact List.length_dropWhile_le _ _

/-! ## The decimal -/

theorem scanDecimal_eq (negative : Bool) (chars : List Char) :
    scanDecimal negative chars =
      if chars.takeWhile Char.isDigit = [] ∧ (scanFraction (chars.dropWhile Char.isDigit)).1 = []
      then none
      else some (.decimal negative
          (value (chars.takeWhile Char.isDigit ++ (scanFraction (chars.dropWhile Char.isDigit)).1))
          ((scanExponent (scanFraction (chars.dropWhile Char.isDigit)).2).1 -
            (scanFraction (chars.dropWhile Char.isDigit)).1.length),
        (scanExponent (scanFraction (chars.dropWhile Char.isDigit)).2).2) := by
  simp only [scanDecimal, Bool.and_eq_true, List.isEmpty_iff]

/-- What is read spells the decimal that it is read as. -/
theorem scanDecimal_spells {sign : Bool} {chars rest : List Char} {literal : Literal}
    (read : scanDecimal sign chars = some (literal, rest)) :
    ∃ front, chars = front ++ rest ∧ literal.negative = sign ∧
      SpellsMagnitude front literal.amount := by
  rw [scanDecimal_eq] at read
  obtain ⟨point, fractionSplit, fractional, pointed⟩ :=
    scanFraction_spells (chars.dropWhile Char.isDigit)
  obtain ⟨exponent, exponentSplit, powered⟩ :=
    scanExponent_spells (scanFraction (chars.dropWhile Char.isDigit)).2
  split at read
  case isTrue => cases read
  case isFalse some =>
    cases read
    refine ⟨chars.takeWhile Char.isDigit ++ (point ++ exponent), ?_, rfl, ?_⟩
    · rw [List.append_assoc, List.append_assoc, ← exponentSplit, ← fractionSplit,
        List.takeWhile_append_dropWhile]
    rw [amount_decimal]
    by_cases whole : chars.takeWhile Char.isDigit = []
    · obtain ⟨rfl, numeral⟩ := pointed fun none => some ⟨whole, none⟩
      rw [whole, placeValue_nil, Nat.cast_zero, zero_add]
      exact .decimal (.pointed numeral powered)
    · exact .decimal (.whole (isNumeral_takeWhile whole) fractional powered)

/-- A decimal is read as what it spells. -/
theorem scanDecimal_of_spells (sign : Bool) {chars : List Char} {exact : ℚ}
    (spelled : SpellsDecimal chars exact) :
    ∃ literal, scanDecimal sign chars = some (literal, []) ∧ literal.negative = sign ∧
      literal.amount = .decimal exact := by
  cases spelled with
  | @whole digits fraction exponent part power numeral fractional powered =>
      have ends := powered.ends_self
      have stop := fractional.takeWhile_append ends
      obtain ⟨scanned, rfl⟩ := scanFraction_append fractional ends
      refine ⟨_, ?_, rfl, amount_decimal sign digits fraction.tail power⟩
      rw [scanDecimal_eq, takeWhile_digits numeral.2 stop, dropWhile_digits numeral.2 stop,
        scanned, scanExponent_of_spells powered, if_neg fun none => numeral.1 none.1]
  | @pointed digits exponent power numeral powered =>
      have scanned := scanFraction_append (.pointed numeral.2) powered.ends_self
      have amount := amount_decimal sign [] digits power
      rw [placeValue_nil, Nat.cast_zero, zero_add] at amount
      refine ⟨_, ?_, rfl, amount⟩
      rw [scanDecimal_eq, List.takeWhile_cons_of_neg (by decide),
        List.dropWhile_cons_of_neg (by decide), ← List.cons_append, scanned.1, List.tail_cons,
        scanExponent_of_spells powered, if_neg fun none => numeral.1 none.2]

/-- No more is left than behind a fraction and an exponent. -/
theorem scanExponent_scanFraction_longest {fraction exponent : List Char} {part : ℚ} {power : Int}
    (fractional : SpellsFraction fraction part) (powered : SpellsExponent exponent power)
    (after : List Char) :
    (scanExponent (scanFraction (fraction ++ (exponent ++ after))).2).2.length ≤ after.length := by
  by_cases none : exponent = []
  · subst none
    exact (length_scanExponent_le _).trans (scanFraction_longest fractional _)
  · rw [(scanFraction_append fractional (powered.ends fun nil => absurd nil none)).1]
    exact scanExponent_longest powered after

/-- What begins with a decimal is read, and no more is left than behind the decimal. -/
theorem scanDecimal_longest (sign : Bool) {front : List Char} {exact : ℚ}
    (spelled : SpellsDecimal front exact) (after : List Char) :
    ∃ literal rest, scanDecimal sign (front ++ after) = some (literal, rest) ∧
      rest.length ≤ after.length := by
  cases spelled with
  | @whole digits fraction exponent part power numeral fractional powered =>
      rw [scanDecimal_eq, List.append_assoc, List.append_assoc,
        if_neg fun none => takeWhile_ne_nil numeral _ none.1,
        List.dropWhile_append_of_pos numeral.2]
      refine ⟨_, _, rfl, ?_⟩
      -- Where digits are all that is spelled, anything may go on with them.
      by_cases none : fraction = [] ∧ exponent = []
      · obtain ⟨rfl, rfl⟩ := none
        exact (length_scanExponent_le _).trans
          ((length_scanFraction_le _).trans (List.length_dropWhile_le _ _))
      · have stop : (fraction ++ (exponent ++ after)).takeWhile Char.isDigit = [] := by
          cases fractional with
          | none => exact (powered.ends fun nil => absurd ⟨rfl, nil⟩ none).digits
          | pointed => rfl
        rw [dropWhile_eq_self stop]
        exact scanExponent_scanFraction_longest fractional powered after
  | @pointed digits exponent power numeral powered =>
      have left := scanExponent_scanFraction_longest (.pointed numeral.2) powered after
      rw [List.cons_append, scanDecimal_eq, List.dropWhile_cons_of_neg (by decide),
        List.append_assoc]
      rw [List.cons_append] at left
      refine ⟨_, _, if_neg fun none => ?_, left⟩
      exact takeWhile_ne_nil numeral _ none.2

/-! ## The words -/

theorem SpellsWord.length_eq {word chars : List Char} (spelled : SpellsWord word chars) :
    chars.length = word.length := by
  rw [← spelled, List.length_map]

theorem dropWord?_eq_some_iff {word chars rest : List Char} :
    dropWord? word chars = some rest ↔ ∃ front, chars = front ++ rest ∧ SpellsWord word front := by
  unfold dropWord?
  constructor
  · intro dropped
    split at dropped
    case isTrue spelled =>
      cases dropped
      exact ⟨_, (List.take_append_drop _ _).symm, spelled⟩
    case isFalse => cases dropped
  · rintro ⟨front, rfl, spelled⟩
    rw [List.take_left' spelled.length_eq, List.drop_left' spelled.length_eq]
    exact if_pos spelled

/-- A digit has no other case. -/
theorem toLower_of_isDigit {char : Char} (digit : char.isDigit = true) : char.toLower = char := by
  unfold Char.toLower
  split
  case isTrue upper =>
    simp only [Char.isDigit, Bool.and_eq_true, decide_eq_true_eq] at digit
    exact absurd (UInt32.le_trans upper.1 digit.2) (by decide)
  case isFalse => rfl

theorem SpellsWord.exists_cons {letter : Char} {word chars : List Char}
    (spelled : SpellsWord (letter :: word) chars) :
    ∃ first rest, chars = first :: rest ∧ first.toLower = letter := by
  obtain ⟨first, rest, rfl, lower, _⟩ := List.map_eq_cons_iff.mp spelled
  exact ⟨first, rest, rfl, lower⟩

theorem SpellsSpecial.exists_cons {chars : List Char} {amount : Amount}
    (spelled : SpellsSpecial chars amount) :
    ∃ first rest, chars = first :: rest ∧ (first.toLower = 'i' ∨ first.toLower = 'n') := by
  cases spelled with
  | inf spelled | infinity spelled =>
      obtain ⟨first, rest, rfl, lower⟩ := spelled.exists_cons
      exact ⟨first, rest, rfl, .inl lower⟩
  | nan spelled | tagged spelled =>
      obtain ⟨first, rest, rfl, lower⟩ := spelled.exists_cons
      exact ⟨first, _, rfl, .inr lower⟩

/-- None of the words begins as a decimal does. -/
theorem SpellsSpecial.scanDecimal_eq_none {chars : List Char} {amount : Amount}
    (spelled : SpellsSpecial chars amount) (sign : Bool) (after : List Char) :
    scanDecimal sign (chars ++ after) = none := by
  obtain ⟨first, rest, rfl, lower⟩ := spelled.exists_cons
  have digit : ¬ first.isDigit = true := by
    intro digit
    rw [toLower_of_isDigit digit] at lower
    rcases lower with rfl | rfl <;> cases digit
  have point : ∀ more, first :: (rest ++ after) ≠ '.' :: more := by
    rintro more same
    obtain ⟨rfl, _⟩ := List.cons.inj same
    exact absurd lower (by decide)
  rw [scanDecimal_eq, List.cons_append, List.takeWhile_cons_of_neg digit,
    List.dropWhile_cons_of_neg digit, scanFraction_of_ne point]
  exact if_pos ⟨rfl, rfl⟩

/-- A tag is dropped if it is complete. -/
theorem dropTag_cases (chars : List Char) :
    dropTag chars = chars ∨ ∃ tag, (∀ char ∈ tag, isTagChar char = true) ∧
      chars = '(' :: (tag ++ ')' :: dropTag chars) := by
  by_cases opened : ∃ rest, chars = '(' :: rest
  · obtain ⟨rest, rfl⟩ := opened
    rw [dropTag]
    split
    case h_1 after closed =>
      refine .inr ⟨rest.takeWhile isTagChar, fun _ => List.mem_takeWhile_imp, ?_⟩
      rw [← closed, List.takeWhile_append_dropWhile]
    case h_2 => exact .inl rfl
  · rw [dropTag]
    · exact .inl rfl
    · exact not_exists.mp opened

theorem dropTag_tag {tag : List Char} (allowed : ∀ char ∈ tag, isTagChar char = true)
    (after : List Char) : dropTag ('(' :: (tag ++ ')' :: after)) = after := by
  have closed : (tag ++ ')' :: after).dropWhile isTagChar = ')' :: after := by
    rw [List.dropWhile_append_of_pos allowed]
    rfl
  simp only [dropTag, closed]

theorem isTagChar_iff {char : Char} :
    isTagChar char = true ↔ char.isAlphanum = true ∨ char = '_' := by
  simp only [isTagChar, Bool.or_eq_true, decide_eq_true_eq]

theorem length_dropTag_le (chars : List Char) : (dropTag chars).length ≤ chars.length := by
  rcases dropTag_cases chars with same | ⟨tag, _, split⟩
  · exact (congrArg List.length same).le
  · refine List.IsSuffix.length_le ⟨'(' :: (tag ++ [')']), ?_⟩
    rw [List.cons_append, List.append_assoc, List.singleton_append]
    exact split.symm

theorem scanSpecial_nan {chars : List Char} (spelled : SpellsWord ['n', 'a', 'n'] chars)
    (sign : Bool) (after : List Char) :
    scanSpecial sign (chars ++ after) = some (.nan sign, dropTag after) := by
  simp only [scanSpecial, dropWord?_eq_some_iff.mpr ⟨chars, rfl, spelled⟩]

theorem scanSpecial_inf {chars : List Char} (spelled : SpellsWord ['i', 'n', 'f'] chars)
    (sign : Bool) (after : List Char) :
    scanSpecial sign (chars ++ after) =
      some (.infinity sign, (dropWord? ['i', 'n', 'i', 't', 'y'] after).getD after) := by
  have other : dropWord? ['n', 'a', 'n'] (chars ++ after) = none := by
    rw [Option.eq_none_iff_forall_ne_some]
    intro rest dropped
    obtain ⟨front, same, spelledToo⟩ := dropWord?_eq_some_iff.mp dropped
    obtain ⟨rfl, _⟩ := List.append_inj same (spelled.length_eq.trans spelledToo.length_eq.symm)
    cases spelled.symm.trans spelledToo
  simp only [scanSpecial, other, dropWord?_eq_some_iff.mpr ⟨chars, rfl, spelled⟩]

theorem scanSpecial_spells {sign : Bool} {chars rest : List Char} {literal : Literal}
    (read : scanSpecial sign chars = some (literal, rest)) :
    ∃ front, chars = front ++ rest ∧ literal.negative = sign ∧
      SpellsMagnitude front literal.amount := by
  unfold scanSpecial at read
  split at read
  case h_1 after nan =>
    cases read
    obtain ⟨front, rfl, spelled⟩ := dropWord?_eq_some_iff.mp nan
    rcases dropTag_cases after with same | ⟨tag, allowed, split⟩
    · exact ⟨front, by rw [same], rfl, .special (.nan spelled)⟩
    · refine ⟨_, ?_, rfl, .special (.tagged spelled fun char member =>
        isTagChar_iff.mp (allowed char member))⟩
      conv_lhs => rw [split]
      simp
  case h_2 =>
    split at read
    case h_1 after inf =>
      cases read
      obtain ⟨front, rfl, spelled⟩ := dropWord?_eq_some_iff.mp inf
      cases long : dropWord? ['i', 'n', 'i', 't', 'y'] after with
      | none => exact ⟨front, rfl, rfl, .special (.inf spelled)⟩
      | some rest =>
          obtain ⟨back, rfl, spelledToo⟩ := dropWord?_eq_some_iff.mp long
          have both : SpellsWord ['i', 'n', 'f', 'i', 'n', 'i', 't', 'y'] (front ++ back) := by
            rw [SpellsWord, List.map_append, spelled, spelledToo]
            rfl
          exact ⟨front ++ back, (List.append_assoc _ _ _).symm, rfl, .special (.infinity both)⟩
    case h_2 => cases read

/-- What begins with one of the words is read as that, and no more is left than behind it. -/
theorem scanSpecial_longest (sign : Bool) {front : List Char} {amount : Amount}
    (spelled : SpellsSpecial front amount) (after : List Char) :
    ∃ literal rest, scanSpecial sign (front ++ after) = some (literal, rest) ∧
      rest.length ≤ after.length ∧ literal.negative = sign ∧ literal.amount = amount := by
  cases spelled with
  | inf spelled =>
      refine ⟨_, _, scanSpecial_inf spelled sign after, ?_, rfl, rfl⟩
      cases long : dropWord? ['i', 'n', 'i', 't', 'y'] after with
      | none => exact le_rfl
      | some rest =>
          obtain ⟨back, rfl, _⟩ := dropWord?_eq_some_iff.mp long
          exact (List.suffix_append back rest).length_le
  | infinity spelled =>
      obtain ⟨first, second, rfl, short, long⟩ :=
        List.map_eq_append_iff.mp (show _ = ['i', 'n', 'f'] ++ ['i', 'n', 'i', 't', 'y'] from spelled)
      refine ⟨.infinity sign, after, ?_, le_rfl, rfl, rfl⟩
      rw [List.append_assoc, scanSpecial_inf short,
        dropWord?_eq_some_iff.mpr ⟨second, rfl, long⟩, Option.getD_some]
  | nan spelled =>
      exact ⟨_, _, scanSpecial_nan spelled sign after, length_dropTag_le after, rfl, rfl⟩
  | @tagged chars tag spelled allowed =>
      refine ⟨.nan sign, after, ?_, le_rfl, rfl, rfl⟩
      rw [List.append_assoc, List.cons_append, List.append_assoc, List.singleton_append,
        scanSpecial_nan spelled, dropTag_tag fun char member => isTagChar_iff.mpr (allowed char member)]

/-! ## The literal -/

/-- Reads a magnitude, which is a decimal or special. -/
def scanMagnitude (sign : Bool) (chars : List Char) : Option (Literal × List Char) :=
  (scanDecimal sign chars).or (scanSpecial sign chars)

theorem scan_eq (chars : List Char) :
    scan chars = scanMagnitude (scanMinus chars).1 (scanMinus chars).2 := rfl

theorem scanMagnitude_spells {sign : Bool} {chars rest : List Char} {literal : Literal}
    (read : scanMagnitude sign chars = some (literal, rest)) :
    ∃ front, chars = front ++ rest ∧ literal.negative = sign ∧
      SpellsMagnitude front literal.amount := by
  rcases Option.or_eq_some_iff.mp read with decimal | ⟨_, special⟩
  · exact scanDecimal_spells decimal
  · exact scanSpecial_spells special

theorem scanMagnitude_of_spells (sign : Bool) {chars : List Char} {amount : Amount}
    (spelled : SpellsMagnitude chars amount) :
    ∃ literal, scanMagnitude sign chars = some (literal, []) ∧ literal.negative = sign ∧
      literal.amount = amount := by
  cases spelled with
  | decimal spelled =>
      obtain ⟨literal, read, denotes⟩ := scanDecimal_of_spells sign spelled
      exact ⟨literal, Option.or_eq_some_iff.mpr (.inl read), denotes⟩
  | special spelled =>
      obtain ⟨literal, rest, read, left, denotes⟩ := scanSpecial_longest sign spelled []
      obtain rfl : rest = [] := List.length_eq_zero_iff.mp (Nat.le_zero.mp left)
      have undecided := spelled.scanDecimal_eq_none sign []
      rw [List.append_nil] at read undecided
      exact ⟨literal, Option.or_eq_some_iff.mpr (.inr ⟨undecided, read⟩), denotes⟩

theorem scanMagnitude_longest (sign : Bool) {front : List Char} {amount : Amount}
    (spelled : SpellsMagnitude front amount) (after : List Char) :
    ∃ literal rest, scanMagnitude sign (front ++ after) = some (literal, rest) ∧
      rest.length ≤ after.length := by
  cases spelled with
  | decimal spelled =>
      obtain ⟨literal, rest, read, left⟩ := scanDecimal_longest sign spelled after
      exact ⟨literal, rest, Option.or_eq_some_iff.mpr (.inl read), left⟩
  | special spelled =>
      obtain ⟨literal, rest, read, left, _⟩ := scanSpecial_longest sign spelled after
      have undecided := spelled.scanDecimal_eq_none sign after
      exact ⟨literal, rest, Option.or_eq_some_iff.mpr (.inr ⟨undecided, read⟩), left⟩

/-- A magnitude has no sign in front. -/
theorem SpellsMagnitude.append_ne_cons {chars : List Char} {amount : Amount}
    (spelled : SpellsMagnitude chars amount) {sign : Char} (signed : sign = '-' ∨ sign = '+')
    (after rest : List Char) : chars ++ after ≠ sign :: rest := by
  intro same
  cases spelled with
  | decimal spelled =>
      cases spelled with
      | whole numeral =>
          rw [List.append_assoc] at same
          refine numeral.append_ne_cons ?_ _ _ same
          rcases signed with rfl | rfl <;> rfl
      | pointed =>
          obtain ⟨rfl, _⟩ := List.cons.inj same
          exact absurd signed (by decide)
  | special spelled =>
      obtain ⟨first, more, rfl, lower⟩ := spelled.exists_cons
      obtain ⟨rfl, _⟩ := List.cons.inj same
      rcases signed with rfl | rfl <;> exact absurd lower (by decide)

theorem SpellsMagnitude.ne_cons {chars : List Char} {amount : Amount}
    (spelled : SpellsMagnitude chars amount) {sign : Char} (signed : sign = '-' ∨ sign = '+')
    (rest : List Char) : chars ≠ sign :: rest := by
  rw [← List.append_nil chars]
  exact spelled.append_ne_cons signed [] rest

theorem scanMinus_of_ne {chars : List Char} (unsigned : ∀ rest, chars ≠ '-' :: rest) :
    scanMinus chars = (false, chars) := by
  rw [scanMinus]
  exact unsigned

theorem scan_spells {chars rest : List Char} {literal : Literal}
    (read : scan chars = some (literal, rest)) :
    ∃ front, chars = front ++ rest ∧ Spells front literal.negative literal.amount := by
  rw [scan_eq] at read
  by_cases signed : ∃ more, chars = '-' :: more
  · obtain ⟨more, rfl⟩ := signed
    obtain ⟨front, rfl, sign, spelled⟩ := scanMagnitude_spells read
    refine ⟨'-' :: front, rfl, ?_⟩
    rw [sign]
    exact .minus spelled
  · rw [scanMinus_of_ne (not_exists.mp signed)] at read
    obtain ⟨front, rfl, sign, spelled⟩ := scanMagnitude_spells read
    refine ⟨front, rfl, ?_⟩
    rw [sign]
    exact .unsigned spelled

theorem scan_of_spells {chars : List Char} {sign : Bool} {amount : Amount}
    (spelled : Spells chars sign amount) :
    ∃ literal, scan chars = some (literal, []) ∧ literal.negative = sign ∧
      literal.amount = amount := by
  cases spelled with
  | unsigned spelled =>
      rw [scan_eq, scanMinus_of_ne (spelled.ne_cons (.inl rfl))]
      exact scanMagnitude_of_spells false spelled
  | minus spelled => exact scanMagnitude_of_spells true spelled

/-- What the scanner finds at the front of a list of characters. -/
structure ReadsLongest (chars : List Char) : Prop where
  /-- What is read is a front that spells a literal, and it is read as what it spells. -/
  front : ∀ literal rest, scan chars = some (literal, rest) →
    ∃ front, chars = front ++ rest ∧ Spells front literal.negative literal.amount
  /-- No front that spells a literal is longer. -/
  longest : ∀ front after sign amount, chars = front ++ after → Spells front sign amount →
    ∃ literal rest, scan chars = some (literal, rest) ∧ rest.length ≤ after.length

/-- **The scanner reads the longest literal at the front.** -/
theorem scan_readsLongest (chars : List Char) : ReadsLongest chars := by
  refine { front := fun _ _ => scan_spells, longest := ?_ }
  rintro front after sign amount rfl spelled
  cases spelled with
  | unsigned spelled =>
      rw [scan_eq, scanMinus_of_ne (spelled.append_ne_cons (.inl rfl) after)]
      exact scanMagnitude_longest false spelled after
  | minus spelled => exact scanMagnitude_longest true spelled after

/-- A mark without digits behind it is left to what follows. -/
example : scan ['1', '.', 'e', '+'] = some (.decimal false 1 0, ['e', '+']) := by decide

theorem ofChars?_eq_some_iff {chars : List Char} {literal : Literal} :
    ofChars? chars = some literal ↔ scan chars = some (literal, []) := by
  unfold ofChars?
  split
  case h_1 same => simp [same]
  case h_2 other =>
    refine iff_of_false (by simp) ?_
    exact other literal

/-- **Reading a literal and nothing else accepts exactly what spells one.** -/
theorem ofChars?_spells {chars : List Char} {literal : Literal}
    (read : ofChars? chars = some literal) : Spells chars literal.negative literal.amount := by
  obtain ⟨front, rfl, spelled⟩ := scan_spells (ofChars?_eq_some_iff.mp read)
  rwa [List.append_nil]

theorem ofChars?_of_spells {chars : List Char} {sign : Bool} {amount : Amount}
    (spelled : Spells chars sign amount) :
    ∃ literal, ofChars? chars = some literal ∧ literal.negative = sign ∧
      literal.amount = amount := by
  obtain ⟨literal, read, denotes⟩ := scan_of_spells spelled
  exact ⟨literal, ofChars?_eq_some_iff.mpr read, denotes⟩

end Literal

end OverloadResolution
