import OverloadResolution.Proofs.Literals
import OverloadResolution.Proofs.Nearest

/-!
# Tokens that spell floating-point numbers

A reader of floating-point numbers takes a plus sign away and looks for a literal, and it rounds what
the literal stands for to double precision.  So it accepts a token exactly if the token is spelled by
the grammar and there is a number for what it spells (`Reader.SpellsFloating`, `Literal.Amount.Fits`),
and then gives the number that is nearest (`Binary64.StandsFor`).

The reader of single precision reads the same number.  It turns away what is finite and above the
largest number of single precision, infinities and what is not a number not being among it, and does
not round the others any further: the two readers differ in nothing else
(`Reader.floating_readsFloating`).
-/

set_option autoImplicit false

namespace OverloadResolution

open Literal (Amount)

/-- There is a number for an amount: a decimal neither overflows nor vanishes. -/
def Literal.Amount.Fits : Amount → Prop
  | .decimal exact => ¬ Binary64.Overflows exact ∧ ¬ Binary64.Vanishes exact
  | .infinite | .nan => True

/-- The number that stands for an amount with a sign. -/
inductive Binary64.StandsFor (negative : Bool) : Amount → Binary64 → Prop where
  | decimal {exact : ℚ} {code : Fin finiteCount} (nearest : Nearest exact code) :
      StandsFor negative (.decimal exact) ⟨negative, .finite code⟩
  | infinite : StandsFor negative .infinite ⟨negative, .infinite⟩
  | nan : StandsFor negative .nan ⟨negative, .nan⟩

namespace Literal

theorem toBinary64?_eq_some_iff {literal : Literal} {number : Binary64} :
    literal.toBinary64? = some number ↔
      literal.amount.Fits ∧ Binary64.StandsFor literal.negative literal.amount number := by
  cases literal with
  | decimal negative mantissa exponent =>
      refine (Binary64.ofDecimal?_rounds negative mantissa exponent).eq_some_iff.trans
        (and_congr_right fun _ => ?_)
      constructor
      · rintro ⟨code, rfl, nearest⟩
        exact .decimal nearest
      · rintro ⟨nearest⟩
        exact ⟨_, rfl, nearest⟩
  | infinity negative | nan negative =>
      rw [toBinary64?, Option.some.injEq]
      constructor
      · rintro rfl
        exact ⟨trivial, by constructor⟩
      · rintro ⟨_, ⟨⟩⟩
        rfl

theorem toBinary64?_eq_none_iff {literal : Literal} :
    literal.toBinary64? = none ↔ ¬ literal.amount.Fits := by
  cases literal with
  | decimal negative mantissa exponent =>
      have refused := (Binary64.ofDecimal?_rounds negative mantissa exponent).refused_iff
      rw [toBinary64?, refused, amount, Amount.Fits, not_and_or, not_not, not_not]
  | infinity | nan => exact iff_of_false (Option.some_ne_none _) (not_not_intro trivial)

end Literal

namespace Reader

open Literal (Spells SpellsMagnitude)

/-- A token spells a number: a literal, or a magnitude with a plus sign in front. -/
inductive SpellsFloating : List Char → Bool → Amount → Prop where
  | literal {chars : List Char} {negative : Bool} {amount : Amount}
      (spelled : Spells chars negative amount) : SpellsFloating chars negative amount
  | plus {chars : List Char} {amount : Amount} (spelled : SpellsMagnitude chars amount) :
      SpellsFloating ('+' :: chars) false amount

/-- **Taking the plus sign away and then looking for a literal comes to one optional sign.** -/
theorem spellsFloating_of_withoutPlus {chars : List Char} {literal : Literal}
    (read : (withoutPlus chars).bind Literal.ofChars? = some literal) :
    SpellsFloating chars literal.negative literal.amount := by
  obtain ⟨rest, stripped, read⟩ := Option.bind_eq_some_iff.mp read
  have spelled := Literal.ofChars?_spells read
  generalize literal.negative = negative at spelled ⊢
  rcases withoutPlus_eq_some_iff.mp stripped with ⟨rfl, unsigned⟩ | ⟨rfl, _⟩
  · cases spelled with
    | unsigned spelled => exact .plus spelled
    | minus => exact absurd rfl (unsigned _)
  · exact .literal spelled

theorem withoutPlus_of_spellsFloating {chars : List Char} {negative : Bool} {amount : Amount}
    (spelled : SpellsFloating chars negative amount) :
    ∃ literal, (withoutPlus chars).bind Literal.ofChars? = some literal ∧
      literal.negative = negative ∧ literal.amount = amount := by
  cases spelled with
  | literal spelled =>
      have unplussed : ∀ rest, chars ≠ '+' :: rest := by
        cases spelled with
        | unsigned spelled => exact spelled.ne_cons (.inr rfl)
        | minus => exact fun _ => by simp
      rw [withoutPlus_eq_some_iff.mpr (.inr ⟨rfl, unplussed⟩), Option.bind_some]
      exact Literal.ofChars?_of_spells spelled
  | plus spelled =>
      rw [withoutPlus_eq_some_iff.mpr (.inl ⟨rfl, spelled.ne_cons (.inl rfl)⟩), Option.bind_some]
      exact Literal.ofChars?_of_spells (.unsigned spelled)

/-! ## Numbers of double precision -/

/-- A token spells an amount for which there is a number. -/
def SpellsNumber (raw : String) : Prop :=
  ∃ negative amount, SpellsFloating raw.toList negative amount ∧ amount.Fits

theorem binary64?_eq (raw : String) :
    binary64? raw =
      ((withoutPlus raw.toList).bind Literal.ofChars?).bind Literal.toBinary64? :=
  (Option.bind_assoc _ _ _).symm

theorem binary64?_eq_some_iff {raw : String} {number : Binary64} :
    binary64? raw = some number ↔
      ∃ negative amount, SpellsFloating raw.toList negative amount ∧ amount.Fits ∧
        Binary64.StandsFor negative amount number := by
  rw [binary64?_eq, Option.bind_eq_some_iff]
  constructor
  · rintro ⟨literal, read, rounded⟩
    exact ⟨_, _, spellsFloating_of_withoutPlus read, Literal.toBinary64?_eq_some_iff.mp rounded⟩
  · rintro ⟨negative, amount, spelled, number⟩
    obtain ⟨literal, read, rfl, rfl⟩ := withoutPlus_of_spellsFloating spelled
    exact ⟨literal, read, Literal.toBinary64?_eq_some_iff.mpr number⟩

theorem binary64?_eq_none_iff {raw : String} : binary64? raw = none ↔ ¬ SpellsNumber raw := by
  constructor
  · rintro unread ⟨negative, amount, spelled, fits⟩
    obtain ⟨literal, read, rfl, rfl⟩ := withoutPlus_of_spellsFloating spelled
    rw [binary64?_eq, read, Option.bind_some] at unread
    exact Literal.toBinary64?_eq_none_iff.mp unread fits
  · intro unspelled
    rw [Option.eq_none_iff_forall_ne_some]
    intro number read
    obtain ⟨negative, amount, spelled, fits, _⟩ := binary64?_eq_some_iff.mp read
    exact unspelled ⟨negative, amount, spelled, fits⟩

/-! ## Readers of floating-point numbers -/

variable {type : Ty} {single : Bool} {raw : String}

theorem readFloating_of_some {number : Binary64} (spelled : binary64? raw = some number) :
    readFloating type single raw =
      if single = true ∧ number.AboveSingle then .error (outOfRange raw type.render)
      else .ok (.floating type number) := by
  simp only [readFloating, spelled, Bool.and_eq_true, Binary64.exceedsSingle_iff]

theorem readFloating_of_none (unspelled : binary64? raw = none) :
    readFloating type single raw = .error (unreadable raw type.render) := by
  simp only [readFloating, unspelled]

/-- What a reader of either precision makes of a token. -/
theorem readFloating_eq_unreadable_iff :
    readFloating type single raw = .error (unreadable raw type.render) ↔ ¬ SpellsNumber raw := by
  rw [← binary64?_eq_none_iff]
  cases spelled : binary64? raw with
  | none => simp [readFloating_of_none spelled]
  | some number =>
      rw [readFloating_of_some spelled]
      split
      · simp [(unreadable_ne_outOfRange raw type.render).symm]
      · simp

theorem readFloating_eq_ok_iff {value : Value} :
    readFloating type single raw = .ok value ↔
      ∃ number, binary64? raw = some number ∧ ¬ (single = true ∧ number.AboveSingle) ∧
        value = .floating type number := by
  cases spelled : binary64? raw with
  | none => simp [readFloating_of_none spelled]
  | some number =>
      rw [readFloating_of_some spelled]
      split
      case isTrue above =>
        refine iff_of_false (by simp) ?_
        rintro ⟨other, same, inRange, _⟩
        cases same
        exact inRange above
      case isFalse inRange =>
        rw [Except.ok.injEq]
        constructor
        · rintro rfl
          exact ⟨number, rfl, inRange, rfl⟩
        · rintro ⟨other, same, _, rfl⟩
          rw [Option.some.inj same]

theorem readFloating_eq_outOfRange_iff :
    readFloating type single raw = .error (outOfRange raw type.render) ↔
      ∃ number, binary64? raw = some number ∧ single = true ∧ number.AboveSingle := by
  cases spelled : binary64? raw with
  | none => simp [readFloating_of_none spelled, unreadable_ne_outOfRange]
  | some number =>
      rw [readFloating_of_some spelled]
      split
      case isTrue above => exact iff_of_true rfl ⟨number, rfl, above⟩
      case isFalse inRange =>
        refine iff_of_false (by simp) ?_
        rintro ⟨other, same, above⟩
        cases same
        exact inRange above

/-- What the two readers of floating-point numbers make of a token. -/
structure ReadsFloating (single double : Ty) (raw : String) (context : ReadContext) : Prop where
  /-- The reader of double precision cannot read a token exactly if it does not spell a number. -/
  doubleUnreadable_iff : (floating double false).read raw context =
      pure (.error ⟨.error, "cannot parse '" ++ raw ++ "' as " ++ double.render, double.render⟩) ↔
    ¬ SpellsNumber raw
  /-- Neither can the reader of single precision. -/
  singleUnreadable_iff : (floating single true).read raw context =
      pure (.error ⟨.error, "cannot parse '" ++ raw ++ "' as " ++ single.render, single.render⟩) ↔
    ¬ SpellsNumber raw
  /-- Every other token is accepted in double precision. -/
  doubleReads : SpellsNumber raw → ∃ number : Binary64,
    (floating double false).read raw context = pure (.ok (.floating double number))
  /-- The number is the one that stands for what the token spells. -/
  doubleAccepts_iff : ∀ value, (floating double false).read raw context = pure (.ok value) ↔
    ∃ negative amount number, SpellsFloating raw.toList negative amount ∧ amount.Fits ∧
      Binary64.StandsFor negative amount number ∧ value = .floating double number
  /-- A token is out of range for single precision if this number is finite and too large. -/
  outOfRange_iff : (floating single true).read raw context =
      pure (.error ⟨.error, "value " ++ raw ++ " is out of range for " ++ single.render,
        single.render⟩) ↔
    ∃ number, (floating double false).read raw context = pure (.ok (.floating double number)) ∧
      number.AboveSingle
  /-- The others are accepted in single precision, with the same number. -/
  singleAccepts_iff : ∀ value, (floating single true).read raw context = pure (.ok value) ↔
    ∃ number, (floating double false).read raw context = pure (.ok (.floating double number)) ∧
      ¬ number.AboveSingle ∧ value = .floating single number

/-- The reader of double precision gives every number that is read. -/
theorem floating_read_double_iff {context : ReadContext} {number : Binary64} :
    (floating type false).read raw context = pure (.ok (.floating type number)) ↔
      binary64? raw = some number := by
  rw [floating, ofFunction_read_eq_iff, readFloating_eq_ok_iff]
  constructor
  · rintro ⟨other, read, _, same⟩
    cases same
    exact read
  · exact fun read => ⟨number, read, by simp, rfl⟩

/-- **The readers of floating-point numbers accept exactly the tokens that spell one, and differ only
in what is above the largest number of single precision.** -/
theorem floating_readsFloating (single double : Ty) (raw : String) (context : ReadContext) :
    ReadsFloating single double raw context := by
  refine { doubleUnreadable_iff := ofFunction_read_eq_iff.trans readFloating_eq_unreadable_iff,
           singleUnreadable_iff := ofFunction_read_eq_iff.trans readFloating_eq_unreadable_iff,
           doubleReads := ?reads, doubleAccepts_iff := ?accepts, outOfRange_iff := ?outOfRange,
           singleAccepts_iff := ?same }
  case reads =>
    intro spelled
    have read : binary64? raw ≠ none := fun unread => binary64?_eq_none_iff.mp unread spelled
    obtain ⟨number, read⟩ := Option.ne_none_iff_exists'.mp read
    exact ⟨number, floating_read_double_iff.mpr read⟩
  case accepts =>
    intro value
    rw [floating, ofFunction_read_eq_iff, readFloating_eq_ok_iff]
    constructor
    · rintro ⟨number, read, _, rfl⟩
      obtain ⟨negative, amount, spelled, fits, number⟩ := binary64?_eq_some_iff.mp read
      exact ⟨negative, amount, _, spelled, fits, number, rfl⟩
    · rintro ⟨negative, amount, number, spelled, fits, stands, rfl⟩
      have read := binary64?_eq_some_iff.mpr ⟨negative, amount, spelled, fits, stands⟩
      exact ⟨number, read, by simp, rfl⟩
  case outOfRange =>
    refine ofFunction_read_eq_iff.trans (readFloating_eq_outOfRange_iff.trans ?_)
    simp only [floating_read_double_iff, true_and]
  case same =>
    intro value
    rw [floating, ofFunction_read_eq_iff, readFloating_eq_ok_iff]
    simp only [floating_read_double_iff, true_and]

end Reader

end OverloadResolution
