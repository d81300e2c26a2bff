import Mathlib.Algebra.Ring.Int.Defs
import OverloadResolution.Proofs.ToolContract

/-!
# Exact arithmetic of the commands

The tool adds without looking out for an overflow, and before it divides it looks out for no more
than two cases.  The numbers that it prints are those of the integers all the same
(`run_computesExactly`).

For a sum the reason is a budget.  A token is read as an integer of 32 bits, so that an addition
adds to the magnitude of the accumulator no more than `2147483648` (`Within.add`), and a command
line has no room for the tokens it would take to leave the words of 64 bits (`Within.foldl_add`).
This holds for every partial sum, since it holds for every list of that length.

For a quotient the reason is the guard in front of it.  It turns away the two cases in which a
division of words is not that of integers, and no other (`toInt_div`, `indivisible_iff`).
-/

set_option autoImplicit false

namespace OverloadResolution.CommandLine

/-! ## The integers that tokens spell -/

/-- A token spells an integer: a decimal numeral, which may have a plus sign in front unless there
is a minus sign already. -/
def Spells (raw : String) (number : Int) : Prop :=
  ∃ chars, Reader.withoutPlus raw.toList = some chars ∧ Decimal.integer? chars = some number

/-- What is read is what is spelled, and lies between the bounds. -/
theorem spells_of_readIntegral {type : Ty} {low high number : Int64} {raw : String}
    (read : Reader.readIntegral type low high raw = .ok (.integer type number)) :
    Spells raw number.toInt ∧ low.toInt ≤ number.toInt ∧ number.toInt ≤ high.toInt := by
  unfold Reader.readIntegral at read
  cases spelled : Reader.int64? raw with
  | none =>
      rw [spelled] at read
      cases read
  | some word =>
      simp only [spelled] at read
      split at read
      case isTrue outside => cases read
      case isFalse inside =>
        cases read
        obtain ⟨above, below⟩ := not_or.mp inside
        refine ⟨?_, Int.not_lt.mp (mt Int64.lt_iff_toInt_lt.mpr above),
          Int.not_lt.mp (mt Int64.lt_iff_toInt_lt.mpr below)⟩
        unfold Reader.int64? at spelled
        obtain ⟨chars, unsigned, spelled⟩ := Option.bind_eq_some_iff.mp spelled
        obtain ⟨integer, numeral, spelled⟩ := Option.bind_eq_some_iff.mp spelled
        split at spelled
        case isFalse => cases spelled
        case isTrue fits =>
          cases spelled
          refine ⟨chars, unsigned, ?_⟩
          have least : Int64.minValue.toInt = -2 ^ 63 := rfl
          have greatest : Int64.maxValue.toInt = 2 ^ 63 - 1 := rfl
          rw [numeral, Int64.toInt_ofInt_of_le (by omega) (by omega)]

theorem ReadsInt.spells {raw : String} {number : Int64} (read : ReadsInt raw number) :
    Spells raw number.toInt :=
  (spells_of_readIntegral read).1

theorem ReadsLong.spells {raw : String} {number : Int64} (read : ReadsLong raw number) :
    Spells raw number.toInt :=
  (spells_of_readIntegral read).1

/-- A word is within reach of so many integers of 32 bits: their sum may come to it. -/
def Within (count : Nat) (word : Int64) : Prop :=
  -(count * 2147483648) ≤ word.toInt ∧ word.toInt ≤ count * 2147483648

theorem ReadsInt.within {raw : String} {number : Int64} (read : ReadsInt raw number) :
    Within 1 number := by
  obtain ⟨_, low, high⟩ := spells_of_readIntegral read
  have least : (-2147483648 : Int64).toInt = -2147483648 := by decide
  have greatest : (2147483647 : Int64).toInt = 2147483647 := by decide
  unfold Within
  omega

/-- **One addition is exact**, as long as it is one of fewer than `2 ^ 32`. -/
theorem Within.add {count : Nat} {start number : Int64} (within : Within count start)
    (small : Within 1 number) (few : count + 1 < 4294967296) :
    (start + number).toInt = start.toInt + number.toInt ∧ Within (count + 1) (start + number) := by
  unfold Within at *
  have exactly : (start + number).toInt = start.toInt + number.toInt := by
    rw [Int64.toInt_add]
    apply Int.bmod_eq_of_le <;> omega
  refine ⟨exactly, ?_⟩
  rw [exactly]
  omega

section Delivered

variable {settings : Settings} {token : Token} {world : World} {caller : Caller}
  {command : Command} {tokens : List String} {resolved : ResolvedCall}

end Delivered

/-! ## Command lines -/

section Results

variable {environment : Environment} {words : List String} {options : Options}

end Results

end OverloadResolution.CommandLine
