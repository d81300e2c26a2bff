/-!
# Powers, and rounding a ratio

Numbers are scaled by powers of two and of ten, and a ratio is rounded to the natural number nearest
to it; of two that are equally near, to the even one.  Reading a decimal into a fixed-width format
and writing a number with a fixed count of digits both come down to these steps.
-/

set_option autoImplicit false

namespace OverloadResolution

/-- Two to an exponent. -/
def twoTo (exponent : Nat) : Nat := Nat.pow 2 exponent

/-- Ten to an exponent. -/
def tenTo (exponent : Nat) : Nat := Nat.pow 10 exponent

/-- The natural number nearest to `numerator / denominator`; a tie goes to the even one. -/
def roundRatio (numerator denominator : Nat) : Nat :=
  let quotient := numerator / denominator
  let twice := 2 * (numerator % denominator)
  if twice < denominator then quotient
  else if denominator < twice then quotient + 1
  else if quotient % 2 = 0 then quotient
  else quotient + 1

/-- A ratio that is a whole number is not moved. -/
theorem roundRatio_mul (number denominator : Nat) (positive : 0 < denominator) :
    roundRatio (number * denominator) denominator = number := by
  simp [roundRatio, positive]

/-- The rounded number is at most half a unit away. -/
theorem roundRatio_near (numerator denominator : Nat) (positive : 0 < denominator) :
    2 * numerator ≤ (2 * roundRatio numerator denominator + 1) * denominator ∧
      2 * roundRatio numerator denominator * denominator ≤ 2 * numerator + denominator := by
  have division := Nat.div_add_mod numerator denominator
  have small := Nat.mod_lt numerator positive
  unfold roundRatio
  generalize numerator / denominator = quotient at division ⊢
  generalize numerator % denominator = remainder at division small ⊢
  subst division
  have expand : denominator * quotient = quotient * denominator := Nat.mul_comm _ _
  dsimp only
  split
  · constructor <;> simp only [Nat.add_mul, Nat.mul_assoc] <;> omega
  · split
    · constructor <;> simp only [Nat.add_mul, Nat.mul_add, Nat.mul_assoc] <;> omega
    · split
      · constructor <;> simp only [Nat.add_mul, Nat.mul_assoc] <;> omega
      · constructor <;> simp only [Nat.add_mul, Nat.mul_add, Nat.mul_assoc] <;> omega

end OverloadResolution
