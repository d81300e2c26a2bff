import Mathlib.Data.Rat.Cast.Order
import Mathlib.Tactic.FieldSimp
import Mathlib.Tactic.Linarith
import Mathlib.Tactic.Positivity
import Mathlib.Tactic.Ring
import OverloadResolution.Numeral.Binary64

/-!
# Rounding to the nearest number

A decimal is read as a number of double precision.  What that number has to be is said by exact
sizes, which are rational: no finite magnitude is nearer to the decimal, and of two that are equally
near the one with the even code is taken (`Binary64.Nearest`).  There is only one such code
(`Binary64.Nearest.unique`), since codes count up with the sizes.

The ratio is rounded once, at the step of its own exponent.  Around the ratio all magnitudes are
whole numbers of steps, and what is not on this grid lies below it and farther away
(`Binary64.units_grid`); so rounding the count of steps finds the nearest of all magnitudes
(`Binary64.nearestCode_near`).

A decimal is refused if it overflows or if it vanishes, and both are bounds on its size: halfway
between the largest finite size and the next one, and half of the least positive size.  The powers
of ten that are refused before they are formed lie beyond these bounds, so that this is all there is
to it (`Binary64.ofDecimal?_rounds`).
-/

set_option autoImplicit false

namespace OverloadResolution

/-! ## Rounding a ratio -/

/-- The two natural numbers that a ratio may be rounded to, and when it is which. -/
theorem roundRatio_cases (numerator : Nat) {denominator : Nat} (positive : 0 < denominator) :
    ∃ quotient remainder, numerator = quotient * denominator + remainder ∧
      remainder < denominator ∧
      (roundRatio numerator denominator = quotient ∧ 2 * remainder ≤ denominator ∧
          (2 * remainder = denominator → quotient % 2 = 0) ∨
        roundRatio numerator denominator = quotient + 1 ∧ denominator ≤ 2 * remainder ∧
          (2 * remainder = denominator → quotient % 2 = 1)) := by
  refine ⟨numerator / denominator, numerator % denominator, ?_, Nat.mod_lt _ positive, ?_⟩
  · rw [Nat.mul_comm, Nat.div_add_mod]
  · unfold roundRatio
    dsimp only
    split_ifs with below above even
    · exact .inl ⟨rfl, by omega, by omega⟩
    · exact .inr ⟨rfl, by omega, by omega⟩
    · exact .inl ⟨rfl, by omega, by omega⟩
    · exact .inr ⟨rfl, by omega, by omega⟩

section Ratio

variable {numerator denominator bound : Nat}

/-- One more is a whole denominator more. -/
theorem mul_add_le_mul_of_lt {less : Nat} (denominator : Nat) (lt : less < bound) :
    less * denominator + denominator ≤ bound * denominator := by
  rw [← Nat.succ_mul]
  exact Nat.mul_le_mul_right denominator lt

theorem roundRatio_le (positive : 0 < denominator) (below : numerator ≤ bound * denominator) :
    roundRatio numerator denominator ≤ bound := by
  obtain ⟨quotient, remainder, rfl, _, ⟨down, _⟩ | ⟨up, half, _⟩⟩ :=
    roundRatio_cases numerator positive
  · rw [down]
    by_contra above
    have more := mul_add_le_mul_of_lt denominator (Nat.lt_of_not_le above)
    omega
  · rw [up]
    by_contra above
    have more := Nat.mul_le_mul_right denominator (Nat.le_of_lt_succ (Nat.lt_of_not_le above))
    omega

theorem le_roundRatio (positive : 0 < denominator) (above : bound * denominator ≤ numerator) :
    bound ≤ roundRatio numerator denominator := by
  obtain ⟨quotient, remainder, rfl, small, rounded⟩ := roundRatio_cases numerator positive
  have reached : bound ≤ quotient := by
    by_contra below
    have more := mul_add_le_mul_of_lt denominator (Nat.lt_of_not_le below)
    omega
  rcases rounded with ⟨down, _⟩ | ⟨up, _⟩ <;> omega

/-- Only a ratio that is less than half a unit below an even number is rounded to less. -/
theorem roundRatio_lt_iff (positive : 0 < denominator) (even : bound % 2 = 0)
    (nonzero : 0 < bound) :
    roundRatio numerator denominator < bound ↔
      2 * numerator + denominator < 2 * (bound * denominator) := by
  obtain ⟨quotient, remainder, rfl, small, rounded⟩ := roundRatio_cases numerator positive
  rcases Nat.lt_trichotomy (quotient + 1) bound with less | same | more
  · have apart := mul_add_le_mul_of_lt denominator less
    rw [Nat.succ_mul quotient] at apart
    refine iff_of_true ?_ (by omega)
    rcases rounded with ⟨down, _⟩ | ⟨up, _⟩ <;> omega
  · subst same
    rw [Nat.succ_mul quotient]
    rcases rounded with ⟨down, half, tie⟩ | ⟨up, half, tie⟩
    · refine iff_of_true (by omega) ?_
      have untied : 2 * remainder ≠ denominator := fun equal => by
        have := tie equal
        omega
      omega
    · exact iff_of_false (by omega) (by omega)
  · have reached := Nat.mul_le_mul_right denominator (Nat.le_of_lt_succ more)
    refine iff_of_false ?_ (by omega)
    rcases rounded with ⟨down, _⟩ | ⟨up, _⟩ <;> omega

/-- A ratio up to a half is rounded to zero. -/
theorem roundRatio_eq_zero_iff (positive : 0 < denominator) :
    roundRatio numerator denominator = 0 ↔ 2 * numerator ≤ denominator := by
  obtain ⟨quotient, remainder, rfl, small, rounded⟩ := roundRatio_cases numerator positive
  rcases Nat.eq_zero_or_pos quotient with rfl | more
  · rcases rounded with ⟨down, half, _⟩ | ⟨up, half, tie⟩
    · exact iff_of_true down (by omega)
    · refine iff_of_false (by omega) ?_
      have untied : 2 * remainder ≠ denominator := fun equal => by
        have := tie equal
        omega
      omega
  · have reached := mul_add_le_mul_of_lt denominator more
    refine iff_of_false ?_ (by omega)
    rcases rounded with ⟨down, _⟩ | ⟨up, _⟩ <;> omega

/-- The rounded number is at most half a unit away, as rational numbers have it. -/
theorem abs_sub_roundRatio_le_half (numerator : Nat) (positive : 0 < denominator) :
    |(numerator / denominator : ℚ) - roundRatio numerator denominator| ≤ 1 / 2 := by
  obtain ⟨above, below⟩ := roundRatio_near numerator denominator positive
  have nonzero : (0 : ℚ) < denominator := by exact_mod_cast positive
  have aboveToo : (2 * numerator : ℚ) ≤ (2 * roundRatio numerator denominator + 1) * denominator := by
    exact_mod_cast above
  have belowToo : (2 * roundRatio numerator denominator * denominator : ℚ) ≤
      2 * numerator + denominator := by
    exact_mod_cast below
  rw [abs_le, sub_le_iff_le_add, le_sub_iff_add_le, div_le_iff₀ nonzero, le_div_iff₀ nonzero]
  constructor <;> linarith

/-- Any other number is at least half a unit away. -/
theorem half_le_abs_sub_of_ne (numerator : Nat) (positive : 0 < denominator) {other : Nat}
    (different : other ≠ roundRatio numerator denominator) :
    1 / 2 ≤ |(numerator / denominator : ℚ) - other| := by
  have near := abs_le.mp (abs_sub_roundRatio_le_half numerator positive)
  rw [le_abs]
  rcases Nat.lt_or_gt_of_ne different with less | more
  · have apart : (other + 1 : ℚ) ≤ roundRatio numerator denominator := by exact_mod_cast less
    exact .inl (by linarith)
  · have apart : (roundRatio numerator denominator + 1 : ℚ) ≤ other := by exact_mod_cast more
    exact .inr (by linarith)

/-- So no number is nearer than the rounded one. -/
theorem abs_sub_roundRatio_le_abs_sub (numerator : Nat) (positive : 0 < denominator) (other : Nat) :
    |(numerator / denominator : ℚ) - roundRatio numerator denominator| ≤
      |(numerator / denominator : ℚ) - other| := by
  rcases eq_or_ne other (roundRatio numerator denominator) with rfl | different
  · exact le_rfl
  · exact (abs_sub_roundRatio_le_half numerator positive).trans
      (half_le_abs_sub_of_ne numerator positive different)

/-- The rounded number is even if the ratio is half a unit away from it. -/
theorem even_roundRatio_of_half (numerator : Nat) (positive : 0 < denominator)
    (half : 1 / 2 ≤ |(numerator / denominator : ℚ) - roundRatio numerator denominator|) :
    roundRatio numerator denominator % 2 = 0 := by
  have nonzero : (0 : ℚ) < denominator := by exact_mod_cast positive
  obtain ⟨quotient, remainder, rfl, small, rounded⟩ := roundRatio_cases numerator positive
  have ratio : ((quotient * denominator + remainder : Nat) / denominator : ℚ) =
      quotient + remainder / denominator := by
    push_cast
    field_simp
  rw [ratio] at half
  rcases rounded with ⟨down, below, tie⟩ | ⟨up, above, tie⟩
  · rw [down, add_sub_cancel_left, abs_of_nonneg (by positivity), le_div_iff₀ nonzero] at half
    have reached : (denominator : ℚ) ≤ 2 * remainder := by linarith
    rw [down]
    exact tie (Nat.le_antisymm below (by exact_mod_cast reached))
  · have fraction : (remainder / denominator : ℚ) ≤ 1 := by
      rw [div_le_one nonzero]
      exact_mod_cast small.le
    have reached : (2 * remainder : ℚ) ≤ denominator := by
      rw [up, Nat.cast_succ, abs_of_nonpos (by linarith)] at half
      have fractionToo : (remainder / denominator : ℚ) ≤ 1 / 2 := by linarith
      rw [div_le_iff₀ nonzero] at fractionToo
      linarith
    have odd := tie (Nat.le_antisymm (by exact_mod_cast reached) above)
    omega

end Ratio

theorem twoTo_eq (exponent : Nat) : twoTo exponent = 2 ^ exponent := rfl

theorem tenTo_eq (exponent : Nat) : tenTo exponent = 10 ^ exponent := rfl

theorem twoTo_pos (exponent : Nat) : 0 < twoTo exponent := Nat.two_pow_pos exponent

theorem tenTo_pos (exponent : Nat) : 0 < tenTo exponent := Nat.pow_pos (by decide)

theorem cast_twoTo (exponent : Nat) : (twoTo exponent : ℚ) = 2 ^ exponent := by
  rw [twoTo_eq, Nat.cast_pow, Nat.cast_ofNat]

theorem cast_tenTo (exponent : Nat) : (tenTo exponent : ℚ) = 10 ^ exponent := by
  rw [tenTo_eq, Nat.cast_pow, Nat.cast_ofNat]

namespace Binary64

/-! ## The code of a ratio -/

/-- The exponent of the step at which a ratio is rounded: the ratio has 53 bits before the point when
it is counted in such steps, or fewer if the step is one unit. -/
structure StepOf (numerator denominator step : Nat) : Prop where
  below : numerator < 2 ^ 53 * (denominator * 2 ^ step)
  above : step = 0 ∨ 2 ^ 52 * (denominator * 2 ^ step) ≤ numerator

theorem stepOf_log2 (numerator : Nat) {denominator : Nat} (positive : 0 < denominator) :
    StepOf numerator denominator ((numerator / denominator).log2 - 52) := by
  have regroup : ∀ bits step : Nat,
      2 ^ bits * (denominator * 2 ^ step) = 2 ^ (step + bits) * denominator := by
    intro bits step
    ring
  constructor
  · rw [regroup, ← Nat.div_lt_iff_lt_mul positive]
    exact Nat.lt_of_lt_of_le Nat.lt_log2_self (Nat.pow_le_pow_right (by decide) (by omega))
  · by_cases small : (numerator / denominator).log2 ≤ 52
    · exact .inl (Nat.sub_eq_zero_of_le small)
    · have nonzero : numerator / denominator ≠ 0 := by
        intro zero
        rw [zero, Nat.log2_zero] at small
        exact small (Nat.zero_le _)
      rw [regroup, ← Nat.le_div_iff_mul_le positive, Nat.sub_add_cancel (by omega)]
      exact .inr (Nat.log2_self_le nonzero)

/-- The code counts the exponents that were passed, and then the steps. -/
theorem exists_nearestCode (numerator : Nat) {denominator : Nat} (positive : 0 < denominator) :
    ∃ step, StepOf numerator denominator step ∧
      nearestCode numerator denominator =
        step * 2 ^ 52 + roundRatio numerator (denominator * 2 ^ step) ∧
      roundRatio numerator (denominator * 2 ^ step) ≤ 2 ^ 53 ∧
      (step = 0 ∨ 2 ^ 52 ≤ roundRatio numerator (denominator * 2 ^ step)) := by
  have step := stepOf_log2 numerator positive
  have nonzero : 0 < denominator * 2 ^ ((numerator / denominator).log2 - 52) := by positivity
  refine ⟨_, step, rfl, roundRatio_le nonzero step.below.le, ?_⟩
  exact step.above.imp_right (le_roundRatio nonzero)

/-- The first exponent counts units. -/
theorem units_of_lt {code : Nat} (small : code < 2 ^ 52) : units code = code :=
  if_pos small

/-- Each later one has a leading bit, and doubles the step. -/
theorem units_of_le {code : Nat} (large : 2 ^ 52 ≤ code) :
    units code = (2 ^ 52 + code % 2 ^ 52) * 2 ^ (code / 2 ^ 52 - 1) :=
  if_neg (Nat.not_lt.mpr large)

/-- A code stands for its count of steps. -/
theorem units_code {step rounded : Nat} (high : rounded ≤ 2 ^ 53)
    (low : step = 0 ∨ 2 ^ 52 ≤ rounded) : units (step * 2 ^ 52 + rounded) = rounded * 2 ^ step := by
  rcases Nat.lt_or_ge (step * 2 ^ 52 + rounded) (2 ^ 52) with small | large
  · obtain rfl : step = 0 := by omega
    rw [units_of_lt small]
    omega
  · rw [units_of_le large]
    rcases Nat.lt_or_eq_of_le high with normal | carried
    · have quotient : (step * 2 ^ 52 + rounded) / 2 ^ 52 = step + 1 := by omega
      have remainder : 2 ^ 52 + (step * 2 ^ 52 + rounded) % 2 ^ 52 = rounded := by omega
      rw [quotient, remainder, Nat.add_sub_cancel]
    · subst carried
      have quotient : (step * 2 ^ 52 + 2 ^ 53) / 2 ^ 52 = step + 2 := by omega
      have remainder : (step * 2 ^ 52 + 2 ^ 53) % 2 ^ 52 = 0 := by omega
      rw [quotient, remainder, show step + 2 - 1 = step + 1 from rfl]
      ring

/-- Every code counts steps. -/
theorem exists_steps (code : Nat) :
    ∃ step rounded, code = step * 2 ^ 52 + rounded ∧ rounded < 2 ^ 53 ∧
      (step = 0 ∨ 2 ^ 52 ≤ rounded) :=
  ⟨code / 2 ^ 52 - 1, code - (code / 2 ^ 52 - 1) * 2 ^ 52, by omega, by omega, by omega⟩

/-- The next code is that of one more step. -/
theorem units_lt_units_succ (code : Nat) : units code < units (code + 1) := by
  obtain ⟨step, rounded, rfl, high, low⟩ := exists_steps code
  rw [Nat.add_assoc, units_code high.le low, units_code high (low.imp_right Nat.le_succ_of_le)]
  exact Nat.mul_lt_mul_of_pos_right (Nat.lt_succ_self rounded) (Nat.two_pow_pos step)

theorem units_strictMono : StrictMono units := strictMono_nat_of_lt_succ units_lt_units_succ

/-- From some size on, all magnitudes are whole numbers of steps. -/
theorem units_grid (code step : Nat) :
    (∃ count, units code = count * 2 ^ step) ∨ 0 < step ∧ units code < 2 ^ 52 * 2 ^ step := by
  obtain ⟨finer, rounded, rfl, high, low⟩ := exists_steps code
  rw [units_code high.le low]
  rcases Nat.lt_or_ge finer step with before | after
  · refine .inr ⟨by omega, ?_⟩
    calc rounded * 2 ^ finer
        < 2 ^ 53 * 2 ^ finer := Nat.mul_lt_mul_of_pos_right high (Nat.two_pow_pos finer)
      _ = 2 ^ 52 * 2 ^ (finer + 1) := by ring
      _ ≤ 2 ^ 52 * 2 ^ step := Nat.mul_le_mul_left _ (Nat.pow_le_pow_right (by decide) before)
  · refine .inl ⟨rounded * 2 ^ (finer - step), ?_⟩
    rw [Nat.mul_assoc, ← Nat.pow_add, Nat.sub_add_cancel after]

/-! ## What is beyond the codes -/

/-- A ratio has a code below those of an exponent exactly if it is more than half a step below the
first of its magnitudes. -/
theorem nearestCode_lt_iff (numerator exponent : Nat) {denominator : Nat}
    (positive : 0 < denominator) :
    nearestCode numerator denominator < (exponent + 2) * 2 ^ 52 ↔
      2 * numerator + denominator * 2 ^ exponent < 2 * (2 ^ 53 * (denominator * 2 ^ exponent)) := by
  obtain ⟨step, stepOf, code, high, low⟩ := exists_nearestCode numerator positive
  rw [code]
  rcases Nat.lt_trichotomy step exponent with before | same | after
  · have finer : 2 ^ (step + 1) ≤ 2 ^ exponent := Nat.pow_le_pow_right (by decide) before
    have apart := Nat.mul_le_mul_left denominator finer
    have below := stepOf.below
    rw [Nat.pow_succ, ← Nat.mul_assoc] at apart
    exact iff_of_true (by omega) (by omega)
  · subst same
    rw [← roundRatio_lt_iff (by positivity) (by decide) (by decide)]
    omega
  · have coarser : 2 ^ (exponent + 1) ≤ 2 ^ step := Nat.pow_le_pow_right (by decide) after
    have apart := Nat.mul_le_mul_left denominator coarser
    have above := stepOf.above
    rw [Nat.pow_succ, ← Nat.mul_assoc] at apart
    exact iff_of_false (by omega) (by omega)

/-- Only a ratio that is at most half a unit has the code of zero. -/
theorem nearestCode_eq_zero_iff (numerator : Nat) {denominator : Nat}
    (positive : 0 < denominator) :
    nearestCode numerator denominator = 0 ↔ 2 * numerator ≤ denominator := by
  obtain ⟨step, stepOf, code, high, low⟩ := exists_nearestCode numerator positive
  rw [code]
  rcases Nat.eq_zero_or_pos step with rfl | later
  · rw [Nat.pow_zero, Nat.mul_one, Nat.zero_mul, Nat.zero_add, roundRatio_eq_zero_iff positive]
  · have above := stepOf.above
    have reached := Nat.le_mul_of_pos_right denominator (Nat.two_pow_pos step)
    exact iff_of_false (by omega) (by omega)

/-! ## The nearest magnitude -/

/-- **The code of a ratio is that of a nearest magnitude**, and is even if another is as near. -/
theorem nearestCode_near (numerator : Nat) {denominator : Nat} (positive : 0 < denominator)
    (other : Nat) :
    |(numerator / denominator : ℚ) - units (nearestCode numerator denominator)| ≤
        |(numerator / denominator : ℚ) - units other| ∧
      (|(numerator / denominator : ℚ) - units other| =
          |(numerator / denominator : ℚ) - units (nearestCode numerator denominator)| →
        units other ≠ units (nearestCode numerator denominator) →
        nearestCode numerator denominator % 2 = 0) := by
  obtain ⟨step, stepOf, code, high, low⟩ := exists_nearestCode numerator positive
  have wide : 0 < denominator * 2 ^ step := by positivity
  have stepped : (0 : ℚ) < 2 ^ step := by positivity
  -- Both sides are counted in steps.
  have counted : ∀ count : Nat, |(numerator / denominator : ℚ) - (count * 2 ^ step : Nat)| =
      |(numerator / (denominator * 2 ^ step : Nat) : ℚ) - count| * 2 ^ step := by
    intro count
    rw [← abs_of_pos stepped, ← abs_mul]
    congr 1
    push_cast
    field_simp
  rw [code, units_code high low, counted]
  have near := fun count => mul_le_mul_of_nonneg_right
    (abs_sub_roundRatio_le_abs_sub numerator wide count) stepped.le
  rcases units_grid other step with ⟨count, grid⟩ | ⟨later, less⟩
  · rw [grid, counted]
    refine ⟨near count, fun equal different => ?_⟩
    have apart : count ≠ roundRatio numerator (denominator * 2 ^ step) := by
      rintro rfl
      exact different rfl
    have half := half_le_abs_sub_of_ne numerator wide apart
    rw [mul_right_cancel₀ stepped.ne' equal] at half
    have even := even_roundRatio_of_half numerator wide half
    omega
  · -- Below the grid the least magnitude on it is nearer.
    have above : ((2 ^ 52 * 2 ^ step : Nat) : ℚ) ≤ numerator / denominator := by
      rw [le_div_iff₀ (by exact_mod_cast positive)]
      have reached := stepOf.above.resolve_left later.ne'
      have regrouped : 2 ^ 52 * 2 ^ step * denominator ≤ numerator := by
        rw [Nat.mul_assoc, Nat.mul_comm (2 ^ step)]
        exact reached
      exact_mod_cast regrouped
    have lessToo : (units other : ℚ) < (2 ^ 52 * 2 ^ step : Nat) := by exact_mod_cast less
    have farther : |(numerator / denominator : ℚ) - (2 ^ 52 * 2 ^ step : Nat)| <
        |(numerator / denominator : ℚ) - units other| := by
      rw [abs_of_nonneg (sub_nonneg.mpr above),
        abs_of_nonneg (sub_nonneg.mpr (lessToo.le.trans above))]
      exact sub_lt_sub_left lessToo _
    rw [counted] at farther
    have nearer := (near (2 ^ 52)).trans_lt farther
    exact ⟨nearer.le, fun equal => absurd equal nearer.ne'⟩

/-! ## Reading a decimal -/

/-- The size of a finite magnitude. -/
def size (code : Nat) : ℚ := units code / unitsOfOne

/-- A code stands for a size nearest to an exact one, and is even if another size is as near. -/
structure Nearest (exact : ℚ) (code : Nat) : Prop where
  closest : ∀ other, |exact - size code| ≤ |exact - size other|
  even : ∀ other, |exact - size other| = |exact - size code| → size other ≠ size code →
    code % 2 = 0

theorem unitsOfOne_pos : 0 < unitsOfOne := twoTo_pos 1074

theorem cast_unitsOfOne_pos : (0 : ℚ) < unitsOfOne := Nat.cast_pos.mpr unitsOfOne_pos

theorem cast_unitsOfOne : (unitsOfOne : ℚ) = 2 ^ 1074 := cast_twoTo 1074

/-! ### One number is nearest -/

theorem size_strictMono : StrictMono size := by
  intro code other less
  have unitsLess : (units code : ℚ) < units other := by exact_mod_cast units_strictMono less
  exact div_lt_div_of_pos_right unitsLess cast_unitsOfOne_pos

/-- Of two codes that are equally near both would be even, and one between them would be nearer. -/
theorem Nearest.not_lt {exact : ℚ} {code other : Nat} (nearest : Nearest exact code)
    (nearestToo : Nearest exact other) : ¬ code < other := by
  intro less
  have apart : size code < size other := size_strictMono less
  have equal : |exact - size code| = |exact - size other| :=
    le_antisymm (nearest.closest other) (nearestToo.closest code)
  have even := nearest.even other equal.symm apart.ne'
  have evenToo := nearestToo.even code equal apart.ne
  have between : size (code + 1) < size other := size_strictMono (by omega)
  have above : size code < size (code + 1) := size_strictMono (Nat.lt_succ_self code)
  have middle : exact - size code = -(exact - size other) := by
    rcases abs_eq_abs.mp equal with same | opposite
    · linarith
    · exact opposite
  have nearer : |exact - size (code + 1)| < |exact - size code| := by
    rw [abs_of_nonneg (by linarith : 0 ≤ exact - size code), abs_lt]
    constructor <;> linarith
  exact nearer.not_ge (nearest.closest (code + 1))

theorem Nearest.unique {exact : ℚ} {code other : Nat} (nearest : Nearest exact code)
    (nearestToo : Nearest exact other) : code = other :=
  le_antisymm (Nat.not_lt.mp (nearestToo.not_lt nearest)) (Nat.not_lt.mp (nearest.not_lt nearestToo))

/-! ### What is refused -/

/-- An exact magnitude is beyond the finite range from halfway between the largest finite size,
`2 ^ 1024 - 2 ^ 971`, and the one that would come after it. -/
def Overflows (exact : ℚ) : Prop := 2 ^ 1024 - 2 ^ 970 ≤ exact

/-- An exact magnitude other than zero is rounded to zero up to half of the least positive size. -/
def Vanishes (exact : ℚ) : Prop := 0 < exact ∧ exact ≤ 1 / 2 ^ 1075

/-- What rounding comes to: an exact magnitude is refused if it overflows or vanishes, and else
becomes a finite number with a nearest size. -/
structure Rounds (negative : Bool) (exact : ℚ) (answer : Option Binary64) : Prop where
  refused_iff : answer = none ↔ Overflows exact ∨ Vanishes exact
  nearest : ∀ number, answer = some number →
    ∃ code, number = ⟨negative, .finite code⟩ ∧ Nearest exact code

section Ratio

variable (numerator : Nat) {denominator : Nat}

theorem nearest_nearestCode (positive : 0 < denominator) :
    Nearest (numerator / denominator / unitsOfOne) (nearestCode numerator denominator) := by
  have counted : ∀ code, |(numerator / denominator / unitsOfOne : ℚ) - size code| =
      |(numerator / denominator : ℚ) - units code| / unitsOfOne := by
    intro code
    rw [size, ← sub_div, abs_div, abs_of_pos cast_unitsOfOne_pos]
  constructor
  · intro other
    rw [counted, counted]
    exact div_le_div_of_nonneg_right (nearestCode_near numerator positive other).1
      cast_unitsOfOne_pos.le
  · intro other equal different
    rw [counted, counted, div_left_inj' cast_unitsOfOne_pos.ne'] at equal
    refine (nearestCode_near numerator positive other).2 equal fun same => different ?_
    rw [size, size, same]

/-- The bound on the codes below an exponent, as a bound on the ratio. -/
theorem nearestCode_lt_iff_div (positive : 0 < denominator) (exponent : Nat) :
    nearestCode numerator denominator < (exponent + 2) * 2 ^ 52 ↔
      (numerator / denominator : ℚ) < 2 ^ 53 * 2 ^ exponent - 2 ^ exponent / 2 := by
  have nonzero : (0 : ℚ) < denominator := by exact_mod_cast positive
  rw [nearestCode_lt_iff numerator exponent positive, div_lt_iff₀ nonzero, ← Nat.cast_lt (α := ℚ)]
  push_cast
  constructor <;> intro less <;> linarith

theorem overflows_iff (positive : 0 < denominator) :
    Overflows (numerator / denominator / unitsOfOne) ↔
      finiteCount ≤ nearestCode numerator denominator := by
  have units : (2 : ℚ) ^ 2045 = 2 ^ 970 * 2 ^ 1074 * 2 := by
    rw [← pow_add, ← pow_succ]
  have greatest : (2 : ℚ) ^ 1024 = 2 ^ 54 * 2 ^ 970 := by
    rw [← pow_add]
  have bound : finiteCount = (2045 + 2) * 2 ^ 52 := rfl
  rw [← not_lt, bound, nearestCode_lt_iff_div numerator positive 2045, not_lt, Overflows,
    le_div_iff₀ cast_unitsOfOne_pos, cast_unitsOfOne, greatest, units]
  generalize (2 : ℚ) ^ 970 = top
  generalize (2 : ℚ) ^ 1074 = one
  constructor <;> intro reached <;> linarith

theorem vanishes_iff (positive : 0 < denominator) (something : 0 < numerator) :
    Vanishes (numerator / denominator / unitsOfOne) ↔ nearestCode numerator denominator = 0 := by
  have nonzero : (0 : ℚ) < denominator := by exact_mod_cast positive
  have somethingToo : (0 : ℚ) < numerator := by exact_mod_cast something
  have half : (1 : ℚ) / 2 ^ 1075 = 1 / 2 / unitsOfOne := by
    rw [cast_unitsOfOne, div_div, ← pow_succ']
  rw [nearestCode_eq_zero_iff numerator positive, Vanishes,
    and_iff_right (div_pos (div_pos somethingToo nonzero) cast_unitsOfOne_pos), half,
    div_le_div_iff_of_pos_right cast_unitsOfOne_pos, div_le_iff₀ nonzero, ← Nat.cast_le (α := ℚ)]
  push_cast
  constructor <;> intro reached <;> linarith

theorem nearest?_rounds (negative : Bool) (positive : 0 < denominator)
    (something : 0 < numerator) :
    Rounds negative (numerator / denominator / unitsOfOne)
      (nearest? negative numerator denominator) := by
  unfold nearest?
  dsimp only
  split_ifs with vanished finite
  · exact { refused_iff := iff_of_true rfl
              (.inr ((vanishes_iff numerator positive something).mpr vanished)),
            nearest := fun _ impossible => by cases impossible }
  · refine { refused_iff := iff_of_false (by simp) ?_, nearest := ?_ }
    · rw [overflows_iff numerator positive, vanishes_iff numerator positive something]
      exact not_or_intro (Nat.not_le.mpr finite) vanished
    · rintro number ⟨⟩
      exact ⟨⟨_, finite⟩, rfl, nearest_nearestCode numerator positive⟩
  · exact { refused_iff := iff_of_true rfl
              (.inl ((overflows_iff numerator positive).mpr (Nat.not_lt.mp finite))),
            nearest := fun _ impossible => by cases impossible }

end Ratio

theorem overflows_pos {exact : ℚ} (overflows : Overflows exact) : 0 < exact := by
  have apart : (2 : ℚ) ^ 970 < 2 ^ 1024 := pow_lt_pow_right₀ (by norm_num) (by norm_num)
  exact (sub_pos.mpr apart).trans_le overflows

/-- Zero is the nearest to itself. -/
theorem rounds_zero (negative : Bool) : Rounds negative 0 (some (zero negative)) := by
  refine { refused_iff := iff_of_false (by simp) ?_, nearest := ?_ }
  · rintro (overflows | vanishes)
    · exact (overflows_pos overflows).ne' rfl
    · exact vanishes.1.ne' rfl
  · rintro number ⟨⟩
    have none : size 0 = 0 := by
      rw [size, units_of_lt (by decide), Nat.cast_zero, zero_div]
    refine ⟨_, rfl, fun other => ?_, fun _ _ _ => rfl⟩
    rw [none, sub_zero, abs_zero]
    exact abs_nonneg _

/-- Four hundred places are too many. -/
theorem overflows_of_places {mantissa places : Nat} (something : 0 < mantissa)
    (many : 400 ≤ places) : Overflows (mantissa * 10 ^ places) := by
  have more : (1 : ℚ) ≤ mantissa := by exact_mod_cast something
  calc (2 : ℚ) ^ 1024 - 2 ^ 970
      ≤ 2 ^ 1024 := sub_le_self _ (by positivity)
    _ ≤ 2 ^ (3 * 400) := pow_le_pow_right₀ (by norm_num) (by norm_num)
    _ = 8 ^ 400 := by rw [pow_mul]; norm_num
    _ ≤ 10 ^ 400 := pow_le_pow_left₀ (by norm_num) (by norm_num) _
    _ ≤ 10 ^ places := pow_le_pow_right₀ (by norm_num) many
    _ ≤ mantissa * 10 ^ places := le_mul_of_one_le_left (by positivity) more

/-- So are places behind the point, if the mantissa does not make up for them. -/
theorem vanishes_of_places {mantissa places : Nat} (something : 0 < mantissa)
    (many : mantissa.log2 + 1080 < 3 * places) : Vanishes (mantissa / 10 ^ places) := by
  have more : (0 : ℚ) < mantissa := by exact_mod_cast something
  refine ⟨by positivity, ?_⟩
  rw [div_le_div_iff₀ (by positivity) (by positivity), one_mul]
  calc (mantissa : ℚ) * 2 ^ 1075
      ≤ 2 ^ (mantissa.log2 + 1) * 2 ^ 1075 := by
        refine mul_le_mul_of_nonneg_right ?_ (by positivity)
        exact_mod_cast Nat.lt_log2_self.le
    _ = 2 ^ (mantissa.log2 + 1 + 1075) := (pow_add _ _ _).symm
    _ ≤ 2 ^ (3 * places) := pow_le_pow_right₀ (by norm_num) (by omega)
    _ = 8 ^ places := by rw [pow_mul]; norm_num
    _ ≤ 10 ^ places := pow_le_pow_left₀ (by norm_num) (by norm_num) _

/-- **A decimal is refused exactly if it overflows or vanishes, and is else rounded to a nearest
number.** -/
theorem ofDecimal?_rounds (negative : Bool) (mantissa : Nat) (exponent : Int) :
    Rounds negative (mantissa * 10 ^ exponent) (ofDecimal? negative mantissa exponent) := by
  unfold ofDecimal?
  split
  case isTrue none =>
    rw [none, Nat.cast_zero, zero_mul]
    exact rounds_zero negative
  case isFalse some =>
    have something : 0 < mantissa := Nat.pos_of_ne_zero some
    cases exponent with
    | ofNat places =>
        rw [Int.ofNat_eq_natCast, zpow_natCast]
        dsimp only
        split
        case isTrue many =>
          exact { refused_iff := iff_of_true rfl (.inl (overflows_of_places something many)),
                  nearest := fun _ impossible => by cases impossible }
        case isFalse few =>
          have counted : (mantissa * 10 ^ places : ℚ) =
              (mantissa * tenTo places * unitsOfOne : Nat) / (1 : Nat) / unitsOfOne := by
            rw [Nat.cast_one, div_one, Nat.cast_mul, mul_div_cancel_right₀ _ cast_unitsOfOne_pos.ne',
              Nat.cast_mul, cast_tenTo]
          rw [counted]
          exact nearest?_rounds _ _ Nat.one_pos
            (Nat.mul_pos (Nat.mul_pos something (tenTo_pos _)) unitsOfOne_pos)
    | negSucc less =>
        rw [zpow_negSucc, ← div_eq_mul_inv]
        dsimp only
        split
        case isTrue many =>
          exact { refused_iff := iff_of_true rfl (.inr (vanishes_of_places something many)),
                  nearest := fun _ impossible => by cases impossible }
        case isFalse few =>
          have counted : (mantissa / 10 ^ (less + 1) : ℚ) =
              (mantissa * unitsOfOne : Nat) / (tenTo (less + 1) : Nat) / unitsOfOne := by
            rw [Nat.cast_mul, cast_tenTo, div_right_comm,
              mul_div_cancel_right₀ _ cast_unitsOfOne_pos.ne']
          rw [counted]
          exact nearest?_rounds _ _ (tenTo_pos _) (Nat.mul_pos something unitsOfOne_pos)

/-- So a decimal becomes the one number that is nearest. -/
theorem Rounds.eq_some_iff {negative : Bool} {exact : ℚ} {answer : Option Binary64}
    (rounds : Rounds negative exact answer) {number : Binary64} :
    answer = some number ↔ (¬ Overflows exact ∧ ¬ Vanishes exact) ∧
      ∃ code, number = ⟨negative, .finite code⟩ ∧ Nearest exact code := by
  rw [← not_or, ← rounds.refused_iff]
  constructor
  · intro read
    exact ⟨by simp [read], rounds.nearest number read⟩
  · rintro ⟨accepted, code, rfl, nearest⟩
    obtain ⟨other, read⟩ := Option.ne_none_iff_exists'.mp accepted
    obtain ⟨otherCode, rfl, nearestToo⟩ := rounds.nearest other read
    rw [read, Fin.ext (nearest.unique nearestToo)]

/-- A finite number above the largest one of single precision, which has 24 bits. -/
def AboveSingle (number : Binary64) : Prop :=
  ∃ negative code, number = ⟨negative, .finite code⟩ ∧ (2 ^ 24 - 1) * 2 ^ 104 < size code

theorem exceedsSingle_iff {number : Binary64} :
    number.exceedsSingle = true ↔ number.AboveSingle := by
  obtain ⟨negative, code | _ | _⟩ := number
  case finite =>
    have whole : 1 ≤ twoTo 24 := twoTo_pos 24
    have largest : (largestSingle : ℚ) = (2 ^ 24 - 1) * 2 ^ 104 * unitsOfOne := by
      rw [largestSingle, Nat.cast_mul, Nat.cast_mul, cast_twoTo, Nat.cast_sub whole,
        cast_twoTo, Nat.cast_one]
    have above : ((⟨negative, .finite code⟩ : Binary64).AboveSingle) ↔
        (2 ^ 24 - 1) * 2 ^ 104 < size code := by
      constructor
      · rintro ⟨_, _, same, above⟩
        cases same
        exact above
      · exact fun above => ⟨negative, code, rfl, above⟩
    rw [above, size, lt_div_iff₀ cast_unitsOfOne_pos, ← largest, Nat.cast_lt]
    simp only [exceedsSingle, decide_eq_true_eq]
  case infinite | nan =>
    refine iff_of_false (by simp [exceedsSingle]) ?_
    rintro ⟨_, _, same, _⟩
    cases same

instance (number : Binary64) : Decidable number.AboveSingle :=
  decidable_of_iff _ exceedsSingle_iff

end Binary64

end OverloadResolution
