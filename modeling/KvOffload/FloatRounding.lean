import Mathlib.Data.Int.Log
import Mathlib.Algebra.Order.Round
import Mathlib.Algebra.Order.Field.Basic
import Mathlib.Data.Rat.Floor
import Mathlib.Tactic.Linarith

/-!
# Float rounding

A float operation is the exact rational one followed by a rounding. A `Rounding`
keeps zero and the order; `exact` leaves every value as it is, and `doubles` rounds
to the nearest value of 53 significant bits, ties to the even one, without limits on
the exponent.
-/

namespace KvOffload.FloatRounding

set_option autoImplicit false

structure Rounding where
  round : Rat → Rat
  zero : round 0 = 0
  mono : Monotone round

namespace Rounding

/-- Rational arithmetic. -/
def exact : Rounding := ⟨id, rfl, monotone_id⟩

theorem nonneg (rounding : Rounding) {value : Rat} (low : 0 ≤ value) :
    0 ≤ rounding.round value :=
  rounding.zero.ge.trans (rounding.mono low)

/-- A value below one that the rounding keeps stays below it. -/
theorem le_of_kept (rounding : Rounding) {value bound : Rat}
    (kept : rounding.round bound = bound) (within : value ≤ bound) :
    rounding.round value ≤ bound :=
  (rounding.mono within).trans kept.le

end Rounding

/-- The nearest integer, the even one of two. -/
def nearestEven (value : Rat) : Int :=
  let rest := Int.fract value
  if rest < 1 / 2 then ⌊value⌋
  else if 1 / 2 < rest then ⌊value⌋ + 1
  else if ⌊value⌋ % 2 = 0 then ⌊value⌋
  else ⌊value⌋ + 1

theorem nearest_even_cases (value : Rat) :
    nearestEven value = ⌊value⌋ ∨ nearestEven value = ⌊value⌋ + 1 := by
  unfold nearestEven
  simp only
  split_ifs <;> simp

theorem nearest_even_int (value : Int) : nearestEven value = value := by
  simp [nearestEven]

theorem nearest_even_mono {first second : Rat} (ordered : first ≤ second) :
    nearestEven first ≤ nearestEven second := by
  rcases (Int.floor_mono ordered).lt_or_eq with apart | same
  · have low := nearest_even_cases first
    have high := nearest_even_cases second
    omega
  · -- within one unit only the fraction decides
    have fractions : Int.fract first ≤ Int.fract second := by
      rw [Int.fract, Int.fract, same]
      linarith
    unfold nearestEven
    simp only [same]
    split_ifs <;> first | omega | linarith

/-- The weight of the last of 53 bits. -/
def lastBit (value : Rat) : Rat := 2 ^ (Int.log 2 value - 52)

theorem last_bit_pos (value : Rat) : 0 < lastBit value :=
  zpow_pos two_pos _

theorem binade_start (value : Rat) : ((2 ^ 52 : Int) : Rat) * lastBit value = 2 ^ Int.log 2 value := by
  rw [lastBit, zpow_sub₀ two_ne_zero]
  norm_num
  ring

theorem binade_end (value : Rat) :
    ((2 ^ 53 : Int) : Rat) * lastBit value = 2 ^ (Int.log 2 value + 1) := by
  rw [lastBit, zpow_sub₀ two_ne_zero, zpow_add₀ two_ne_zero]
  norm_num
  ring

/-- Rounding of a positive value within its own binade. -/
def roundMagnitude (value : Rat) : Rat := nearestEven (value / lastBit value) * lastBit value

/-- A positive value stays within its binade, whose upper end it may reach. -/
theorem round_magnitude_ends {value : Rat} (positive : 0 < value) :
    2 ^ Int.log 2 value ≤ roundMagnitude value ∧
      roundMagnitude value ≤ 2 ^ (Int.log 2 value + 1) := by
  have width := last_bit_pos value
  constructor
  · have start : ((2 ^ 52 : Int) : Rat) ≤ value / lastBit value := by
      rw [le_div_iff₀ width, binade_start]
      exact_mod_cast Int.zpow_log_le_self one_lt_two positive
    have rounded := nearest_even_mono start
    rw [nearest_even_int] at rounded
    rw [← binade_start]
    exact mul_le_mul_of_nonneg_right (Int.cast_le.mpr rounded) width.le
  · have stop : value / lastBit value ≤ ((2 ^ 53 : Int) : Rat) := by
      rw [div_le_iff₀ width, binade_end]
      exact_mod_cast (Int.lt_zpow_succ_log_self one_lt_two value).le
    have rounded := nearest_even_mono stop
    rw [nearest_even_int] at rounded
    rw [← binade_end]
    exact mul_le_mul_of_nonneg_right (Int.cast_le.mpr rounded) width.le

theorem round_magnitude_pos {value : Rat} (positive : 0 < value) : 0 < roundMagnitude value :=
  (zpow_pos two_pos _).trans_le (round_magnitude_ends positive).1

theorem round_magnitude_mono {first second : Rat} (positive : 0 < first)
    (ordered : first ≤ second) : roundMagnitude first ≤ roundMagnitude second := by
  rcases (Int.log_mono_right (b := 2) positive ordered).lt_or_eq with apart | same
  · calc roundMagnitude first ≤ 2 ^ (Int.log 2 first + 1) := (round_magnitude_ends positive).2
      _ ≤ 2 ^ Int.log 2 second := zpow_le_zpow_right₀ one_le_two (by omega)
      _ ≤ roundMagnitude second := (round_magnitude_ends (positive.trans_le ordered)).1
  · have sameBit : lastBit first = lastBit second := by rw [lastBit, lastBit, same]
    have width := last_bit_pos second
    unfold roundMagnitude
    rw [sameBit]
    apply mul_le_mul_of_nonneg_right _ width.le
    exact_mod_cast nearest_even_mono ((div_le_div_iff_of_pos_right width).mpr ordered)

/-- Round to nearest even on 53 bits. -/
def roundDouble (value : Rat) : Rat :=
  if 0 < value then roundMagnitude value
  else if value < 0 then -roundMagnitude (-value)
  else 0

theorem round_double_mono : Monotone roundDouble := by
  intro first second ordered
  unfold roundDouble
  rcases lt_trichotomy first 0 with firstNeg | rfl | firstPos
  · have negated := round_magnitude_pos (neg_pos.mpr firstNeg)
    rw [if_neg firstNeg.not_gt, if_pos firstNeg]
    split_ifs with secondPos secondNeg
    · linarith [round_magnitude_pos secondPos]
    · exact neg_le_neg (round_magnitude_mono (neg_pos.mpr secondNeg) (neg_le_neg ordered))
    · exact neg_nonpos.mpr negated.le
  · rw [if_neg (lt_irrefl _), if_neg (lt_irrefl _)]
    split_ifs with secondPos secondNeg
    · exact (round_magnitude_pos secondPos).le
    · exact absurd secondNeg ordered.not_gt
    · exact le_rfl
  · rw [if_pos firstPos, if_pos (firstPos.trans_le ordered)]
    exact round_magnitude_mono firstPos ordered

/-- The double format of a float, as far as its significand goes. -/
def doubles : Rounding := ⟨roundDouble, by simp [roundDouble], round_double_mono⟩

/-- A double counts up to `2 ^ 53`. -/
theorem round_double_nat {count : Nat} (within : count ≤ 2 ^ 53) :
    doubles.round count = count := by
  rcases Nat.eq_zero_or_pos count with rfl | positive
  · exact doubles.zero
  rcases within.lt_or_eq with below | rfl
  · -- the last bit divides one
    have binade : Nat.log 2 count ≤ 52 := by
      have := Nat.log_lt_of_lt_pow positive.ne' below
      omega
    have scaled : (count : Rat) / lastBit count = ((count * 2 ^ (52 - Nat.log 2 count) : Nat) : Int) := by
      rw [lastBit, Int.log_natCast, div_eq_iff (zpow_pos two_pos _).ne']
      push_cast
      rw [mul_assoc, ← zpow_natCast (2 : Rat) (52 - Nat.log 2 count), ← zpow_add₀ two_ne_zero]
      simp [Nat.cast_sub binade]
    show roundDouble count = count
    rw [roundDouble, if_pos (Nat.cast_pos.mpr positive), roundMagnitude, scaled, nearest_even_int,
      ← scaled, div_mul_cancel₀ _ (last_bit_pos _).ne']
  · decide +kernel

/-- A third has no finite binary expansion. -/
example : doubles.round (1 / 3) = 6004799503160661 / 2 ^ 54 := by decide +kernel

end KvOffload.FloatRounding
