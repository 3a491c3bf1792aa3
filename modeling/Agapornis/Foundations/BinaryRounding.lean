import Mathlib.Data.Int.Log
import Mathlib.Data.Rat.Floor
import Mathlib.Algebra.Order.Field.Power

namespace Agapornis
namespace Foundations

/-!
# Numbers that are rounded to binary ones

A number is rounded to the nearest multiple of a power of two, and to the even
one of two that are as near.  The power goes with the size of the number, down
to the least that the format has.
-/

/-- The nearest whole number, the even one of two. -/
def nearestEven (value : Rat) : Int :=
  let below := ⌊value⌋
  if value - below < 1 / 2 then below
  else if 1 / 2 < value - below then below + 1
  else if below % 2 = 0 then below
  else below + 1

theorem floor_le_nearestEven (value : Rat) : ⌊value⌋ ≤ nearestEven value := by
  unfold nearestEven
  dsimp only
  split
  · exact le_refl _
  · split
    · omega
    · split <;> omega

theorem nearestEven_le_floor (value : Rat) : nearestEven value ≤ ⌊value⌋ + 1 := by
  unfold nearestEven
  dsimp only
  split
  · omega
  · split
    · exact le_refl _
    · split <;> omega

theorem nearestEven_intCast (value : Int) : nearestEven value = value := by
  have whole : ((value : Rat) - ⌊(value : Rat)⌋) < 1 / 2 := by
    rw [Int.floor_intCast, sub_self]
    norm_num
  rw [nearestEven, if_pos whole, Int.floor_intCast]

theorem nearestEven_mono {low high : Rat} (below : low <= high) : nearestEven low <= nearestEven high := by
  rcases lt_or_eq_of_le (Int.floor_le_floor below) with less | same
  · have up := nearestEven_le_floor low
    have down := floor_le_nearestEven high
    omega
  · unfold nearestEven
    dsimp only
    rw [same]
    -- Over one whole number the rest decides, and it only grows.
    by_cases lowHalf : low - ⌊high⌋ < 1 / 2
    · rw [if_pos lowHalf]
      split
      · exact le_refl _
      · split
        · omega
        · split <;> omega
    · have highHalf : Not (high - ⌊high⌋ < 1 / 2) :=
        fun less => lowHalf ((sub_le_sub_right below _).trans_lt less)
      rw [if_neg lowHalf, if_neg highHalf]
      by_cases lowOver : 1 / 2 < low - ⌊high⌋
      · have highOver : 1 / 2 < high - ⌊high⌋ := lowOver.trans_le (sub_le_sub_right below _)
        rw [if_pos lowOver, if_pos highOver]
      · rw [if_neg lowOver]
        by_cases highOver : 1 / 2 < high - ⌊high⌋
        · rw [if_pos highOver]
          split <;> omega
        · rw [if_neg highOver]

/-- A format of binary numbers: the digits of a number, the exponent of the
last digit of the smallest ones, and that of the first number which is too large. -/
structure BinaryFormat where
  precision : Nat
  least : Int
  limit : Int
  positive : 0 < precision

namespace BinaryFormat

def binary64 : BinaryFormat :=
  ⟨53, -1074, 1024, by decide⟩

/-- The exponent of the last digit that a number of some size has. -/
def spacing (format : BinaryFormat) (value : Rat) : Int :=
  max (Int.log 2 value + 1 - format.precision) format.least

/-- The nearest number of the format when its size has no limit. -/
def nearest (format : BinaryFormat) (value : Rat) : Rat :=
  nearestEven (value / 2 ^ format.spacing value) * 2 ^ format.spacing value

/-- The nearest number of the format, if it is not too large. -/
def finite (format : BinaryFormat) (value : Rat) : Option Rat :=
  if format.nearest value < 2 ^ format.limit then some (format.nearest value) else none

theorem nearest_of_finite {format : BinaryFormat} {value number : Rat} (finite : format.finite value = some number) :
    format.nearest value = number := by
  unfold BinaryFormat.finite at finite
  split at finite
  · exact Option.some.inj finite
  · cases finite

theorem nearest_zero (format : BinaryFormat) : format.nearest 0 = 0 := by
  have zero : nearestEven 0 = 0 := nearestEven_intCast 0
  rw [nearest, zero_div, zero, Int.cast_zero, zero_mul]

theorem power_pos (exponent : Int) : (0 : Rat) < 2 ^ exponent :=
  zpow_pos (by norm_num) exponent

theorem nearest_nonneg (format : BinaryFormat) {value : Rat} (nonneg : 0 ≤ value) : 0 ≤ format.nearest value := by
  have scaled : 0 ≤ value / 2 ^ format.spacing value := div_nonneg nonneg (power_pos _).le
  have whole := nearestEven_mono scaled
  rw [show nearestEven 0 = 0 from nearestEven_intCast 0] at whole
  exact mul_nonneg (by exact_mod_cast whole) (power_pos _).le

/-- A number is below the power of two behind its digits. -/
theorem nearest_le_power (format : BinaryFormat) {value : Rat} :
    format.nearest value ≤ 2 ^ (format.precision + format.spacing value) := by
  have above : value < 2 ^ (format.precision + format.spacing value) := by
    have least : value < 2 ^ (Int.log 2 value + 1) := by
      exact_mod_cast Int.lt_zpow_succ_log_self (R := Rat) (b := 2) (by decide) value
    have spaced : Int.log 2 value + 1 - format.precision ≤ format.spacing value := le_max_left _ _
    exact least.trans_le (zpow_le_zpow_right₀ (by norm_num) (by omega))
  have scaled : value / 2 ^ format.spacing value ≤ ((2 ^ format.precision : Int) : Rat) := by
    rw [div_le_iff₀ (power_pos _), Int.cast_pow, Int.cast_ofNat, ← zpow_natCast, ← zpow_add₀ (by norm_num)]
    exact above.le
  have whole := nearestEven_mono scaled
  rw [nearestEven_intCast] at whole
  calc format.nearest value
      ≤ ((2 ^ format.precision : Int) : Rat) * 2 ^ format.spacing value :=
        mul_le_mul_of_nonneg_right (by exact_mod_cast whole) (power_pos _).le
    _ = 2 ^ (format.precision + format.spacing value) := by
        rw [Int.cast_pow, Int.cast_ofNat, ← zpow_natCast, ← zpow_add₀ (by norm_num)]

/-- A number that is not among the smallest fills all its digits. -/
theorem power_le_nearest (format : BinaryFormat) {value : Rat} (positive : 0 < value)
    (large : format.least < format.spacing value) :
    2 ^ (format.precision - 1 + format.spacing value) ≤ format.nearest value := by
  have spaced : format.spacing value = Int.log 2 value + 1 - format.precision := by
    rcases max_choice (Int.log 2 value + 1 - format.precision) format.least with left | right
    · exact left
    · have isLeast : format.spacing value = format.least := right
      rw [isLeast] at large
      exact absurd large (lt_irrefl _)
  have filled : (2 : Rat) ^ (format.precision - 1 + format.spacing value) ≤ value := by
    have least : (2 : Rat) ^ Int.log 2 value ≤ value := by
      exact_mod_cast Int.zpow_log_le_self (R := Rat) (b := 2) (by decide) positive
    rw [spaced]
    exact (zpow_le_zpow_right₀ (by norm_num) (by omega)).trans least
  have digits : (format.precision : Int) - 1 = (format.precision - 1 : Nat) := by
    have some := format.positive
    omega
  have scaled : ((2 ^ (format.precision - 1) : Int) : Rat) ≤ value / 2 ^ format.spacing value := by
    rw [le_div_iff₀ (power_pos _), Int.cast_pow, Int.cast_ofNat, ← zpow_natCast, ← zpow_add₀ (by norm_num), ← digits]
    exact filled
  have whole := nearestEven_mono scaled
  rw [nearestEven_intCast] at whole
  calc (2 : Rat) ^ (format.precision - 1 + format.spacing value)
      = ((2 ^ (format.precision - 1) : Int) : Rat) * 2 ^ format.spacing value := by
        rw [Int.cast_pow, Int.cast_ofNat, ← zpow_natCast, ← zpow_add₀ (by norm_num), ← digits]
    _ ≤ format.nearest value := mul_le_mul_of_nonneg_right (by exact_mod_cast whole) (power_pos _).le

theorem spacing_mono (format : BinaryFormat) {low high : Rat} (positive : 0 < low) (below : low ≤ high) :
    format.spacing low ≤ format.spacing high := by
  have logs : Int.log 2 low ≤ Int.log 2 high := Int.log_mono_right positive below
  exact max_le_max (by omega) (le_refl _)

/-- The larger of two numbers is not rounded to the smaller one. -/
theorem nearest_mono (format : BinaryFormat) {low high : Rat} (nonneg : 0 ≤ low) (below : low ≤ high) :
    format.nearest low ≤ format.nearest high := by
  rcases nonneg.eq_or_lt with zero | positive
  · rw [← zero, nearest_zero]
    exact format.nearest_nonneg (nonneg.trans below)
  · rcases (format.spacing_mono positive below).eq_or_lt with same | less
    · rw [nearest, nearest, ← same]
      have whole := nearestEven_mono (div_le_div_of_nonneg_right below (power_pos (format.spacing low)).le)
      exact mul_le_mul_of_nonneg_right (by exact_mod_cast whole) (power_pos _).le
    · have least : format.least ≤ format.spacing low := le_max_right _ _
      calc format.nearest low
          ≤ 2 ^ (format.precision + format.spacing low) := format.nearest_le_power
        _ ≤ 2 ^ (format.precision - 1 + format.spacing high) := zpow_le_zpow_right₀ (by norm_num) (by omega)
        _ ≤ format.nearest high := format.power_le_nearest (positive.trans_le below) (by omega)

end BinaryFormat

end Foundations
end Agapornis
