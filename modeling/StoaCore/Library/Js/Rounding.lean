import Mathlib.Tactic.Positivity
import Mathlib.Tactic.Ring
import StoaCore.Library.Js.Value

/-!
# Rounding — arithmetic up to a relative error

A computation with numbers is written over a rounding of the exact results.  The rounding of
binary64 and the exact one (no rounding at all) are the two instances in use; a fact that
follows from the error bound alone holds of both.
-/

namespace Library
namespace Js

/-- The smallest positive binary64 number. -/
def smallestBinary64 : Rat := (2 : Rat) ^ (-1074 : Int)

theorem smallestBinary64_pos : 0 < smallestBinary64 :=
  zpow_pos (by norm_num) _

/-- A rounding of exact results: off by at most half a unit in the last place of a 53-bit
significand, or by half of the smallest number. -/
structure Rounding where
  round : Rat → Rat
  error : ∀ q, |round q - q| ≤ (|q| / 2 ^ 52 + smallestBinary64) / 2

theorem smallestBinary64_le : smallestBinary64 ≤ 1 / 1000 := by
  calc smallestBinary64
      ≤ (2 : Rat) ^ (-10 : Int) := zpow_le_zpow_right₀ (by norm_num) (by norm_num)
    _ ≤ 1 / 1000 := by norm_num

namespace Rounding

variable (fl : Rounding) {q : Rat}

theorem round_le (hq : 0 ≤ q) : fl.round q ≤ q + (q / 2 ^ 52 + 1 / 1000) / 2 := by
  have herror := (abs_le.1 (fl.error q)).2
  have hsmall := smallestBinary64_le
  rw [abs_of_nonneg hq] at herror
  linarith

theorem le_round (hq : 0 ≤ q) : q - (q / 2 ^ 52 + 1 / 1000) / 2 ≤ fl.round q := by
  have herror := (abs_le.1 (fl.error q)).1
  have hsmall := smallestBinary64_le
  rw [abs_of_nonneg hq] at herror
  linarith

end Rounding

/-! ## Exact arithmetic -/

/-- Every result is kept as it is. -/
def Rounding.exact : Rounding where
  round := id
  error := by
    intro q
    have hpos := smallestBinary64_pos
    have h : 0 ≤ (|q| / 2 ^ 52 + smallestBinary64) / 2 := by positivity
    simpa using h

/-! ## binary64 -/

theorem abs_roundHalfEven_sub_le (q : Rat) : |(roundHalfEven q : Rat) - q| ≤ 1 / 2 := by
  have hlow : (⌊q⌋ : Rat) ≤ q := Int.floor_le q
  have hhigh : q < ⌊q⌋ + 1 := Int.lt_floor_add_one q
  rw [abs_le]
  unfold roundHalfEven
  dsimp only
  split_ifs with hless hmore heven
  · constructor <;> linarith
  · push_cast
    constructor <;> linarith
  · constructor <;> linarith
  · push_cast
    constructor <;> linarith

theorem binary64Spacing_pos (q : Rat) : 0 < binary64Spacing q :=
  zpow_pos (by norm_num) _

/-- Two numbers next to each other lie within the relative precision, or are subnormal. -/
theorem binary64Spacing_le {q : Rat} (hq : q ≠ 0) :
    binary64Spacing q ≤ |q| / 2 ^ 52 + smallestBinary64 := by
  have hlog : (2 : Rat) ^ Int.log 2 |q| ≤ |q| := Int.zpow_log_le_self (by norm_num) (abs_pos.2 hq)
  unfold binary64Spacing
  rcases max_choice (Int.log 2 |q| - 52) (-1074) with hmax | hmax
  · have hpow : (2 : Rat) ^ (Int.log 2 |q| - 52) = 2 ^ Int.log 2 |q| / 2 ^ 52 := by
      rw [zpow_sub₀ (by norm_num)]
      norm_cast
    have hle : (2 : Rat) ^ Int.log 2 |q| / 2 ^ 52 ≤ |q| / 2 ^ 52 := by gcongr
    have hpos := smallestBinary64_pos
    rw [hmax, hpow]
    linarith
  · have hpos : (0 : Rat) ≤ |q| / 2 ^ 52 := by positivity
    rw [hmax]
    exact le_add_of_nonneg_left hpos

theorem nearestBinary64_error (q : Rat) :
    |nearestBinary64 q - q| ≤ (|q| / 2 ^ 52 + smallestBinary64) / 2 := by
  by_cases hq : q = 0
  · subst hq
    have hzero : nearestBinary64 0 = 0 := by
      simp [nearestBinary64, roundHalfEven]
    have hpos := smallestBinary64_pos
    rw [hzero]
    simpa using div_nonneg hpos.le (by norm_num : (0 : Rat) ≤ 2)
  · have hpos := binary64Spacing_pos q
    have hround := abs_roundHalfEven_sub_le (q / binary64Spacing q)
    have hspacing := binary64Spacing_le hq
    calc |nearestBinary64 q - q|
        = |(roundHalfEven (q / binary64Spacing q) : Rat) - q / binary64Spacing q| *
            binary64Spacing q := by
          rw [← abs_of_pos hpos, ← abs_mul, abs_of_pos hpos, sub_mul, div_mul_cancel₀ _ hpos.ne']
          rfl
      _ ≤ 1 / 2 * binary64Spacing q := by gcongr
      _ ≤ 1 / 2 * (|q| / 2 ^ 52 + smallestBinary64) := by gcongr
      _ = (|q| / 2 ^ 52 + smallestBinary64) / 2 := by ring

/-- The arithmetic of JavaScript numbers, without a largest number. -/
def Rounding.binary64 : Rounding where
  round := nearestBinary64
  error := nearestBinary64_error

end Js
end Library
