import Mathlib.Algebra.Order.Floor.Ring
import Mathlib.Tactic.FieldSimp
import Mathlib.Tactic.Linarith

/-!
# Grid — the multiples of a step

`down step q` is the largest multiple of `step` that does not exceed `q`.
-/

namespace Library
namespace Grid

variable {α : Type*} [Field α] [LinearOrder α] [IsStrictOrderedRing α] [FloorRing α]

/-- The multiples of `step`. -/
def multiples (step : α) : Set α :=
  {m | ∃ n : ℤ, m = n * step}

def down (step q : α) : α :=
  ⌊q / step⌋ * step

variable {step q : α}

omit [IsStrictOrderedRing α] in
theorem down_mem (step q : α) : down step q ∈ multiples step :=
  ⟨⌊q / step⌋, rfl⟩

theorem down_le (hstep : 0 < step) : down step q ≤ q :=
  calc down step q
      ≤ q / step * step := mul_le_mul_of_nonneg_right (Int.floor_le _) hstep.le
    _ = q := div_mul_cancel₀ q hstep.ne'

theorem sub_down_lt (hstep : 0 < step) : q - down step q < step := by
  have hlt : q < (⌊q / step⌋ + 1) * step :=
    calc q = q / step * step := (div_mul_cancel₀ q hstep.ne').symm
      _ < (⌊q / step⌋ + 1) * step := mul_lt_mul_of_pos_right (Int.lt_floor_add_one _) hstep
  rw [add_mul, one_mul] at hlt
  unfold down
  linarith

theorem isGreatest_down (hstep : 0 < step) :
    IsGreatest {m ∈ multiples step | m ≤ q} (down step q) := by
  refine ⟨⟨down_mem step q, down_le hstep⟩, ?_⟩
  rintro m ⟨⟨n, rfl⟩, hle⟩
  have hn : n ≤ ⌊q / step⌋ := Int.le_floor.2 ((le_div_iff₀ hstep).2 hle)
  exact mul_le_mul_of_nonneg_right (Int.cast_le.2 hn) hstep.le

theorem down_mono (hstep : 0 < step) {q' : α} (h : q ≤ q') : down step q ≤ down step q' := by
  have hfloor : ⌊q / step⌋ ≤ ⌊q' / step⌋ := Int.floor_mono (div_le_div_of_nonneg_right h hstep.le)
  exact mul_le_mul_of_nonneg_right (Int.cast_le.2 hfloor) hstep.le

/-- A multiple is its own largest one. -/
theorem down_eq_self (hstep : 0 < step) (h : q ∈ multiples step) : down step q = q := by
  rcases h with ⟨n, rfl⟩
  rw [down, mul_div_cancel_right₀ _ hstep.ne', Int.floor_intCast]

end Grid
end Library
