import StoaCore.Gas.GasUtils

/-!
# Calibration — the bounds of a calibrated gas limit

With exact multipliers the calibrated limit is at least the measured gas and one twentieth more, and
overshoots a half more only where the floor demands it.
-/

namespace StoaCore
namespace Gas

open Library.Js

/-! ## The nine buckets -/

/-- Where a bucket ends and the next one begins. -/
def bucketBounds : List Rat :=
  [100, 200, 400, 500, 1000, 20000, 100000, 500000]

/-- The same bounds lie above both. -/
def SameBucket (gas gas' : Rat) : Prop :=
  ∀ bound ∈ bucketBounds, gas < bound ↔ gas' < bound

theorem gasBuffer_eq_of_sameBucket {gas gas' : Rat} (h : SameBucket gas gas') :
    gasBuffer gas = gasBuffer gas' := by
  have hbound : ∀ bound ∈ bucketBounds, (gas < bound) = (gas' < bound) :=
    fun bound hmem => propext (h bound hmem)
  unfold gasBuffer
  simp only [hbound 100 (by decide), hbound 200 (by decide), hbound 400 (by decide),
    hbound 500 (by decide), hbound 1000 (by decide), hbound 20000 (by decide),
    hbound 100000 (by decide), hbound 500000 (by decide)]

/-- What every bucket keeps to: a twentieth more at least, and a half more at most or the floor. -/
structure BufferSpec (gas multiplier flat : Rat) : Prop where
  generous : 105 / 100 ≤ multiplier
  flat_nonneg : 0 ≤ flat
  flat_integer : ∃ k : Int, flat = k
  bounded : (flat = 0 ∧ gas * multiplier ≤ minAutoGasLimit) ∨
    gas * multiplier + flat ≤ 15 / 10 * gas

theorem gasBuffer_spec (gas : Rat) :
    BufferSpec gas (gasBuffer gas).1 (gasBuffer gas).2 := by
  unfold gasBuffer
  split_ifs with h100 h200 h400 h500 h1000 h20000 h100000 h500000
  -- Below 500 the product does not exceed the floor.
  · exact ⟨by norm_num, le_rfl, ⟨0, by norm_num⟩,
      Or.inl ⟨rfl, by norm_num [minAutoGasLimit]; linarith⟩⟩
  · exact ⟨by norm_num, le_rfl, ⟨0, by norm_num⟩,
      Or.inl ⟨rfl, by norm_num [minAutoGasLimit]; linarith⟩⟩
  · exact ⟨by norm_num, le_rfl, ⟨0, by norm_num⟩,
      Or.inl ⟨rfl, by norm_num [minAutoGasLimit]; linarith⟩⟩
  · exact ⟨by norm_num, le_rfl, ⟨0, by norm_num⟩,
      Or.inl ⟨rfl, by norm_num [minAutoGasLimit]; linarith⟩⟩
  · exact ⟨by norm_num, le_rfl, ⟨0, by norm_num⟩, Or.inr (by linarith)⟩
  · exact ⟨by norm_num, le_rfl, ⟨0, by norm_num⟩, Or.inr (by linarith)⟩
  -- From here on the flat part is made up for by the size of the gas.
  · exact ⟨by norm_num, by norm_num, ⟨5000, by norm_num⟩, Or.inr (by linarith)⟩
  · exact ⟨by norm_num, by norm_num, ⟨10000, by norm_num⟩, Or.inr (by linarith)⟩
  · exact ⟨by norm_num, by norm_num, ⟨20000, by norm_num⟩, Or.inr (by linarith)⟩

/-! ## The buffered gas -/

theorem bufferedGas_exact (gas : Rat) :
    bufferedGas Rounding.exact gas =
      max (⌈gas * (gasBuffer gas).1⌉ + (gasBuffer gas).2) minAutoGasLimit :=
  rfl

variable {gas : Rat}

theorem le_bufferedGas (hpos : 0 < gas) : 105 / 100 * gas ≤ bufferedGas Rounding.exact gas := by
  have hspec := gasBuffer_spec gas
  calc 105 / 100 * gas
      ≤ (gasBuffer gas).1 * gas := mul_le_mul_of_nonneg_right hspec.generous hpos.le
    _ = gas * (gasBuffer gas).1 := mul_comm _ _
    _ ≤ ⌈gas * (gasBuffer gas).1⌉ := Int.le_ceil _
    _ ≤ ⌈gas * (gasBuffer gas).1⌉ + (gasBuffer gas).2 := le_add_of_nonneg_right hspec.flat_nonneg
    _ ≤ bufferedGas Rounding.exact gas := le_max_left _ _

theorem bufferedGas_le (gas : Rat) :
    bufferedGas Rounding.exact gas ≤ max minAutoGasLimit (15 / 10 * gas + 1) := by
  have hspec := gasBuffer_spec gas
  rw [bufferedGas_exact, max_comm]
  refine max_le (le_max_left _ _) ?_
  rcases hspec.bounded with ⟨hflat, hfloor⟩ | hhalf
  · have hceil : (⌈gas * (gasBuffer gas).1⌉ : Rat) ≤ minAutoGasLimit := by
      have hint : ⌈gas * (gasBuffer gas).1⌉ ≤ (1000 : Int) := by
        rw [Int.ceil_le]
        exact_mod_cast hfloor
      have hcast : (⌈gas * (gasBuffer gas).1⌉ : Rat) ≤ (1000 : Int) := Int.cast_le.2 hint
      simpa [minAutoGasLimit] using hcast
    rw [hflat, add_zero]
    exact hceil.trans (le_max_left _ _)
  · have hceil : (⌈gas * (gasBuffer gas).1⌉ : Rat) < gas * (gasBuffer gas).1 + 1 :=
      Int.ceil_lt_add_one _
    refine le_trans ?_ (le_max_right _ _)
    linarith

theorem bufferedGas_integer (gas : Rat) :
    ∃ k : Int, bufferedGas Rounding.exact gas = k := by
  rcases (gasBuffer_spec gas).flat_integer with ⟨flat, hflat⟩
  refine ⟨max (⌈gas * (gasBuffer gas).1⌉ + flat) 1000, ?_⟩
  rw [bufferedGas_exact, hflat]
  push_cast
  rfl

theorem bufferedGas_mono {gas' : Rat} (hbucket : SameBucket gas gas') (hle : gas ≤ gas') :
    bufferedGas Rounding.exact gas ≤ bufferedGas Rounding.exact gas' := by
  have hmultiplier : 0 ≤ (gasBuffer gas).1 :=
    le_trans (by norm_num) (gasBuffer_spec gas).generous
  have hceil : (⌈gas * (gasBuffer gas).1⌉ : Rat) ≤ ⌈gas' * (gasBuffer gas).1⌉ :=
    Int.cast_le.2 (Int.ceil_mono (mul_le_mul_of_nonneg_right hle hmultiplier))
  rw [bufferedGas_exact, bufferedGas_exact, ← gasBuffer_eq_of_sameBucket hbucket]
  exact max_le_max_right _ (add_le_add_left hceil _)

/-! ## The calibrated limit -/

theorem calculateAutoGasLimit_num (fl : Rounding) (nodeLimit : Rat) {n : NumberLiteral}
    (hn : n.toNumber = .finite gas) (hpos : 0 < gas) :
    calculateAutoGasLimit fl nodeLimit (.num n) = min (bufferedGas fl gas) nodeLimit := by
  unfold calculateAutoGasLimit
  simp only [hn]
  exact if_neg (not_le.2 hpos)

/-- A measured gas is given a twentieth more at least, and a half more at most or the floor, within
the limit of the node. -/
theorem calculateAutoGasLimit_calibrated {n : NumberLiteral} (hn : n.toNumber = .finite gas)
    (hpos : 0 < gas) (nodeLimit : Rat) :
    let limit := calculateAutoGasLimit Rounding.exact nodeLimit (.num n)
    min minAutoGasLimit nodeLimit ≤ limit ∧ limit ≤ nodeLimit ∧
    min nodeLimit (105 / 100 * gas) ≤ limit ∧
    limit ≤ max minAutoGasLimit (15 / 10 * gas + 1) ∧
    ((∃ k : Int, nodeLimit = k) → ∃ k : Int, limit = k) ∧
    (∀ nodeLimit', nodeLimit ≤ nodeLimit' →
      limit ≤ calculateAutoGasLimit Rounding.exact nodeLimit' (.num n)) ∧
    (∀ (n' : NumberLiteral) (gas' : Rat), n'.toNumber = .finite gas' → SameBucket gas gas' →
      gas ≤ gas' → limit ≤ calculateAutoGasLimit Rounding.exact nodeLimit (.num n')) := by
  intro limit
  have hlimit : limit = min (bufferedGas Rounding.exact gas) nodeLimit :=
    calculateAutoGasLimit_num Rounding.exact nodeLimit hn hpos
  rw [hlimit]
  refine ⟨?_, min_le_right _ _, ?_, ?_, ?_, ?_, ?_⟩
  · exact min_le_min_right _ (minAutoGasLimit_le_bufferedGas Rounding.exact gas)
  · rw [min_comm nodeLimit]
    exact min_le_min_right _ (le_bufferedGas hpos)
  · exact (min_le_left _ _).trans (bufferedGas_le gas)
  · rintro ⟨k, rfl⟩
    rcases bufferedGas_integer gas with ⟨buffered, hbuffered⟩
    refine ⟨min buffered k, ?_⟩
    rw [hbuffered, Int.cast_min]
  · intro nodeLimit' hle
    rw [calculateAutoGasLimit_num Rounding.exact nodeLimit' hn hpos]
    exact min_le_min_left _ hle
  · intro n' gas' hn' hbucket hle
    rw [calculateAutoGasLimit_num Rounding.exact nodeLimit hn' (hpos.trans_le hle)]
    exact min_le_min_right _ (bufferedGas_mono hbucket hle)

theorem calculateAutoGasLimit_calibrated_eight :
    min minAutoGasLimit 1600000 ≤
        calculateAutoGasLimit Rounding.exact 1600000 (.num ⟨js "8", by decide⟩) ∧
      calculateAutoGasLimit Rounding.exact 1600000 (.num ⟨js "8", by decide⟩) ≤ 1600000 :=
  have hn : (⟨js "8", by decide⟩ : NumberLiteral).toNumber = .finite 8 := by decide +kernel
  have h := calculateAutoGasLimit_calibrated hn (by norm_num) 1600000
  ⟨h.1, h.2.1⟩

end Gas
end StoaCore
