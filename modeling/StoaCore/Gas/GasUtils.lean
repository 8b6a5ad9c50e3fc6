import StoaCore.Library.Js.Rounding

/-!
# GasUtils — the price and the limit of gas

The gas price follows the rising floor of the Yin Engine, and the gas limit is calibrated from
the gas that a simulation reports.
-/

namespace StoaCore
namespace Gas

open Library.Js

/-! ## Yin Engine -/

/-- Unix seconds of the genesis. -/
def genesisTimeS : Int := 1771869600

def genesisMinGasAnu : Nat := 10000

def maxGasAnu : Nat := 400000

def gasPriceIntervalS : Int := 10800

def minGasPriceAnu (creationTimeS : Int) : Nat :=
  let elapsed := creationTimeS - genesisTimeS
  let ticks := if elapsed ≤ 0 then 0 else (elapsed / gasPriceIntervalS).toNat
  min (genesisMinGasAnu + ticks) maxGasAnu

/-- `text.padStart(width, "0")` -/
def padStart (text : JsString) (width : Nat) : JsString :=
  List.replicate (width - text.length) (unit '0') ++ text

/-- `Number("0." + String(anu).padStart(12, "0"))` -/
def anuToStoaNumber (anu : Nat) : Number :=
  Number.round (literalToRat (js "0." ++ padStart (js (toString anu)) 12))

structure GasMeta where
  creationTime : Int
  gasPrice : Number
  deriving DecidableEq

/-- One read of the clock, in milliseconds, gives both values. -/
def stoaGasMeta (nowMs : Int) : GasMeta :=
  let nowS := nowMs / 1000
  { creationTime := nowS, gasPrice := anuToStoaNumber (minGasPriceAnu nowS) }

/-! ## calculateAutoGasLimit -/

def minAutoGasLimit : Rat := 1000

/-- The multiplier, before it is rounded, and the flat buffer for a simulated gas. -/
def gasBuffer (simulatedGas : Rat) : Rat × Rat :=
  if simulatedGas < 100 then (10, 0)
  else if simulatedGas < 200 then (5, 0)
  else if simulatedGas < 400 then (25 / 10, 0)
  else if simulatedGas < 500 then (2, 0)
  else if simulatedGas < 1000 then (15 / 10, 0)
  else if simulatedGas < 20000 then (115 / 100, 0)
  else if simulatedGas < 100000 then (110 / 100, 5000)
  else if simulatedGas < 500000 then (110 / 100, 10000)
  else (105 / 100, 20000)

section Arithmetic

variable (fl : Rounding)

def bufferedGas (simulatedGas : Rat) : Rat :=
  let (multiplier, flat) := gasBuffer simulatedGas
  max (fl.round (⌈fl.round (simulatedGas * fl.round multiplier)⌉ + flat)) minAutoGasLimit

/-- The simulation may report anything; what is not a positive finite number counts as no data.
A product too large for a number is `Infinity` there, and the node limit is the smaller one. -/
def calculateAutoGasLimit (nodeLimit : Rat) (simulatedGas : Value) : Rat :=
  match simulatedGas with
  | .num n =>
      match n.toNumber with
      | .finite gas => if gas ≤ 0 then 0 else min (bufferedGas fl gas) nodeLimit
      | .infinity _ => 0
  | _ => 0

/-- A measurement that the calibration can use. -/
def IsMeasured (simulatedGas : Value) : Prop :=
  ∃ n gas, simulatedGas = .num n ∧ n.toNumber = .finite gas ∧ 0 < gas

theorem calculateAutoGasLimit_of_not_measured {nodeLimit : Rat} {simulatedGas : Value}
    (h : ¬ IsMeasured simulatedGas) : calculateAutoGasLimit fl nodeLimit simulatedGas = 0 := by
  unfold calculateAutoGasLimit
  split
  case h_1 n =>
    split
    case h_1 gas hgas =>
      have hle : gas ≤ 0 := not_lt.1 fun hpos => h ⟨n, gas, rfl, hgas, hpos⟩
      exact if_pos hle
    case h_2 => rfl
  case h_2 => rfl

theorem minAutoGasLimit_le_bufferedGas (gas : Rat) : minAutoGasLimit ≤ bufferedGas fl gas := by
  unfold bufferedGas
  exact le_max_right _ _

theorem calculateAutoGasLimit_of_measured {nodeLimit : Rat} {simulatedGas : Value}
    (h : IsMeasured simulatedGas) (hlimit : minAutoGasLimit ≤ nodeLimit) :
    minAutoGasLimit ≤ calculateAutoGasLimit fl nodeLimit simulatedGas ∧
      calculateAutoGasLimit fl nodeLimit simulatedGas ≤ nodeLimit := by
  rcases h with ⟨n, gas, rfl, hgas, hpos⟩
  have hclamp : calculateAutoGasLimit fl nodeLimit (.num n) =
      min (bufferedGas fl gas) nodeLimit := by
    unfold calculateAutoGasLimit
    dsimp only
    rw [hgas]
    exact if_neg (not_le.2 hpos)
  rw [hclamp]
  exact ⟨le_min (minAutoGasLimit_le_bufferedGas fl gas) hlimit, min_le_right _ _⟩

/-- The calibrated limit lies between the floor and the node's limit exactly where there is a
measurement; without one it is the sentinel zero. -/
theorem calculateAutoGasLimit_in_range_iff {nodeLimit : Rat} {simulatedGas : Value}
    (hlimit : minAutoGasLimit ≤ nodeLimit) :
    (minAutoGasLimit ≤ calculateAutoGasLimit fl nodeLimit simulatedGas ∧
      calculateAutoGasLimit fl nodeLimit simulatedGas ≤ nodeLimit) ↔ IsMeasured simulatedGas := by
  constructor
  · intro hrange
    by_contra hnot
    rw [calculateAutoGasLimit_of_not_measured fl hnot] at hrange
    exact absurd hrange.1 (by norm_num [minAutoGasLimit])
  · intro h
    exact calculateAutoGasLimit_of_measured fl h hlimit

end Arithmetic

end Gas
end StoaCore
