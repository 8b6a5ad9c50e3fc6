import StoaCore.Signing.KeySelection

/-!
# GasLimit — what the simulated gas makes of the submitted command

`execute` hands the calibrated limit to the build closure without looking at it, and
`calculateAutoGasLimit` answers zero where the simulation has measured nothing.  The run is cut
where the simulation has ended, so that the limit can be compared with what the client reported.
-/

namespace StoaCore
namespace Signing

open Library.Js
open Library.Traced
open Gas

/-! ## The run up to the end of the simulation -/

/-- What is known when the simulation has not failed. -/
structure Simulated where
  capsKeypair : KadenaKeypair
  guardKeypairs : List KadenaKeypair
  gasMeta : GasMeta
  simResult : Value

namespace Simulated

/-- The context of the second build. -/
def context (s : Simulated) (gasLimit : Rat) : BuildContext :=
  Strategy.buildContext s.capsKeypair s.guardKeypairs s.gasMeta gasLimit

/-- The client reports no gas at all, or a positive finite number. -/
def ReportsGas (s : Simulated) : Prop :=
  (s.simResult.optionalGet (js "gas")).isNullish = true ∨
    IsMeasured (s.simResult.optionalGet (js "gas"))

end Simulated

theorem simGasLimit_measured : IsMeasured (.num Strategy.simGasLimit) :=
  ⟨Strategy.simGasLimit, 500000, rfl, by decide +kernel, by norm_num⟩

/-- A missing gas is replaced by the limit of the simulation, which is a measurement. -/
theorem measured_simulatedGas_iff (s : Simulated) :
    IsMeasured (Strategy.simulatedGas s.simResult) ↔ s.ReportsGas := by
  unfold Strategy.simulatedGas Simulated.ReportsGas
  cases s.simResult.optionalGet (js "gas") with
  | undefined => simp [Value.isNullish, simGasLimit_measured]
  | null => simp [Value.isNullish, simGasLimit_measured]
  | _ => simp [Value.isNullish]

namespace Strategy

variable {σ : Type} (S : Strategy σ) (args : ExecuteArgs σ)

def simulateFirst (capsKeypair : KadenaKeypair) (guardKeypairs : List KadenaKeypair) :
    Prog ExecuteError σ Event Simulated := do
  let gasMeta ← readWorld fun w => stoaGasMeta (S.environment.dateNow w)
  let sim ← runBuild args (buildContext capsKeypair guardKeypairs gasMeta 500000)
  let simResult ← S.simulate sim
  pure ⟨capsKeypair, guardKeypairs, gasMeta, simResult⟩

def untilSimulated : Prog ExecuteError σ Event Simulated := do
  let sel ← S.untilSelected args
  S.simulateFirst args sel.capsKeypair sel.collected.guardKeypairs

def signAndSubmit (s : Simulated) (tx : Command) : Prog ExecuteError σ Event ExecuteResult := do
  let signed ← invoke (S.sign tx s.capsKeypair (s.guardKeypairs ++ args.extraSigners))
  let raw ← S.submit signed
  pure (resultOf raw)

def afterSimulated (s : Simulated) : Prog ExecuteError σ Event ExecuteResult := do
  let gasLimit ← S.calibrate s.simResult
  let tx ← runBuild args (s.context gasLimit)
  S.signAndSubmit args s tx

/-- `execute` is these two parts. -/
theorem execute_eq : S.execute args = S.untilSimulated args >>= S.afterSimulated args := by
  rw [execute_eq_selected]
  simp only [buildSignSubmit, untilSimulated, simulateFirst, afterSimulated, signAndSubmit,
    Simulated.context, bind_assoc, pure_bind]

/-! ## What follows the simulation -/

/-- What follows the second context: the command built in it and the signed command submitted, as
far as the run came. -/
def BuiltAndSubmitted (S : Strategy σ) (args : ExecuteArgs σ) (s : Simulated)
    (rest : List Event) : Prop :=
  rest = [] ∨ ∃ tx, rest = [.built tx] ∨
    ∃ signed w, (Async.runIn (S.sign tx s.capsKeypair (s.guardKeypairs ++ args.extraSigners))
      w).1 = .ok signed ∧ rest = [.built tx, .submit signed]

variable {S args}

theorem signAndSubmit_spec (s : Simulated) (tx : Command) (l₀ : List Event) :
    Triple (fun l => l = l₀ ++ [.built tx]) (S.signAndSubmit args s tx)
      (fun _ l => ∃ rest, S.BuiltAndSubmitted args s rest ∧ l = l₀ ++ rest)
      (fun _ l => ∃ rest, S.BuiltAndSubmitted args s rest ∧ l = l₀ ++ rest) := by
  unfold signAndSubmit
  have hbuilt : ∀ l, l = l₀ ++ [.built tx] →
      ∃ rest, S.BuiltAndSubmitted args s rest ∧ l = l₀ ++ rest :=
    fun l hl => ⟨_, Or.inr ⟨tx, Or.inl rfl⟩, hl⟩
  apply Triple.bind (triple_invoke
    (Q := fun signed l => (∃ w, (Async.runIn (S.sign tx s.capsKeypair
      (s.guardKeypairs ++ args.extraSigners)) w).1 = .ok signed) ∧ l = l₀ ++ [.built tx])
    (fun w signed hsigned l hl => ⟨⟨w, hsigned⟩, hl⟩) fun e l hl => hbuilt l hl)
  intro signed
  apply Triple.of_pre
  rintro ⟨w, hsigned⟩
  have hsubmitted : ∀ l, l = l₀ ++ [.built tx, .submit signed] →
      ∃ rest, S.BuiltAndSubmitted args s rest ∧ l = l₀ ++ rest :=
    fun l hl => ⟨_, Or.inr ⟨tx, Or.inr ⟨signed, w, hsigned, rfl⟩⟩, hl⟩
  unfold submit
  apply Triple.bind (Q := fun _ l => l = l₀ ++ [.built tx, .submit signed])
  · apply Triple.bind (Q := fun _ l => l = l₀ ++ [.built tx, .submit signed])
    · apply Triple.emit
      intro l hl
      rw [hl, List.append_assoc]
      rfl
    intro _
    exact triple_withDeadline (fun _ l hl => hl) fun e _ l hl => hsubmitted l hl
  intro raw
  exact Triple.pure hsubmitted

/-- The closure is called once more, in the context of the calibrated limit. -/
theorem afterSimulated_events (s : Simulated) (t : Trace σ Event) :
    ∃ rest, S.BuiltAndSubmitted args s rest ∧
      (run (S.afterSimulated args s) t).2.events =
        t.events ++ .building (s.context (calculateAutoGasLimit S.environment.arithmetic
          (Network.getActiveGasLimit (S.environment.failover t.world))
          (simulatedGas s.simResult))) :: rest := by
  -- Calibration reads the failover module and leaves the trace as it is.
  have hcalibrate : run (S.calibrate s.simResult) t =
      (.ok (calculateAutoGasLimit S.environment.arithmetic
        (Network.getActiveGasLimit (S.environment.failover t.world))
        (simulatedGas s.simResult)), t) := rfl
  unfold afterSimulated
  rw [run_bind, hcalibrate]
  set ctx := s.context (calculateAutoGasLimit S.environment.arithmetic
    (Network.getActiveGasLimit (S.environment.failover t.world)) (simulatedGas s.simResult))
  have hspec : Triple (fun l => l = t.events) (runBuild args ctx >>= S.signAndSubmit args s)
      (fun _ l => ∃ rest, S.BuiltAndSubmitted args s rest ∧
        l = t.events ++ [.building ctx] ++ rest)
      (fun _ l => ∃ rest, S.BuiltAndSubmitted args s rest ∧
        l = t.events ++ [.building ctx] ++ rest) := by
    unfold runBuild
    apply Triple.bind (Q := fun tx l => l = t.events ++ [.building ctx] ++ [.built tx])
    · apply Triple.bind (Q := fun _ l => l = t.events ++ [.building ctx])
      · exact Triple.emit fun l hl => by rw [hl]
      intro _
      apply Triple.bind (triple_invoke (Q := fun _ l => l = t.events ++ [.building ctx])
        (fun _ _ _ l hl => hl) fun e l hl => ⟨[], Or.inl rfl, by rw [hl, List.append_nil]⟩)
      intro tx
      apply Triple.bind (Q := fun _ l => l = t.events ++ [.building ctx] ++ [.built tx])
      · exact Triple.emit fun l hl => by rw [hl]
      intro _
      exact Triple.pure fun l hl => hl
    · intro tx
      exact signAndSubmit_spec s tx _
  rcases hspec.events rfl with ⟨rest, hrest, hevents⟩
  refine ⟨rest, hrest, ?_⟩
  calc (run (runBuild args ctx >>= S.signAndSubmit args s) t).2.events
      = t.events ++ [.building ctx] ++ rest := hevents
    _ = t.events ++ .building ctx :: rest := by simp

/-- What `execute` leaves when the simulation ends without a failure in the state `t`. -/
theorem runExecute_of_simulated {w : σ} {s : Simulated} {t : Trace σ Event}
    (hsim : run (S.untilSimulated args) { world := w, events := [] } = (.ok s, t)) :
    ∃ rest, S.BuiltAndSubmitted args s rest ∧
      (S.runExecute args w).2.events =
        t.events ++ .building (s.context (calculateAutoGasLimit S.environment.arithmetic
          (Network.getActiveGasLimit (S.environment.failover t.world))
          (simulatedGas s.simResult))) :: rest := by
  unfold runExecute
  rw [execute_eq, run_bind, hsim]
  exact afterSimulated_events s t

end Strategy

/-! ## The limit of the submitted command -/

section Exact

variable {σ : Type} {S : Strategy σ} {args : ExecuteArgs σ}

/-- When the simulation does not fail, the closure is called once more, for the command that is
signed and submitted; the limit it gets lies between the floor and the limit of the active node if
and only if the client reported no gas at all or a positive finite number. -/
theorem gasLimit_in_range_iff {w : σ} {s : Simulated} {t : Trace σ Event}
    (hsim : run (S.untilSimulated args) { world := w, events := [] } = (.ok s, t))
    (hlimit : minAutoGasLimit ≤ Network.getActiveGasLimit (S.environment.failover t.world)) :
    ∃ gasLimit rest, S.BuiltAndSubmitted args s rest ∧
      (S.runExecute args w).2.events = t.events ++ .building (s.context gasLimit) :: rest ∧
      ((minAutoGasLimit ≤ gasLimit ∧
          gasLimit ≤ Network.getActiveGasLimit (S.environment.failover t.world)) ↔
        s.ReportsGas) := by
  rcases Strategy.runExecute_of_simulated hsim with ⟨rest, hrest, hevents⟩
  refine ⟨_, rest, hrest, hevents, ?_⟩
  rw [calculateAutoGasLimit_in_range_iff S.environment.arithmetic hlimit]
  exact measured_simulatedGas_iff s

end Exact

/-! ## A simulation that reports no gas used -/

def zeroLiteral : NumberLiteral := ⟨js "0", by decide⟩

def gasLiteral : NumberLiteral := ⟨js "150", by decide⟩

/-- A node whose simulation reports the given gas. -/
def reporting (gas : Value) : Strategy Unit :=
  { serverStrategy with
    client :=
      { dirtyRead := fun _ w => (.value (.obj [(js "gas", gas)]), w)
        submit := fun _ w => (.value (.obj []), w) } }

def emptyCommand : Command where
  cmd := js "\x7b\"signers\":[]\x7d"
  hash := []
  sigs := []

/-- One codex key signs for the guard, the other pays. -/
def codexOnly : ExecuteArgs Unit where
  build := fun _ => pure emptyCommand
  guards := [{ pred := js "keys-any", keys := [codexKey] }]

def codexOnlySimulated (gas : Value) : Simulated where
  capsKeypair := { publicKey := spareKey, privateKey := js "00" }
  guardKeypairs := [{ publicKey := codexKey, privateKey := js "00" }]
  gasMeta := stoaGasMeta 1772000000000
  simResult := .obj [(js "gas", gas)]

def codexOnlyTrace (gas : Value) : Trace Unit Event where
  world := ()
  events :=
    [.building ((codexOnlySimulated gas).context 500000),
      .built emptyCommand, .dirtyRead emptyCommand]

theorem codexOnly_simulated (gas : Value) :
    run ((reporting gas).untilSimulated codexOnly) { world := (), events := [] } =
      (.ok (codexOnlySimulated gas), codexOnlyTrace gas) := by
  rfl

theorem gasLimit_in_range_iff_codexOnly :
    ∃ gasLimit rest,
      (reporting (.num gasLiteral)).BuiltAndSubmitted codexOnly
        (codexOnlySimulated (.num gasLiteral)) rest ∧
      ((reporting (.num gasLiteral)).runExecute codexOnly ()).2.events =
        (codexOnlyTrace (.num gasLiteral)).events ++
          .building ((codexOnlySimulated (.num gasLiteral)).context gasLimit) :: rest ∧
      ((minAutoGasLimit ≤ gasLimit ∧ gasLimit ≤ Network.getActiveGasLimit {}) ↔
        (codexOnlySimulated (.num gasLiteral)).ReportsGas) :=
  gasLimit_in_range_iff (codexOnly_simulated _) (by decide +kernel)

/-- The simulation succeeds and reports zero gas; the closure gets the limit zero, and what it
builds is signed and submitted. -/
theorem zeroGas_submitted :
    run ((reporting (.num zeroLiteral)).untilSimulated codexOnly) { world := (), events := [] } =
        (.ok (codexOnlySimulated (.num zeroLiteral)), codexOnlyTrace (.num zeroLiteral)) ∧
      (∃ tx signed, ((reporting (.num zeroLiteral)).runExecute codexOnly ()).2.events =
        (codexOnlyTrace (.num zeroLiteral)).events ++
          [.building ((codexOnlySimulated (.num zeroLiteral)).context 0), .built tx,
            .submit signed]) ∧
      minAutoGasLimit ≤ Network.getActiveGasLimit {} ∧ ¬ minAutoGasLimit ≤ 0 := by
  refine ⟨codexOnly_simulated _, ?_, by decide +kernel, by decide +kernel⟩
  rcases Strategy.runExecute_of_simulated (codexOnly_simulated (.num zeroLiteral)) with
    ⟨rest, hrest, hevents⟩
  have hzero : calculateAutoGasLimit (reporting (.num zeroLiteral)).environment.arithmetic
      (Network.getActiveGasLimit ((reporting (.num zeroLiteral)).environment.failover
        (codexOnlyTrace (.num zeroLiteral)).world))
      (Strategy.simulatedGas (codexOnlySimulated (.num zeroLiteral)).simResult) = 0 := by
    decide +kernel
  rw [hzero] at hevents
  -- Six events: the run has come to the end.
  have hlength : ((reporting (.num zeroLiteral)).runExecute codexOnly ()).2.events.length = 6 := by
    decide +kernel
  rw [hevents] at hlength ⊢
  rcases hrest with rfl | ⟨tx, rfl | ⟨signed, w, -, rfl⟩⟩
  · cases hlength
  · cases hlength
  · exact ⟨tx, signed, rfl⟩

end Signing
end StoaCore
