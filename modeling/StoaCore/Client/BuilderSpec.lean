import StoaCore.Client.TransactionBuilder

/-!
# BuilderSpec — what a builder is for

The abstract builder has no heap and no reducer: a list of calls is a recipe, and a recipe is
carried out on plain values, where the signers are a table with one row for each key.
-/

namespace StoaCore
namespace Client

open Library Library.Js Signing

/-! ## Patches of values -/

/-- One more signer: a row of the table. -/
def addRow (state : PactCommand Signer) (signer : Signer) : PactCommand Signer :=
  state.setSigners
    (KeyedTable.merge Signer.pubKey Signer.absorb signer (state.signers.getD []))

def patchValue (command patch : PactCommand Signer) : Except Thrown (PactCommand Signer) := do
  let state ← patchFields command patch
  pure (patchVerifiers ((patch.signers.getD []).foldl addRow state) patch.verifiers)

def addDataValue (cmd : PactCommand Signer) (key : JsString) (value : Value) :
    Except Thrown (PactCommand Signer) :=
  if hasData cmd.payload key then .error (duplicatedKey key)
  else patchValue cmd { payload := some (dataPatch cmd.payload key value) }

/-- One call of the builder, on a command of values. -/
def callValue (cmd : PactCommand Signer) : Call → Except Thrown (PactCommand Signer)
  | .addData key value => addDataValue cmd key value
  | .addKeyset key pred publicKeys => addDataValue cmd key (keysetValue pred publicKeys)
  | .addSigner signers clist => patchValue cmd { signers := some (signers.map (signerOf clist)) }
  | .addVerifier name proof clist =>
      patchValue cmd
        { verifiers := some [{ name := name, proof := proof, clist := some (clist.getD []) }] }
  | .setMeta options =>
      patchValue cmd { metaData := some (metaPatch (cmd.metaData.getD []) options) }
  | .setNetworkId id => patchValue cmd { networkId := some id }
  | .setNonce arg => patchValue cmd { nonce := some (arg.value cmd) }

/-! ## Finalized commands -/

section Clock

variable {σ : Type} (clock : Nat → Nat)

/-- The nonce and the signers that a command has after its finalization. -/
def withDefaults (reads : Nat) (command : PactCommand σ) : PactCommand σ :=
  let command :=
    if command.nonce.isNone then command.setNonce (defaultNonce (clock reads)) else command
  if command.signers.isNone then command.setSigners [] else command

/-- The clock is read once for the nonce, and once more where there is meta data. -/
def finalized (command : PactCommand σ) (reads : Nat) : PactCommand σ × Nat :=
  let command := withDefaults clock reads command
  match command.metaData with
  | none => ({ command with payload := command.payload.map finalizePayload }, reads + 1)
  | some members =>
      let command := command.setMeta (spreadAll [defaultMeta (clock (reads + 1)), members])
      ({ command with payload := command.payload.map finalizePayload }, reads + 2)

theorem signers_finalized {σ : Type} (command : PactCommand σ) (reads : Nat) :
    (finalized clock command reads).1.signers = some (command.signers.getD []) := by
  rcases command with ⟨payload, metaData, nonce, networkId, signers, verifiers, names⟩
  cases metaData <;> cases nonce <;> cases signers <;> rfl

theorem fields_finalized (command : PactCommand σ) (reads : Nat) :
    (finalized clock command reads).1.verifiers = command.verifiers ∧
      (finalized clock command reads).1.networkId = command.networkId ∧
      (finalized clock command reads).1.nonce =
        some (command.nonce.getD (defaultNonce (clock reads))) ∧
      (finalized clock command reads).1.payload = command.payload.map finalizePayload := by
  rcases command with ⟨payload, metaData, nonce, networkId, signers, verifiers, names⟩
  cases metaData <;> cases nonce <;> cases signers <;> exact ⟨rfl, rfl, rfl, rfl⟩

theorem metaData_finalized (command : PactCommand σ) (reads : Nat) :
    (finalized clock command reads).1.metaData =
        command.metaData.map (fun members => spreadAll [defaultMeta (clock (reads + 1)), members]) ∧
      (finalized clock command reads).2 =
        if command.metaData.isSome then reads + 2 else reads + 1 := by
  rcases command with ⟨payload, metaData, nonce, networkId, signers, verifiers, names⟩
  cases metaData <;> cases nonce <;> cases signers <;> exact ⟨rfl, rfl⟩

/-! ## Recipes -/

/-- A command of values and the number of clock readings so far. -/
abbrev Stage := PactCommand Signer × Nat

def startStage (init : PactCommand Signer) (reads : Nat) : Except Thrown Stage := do
  let command ← patchValue {} init
  pure (finalized clock command reads)

def nextStage (stage : Stage) (call : Call) : Except Thrown Stage := do
  let command ← callValue stage.1 call
  pure (finalized clock command stage.2)

/-- What a builder over `init` builds after these calls, when the clock has been read so often. -/
def recipe (init : PactCommand Signer) (reads : Nat) (calls : List Call) : Except Thrown Stage := do
  let stage ← startStage clock init reads
  calls.foldlM (nextStage clock) stage

theorem recipe_append (init : PactCommand Signer) (reads : Nat) (front back : List Call) :
    recipe clock init reads (front ++ back) =
      recipe clock init reads front >>= fun stage => back.foldlM (nextStage clock) stage := by
  unfold recipe
  cases startStage clock init reads with
  | error e => rfl
  | ok stage =>
      rw [ok_bind, List.foldlM_append]
      rfl

theorem recipe_concat (init : PactCommand Signer) (reads : Nat) (calls : List Call) (call : Call) :
    recipe clock init reads (calls ++ [call]) =
      recipe clock init reads calls >>= fun stage => nextStage clock stage call := by
  rw [recipe_append]
  congr 1
  funext stage
  rw [List.foldlM_cons]
  cases nextStage clock stage call <;> rfl

theorem recipe_front {init : PactCommand Signer} {reads : Nat} {front back : List Call}
    {stage : Stage} (h : recipe clock init reads (front ++ back) = .ok stage) :
    ∃ before m, recipe clock init reads front = .ok (before, m) := by
  rw [recipe_append] at h
  rcases bind_ok h with ⟨⟨before, m⟩, hbefore, -⟩
  exact ⟨before, m, hbefore⟩

/-- A recipe that succeeds has succeeded up to its last call. -/
theorem recipe_cases {init : PactCommand Signer} {reads : Nat} {calls : List Call} {call : Call}
    {cmd : PactCommand Signer} {n : Nat}
    (h : recipe clock init reads (calls ++ [call]) = .ok (cmd, n)) :
    ∃ before m v, recipe clock init reads calls = .ok (before, m) ∧
      callValue before call = .ok v ∧ cmd = (finalized clock v m).1 ∧
      n = (finalized clock v m).2 := by
  rw [recipe_concat] at h
  rcases bind_ok h with ⟨⟨before, m⟩, hbefore, hnext⟩
  rcases bind_ok hnext with ⟨v, hv, hfinal⟩
  have heq : finalized clock v m = (cmd, n) := Except.ok.inj hfinal
  exact ⟨before, m, v, hbefore, hv, by rw [heq], by rw [heq]⟩

end Clock

end Client
end StoaCore
