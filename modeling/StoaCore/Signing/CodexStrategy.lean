import StoaCore.Gas.GasUtils
import StoaCore.Guard.GuardUtils
import StoaCore.Library.Traced
import StoaCore.Network.NodeFailover
import StoaCore.Signing.UniversalSign

/-!
# CodexStrategy — the pipeline from guards to a submitted command

`CodexSigningStrategy.execute` collects the keypairs the guards need, picks a key for gas, lets
the caller's closure build the command twice, simulates, signs and submits.  Resolver, client and
closure are the consumer's: they see the world, may change it and may fail.  The trace records
what they are handed.
-/

namespace StoaCore
namespace Signing

open Library.Js
open Library.Traced
open Guard
open Gas

/-! ## Keypairs -/

/-- `IKadenaKeypair` -/
structure KadenaKeypair where
  publicKey : JsString
  privateKey : JsString
  seedType : Option SeedType := none
  encryptedSecretKey : Value := .undefined
  password : Option JsString := none

/-- The loosely shaped record that `fromKeypair` accepts. -/
structure LooseKeypair where
  publicKey : Option JsString
  privateKey : Option JsString
  secretKey : Option JsString
  seedType : Option SeedType
  encryptedSecretKey : Value
  password : Option JsString

def fromKeypair (kp : LooseKeypair) : UniversalKeypair where
  publicKey := kp.publicKey
  secretKey := (kp.secretKey.or kp.privateKey).getD []
  seedType := kp.seedType
  encryptedSecretKey := kp.encryptedSecretKey
  password := kp.password

def KadenaKeypair.toLoose (kp : KadenaKeypair) : LooseKeypair where
  publicKey := some kp.publicKey
  privateKey := some kp.privateKey
  secretKey := none
  seedType := kp.seedType
  encryptedSecretKey := kp.encryptedSecretKey
  password := kp.password

/-- The first keypair of every public key. -/
def dedupKeypairs : List KadenaKeypair → List JsString → List KadenaKeypair
  | [], _ => []
  | kp :: kps, seen =>
      if kp.publicKey ∈ seen then dedupKeypairs kps seen
      else kp :: dedupKeypairs kps (kp.publicKey :: seen)

/-! ## Errors -/

/-- `SigningError` -/
structure SigningError where
  message : String
  code : String
  context : String
  suggestions : List String
  deriving DecidableEq

def createTimeoutError (operation : String) (timeoutMs : Nat) : SigningError where
  message := "Timeout after " ++ toString timeoutMs ++ "ms during " ++ operation
  code := "TIMEOUT"
  context := "Operation: " ++ operation
  suggestions :=
    ["Check network connectivity", "Try again in a few seconds — node may have failed over",
      "If persistent, increase the timeout via options"]

/-- How `execute` rejects; what callbacks throw is kept apart from what the pipeline throws. -/
inductive ExecuteError
  | smartAccountAuth (matchedSurface : String)
  | foreignKeyPreflight (pub : JsString)
  | paymentKeyInGuard
  | noCapsKey
  | timeout (error : SigningError)
  | simulationFailed (message : JsString)
  | thrown (e : Thrown)
  deriving DecidableEq

def ExecuteError.message : ExecuteError → Option JsString
  | .smartAccountAuth matchedSurface =>
      some (js ("Smart account guard not satisfiable by codex keys (Σ-prefix detected on " ++
        matchedSurface ++ ", no signable codex paths). " ++
        "Smart-account address-level enforcement is upstream in " ++
        "smartAccountAuth.analyzeSmartAccountAuthPaths; " ++
        "this is a best-effort strategy-boundary check."))
  | .foreignKeyPreflight pub =>
      some (js ("[CodexSigningStrategy] Configured resolver does not implement " ++
          "requestForeignKey, but at least one guard requires a foreign-key signer (pub ") ++
        pub.take 8 ++ js ("...). Implement KeyResolver.requestForeignKey on the resolver, " ++
          "or pre-resolve the key via resolvedForeignKeys."))
  | .paymentKeyInGuard =>
      some (js ("[CodexSigningStrategy] No GAS_PAYER key available — the payment " ++
        "key is the only Codex key and it's already required for guard signing. " ++
        "Rotate the guard to include another Codex key, or switch payment key."))
  | .noCapsKey =>
      some (js ("[CodexSigningStrategy] No Codex key available for GAS_PAYER. " ++
        "At least one Codex key must be free of guard-signing duty."))
  | .timeout error => some (js error.message)
  | .simulationFailed message => some message
  | .thrown _ => none

/-! ## What the consumer supplies -/

structure KeyResolver (σ : Type) where
  listCodexPubs : Async σ StringSet
  getKeyPairByPublicKey : JsString → Async σ KadenaKeypair
  requestForeignKey : Option (Value → Async σ JsString) := none

/-- How a call that races a deadline ends; an `AbortError` is the deadline's or the call's own. -/
inductive Settled
  | value (v : Value)
  | threw (e : Thrown)
  | abortError

structure PactClient (σ : Type) where
  dirtyRead : Command → σ → Settled × σ
  submit : Command → σ → Settled × σ

/-- The rest of the process: the clock in milliseconds, the failover module and number
arithmetic. -/
structure Environment (σ : Type) where
  dateNow : σ → Int
  failover : σ → Network.FailoverState
  arithmetic : Rounding

/-- What the build closure receives. -/
structure BuildContext where
  gasLimit : Rat
  capsKeyPub : JsString
  guardPubs : List JsString
  gasPrice : Number
  creationTime : Int
  deriving DecidableEq

structure ExecuteArgs (σ : Type) where
  build : BuildContext → Async σ Command
  guards : List Keyset
  paymentKey : Option JsString := none
  resolvedForeignKeys : Record JsString := []
  extraSigners : List KadenaKeypair := []

structure ExecuteResult where
  requestKey : Value
  raw : Value

/-- What the consumer's code is handed, in order. -/
inductive Event
  | building (ctx : BuildContext)
  | built (tx : Command)
  | dirtyRead (tx : Command)
  | submit (signed : Command)

structure Strategy (σ : Type) where
  resolver : KeyResolver σ
  client : PactClient σ
  backend : Backend
  environment : Environment σ

/-! ## B½. Σ-prefix smart-account guard detection -/

/-- `text.includes("Σ.")` -/
def includesSigma (text : JsString) : Bool :=
  text.tails.any fun rest => (js "Σ.").isPrefixOf rest

/-- Where a guard shows the pattern although the codex cannot sign for it. -/
def smartAccountSurface (fl : Rounding) (codexPubs : StringSet) (guard : Keyset) :
    Option String :=
  let keysetRefHasSigma := guard.keysetRef.any includesSigma
  let keysHaveSigma := guard.keys.any includesSigma
  let analysis := analyzeGuard fl (some guard) codexPubs []
  let noCodexPath :=
    analysis.codexKeys.isEmpty && (guard.keys.isEmpty || !analysis.satisfied)
  if (keysetRefHasSigma || keysHaveSigma) && noCodexPath then
    some (if keysetRefHasSigma && keysHaveSigma then "keysetRef + keys"
      else if keysetRefHasSigma then "keysetRef"
      else "keys")
  else none

/-! ## B'. Foreign-key resolver pre-flight -/

/-- The first key of the guards that is neither in the codex nor pre-resolved. -/
def firstForeignKey (guards : List Keyset) (codexPubs : StringSet)
    (resolvedForeignKeys : Record JsString) : Option JsString :=
  (guards.flatMap Keyset.keys).find? fun pub =>
    !codexPubs.has pub && !resolvedForeignKeys.hasOwn pub

/-! ## C + D. The keys a guard takes -/

/-- `available.slice(0, analysis.threshold)`, where `NaN` counts as zero. -/
def neededKeys (analysis : GuardAnalysis) : List JsString :=
  (analysis.codexKeys ++ analysis.resolvedForeignKeys).take (analysis.threshold.getD 0)

/-- The keypairs so far, and the keys they were collected for (`seenGuardPub` and
`pureSigningPubs` always agree). -/
structure Collected where
  guardKeypairs : List KadenaKeypair
  pureSigningPubs : StringSet

namespace Strategy

variable {σ : Type} (S : Strategy σ) (args : ExecuteArgs σ)

/-- A call of the consumer's code. -/
def invoke {α : Type} (x : Async σ α) : Prog ExecuteError σ Event α :=
  call fun w => ((Async.runIn x w).1.mapError .thrown, (Async.runIn x w).2)

def readWorld {α : Type} (f : σ → α) : Prog ExecuteError σ Event α :=
  call fun w => (.ok (f w), w)

def detectSmartAccountGuards (codexPubs : StringSet) : Prog ExecuteError σ Event Unit :=
  match args.guards.findSome? (smartAccountSurface S.environment.arithmetic codexPubs) with
  | some matchedSurface => throw (.smartAccountAuth matchedSurface)
  | none => pure ()

def preflight (codexPubs : StringSet) : Prog ExecuteError σ Event Unit :=
  -- A resolver that can ask for keys skips the check, whatever the guards list.
  match S.resolver.requestForeignKey,
      firstForeignKey args.guards codexPubs args.resolvedForeignKeys with
  | none, some pub => throw (.foreignKeyPreflight pub)
  | _, _ => pure ()

/-- A pre-resolved foreign key is its own keypair; the resolver knows the codex keys. -/
def keypairFor (analysis : GuardAnalysis) (pub : JsString) :
    Prog ExecuteError σ Event KadenaKeypair :=
  if pub ∈ analysis.resolvedForeignKeys then
    pure { publicKey := pub
           privateKey := (args.resolvedForeignKeys.truthyText pub).getD []
           seedType := some .foreign }
  else invoke (S.resolver.getKeyPairByPublicKey pub)

def collectKey (analysis : GuardAnalysis) (c : Collected) (pub : JsString) :
    Prog ExecuteError σ Event Collected :=
  -- A key that an earlier guard took is not asked for again.
  if c.pureSigningPubs.has pub then pure c
  else do
    let kp ← S.keypairFor args analysis pub
    pure { guardKeypairs := c.guardKeypairs ++ [kp]
           pureSigningPubs := c.pureSigningPubs.add pub }

def analysisOf (codexPubs : StringSet) (guard : Keyset) : GuardAnalysis :=
  analyzeGuard S.environment.arithmetic (some guard) codexPubs args.resolvedForeignKeys

def collectGuard (codexPubs : StringSet) (c : Collected) (guard : Keyset) :
    Prog ExecuteError σ Event Collected :=
  let analysis := S.analysisOf args codexPubs guard
  (neededKeys analysis).foldlM (S.collectKey args analysis) c

def collectGuardKeypairs (codexPubs : StringSet) : Prog ExecuteError σ Event Collected :=
  args.guards.foldlM (S.collectGuard args codexPubs)
    { guardKeypairs := [], pureSigningPubs := StringSet.empty }

/-! ## E. The GAS_PAYER key -/

def capsKeyPub (codexPubs : StringSet) (c : Collected) : Prog ExecuteError σ Event JsString :=
  let caps := selectCapsSigningKey args.paymentKey codexPubs c.pureSigningPubs
  -- Only a payment key that signs for a guard is impossible; no free key at all is the next case.
  if caps.impossible then throw .paymentKeyInGuard
  else
    match truthyKey caps.key with
    | none => throw .noCapsKey
    | some key => pure key

/-! ## F. Build, simulate, calibrate, rebuild, sign, submit -/

def runBuild (ctx : BuildContext) : Prog ExecuteError σ Event Command := do
  emit (.building ctx)
  let tx ← invoke (args.build ctx)
  emit (.built tx)
  pure tx

/-- `runWithTimeout` with the outer boundary: an `AbortError` becomes a `TIMEOUT`. -/
def withDeadline (operation : String) (timeoutMs : Nat) (f : σ → Settled × σ) :
    Prog ExecuteError σ Event Value :=
  call fun w =>
    match f w with
    | (.value v, w') => (.ok v, w')
    | (.threw e, w') => (.error (.thrown e), w')
    | (.abortError, w') => (.error (.timeout (createTimeoutError operation timeoutMs)), w')

/-- `simResult.result?.error?.message || "…"` -/
def simulationMessage (simResult : Value) : JsString :=
  let message := ((simResult.optionalGet (js "result")).optionalGet (js "error")).optionalGet
    (js "message")
  if message.truthy then message.template else js "[CodexSigningStrategy] Simulation failed"

def simulationFailed (simResult : Value) : Bool :=
  ((simResult.optionalGet (js "result")).optionalGet (js "status")).strictEq (.str (js "failure"))

def simulate (sim : Command) : Prog ExecuteError σ Event Value := do
  emit (.dirtyRead sim)
  let simResult ← withDeadline "dirtyRead" 15000 (S.client.dirtyRead sim)
  if simulationFailed simResult then throw (.simulationFailed (simulationMessage simResult))
  else pure simResult

def simGasLimit : NumberLiteral := ⟨js "500000", by decide⟩

/-- `simResult?.gas ?? 500_000` -/
def simulatedGas (simResult : Value) : Value :=
  match simResult.optionalGet (js "gas") with
  | .undefined => .num simGasLimit
  | .null => .num simGasLimit
  | gas => gas

def calibrate (simResult : Value) : Prog ExecuteError σ Event Rat :=
  readWorld fun w =>
    calculateAutoGasLimit S.environment.arithmetic
      (Network.getActiveGasLimit (S.environment.failover w)) (simulatedGas simResult)

/-- `sign`: every keypair once, and the resolver's `requestForeignKey` for the rest. -/
def sign (tx : Command) (capsKey : KadenaKeypair) (guardKeypairs : List KadenaKeypair) :
    Async σ Command :=
  universalSignTransaction S.backend tx
    -- The gas key comes first, so it is its keypair that survives the deduplication.
    ((dedupKeypairs (capsKey :: guardKeypairs) []).map fun kp => fromKeypair kp.toLoose)
    S.resolver.requestForeignKey

def submit (signed : Command) : Prog ExecuteError σ Event Value := do
  emit (.submit signed)
  withDeadline "submit" 60000 (S.client.submit signed)

/-- `raw?.requestKey ?? ""` -/
def resultOf (raw : Value) : ExecuteResult where
  requestKey :=
    match raw.optionalGet (js "requestKey") with
    | .undefined => .str []
    | .null => .str []
    | requestKey => requestKey
  raw := raw

def buildContext (capsKeypair : KadenaKeypair) (guardKeypairs : List KadenaKeypair)
    (gasMeta : GasMeta) (gasLimit : Rat) : BuildContext where
  gasLimit := gasLimit
  capsKeyPub := capsKeypair.publicKey
  guardPubs := guardKeypairs.map KadenaKeypair.publicKey
  gasPrice := gasMeta.gasPrice
  creationTime := gasMeta.creationTime

/-- Step F, once the keypairs are there. -/
def buildSignSubmit (capsKeypair : KadenaKeypair) (guardKeypairs : List KadenaKeypair) :
    Prog ExecuteError σ Event ExecuteResult := do
  let gasMeta ← readWorld fun w => stoaGasMeta (S.environment.dateNow w)
  -- This command is simulated and thrown away; the gas it used sets the limit of the second one.
  let sim ← runBuild args (buildContext capsKeypair guardKeypairs gasMeta 500000)
  let simResult ← S.simulate sim
  let gasLimit ← S.calibrate simResult
  let tx ← runBuild args (buildContext capsKeypair guardKeypairs gasMeta gasLimit)
  -- The extra signers sign, but the closure has not been told about them.
  let signed ← invoke (S.sign tx capsKeypair (guardKeypairs ++ args.extraSigners))
  let raw ← S.submit signed
  pure (resultOf raw)

/-- Steps C, D and E, and what follows. -/
def collectAndSubmit (codexPubs : StringSet) : Prog ExecuteError σ Event ExecuteResult := do
  let collected ← S.collectGuardKeypairs args codexPubs
  let capsKey ← capsKeyPub args codexPubs collected
  let capsKeypair ← invoke (S.resolver.getKeyPairByPublicKey capsKey)
  S.buildSignSubmit args capsKeypair collected.guardKeypairs

def execute : Prog ExecuteError σ Event ExecuteResult := do
  let codexPubs ← invoke S.resolver.listCodexPubs
  S.detectSmartAccountGuards args codexPubs
  S.preflight args codexPubs
  S.collectAndSubmit args codexPubs

/-- `execute` called in the world `w`. -/
def runExecute (w : σ) : Except ExecuteError ExecuteResult × Trace σ Event :=
  run (S.execute args) { world := w, events := [] }

end Strategy

end Signing
end StoaCore
