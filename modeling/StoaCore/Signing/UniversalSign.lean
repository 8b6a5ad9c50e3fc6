import StoaCore.Library.Js.Json
import StoaCore.Library.Traced

/-!
# UniversalSign — signing one command with a list of keypairs

`universalSignTransaction` routes every keypair that belongs to a declared signer to one of two
back ends and attaches the signatures one by one with `addSignatures`.  The back ends themselves
are third-party code and a parameter here.  Debug output is left out.
-/

namespace StoaCore
namespace Signing

open Library.Js

/-! ## Exceptions -/

/-- What a throw or a rejected promise carries.  `external` is a rejection by code outside. -/
inductive Thrown
  | syntaxError
  | typeError
  | error (message : JsString)
  | invalidEnvelopeError (reason : String)
  | tamperedHashError (expected actual : JsString)
  | external (reason : JsString)
  deriving DecidableEq

@[simp] theorem ok_bind {ε α β : Type} (a : α) (f : α → Except ε β) :
    (Except.ok a >>= f) = f a := rfl

/-- A successful sequence succeeds step by step. -/
theorem bind_ok {ε α β : Type} {x : Except ε α} {f : α → Except ε β} {b : β}
    (h : (x >>= f) = .ok b) : ∃ a, x = .ok a ∧ f a = .ok b := by
  cases x with
  | ok a => exact ⟨a, rfl, h⟩
  | error e => cases h

theorem exists_of_isOk {ε α : Type} {x : Except ε α} (h : x.isOk = true) : ∃ a, x = .ok a := by
  cases x with
  | ok a => exact ⟨a, rfl⟩
  | error e => cases h

/-- Async code over a world `σ` that callbacks may change. -/
abbrev Async (σ α : Type) := ExceptT Thrown (StateM σ) α

/-- Synchronous code inside async code. -/
def Async.lift {σ α : Type} (x : Except Thrown α) : Async σ α :=
  ExceptT.mk (pure x)

/-- The outcome of async code in the world `w`, and the world afterwards. -/
def Async.runIn {σ α : Type} (x : Async σ α) (w : σ) : Except Thrown α × σ :=
  StateT.run (ExceptT.run x) w

section Runs

variable {σ α β : Type} {x : Async σ α} {w w' : σ}

theorem Async.runIn_lift (y : Except Thrown α) (w : σ) : Async.runIn (Async.lift y) w = (y, w) :=
  rfl

theorem Async.runIn_bind_of_ok {a : α} (h : Async.runIn x w = (.ok a, w')) (f : α → Async σ β) :
    Async.runIn (x >>= f) w = Async.runIn (f a) w' :=
  Library.Traced.stateRun_bind_of_ok h f

theorem Async.runIn_bind_of_error {e : Thrown} (h : Async.runIn x w = (.error e, w'))
    (f : α → Async σ β) : Async.runIn (x >>= f) w = (.error e, w') :=
  Library.Traced.stateRun_bind_of_error h f

/-- An error is the outcome of the whole sequence. -/
theorem Async.bind_error {e : Thrown} (h : (Async.runIn x w).1 = .error e) (f : α → Async σ β) :
    (Async.runIn (x >>= f) w).1 = .error e :=
  congrArg Prod.fst (Async.runIn_bind_of_error (Prod.ext h rfl) f)

theorem Async.bind_ok {f : α → Async σ β} {b : β} (h : (Async.runIn (x >>= f) w).1 = .ok b) :
    ∃ a w', Async.runIn x w = (.ok a, w') ∧ (Async.runIn (f a) w').1 = .ok b := by
  rcases hx : Async.runIn x w with ⟨r, w'⟩
  cases r with
  | ok a =>
      rw [Async.runIn_bind_of_ok hx] at h
      exact ⟨a, w', rfl, h⟩
  | error e =>
      rw [Async.runIn_bind_of_error hx] at h
      cases h

end Runs

/-! ## Commands and keypairs -/

/-- `IUnsignedCommand`; a slot of `sigs` is whatever value the array holds there. -/
structure Command where
  cmd : JsString
  hash : JsString
  sigs : List Value

inductive SeedType
  | koala
  | chainweaver
  | eckowallet
  | foreign
  deriving DecidableEq

structure UniversalKeypair where
  publicKey : Option JsString
  secretKey : JsString
  seedType : Option SeedType
  encryptedSecretKey : Value
  password : Option JsString

structure NaclPair where
  publicKey : JsString
  secretKey : JsString
  deriving DecidableEq

/-- One signature to attach. -/
structure Signature where
  sig : Option JsString
  pubKey : Option JsString
  deriving DecidableEq

/-- The cryptographic libraries: the hexadecimal Ed25519 signature of a hash by tweetnacl and by
the hd-wallet, the public key of a raw private key, and the hash of a command. -/
structure Backend where
  signHash : JsString → NaclPair → Except Thrown JsString
  kadenaSign : JsString → JsString → Value → Except Thrown JsString
  publicKeyFromPrivateKey : JsString → Except Thrown JsString
  hash : JsString → JsString

/-! ## Reading the signers of a command -/

/-- `JSON.parse(cmd).signers` -/
def parseSigners (cmd : JsString) : Except Thrown Value :=
  match parse cmd with
  | none => .error .syntaxError
  | some payload =>
      match payload.get (js "signers") with
      | none => .error .typeError
      | some signers => .ok signers

/-- `signer.pubKey` -/
def pubKeyOf (signer : Value) : Except Thrown Value :=
  match signer.get (js "pubKey") with
  | none => .error .typeError
  | some pubKey => .ok pubKey

/-- `signers.map((s) => s.pubKey)`; only arrays have a `map`. -/
def pubKeysOf : Value → Except Thrown (List Value)
  | .arr signers => signers.mapM pubKeyOf
  | _ => .error .typeError

/-- `cmdPayload.signers?.map((s) => s.pubKey) ?? []` -/
def signerPubKeys (cmd : JsString) : Except Thrown (List Value) := do
  match ← parseSigners cmd with
  | .undefined => pure []
  | .null => pure []
  | signers => pubKeysOf signers

/-! ## addSignatures -/

def allSignaturesHavePubKeys (signatures : List Signature) : Bool :=
  signatures.all fun signature => signature.pubKey.isSome

/-- `{ pubKey, ...(signature?.sig ? { sig: signature.sig } : {}) }` -/
def freshSlot (signatures : List Signature) (pubKey : Value) : Value :=
  let matching := signatures.find? fun signature =>
    match signature.pubKey with
    | some key => (Value.str key).strictEq pubKey
    -- `find` compares with `===`, so a signature without a key matches a signer without one.
    | none => Value.undefined.strictEq pubKey
  match matching.bind Signature.sig with
  | some (c :: sig) => .obj [(js "pubKey", pubKey), (js "sig", .str (c :: sig))]
  | _ => .obj [(js "pubKey", pubKey)]

/-- A slot matched by public key: a signature that is there stays. -/
def slotByPubKey (sigs : List Value) (signatures : List Signature) (pubKey : Value) : Value :=
  match sigs.find? fun sig => (sig.optionalGet (js "pubKey")).strictEq pubKey with
  | some existed =>
      if existed.truthy && (existed.optionalGet (js "sig")).truthy then existed
      else freshSlot signatures pubKey
  | none => freshSlot signatures pubKey

/-- A slot matched by position: `sig: signatures[i].sig ?? sigs[i]?.sig`. -/
def slotByOrder (pubKey : Value) (signature : Signature) (existing : Option Value) : Value :=
  let sig :=
    match signature.sig with
    | some sig => Value.str sig
    | none => (existing.getD .undefined).optionalGet (js "sig")
  .obj [(js "pubKey", pubKey), (js "sig", sig)]

def slotsByOrder : List Value → List Signature → List Value → List Value
  | pubKey :: pubKeys, signature :: signatures, sigs =>
      slotByOrder pubKey signature sigs.head? :: slotsByOrder pubKeys signatures sigs.tail
  | _, _, _ => []

def addSignatures (transaction : Command) (signatures : List Signature) :
    Except Thrown Command := do
  let signers ← parseSigners transaction.cmd
  let pubKeyOrder ← pubKeysOf signers
  -- By public key where every signature names one, by position only as a fallback.
  if allSignaturesHavePubKeys signatures then
    pure { transaction with
      sigs := pubKeyOrder.map (slotByPubKey transaction.sigs signatures) }
  else if pubKeyOrder.length = signatures.length then
    pure { transaction with sigs := slotsByOrder pubKeyOrder signatures transaction.sigs }
  else
    .error (.error (js ("Signatures do not have pubKeys, and the length of signatures, " ++
      "does not match the length of signers. Cannot add signatures.")))

/-! ## createSignWithKeypair -/

/-- `signers.some(({ pubKey }) => pubKey === publicKey)`, which stops at the first match. -/
def someSigner (publicKey : JsString) : List Value → Except Thrown Bool
  | [] => .ok false
  | signer :: signers => do
      let pubKey ← pubKeyOf signer
      if pubKey.strictEq (.str publicKey) then pure true else someSigner publicKey signers

def isRelevant (signers : Value) (keypair : NaclPair) : Except Thrown Bool :=
  match signers with
  | .arr items => someSigner keypair.publicKey items
  | _ => .error .typeError

/-- `keypairs.filter((keypair) => signers.some(...))` -/
def getRelevantKeypairs (signers : Value) : List NaclPair → Except Thrown (List NaclPair)
  | [] => .ok []
  | keypair :: keypairs => do
      let relevant ← isRelevant signers keypair
      let rest ← getRelevantKeypairs signers keypairs
      pure (if relevant then keypair :: rest else rest)

section Backends

variable (B : Backend)

def signWithKeypair (tx : Command) (keypair : NaclPair) : Except Thrown Command := do
  let sig ← B.signHash tx.hash keypair
  addSignatures tx [{ sig := some sig, pubKey := some keypair.publicKey }]

def createSignWithKeypair (keypairs : List NaclPair) (tx : Command) : Except Thrown Command := do
  let signers ← parseSigners tx.cmd
  let relevantKeypairs ← getRelevantKeypairs signers keypairs
  if relevantKeypairs.isEmpty then
    .error (.error (js "The keypair(s) provided are not relevant to the transaction"))
  else
    relevantKeypairs.foldlM (signWithKeypair B) tx

/-! ## universalSignTransaction -/

def UniversalKeypair.key (kp : UniversalKeypair) : JsString :=
  kp.publicKey.getD []

def UniversalKeypair.isChainweaver (kp : UniversalKeypair) : Bool :=
  (kp.seedType == some .chainweaver || kp.seedType == some .eckowallet) &&
    kp.encryptedSecretKey.truthy && kp.password.getD [] != []

def UniversalKeypair.toNaclPair (kp : UniversalKeypair) : NaclPair :=
  { publicKey := kp.key, secretKey := kp.secretKey }

/-- `signerPubKeys.includes(pubKey)` -/
def includesKey (signerPubKeys : List Value) (pubKey : JsString) : Bool :=
  signerPubKeys.any fun key => key.strictEq (.str pubKey)

/-- The keypairs of declared signers, in order. -/
def handledKeypairs (signerPubKeys : List Value) (keypairs : List UniversalKeypair) :
    List UniversalKeypair :=
  keypairs.filter fun kp => includesKey signerPubKeys kp.key

/-- The foreign-key flow: a private key for every declared signer no keypair handles yet. -/
def resolveMissingKeys {σ : Type} (onMissingKey : Value → Async σ JsString) :
    List Value → List JsString → Async σ (List NaclPair)
  | [], _ => pure []
  | pubKey :: pubKeys, handled =>
      if handled.any fun key => pubKey.strictEq (.str key) then
        resolveMissingKeys onMissingKey pubKeys handled
      else do
        let rawKey ← onMissingKey pubKey
        let derived ← Async.lift (B.publicKeyFromPrivateKey rawKey)
        if pubKey.strictEq (.str derived) then
          -- The derived key counts as handled, so a signer declared twice is asked for once.
          let pairs ← resolveMissingKeys onMissingKey pubKeys (derived :: handled)
          pure ({ publicKey := derived, secretKey := rawKey } :: pairs)
        else
          throw (.error (js "Key mismatch.\nExpected: " ++ pubKey.template ++
            js "\nDerived:  " ++ derived))

/-- The foreign-key flow runs where the caller supplies `onMissingKey`. -/
def foreignKeyPairs {σ : Type} (onMissingKey : Option (Value → Async σ JsString))
    (signerPubKeys : List Value) (handled : List JsString) : Async σ (List NaclPair) :=
  match onMissingKey with
  | none => pure []
  | some callback => resolveMissingKeys B callback signerPubKeys handled

def signWithChainweaver (signed : Command) (kp : UniversalKeypair) : Except Thrown Command := do
  let sig ← B.kadenaSign (kp.password.getD []) signed.hash kp.encryptedSecretKey
  addSignatures signed [{ sig := some sig, pubKey := kp.publicKey }]

def signWithNacl (transaction : Command) (naclPairs : List NaclPair) : Except Thrown Command :=
  if naclPairs.isEmpty then .ok transaction else createSignWithKeypair B naclPairs transaction

/-- The signing half: the nacl pairs first, then the chainweaver pairs one by one. -/
def attachSignatures (transaction : Command) (naclPairs : List NaclPair)
    (chainweaverPairs : List UniversalKeypair) : Except Thrown Command := do
  let signed ← signWithNacl B transaction naclPairs
  chainweaverPairs.foldlM (signWithChainweaver B) signed

def universalSignTransaction {σ : Type} (transaction : Command) (keypairs : List UniversalKeypair)
    (onMissingKey : Option (Value → Async σ JsString)) : Async σ Command := do
  let signers ← Async.lift (signerPubKeys transaction.cmd)
  let handled := handledKeypairs signers keypairs
  let naclPairs := (handled.filter fun kp => !kp.isChainweaver).map UniversalKeypair.toNaclPair
  let chainweaverPairs := handled.filter UniversalKeypair.isChainweaver
  let foreignPairs ← foreignKeyPairs B onMissingKey signers (handled.map UniversalKeypair.key)
  -- Foreign pairs sign as nacl pairs do, behind those of the caller.
  Async.lift (attachSignatures B transaction (naclPairs ++ foreignPairs) chainweaverPairs)

end Backends

end Signing
end StoaCore
