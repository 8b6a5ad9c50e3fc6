import StoaCore.Cryptography.KeyPairs
import StoaCore.HdWallet.KadenaEncryption
import StoaCore.Library.Js.Replace

/-!
# Slip10 — keys derived from a seed

The seed of a wallet is kept in an envelope.  A key is derived from it along a path, which is a
template with the index of the key in the place of `<index>`; the private key is handed out in an
envelope of its own, under the same password.
-/

namespace StoaCore
namespace HdWallet

open Library.Js
open Crypto (WebCrypto Draw)
open Cryptography (Ed25519 signHash)

variable {α β : Type}

/-! ## The libraries -/

/-- A key of `ed25519-keygen/hdkey`. -/
structure HDKey where
  privateKey : Bytes
  publicKey : Bytes

/-- `HDKey.fromMasterSeed(seed).derive(path, true)` -/
abbrev HDKeys := Bytes → JsString → Except Thrown HDKey

/-- `@scure/bip39` with the English word list. -/
structure Bip39 where
  validateMnemonic : JsString → Bool
  mnemonicToSeed : JsString → Except Thrown Bytes

/-- An error of these libraries passes through. -/
def fromThrown : Except Thrown α → Except WalletError α
  | .ok a => .ok a
  | .error e => .error (.thrown e)

/-! ## Arguments and results -/

/-- An index, or the first and the last index of a range; they are integers below `2 ^ 53`. -/
inductive IndexOrRange
  | index (i : Int)
  | range (startIndex endIndex : Int)
  /-- Neither a number nor an array. -/
  | other

inductive OneOrMany (α : Type)
  | one (a : α)
  | many (as : List α)
  deriving DecidableEq

def OneOrMany.map (f : α → β) : OneOrMany α → OneOrMany β
  | .one a => .one (f a)
  | .many as => .many (as.map f)

/-- `for (let index = startIndex; index <= endIndex; index++)` -/
def indices (startIndex endIndex : Int) : List Int :=
  (List.range (endIndex + 1 - startIndex).toNat).map fun (k : Nat) => startIndex + k

/-! ## Paths and keys -/

def indexPlaceholder : JsString := js "<index>"

def isDerivationPathTemplateValid (derivationPathTemplate : JsString) : Bool :=
  includesText indexPlaceholder derivationPathTemplate

/-- `derivationPathTemplate.replace('<index>', index.toString())` -/
def derivationPath (derivationPathTemplate : JsString) (index : Int) : JsString :=
  replaceText indexPlaceholder (integerText index) derivationPathTemplate

def defaultTemplate : JsString := js "m'/44'/626'/<index>'"

def invalidTemplate : Thrown := newError (js "Invalid derivation path template.")

/-- A public key comes with a zero byte before it, which is left out. -/
def uint8ArrayToHex (uint8Array : Bytes) : JsString :=
  bufferToHex
    (if uint8Array.length = 33 ∧ uint8Array.head? = some 0 then uint8Array.tail else uint8Array)

/-- A private and a public key as hexadecimal texts. -/
structure DerivedPair where
  privateKey : JsString
  publicKey : JsString
  deriving DecidableEq

def deriveKeyPair (hdKeys : HDKeys) (seed : Bytes) (path : JsString) :
    Except Thrown DerivedPair := do
  let key ← hdKeys seed path
  pure
    { privateKey := uint8ArrayToHex key.privateKey
      publicKey := uint8ArrayToHex key.publicKey }

/-! ## Generating keys -/

/-- `undefined` and the empty text are no seed. -/
def requireSeed : Option BinaryLike → Except WalletError BinaryLike
  | none => .error (.thrown (newError (js "NO_SEED: No seed provided.")))
  | some seed =>
      if seed = .text [] then .error (.thrown (newError (js "NO_SEED: No seed provided.")))
      else .ok seed

def requireTemplate (derivationPathTemplate : JsString) : Except WalletError Unit :=
  if isDerivationPathTemplateValid derivationPathTemplate then .ok ()
  else .error (.thrown invalidTemplate)

section Keys

variable (crypto : WebCrypto) (hdKeys : HDKeys)

def genKeypairFromSeed (password : BinaryLike) (seedBuffer : Bytes) (index : Int)
    (derivationPathTemplate : JsString) (draw : Draw) :
    Except WalletError (JsString × BinaryLike) := do
  requireTemplate derivationPathTemplate
  let pair ← fromThrown
    (deriveKeyPair hdKeys seedBuffer (derivationPath derivationPathTemplate index))
  let encryptedPrivateKey ←
    (kadenaEncrypt crypto password (.bytes (bufferFromHex pair.privateKey)) .base64 draw).mapError
      .platform
  pure (pair.publicKey, encryptedPrivateKey)

/-- The loop over a range; `draws` says what is drawn from here on. -/
def genKeypairs (password : BinaryLike) (seedBuffer : Bytes) (derivationPathTemplate : JsString) :
    (Nat → Draw) → List Int → Except WalletError (List (JsString × BinaryLike))
  | _, [] => pure []
  | draws, index :: rest => do
      let pair ← genKeypairFromSeed crypto hdKeys password seedBuffer index derivationPathTemplate
        (draws 0)
      let pairs ← genKeypairs password seedBuffer derivationPathTemplate (fun k => draws (k + 1))
        rest
      pure (pair :: pairs)

def rangeError : WalletError :=
  .thrown (newError (js "The start index must be less than the end index."))

def indexError : WalletError :=
  .thrown (newError (js "Invalid index or range."))

def kadenaGenKeypairFromSeed (password : BinaryLike) (seed : Option BinaryLike)
    (indexOrRange : IndexOrRange) (draws : Nat → Draw)
    (derivationPathTemplate : JsString := defaultTemplate) :
    Except WalletError (OneOrMany (JsString × BinaryLike)) := do
  let seed ← requireSeed seed
  requireTemplate derivationPathTemplate
  let seedBuffer ← fromThrown (kadenaDecrypt crypto password seed)
  match indexOrRange with
  | .index index =>
      let pair ← genKeypairFromSeed crypto hdKeys password seedBuffer index derivationPathTemplate
        (draws 0)
      pure (.one pair)
  | .range startIndex endIndex =>
      if endIndex < startIndex then .error rangeError
      else do
        let pairs ← genKeypairs crypto hdKeys password seedBuffer derivationPathTemplate draws
          (indices startIndex endIndex)
        pure (.many pairs)
  | .other => .error indexError

/-! ## Public keys -/

def genPublicKeyFromSeed (seedBuffer : Bytes) (index : Int) (derivationPathTemplate : JsString) :
    Except WalletError JsString := do
  requireTemplate derivationPathTemplate
  let pair ← fromThrown
    (deriveKeyPair hdKeys seedBuffer (derivationPath derivationPathTemplate index))
  pure pair.publicKey

/-- Here the template is looked at for each key, after the seed has been opened. -/
def kadenaGetPublic (password : BinaryLike) (seed : Option BinaryLike)
    (indexOrRange : IndexOrRange) (derivationPathTemplate : JsString := defaultTemplate) :
    Except WalletError (OneOrMany JsString) := do
  let seed ← requireSeed seed
  let seedBuffer ← fromThrown (kadenaDecrypt crypto password seed)
  match indexOrRange with
  | .index index =>
      let publicKey ← genPublicKeyFromSeed hdKeys seedBuffer index derivationPathTemplate
      pure (.one publicKey)
  | .range startIndex endIndex =>
      if endIndex < startIndex then .error rangeError
      else do
        let publicKeys ← (indices startIndex endIndex).mapM fun index =>
          genPublicKeyFromSeed hdKeys seedBuffer index derivationPathTemplate
        pure (.many publicKeys)
  | .other => .error indexError

/-! ## Signing -/

variable (E : Ed25519)

structure SignatureWithKey where
  sig : JsString
  pubKey : JsString
  deriving DecidableEq

/-- The signature of `signHash` is never `undefined`. -/
def signWithKeyPair (publicKey secretKey hash : JsString) : Except WalletError SignatureWithKey :=
  match signHash E hash { publicKey := publicKey, secretKey := secretKey } with
  | .ok sig => .ok { sig := sig, pubKey := publicKey }
  | .error message => .error (.signing message)

def signWithSeed (seed : Bytes) (path hash : JsString) : Except WalletError SignatureWithKey := do
  let pair ← fromThrown (deriveKeyPair hdKeys seed path)
  signWithKeyPair E pair.publicKey pair.privateKey hash

/-- `kadenaSignWithKeyPair(password, publicKey, encryptedPrivateKey)(hash)` -/
def kadenaSignWithKeyPair (password : BinaryLike) (publicKey : JsString)
    (encryptedPrivateKey : BinaryLike) (hash : JsString) : Except WalletError SignatureWithKey := do
  let privateKey ← fromThrown (kadenaDecrypt crypto password encryptedPrivateKey)
  signWithKeyPair E publicKey (bufferToHex privateKey) hash

/-- `kadenaSignWithSeed(password, seed, index)(hash)`.  All signers wait for one promise of the
seed, so the first of them that throws is the one whose error is seen. -/
def kadenaSignWithSeed (password seed : BinaryLike) (index : OneOrMany Int) (hash : JsString)
    (derivationPathTemplate : JsString := defaultTemplate) :
    Except WalletError (OneOrMany SignatureWithKey) := do
  requireTemplate derivationPathTemplate
  let sign := fun (i : Int) => do
    let decryptedSeed ← fromThrown (kadenaDecrypt crypto password seed)
    signWithSeed hdKeys E decryptedSeed (derivationPath derivationPathTemplate i) hash
  match index with
  | .one i =>
      let signature ← sign i
      pure (.one signature)
  | .many is =>
      let signatures ← is.mapM sign
      pure (.many signatures)

/-- A message is bytes, or a hexadecimal text. -/
def kadenaVerify (message : BinaryLike) (publicKey signature : JsString) : Except JsString Bool :=
  let msg :=
    match message with
    | .text s => bufferFromHex s
    | .bytes data => data
  E.verify msg (bufferFromHex signature) (bufferFromHex publicKey)

end Keys

/-! ## Seeds -/

def kadenaMnemonicToSeed (crypto : WebCrypto) (bip39 : Bip39) (password : BinaryLike)
    (mnemonic : JsString) (encode : Encode) (draw : Draw) : Except WalletError BinaryLike := do
  if bip39.validateMnemonic mnemonic then
    let seedBuffer ← fromThrown (bip39.mnemonicToSeed mnemonic)
    (kadenaEncrypt crypto password (.bytes seedBuffer) encode draw).mapError .platform
  else .error (.thrown (newError (js "Invalid mnemonic.")))

end HdWallet
end StoaCore
