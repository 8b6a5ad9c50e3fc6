import StoaCore.HdWallet.Slip10

/-!
# Chainweaver — the keys of the older wallets

A key is 128 bytes, which hold the private key under the password, the public key and a chain code.
It is made, derived and used by a compiled module, which is a parameter.  The key is handed out in
an envelope under the same password, with the public key as a fifth part.
-/

namespace StoaCore
namespace HdWallet

open Library.Js
open Crypto (WebCrypto Draw)

/-! ## The compiled module -/

/-- The functions that the module exports.  They write into buffers of a fixed size; an index is
taken as an `i32`. -/
structure KadenaWasm where
  hmacSha512 : Bytes → Bytes → Bytes
  /-- Of a password, a seed and a chain code; `none` is the return code 1. -/
  secretFromSeed : Bytes → Bytes → Bytes → Option Bytes
  derivePrivate : Bytes → Bytes → UInt32 → Nat → Bytes
  changePass : Bytes → Bytes → Bytes → Bytes
  sign : Bytes → Bytes → Bytes → Bytes
  verify : Bytes → Bytes → Bytes → Bool
  length_hmacSha512 : ∀ key input, (hmacSha512 key input).length = 64
  length_secretFromSeed : ∀ pwd seed chainCode key,
    secretFromSeed pwd seed chainCode = some key → key.length = 128
  length_derivePrivate : ∀ pwd parentKey index scheme,
    (derivePrivate pwd parentKey index scheme).length = 128
  length_changePass : ∀ key oldPwd newPwd, (changePass key oldPwd newPwd).length = 128
  length_sign : ∀ pwd keypair msg, (sign pwd keypair msg).length = 64

/-- What a number becomes as an argument of the module. -/
def toUint32 (n : Int) : UInt32 :=
  UInt32.ofNat (n % 2 ^ 32).toNat

/-- The bytes of the public key, `key.slice(64, 96)`. -/
def publicPart (key : Bytes) : Bytes :=
  (key.drop 64).take 32

/-! ## The vendored bundle -/

namespace Vendor

def validateBuffer (input : Bytes) (expectedLength : Nat) : Except Thrown Unit :=
  if input.length ≠ expectedLength then .error (newError (js "Invalid buffer length")) else .ok ()

def loopingForever : Thrown where
  name := js "RuntimeException"
  message := js "Secret key generation from mnemonic is looping forever"

def invalidMnemonic : Thrown where
  name := js "InvalidArgumentException"
  message := js "Invalid or unsupported mnemonic format:"

section Functions

variable (W : KadenaWasm)

/-- The digest of the seed is tried as a private key, up to a thousand times. -/
def seedToKeypairV1 (pwd seed : Bytes) : Except Thrown Bytes :=
  let attempt := fun i : Nat =>
    let digest := W.hmacSha512 seed (textEncode (js "Root Seed Chain " ++ decimalText i))
    W.secretFromSeed pwd (digest.take 32) ((digest.drop 32).take 32)
  match (List.range' 1 1000).findSome? attempt with
  | some key => .ok key
  | none => .error loopingForever

def kadenaMnemonicToRootKeypair (bip39 : Bip39) (pwd : BinaryLike) (mnemonic : JsString) :
    Except Thrown Bytes := do
  if bip39.validateMnemonic mnemonic then
    let seed ← bip39.mnemonicToSeed mnemonic
    seedToKeypairV1 W pwd.raw seed
  else .error invalidMnemonic

/-- The private key and the public key. -/
def kadenaGenKeypair (pwd : BinaryLike) (root : Bytes) (index : Int) :
    Except Thrown (Bytes × Bytes) := do
  validateBuffer root 128
  let xprv := W.derivePrivate pwd.raw root (toUint32 index) 2
  pure (xprv, publicPart xprv)

def kadenaSign (pwd : BinaryLike) (msg xprv : Bytes) : Except Thrown Bytes := do
  validateBuffer xprv 128
  pure (W.sign pwd.raw xprv msg)

def kadenaVerify (msg publicKey sig : Bytes) : Except Thrown Bool := do
  validateBuffer publicKey 32
  validateBuffer sig 64
  pure (W.verify msg publicKey sig)

def kadenaChangePassword (key : Bytes) (oldPwd newPwd : BinaryLike) : Except Thrown Bytes := do
  validateBuffer key 128
  pure (W.changePass key oldPwd.raw newPwd.raw)

end Functions

end Vendor

/-! ## The functions for the older wallets -/

namespace Chainweaver

/-- An index, or the first and the last index of a range. -/
inductive KeyIndices
  | index (i : Int)
  | range (start last : Int)

structure KeyPair where
  publicKey : JsString
  secretKey : BinaryLike
  deriving DecidableEq

section Functions

variable (crypto : WebCrypto) (W : KadenaWasm)

def encryptLegacySecretKey (password : BinaryLike) (secretKey : Bytes) (draw : Draw) :
    Except WalletError BinaryLike := do
  let encryptedSecret ← (kadenaEncrypt crypto password (.bytes secretKey) .base64 draw).mapError
    .platform
  let encrypted := envelopeText encryptedSecret
  let publicKey := bufferToBase64 (publicPart secretKey)
  pure (.text (bufferToBase64 (textEncode (encrypted ++ unit '.' :: publicKey))))

/-- The last part of an envelope; there always is one. -/
def getPublicKeyFromLegacySecretKey (secretKey : BinaryLike) : JsString :=
  bufferToHex (bufferFromBase64 ((partsOf secretKey).getLastD []))

def kadenaGetPublic (secretKey : BinaryLike) : JsString :=
  getPublicKeyFromLegacySecretKey secretKey

def kadenaMnemonicToRootKeypair (bip39 : Bip39) (password : BinaryLike) (mnemonic : JsString)
    (encode : Encode) (draw : Draw) : Except WalletError BinaryLike := do
  let result ← fromThrown (Vendor.kadenaMnemonicToRootKeypair W bip39 password mnemonic)
  (kadenaEncrypt crypto password (.bytes result) encode draw).mapError .platform

def kadenaChangePassword (secretKey oldPassword newPassword : BinaryLike) (draw : Draw) :
    Except WalletError BinaryLike := do
  let decrypted ← fromThrown (kadenaDecrypt crypto oldPassword secretKey)
  let newSecretKey ← fromThrown (Vendor.kadenaChangePassword W decrypted oldPassword newPassword)
  encryptLegacySecretKey crypto newPassword newSecretKey draw

/-! ### Generating keys -/

def hardenedOffset : Int := 0x80000000

/-- An index is an integer, and so is the sum, one that a double holds exactly. -/
def harden (n : Int) : Int := hardenedOffset + n

def kadenaGenOneKeypair (password : BinaryLike) (rootKey : Bytes) (index : Int) (draw : Draw) :
    Except WalletError KeyPair :=
  if index < hardenedOffset then .error (.thrown (newError (js "Index must be hardened")))
  else do
    let keyPair ← fromThrown (Vendor.kadenaGenKeypair W password rootKey index)
    let secretKey ← encryptLegacySecretKey crypto password keyPair.1 draw
    pure { publicKey := bufferToHex keyPair.2, secretKey := secretKey }

/-- The loop over a range; `draws` says what is drawn from here on. -/
def genKeypairs (password : BinaryLike) (rootKey : Bytes) :
    (Nat → Draw) → List Int → Except WalletError (List KeyPair)
  | _, [] => pure []
  | draws, i :: rest => do
      let keypair ← kadenaGenOneKeypair crypto W password rootKey (harden i) (draws 0)
      let keypairs ← genKeypairs password rootKey (fun k => draws (k + 1)) rest
      pure (keypair :: keypairs)

/-- A range whose last index is below its first one is empty here. -/
def kadenaGenKeypair (password rootKey : BinaryLike) (indexOrRange : KeyIndices)
    (draws : Nat → Draw) : Except WalletError (OneOrMany KeyPair) := do
  let decrypted ← fromThrown (kadenaDecrypt crypto password rootKey)
  match indexOrRange with
  | .index i =>
      let keypair ← kadenaGenOneKeypair crypto W password decrypted (harden i) (draws 0)
      pure (.one keypair)
  | .range start last =>
      let keypairs ← genKeypairs crypto W password decrypted draws (indices start last)
      pure (.many keypairs)

/-- The index is taken as it is, hardened or not. -/
def kadenaGetPublicFromRootKey (password rootKey : BinaryLike) (index : Int) :
    Except WalletError Bytes := do
  let decrypted ← fromThrown (kadenaDecrypt crypto password rootKey)
  let keyPair ← fromThrown (Vendor.kadenaGenKeypair W password decrypted index)
  pure keyPair.2

/-! ### Signing -/

/-- The hash is a Base64 text, in either alphabet. -/
def kadenaSign (password : BinaryLike) (hash : JsString) (secretKey : BinaryLike) :
    Except WalletError Bytes := do
  let decrypted ← fromThrown (kadenaDecrypt crypto password secretKey)
  fromThrown (Vendor.kadenaSign W password (bufferFromBase64 hash) decrypted)

/-- A key is generated for the index, which is hardened, and its envelope opened again. -/
def kadenaSignFromRootKey (password : BinaryLike) (hash : JsString) (rootKey : BinaryLike)
    (index : Int) (draw : Draw) : Except WalletError Bytes := do
  let decrypted ← fromThrown (kadenaDecrypt crypto password rootKey)
  let keypair ← kadenaGenOneKeypair crypto W password decrypted (harden index) draw
  let secret ← fromThrown (kadenaDecrypt crypto password keypair.secretKey)
  fromThrown (Vendor.kadenaSign W password (bufferFromBase64 hash) secret)

end Functions

end Chainweaver
end HdWallet
end StoaCore
