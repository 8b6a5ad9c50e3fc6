import StoaCore.Library.Js.Base64
import StoaCore.Library.Js.Json
import StoaCore.Library.Js.Utf8
import StoaCore.Library.Traced

/-!
# WebCrypto — what both envelope formats are made of

`crypto.subtle` is a parameter: a structure of functions that answer or reject.  The programs run
over the one variable of the module, and their trace records the calls to the key derivation, what
has been opened, and the warnings given to the logger.
-/

namespace StoaCore
namespace Crypto

open Library
open Library.Js

/-! ## crypto.subtle -/

/-- An error thrown by the platform. -/
structure PlatformError where
  name : JsString
  deriving DecidableEq

inductive HashName
  | sha256
  | sha512
  deriving DecidableEq

/-- The parameters of a PBKDF2 key derivation. -/
structure Pbkdf2Params where
  hash : HashName
  iterations : Nat
  salt : Bytes
  deriving DecidableEq

inductive KeyUsage
  | encrypt
  | decrypt
  deriving DecidableEq

/-- `importKey` imports PBKDF2 key material, `deriveKey` derives a key for AES-GCM of 256 bits, and
`encrypt` and `decrypt` are AES-GCM under an IV. -/
structure WebCrypto where
  KeyMaterial : Type
  CryptoKey : Type
  importKey : Bytes → Except PlatformError KeyMaterial
  deriveKey : Pbkdf2Params → KeyMaterial → KeyUsage → Except PlatformError CryptoKey
  encrypt : Bytes → CryptoKey → Bytes → Except PlatformError Bytes
  decrypt : Bytes → CryptoKey → Bytes → Except PlatformError Bytes

/-- What `crypto.getRandomValues` draws for one encryption. -/
structure Draw where
  salt : Bytes
  iv : Bytes
  salt_length : salt.length = 16
  iv_length : iv.length = 12

/-! ## Errors -/

inductive CryptoError
  | wrongPassword (message : JsString)
  | corruptEnvelope (message : JsString)
  | error (message : JsString)
  /-- An error of the platform that no `catch` has wrapped. -/
  | platform (e : PlatformError)
  deriving DecidableEq

/-- What `instanceof` tells a caller about an error. -/
inductive ErrorClass
  | wrongPassword
  | corruptEnvelope
  | other
  deriving DecidableEq

def CryptoError.errorClass : CryptoError → ErrorClass
  | .wrongPassword _ => .wrongPassword
  | .corruptEnvelope _ => .corruptEnvelope
  | .error _ => .other
  | .platform _ => .other

/-! ## Programs -/

structure ModuleState where
  v1WarningEmitted : Bool := false
  deriving DecidableEq

inductive CryptoEvent
  | derived (params : Pbkdf2Params)
  | opened (params : Pbkdf2Params) (iv : Bytes)
  | warned (message : JsString)
  deriving DecidableEq

abbrev CryptoM := Traced.Prog CryptoError ModuleState CryptoEvent

variable {α : Type}

/-- `await` on a promise of the platform. -/
def await : Except PlatformError α → CryptoM α
  | .ok a => pure a
  | .error e => throw (.platform e)

/-! ## Bytes and text -/

/-- `String.fromCharCode` of every byte -/
def binaryString (bytes : Bytes) : JsString :=
  bytes.map fun b => UInt16.ofNat b.toNat

/-- `btoa(text)` where a failure is thrown. -/
def btoaOrThrow (text : JsString) : CryptoM JsString :=
  match btoa text with
  | some encoded => pure encoded
  | none => throw (.platform ⟨js "InvalidCharacterError"⟩)

def arrayBufferToBase64 (buffer : Bytes) : CryptoM JsString :=
  btoaOrThrow (binaryString buffer)

/-- `base64ToArrayBuffer(v)`; `atob` converts its argument to a string. -/
def base64ToArrayBuffer (base64 : Value) : Option Bytes :=
  (atob base64.template).map fun binary => binary.map fun c => UInt8.ofNat c.toNat

/-! ## Envelopes -/

/-- The bytes that an envelope holds. -/
structure EncryptedBytes where
  ciphertext : Bytes
  iv : Bytes
  salt : Bytes
  deriving DecidableEq

/-- `JSON.parse(atob(text))` -/
def parseEnvelope (text : JsString) : Option Value :=
  (atob text).bind parse

/-- `v !== null && typeof v === "object"` -/
def isObject : Value → Bool
  | .arr _ => true
  | .obj _ => true
  | _ => false

/-- `btoa(JSON.stringify(data))` -/
def encodeEnvelope (data : Value) : CryptoM JsString :=
  btoaOrThrow ((stringify data []).getD (js "undefined"))

/-- `buffer.byteLength > size ? buffer.slice(0, size) : buffer` -/
def truncate (size : Nat) (buffer : Bytes) : Bytes :=
  if size < buffer.length then buffer.take size else buffer

theorem truncate_eq_take (size : Nat) (buffer : Bytes) :
    truncate size buffer = buffer.take size := by
  unfold truncate
  split
  case isTrue => rfl
  case isFalse h => exact (List.take_of_length_le (Nat.le_of_not_lt h)).symm

/-! ## Sealing and opening -/

section Subtle

variable (crypto : WebCrypto)

def deriveKey (params : Pbkdf2Params) (password : JsString) (usage : KeyUsage) :
    CryptoM crypto.CryptoKey := do
  let keyMaterial ← await (crypto.importKey (textEncode password))
  Traced.emit (.derived params)
  await (crypto.deriveKey params keyMaterial usage)

/-- The first half of both encryptors, up to the ciphertext. -/
def sealText (params : Pbkdf2Params) (iv : Bytes) (plaintext password : JsString) :
    CryptoM Bytes := do
  let key ← deriveKey crypto params password .encrypt
  await (crypto.encrypt iv key (textEncode plaintext))

/-- The second half of all three decryptors, from the key derivation on.  `onOpened` runs inside
the `try`, once the ciphertext has been opened. -/
def openText (params : Pbkdf2Params) (iv ciphertext : Bytes) (password : JsString)
    (onOpened : CryptoM Unit) (unexpected : JsString) : CryptoM JsString := do
  let key ← deriveKey crypto params password .decrypt
  match crypto.decrypt iv key ciphertext with
  | .ok decrypted =>
      Traced.emit (.opened params iv)
      onOpened
      pure (textDecode decrypted)
  | .error e =>
      -- A wrong key shows itself only by the tag, which the platform reports under this name.
      if e.name = js "OperationError" then throw (.wrongPassword (js "AES-GCM auth-tag failure"))
      else throw (.error unexpected)

end Subtle

end Crypto
end StoaCore
