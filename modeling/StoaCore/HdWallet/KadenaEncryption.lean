import StoaCore.Crypto.WebCrypto
import StoaCore.Library.Js.Buffer

/-!
# KadenaEncryption — the envelopes of the HD wallet

An envelope is salt, IV, ciphertext and the number of iterations, each in Base64, joined with dots.
It is handed out as Base64 of that text, or as its bytes.  The first envelopes had no number of
iterations, and those of the chainweaver wallet have a fifth part.
-/

namespace StoaCore
namespace HdWallet

open Library.Js
open Crypto (WebCrypto PlatformError KeyUsage Draw)

/-! ## Values and errors -/

/-- A text, or a buffer. -/
inductive BinaryLike
  | text (s : JsString)
  | bytes (data : Bytes)
  deriving DecidableEq

/-- The bytes that a password or a message stands for. -/
def BinaryLike.raw : BinaryLike → Bytes
  | .text s => textEncode s
  | .bytes data => data

/-- An `Error` or a `TypeError`. -/
structure Thrown where
  name : JsString
  message : JsString
  deriving DecidableEq

def newError (message : JsString) : Thrown where
  name := js "Error"
  message := message

inductive WalletError
  | thrown (e : Thrown)
  /-- An error of the platform that no `catch` has wrapped. -/
  | platform (e : PlatformError)
  /-- What `signHash` throws. -/
  | signing (message : JsString)
  deriving DecidableEq

/-- What `Buffer.from(undefined, 'base64')` throws. -/
def undefinedBuffer : Thrown where
  name := js "TypeError"
  message := js ("The first argument must be of type string or an instance of Buffer, " ++
    "ArrayBuffer, or Array or an Array-like Object. Received undefined")

/-! ## Keys and ciphertexts -/

section Subtle

variable (crypto : WebCrypto)

/-- The key is made for both uses; the model asks for the one it is put to. -/
def deriveKey (password : BinaryLike) (salt : Bytes) (iterations : Nat) (usage : KeyUsage) :
    Except PlatformError crypto.CryptoKey := do
  let keyMaterial ← crypto.importKey password.raw
  crypto.deriveKey { hash := .sha256, iterations := iterations, salt := salt } keyMaterial usage

def defaultIterations : Nat := 310000

structure EncryptResult where
  cipherText : Bytes
  iv : Bytes
  iterations : JsString

def encrypt (text : Bytes) (password : BinaryLike) (draw : Draw) :
    Except PlatformError EncryptResult := do
  let key ← deriveKey crypto password draw.salt defaultIterations .encrypt
  let cipherText ← crypto.encrypt draw.iv key text
  pure { cipherText := cipherText, iv := draw.iv, iterations := decimalText defaultIterations }

/-- The platform takes the number of iterations as an `unsigned long` and refuses any other. -/
def enforceRange : Option Int → Except PlatformError Nat
  | none => .error ⟨js "TypeError"⟩
  | some n => if 0 ≤ n ∧ n < 2 ^ 32 then .ok n.toNat else .error ⟨js "TypeError"⟩

/-- Envelopes without a number of iterations were made with 1000. -/
def decrypt (cipherText iv : Bytes) (iterations : Option JsString) (password : BinaryLike)
    (salt : Bytes) : Except PlatformError Bytes := do
  let iterations ←
    match iterations with
    | some text => enforceRange (parseInt10 text)
    | none => .ok 1000
  let key ← deriveKey crypto password salt iterations .decrypt
  crypto.decrypt iv key cipherText

/-! ## Envelopes -/

inductive Encode
  | base64
  | buffer
  deriving DecidableEq

/-- `[...].map((x) => Buffer.from(x).toString('base64')).join('.')` -/
def envelope (parts : List Bytes) : JsString :=
  [unit '.'].intercalate (parts.map bufferToBase64)

def encodeAs (encode : Encode) (encrypted : JsString) : BinaryLike :=
  match encode with
  | .base64 => .text (bufferToBase64 (textEncode encrypted))
  | .buffer => .bytes (textEncode encrypted)

def kadenaEncrypt (password message : BinaryLike) (encode : Encode) (draw : Draw) :
    Except PlatformError BinaryLike := do
  let result ← encrypt crypto message.raw password draw
  pure (encodeAs encode
    (envelope [draw.salt, result.iv, result.cipherText, textEncode result.iterations]))

/-- The joined parts, however they were handed out. -/
def envelopeText : BinaryLike → JsString
  | .text s => bufferToText (bufferFromBase64 s)
  | .bytes data => bufferToText data

/-- The texts between the dots. -/
def partsOf (encryptedData : BinaryLike) : List JsString :=
  (envelopeText encryptedData).splitOn (unit '.')

/-- `Buffer.from(part, 'base64')`, where a part that is not there is `undefined`. -/
def partBytes : Option JsString → Except Thrown Bytes
  | some part => .ok (bufferFromBase64 part)
  | none => .error undefinedBuffer

/-- The number of iterations, as a text; an empty part is as good as none. -/
def partIterations : Option JsString → Option JsString
  | none => none
  | some part => if part = [] then none else some (bufferToText (bufferFromBase64 part))

def kadenaDecrypt (password encryptedData : BinaryLike) : Except Thrown Bytes :=
  if encryptedData = .text [] then .error (newError (js "Encrypted data is empty"))
  else do
    let parts := partsOf encryptedData
    let salt ← partBytes parts[0]?
    let iv ← partBytes parts[1]?
    let cipherText ← partBytes parts[2]?
    let iterations := partIterations parts[3]?
    -- Whatever goes wrong from here on, the error says no more than that.
    match decrypt crypto cipherText iv iterations password salt with
    | .ok decrypted => .ok decrypted
    | .error _ => .error (newError (js "Decryption failed"))

/-! ## Changing the password -/

/-- Why a change of password is refused before anything is decrypted. -/
def refusal (password newPassword : BinaryLike) : Option JsString :=
  match password, newPassword with
  | .text old, .text new =>
      if old = [] then some (js "The old password cannot be empty.")
      else if new = [] then some (js "The new password cannot be empty.")
      else if old = new then
        some (js "The new password must be different from the old password.")
      else none
  | _, _ => some (js "The old and new passwords must be strings.")

def kadenaChangePassword (password encryptedData newPassword : BinaryLike) (encode : Encode)
    (draw : Draw) : Except WalletError BinaryLike :=
  match refusal password newPassword with
  | some message => .error (.thrown (newError message))
  | none =>
      match kadenaDecrypt crypto password encryptedData with
      | .error e =>
          .error (.thrown (newError
            (js "Failed to decrypt the private key with the old password: " ++ e.message)))
      | .ok decryptedPrivateKey =>
          -- The promise is returned, not awaited, so the second `catch` never runs.
          (kadenaEncrypt crypto newPassword (.bytes decryptedPrivateKey) encode draw).mapError
            .platform

end Subtle

end HdWallet
end StoaCore
