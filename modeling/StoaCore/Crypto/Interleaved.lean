import StoaCore.Crypto.Decoding
import StoaCore.Library.OneShot

/-!
# Interleaved — the decryptors between their awaits

The decryptors of `V1` and `V2` once more, with the points at which they await, as tasks of one
process.  Where nothing runs beside it, each task is the program it was.
-/

namespace StoaCore
namespace Crypto
namespace Interleaved

open Library
open Library.Js
open Library.Tasks

abbrev CryptoTask := Task CryptoError ModuleState CryptoEvent

/-! ## What the decryptors are made of -/

/-- `await` on a promise of the platform. -/
def await {α : Type} (promise : Except PlatformError α) : CryptoTask α :=
  .await (.settled (promise.mapError .platform))

def fail {α : Type} (e : CryptoError) : CryptoTask α :=
  .settled (.error e)

def emit (e : CryptoEvent) : CryptoTask Unit :=
  .emit e (pure ())

/-- The flag of the module and its warning. -/
def v1Advisory : OneShot ModuleState CryptoEvent where
  isSet := ModuleState.v1WarningEmitted
  set m := { m with v1WarningEmitted := true }
  note := .warned V2.v1Warning
  isSet_set _ := rfl

def emitV1WarningOnce : CryptoTask Unit :=
  v1Advisory.announce

section Subtle

variable (crypto : WebCrypto)

def deriveKey (params : Pbkdf2Params) (password : JsString) (usage : KeyUsage) :
    CryptoTask crypto.CryptoKey := do
  let keyMaterial ← await (crypto.importKey (textEncode password))
  emit (.derived params)
  await (crypto.deriveKey params keyMaterial usage)

def openText (params : Pbkdf2Params) (iv ciphertext : Bytes) (password : JsString)
    (onOpened : CryptoTask Unit) (unexpected : JsString) : CryptoTask JsString := do
  let key ← deriveKey crypto params password .decrypt
  .await <|
    match crypto.decrypt iv key ciphertext with
    | .ok decrypted => do
        emit (.opened params iv)
        onOpened
        pure (textDecode decrypted)
    | .error e =>
        if e.name = js "OperationError" then fail (.wrongPassword (js "AES-GCM auth-tag failure"))
        else fail (.error unexpected)

/-! ## The decryptors -/

/-- `decryptString` of `V1`. -/
def decryptString (encryptedBase64String password : JsString) : CryptoTask JsString :=
  match parseEnvelope encryptedBase64String with
  | none => fail (.corruptEnvelope (js "Failed to parse V1 envelope"))
  | some parsed =>
      if isObject parsed then
        match V1.readFields parsed with
        | none => fail (.corruptEnvelope (js "V1 envelope field shape mismatch"))
        | some fields =>
            openText crypto (V1.pbkdf2Params (truncate 16 fields.salt)) (truncate 12 fields.iv)
              fields.ciphertext password (pure ()) (js "Unexpected V1 decrypt failure")
      else fail (.corruptEnvelope (js "V1 envelope must be an object"))

def decryptStringV2 (encryptedBase64 password : JsString) : CryptoTask JsString :=
  match parseEnvelope encryptedBase64 with
  | none => fail (.corruptEnvelope (js "Failed to parse encrypted envelope"))
  | some envelope =>
      if isObject envelope then
        if V2.hasMarker envelope then
          match V1.readFields envelope with
          | none =>
              fail (.corruptEnvelope (js ("V2 envelope field shape mismatch " ++
                "(missing or non-string ciphertext/iv/salt)")))
          | some fields =>
              openText crypto (V2.pbkdf2Params fields.salt) fields.iv fields.ciphertext password
                (pure ()) (js "Unexpected V2 decrypt failure")
        else
          match V2.readFieldsV1 envelope with
          | none =>
              fail (.corruptEnvelope (js ("V1-fallback envelope field shape mismatch " ++
                "(missing or non-string ciphertext/iv/salt)")))
          | some fields =>
              openText crypto (V1.pbkdf2Params (truncate 16 fields.salt)) (truncate 12 fields.iv)
                fields.ciphertext password emitV1WarningOnce
                (js "Unexpected V1-fallback decrypt failure")
      else fail (.corruptEnvelope (js "Envelope must be an object"))

def smartDecrypt (encrypted password : JsString) : CryptoTask JsString :=
  if V2.isEncryptedV2 encrypted then decryptStringV2 crypto encrypted password
  else do
    emitV1WarningOnce
    -- `await import("./v1")`
    .await (decryptString crypto encrypted password)

/-- What the two variants with details do with their decryptor. -/
def withDetails (encrypted : JsString) (decrypt : CryptoTask JsString) :
    CryptoTask V2.DecryptResultWithDetails := do
  let wasLegacyV1 := !V2.isEncryptedV2 encrypted
  let plaintext ← decrypt
  .await (pure { plaintext := plaintext, wasLegacyV1 := wasLegacyV1 })

def decryptStringV2WithDetails (encryptedBase64 password : JsString) :
    CryptoTask V2.DecryptResultWithDetails :=
  withDetails encryptedBase64 (decryptStringV2 crypto encryptedBase64 password)

def smartDecryptWithDetails (encrypted password : JsString) :
    CryptoTask V2.DecryptResultWithDetails :=
  withDetails encrypted (smartDecrypt crypto encrypted password)

end Subtle

/-! ## Without interruption -/

theorem toProg_await {α : Type} (promise : Except PlatformError α) :
    (await promise).toProg = Crypto.await promise := by
  cases promise with
  | ok a => rfl
  | error e => rfl

theorem toProg_emit (e : CryptoEvent) : (emit e).toProg = Traced.emit e := by
  change (Traced.emit e >>= fun _ => pure ()) = Traced.emit e
  exact bind_pure _

theorem toProg_emitV1WarningOnce : emitV1WarningOnce.toProg = V2.emitV1WarningOnce := by
  have hrun : ∀ t, Traced.run emitV1WarningOnce.toProg t = Traced.run V2.emitV1WarningOnce t := by
    intro t
    rcases t with ⟨⟨emitted⟩, events⟩
    cases emitted with
    | true => rfl
    | false => rfl
  exact funext hrun

section Subtle

variable (crypto : WebCrypto)

theorem toProg_deriveKey (params : Pbkdf2Params) (password : JsString) (usage : KeyUsage) :
    (deriveKey crypto params password usage).toProg =
      Crypto.deriveKey crypto params password usage := by
  unfold deriveKey Crypto.deriveKey
  simp only [Task.toProg_bind, toProg_await, toProg_emit]

theorem toProg_openText (params : Pbkdf2Params) (iv ciphertext : Bytes) (password : JsString)
    (onOpened : CryptoTask Unit) (unexpected : JsString) :
    (openText crypto params iv ciphertext password onOpened unexpected).toProg =
      Crypto.openText crypto params iv ciphertext password onOpened.toProg unexpected := by
  unfold openText Crypto.openText
  rw [Task.toProg_bind, toProg_deriveKey]
  congr 1
  funext key
  rw [Task.toProg]
  cases crypto.decrypt iv key ciphertext with
  | ok decrypted =>
      simp only [Task.toProg_bind, toProg_emit]
      rfl
  | error e =>
      dsimp only
      split
      · rfl
      · rfl

theorem toProg_decryptString (blob password : JsString) :
    (decryptString crypto blob password).toProg = V1.decryptString crypto blob password := by
  unfold decryptString V1.decryptString
  cases parseEnvelope blob with
  | none => rfl
  | some parsed =>
      dsimp only
      split
      case isFalse => rfl
      case isTrue =>
        cases V1.readFields parsed with
        | none => rfl
        | some fields => exact toProg_openText crypto _ _ _ password (pure ()) _

theorem toProg_decryptStringV2 (blob password : JsString) :
    (decryptStringV2 crypto blob password).toProg = V2.decryptStringV2 crypto blob password := by
  unfold decryptStringV2 V2.decryptStringV2
  cases parseEnvelope blob with
  | none => rfl
  | some envelope =>
      dsimp only
      split
      case isFalse => rfl
      case isTrue =>
        split
        case isTrue =>
          cases V1.readFields envelope with
          | none => rfl
          | some fields => exact toProg_openText crypto _ _ _ password (pure ()) _
        case isFalse =>
          cases V2.readFieldsV1 envelope with
          | none => rfl
          | some fields =>
              dsimp only
              rw [toProg_openText, toProg_emitV1WarningOnce]

theorem toProg_smartDecrypt (blob password : JsString) :
    (smartDecrypt crypto blob password).toProg = V2.smartDecrypt crypto blob password := by
  unfold smartDecrypt V2.smartDecrypt
  split
  case isTrue => exact toProg_decryptStringV2 crypto blob password
  case isFalse =>
    rw [Task.toProg_bind, toProg_emitV1WarningOnce]
    congr 1
    funext _
    exact toProg_decryptString crypto blob password

theorem toProg_withDetails (blob : JsString) (decrypt : CryptoTask JsString) :
    (withDetails blob decrypt).toProg = Crypto.withDetails blob decrypt.toProg := by
  unfold withDetails Crypto.withDetails
  rw [Task.toProg_bind]
  rfl

theorem toProg_decryptStringV2WithDetails (blob password : JsString) :
    (decryptStringV2WithDetails crypto blob password).toProg =
      V2.decryptStringV2WithDetails crypto blob password := by
  unfold decryptStringV2WithDetails
  rw [toProg_withDetails, toProg_decryptStringV2]
  rfl

theorem toProg_smartDecryptWithDetails (blob password : JsString) :
    (smartDecryptWithDetails crypto blob password).toProg =
      V2.smartDecryptWithDetails crypto blob password := by
  unfold smartDecryptWithDetails
  rw [toProg_withDetails, toProg_smartDecrypt]
  rfl

end Subtle

end Interleaved
end Crypto
end StoaCore
