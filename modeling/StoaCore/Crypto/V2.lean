import StoaCore.Crypto.V1

/-!
# V2 — the current envelope format, and the functions that tell the formats apart

PBKDF2 with SHA-512 and 600,000 iterations; the envelope has `v: 2` before the fields of the legacy
format.  `decryptStringV2` has a legacy decoder of its own, `smartDecrypt` calls the one of `V1`.
The import of `V1`, at the first use, is taken to resolve.
-/

namespace StoaCore
namespace Crypto
namespace V2

open Library
open Library.Js

def pbkdf2Params (salt : Bytes) : Pbkdf2Params where
  hash := .sha512
  iterations := 600000
  salt := salt

def versionMarker : NumberLiteral := ⟨js "2", by decide⟩

def encryptedData (ciphertext iv salt : JsString) : Value :=
  .obj [(js "v", .num versionMarker), (js "ciphertext", .str ciphertext), (js "iv", .str iv),
    (js "salt", .str salt)]

/-- `envelope.v === 2` -/
def hasMarker (envelope : Value) : Bool :=
  (envelope.optionalGet (js "v")).strictEq (.num versionMarker)

/-! ## The warning -/

def v1Warning : JsString :=
  js ("[ouronet-core/crypto] V1-format encrypted blob decoded successfully. " ++
    "V1 uses PBKDF2-SHA256 at 10,000 iterations, well below OWASP's current " ++
    "600,000 minimum (cracked meaningfully faster on commodity GPU hardware). " ++
    "Re-encrypt affected codex entries to V2 (PBKDF2-SHA512 / 600,000) at the " ++
    "earliest opportunity. Use `decryptStringV2WithDetails` or `smartDecryptWithDetails` " ++
    "for the per-call `wasLegacyV1` flag. This warning fires once per process lifetime.")

def emitV1WarningOnce : CryptoM Unit := do
  let emitted ← Traced.call fun m => (.ok m.v1WarningEmitted, { m with v1WarningEmitted := true })
  if emitted then pure () else Traced.emit (.warned v1Warning)

/-! ## Encryption and decryption -/

section Subtle

variable (crypto : WebCrypto)

def encryptStringV2 (plaintext password : JsString) (draw : Draw) : CryptoM JsString := do
  let encrypted ← sealText crypto (pbkdf2Params draw.salt) draw.iv plaintext password
  let ciphertext ← arrayBufferToBase64 encrypted
  let iv ← arrayBufferToBase64 draw.iv
  let salt ← arrayBufferToBase64 draw.salt
  encodeEnvelope (encryptedData ciphertext iv salt)

/-- The fields of an envelope in the V1 fallback, in the order in which they are decoded. -/
def readFieldsV1 (envelope : Value) : Option EncryptedBytes := do
  let ivRaw ← base64ToArrayBuffer (envelope.optionalGet (js "iv"))
  let saltRaw ← base64ToArrayBuffer (envelope.optionalGet (js "salt"))
  let ctBuf1 ← base64ToArrayBuffer (envelope.optionalGet (js "ciphertext"))
  pure { ciphertext := ctBuf1, iv := ivRaw, salt := saltRaw }

def decryptStringV2 (encryptedBase64 password : JsString) : CryptoM JsString :=
  match parseEnvelope encryptedBase64 with
  | none => throw (.corruptEnvelope (js "Failed to parse encrypted envelope"))
  | some envelope =>
      if isObject envelope then
        if hasMarker envelope then
          -- The fields are decoded in the order in which the V1 decoder decodes them.
          match V1.readFields envelope with
          | none =>
              throw (.corruptEnvelope (js ("V2 envelope field shape mismatch " ++
                "(missing or non-string ciphertext/iv/salt)")))
          | some fields =>
              openText crypto (pbkdf2Params fields.salt) fields.iv fields.ciphertext password
                (pure ()) (js "Unexpected V2 decrypt failure")
        else
          match readFieldsV1 envelope with
          | none =>
              throw (.corruptEnvelope (js ("V1-fallback envelope field shape mismatch " ++
                "(missing or non-string ciphertext/iv/salt)")))
          | some fields =>
              openText crypto (V1.pbkdf2Params (truncate 16 fields.salt)) (truncate 12 fields.iv)
                fields.ciphertext password emitV1WarningOnce
                (js "Unexpected V1-fallback decrypt failure")
      else throw (.corruptEnvelope (js "Envelope must be an object"))

/-! ## Telling the formats apart -/

/-- `JSON.parse(atob(text))?.v === 2`, and `false` where that throws. -/
def isEncryptedV2 (encryptedBase64 : JsString) : Bool :=
  match parseEnvelope encryptedBase64 with
  | none => false
  | some parsed => hasMarker parsed

/-- `schemaVersion` is `none` where it is `null`. -/
def isCodexUpgraded (schemaVersion : Option JsString) : Bool :=
  let text := schemaVersion.getD []
  -- `||` replaces the empty string too.
  let text := if text = [] then js "0" else text
  match parseInt10 text with
  | none => false
  | some n => decide (1 ≤ n)

def smartEncrypt (plaintext password : JsString) (schemaVersion : Option JsString)
    (draw : Draw) : CryptoM JsString :=
  if isCodexUpgraded schemaVersion then encryptStringV2 crypto plaintext password draw
  else V1.encryptString crypto plaintext password draw

def smartDecrypt (encrypted password : JsString) : CryptoM JsString :=
  -- A blob that cannot be parsed counts as legacy, and the legacy decoder rejects it.
  if isEncryptedV2 encrypted then decryptStringV2 crypto encrypted password
  else do
    emitV1WarningOnce
    V1.decryptString crypto encrypted password

/-! ## With details -/

structure DecryptResultWithDetails where
  plaintext : JsString
  wasLegacyV1 : Bool
  deriving DecidableEq

def decryptStringV2WithDetails (encryptedBase64 password : JsString) :
    CryptoM DecryptResultWithDetails := do
  let wasLegacyV1 := !isEncryptedV2 encryptedBase64
  let plaintext ← decryptStringV2 crypto encryptedBase64 password
  pure { plaintext := plaintext, wasLegacyV1 := wasLegacyV1 }

def smartDecryptWithDetails (encrypted password : JsString) :
    CryptoM DecryptResultWithDetails := do
  let wasLegacyV1 := !isEncryptedV2 encrypted
  let plaintext ← smartDecrypt crypto encrypted password
  pure { plaintext := plaintext, wasLegacyV1 := wasLegacyV1 }

end Subtle

end V2
end Crypto
end StoaCore
