import StoaCore.Crypto.WebCrypto

/-!
# V1 — the legacy envelope format

PBKDF2 with SHA-256 and 10,000 iterations; the envelope is the base64 of the JSON of ciphertext,
IV and salt, without a version.
-/

namespace StoaCore
namespace Crypto
namespace V1

open Library
open Library.Js

def pbkdf2Params (salt : Bytes) : Pbkdf2Params where
  hash := .sha256
  iterations := 10000
  salt := salt

def encryptedData (ciphertext iv salt : JsString) : Value :=
  .obj [(js "ciphertext", .str ciphertext), (js "iv", .str iv), (js "salt", .str salt)]

section Subtle

variable (crypto : WebCrypto)

def encryptString (plaintext password : JsString) (draw : Draw) : CryptoM JsString :=
  tryCatch
    (do
      let encrypted ← sealText crypto (pbkdf2Params draw.salt) draw.iv plaintext password
      let ciphertext ← arrayBufferToBase64 encrypted
      let iv ← arrayBufferToBase64 draw.iv
      let salt ← arrayBufferToBase64 draw.salt
      encodeEnvelope (encryptedData ciphertext iv salt))
    fun _ => throw (.error (js "Failed to encrypt data"))

/-- The fields of an envelope, in the order in which they are decoded. -/
def readFields (parsed : Value) : Option EncryptedBytes := do
  let saltBuf ← base64ToArrayBuffer (parsed.optionalGet (js "salt"))
  let ivBuf ← base64ToArrayBuffer (parsed.optionalGet (js "iv"))
  let ctBuf ← base64ToArrayBuffer (parsed.optionalGet (js "ciphertext"))
  pure { ciphertext := ctBuf, iv := ivBuf, salt := saltBuf }

def decryptString (encryptedBase64String password : JsString) : CryptoM JsString :=
  match parseEnvelope encryptedBase64String with
  -- Not base64, or not JSON.
  | none => throw (.corruptEnvelope (js "Failed to parse V1 envelope"))
  | some parsed =>
      if isObject parsed then
        match readFields parsed with
        | none => throw (.corruptEnvelope (js "V1 envelope field shape mismatch"))
        | some fields =>
            openText crypto (pbkdf2Params (truncate 16 fields.salt)) (truncate 12 fields.iv)
              fields.ciphertext password (pure ()) (js "Unexpected V1 decrypt failure")
      else throw (.corruptEnvelope (js "V1 envelope must be an object"))

end Subtle

end V1
end Crypto
end StoaCore
