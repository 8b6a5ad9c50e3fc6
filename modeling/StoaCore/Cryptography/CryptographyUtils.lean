import StoaCore.Cryptography.Base64Url
import StoaCore.Library.Js.Hex

/-!
# CryptographyUtils — the hash of a command

The legacy library hashes the UTF-8 bytes of a text with blake2b and writes the digest as base64url.
The digest function itself is third-party code and a parameter.
-/

namespace StoaCore
namespace Cryptography

open Library.Js

/-- `hashBin(str)`: blake2b with 32 bytes of output encodes a string with `TextEncoder`. -/
def hashBin (blake2b : Bytes → Bytes) (str : JsString) : Bytes :=
  blake2b (textEncode str)

def hash (blake2b : Bytes → Bytes) (str : JsString) : Except JsString JsString :=
  base64UrlEncodeArr (hashBin blake2b str)

/-- `hexToBin(hexString)`; `hexToBytes` of the signing package does the same. -/
def hexToBin (hexString : JsString) : Bytes :=
  bufferFromHex hexString

def binToHex (array : Bytes) : JsString :=
  bufferToHex array

/-- Hashing never throws, and the digest can be read back from the text. -/
theorem hash_spec (blake2b : Bytes → Bytes) (str : JsString) :
    ∃ text, hash blake2b str = .ok text ∧ base64UrlDecodeArr text = .ok (hashBin blake2b str) := by
  have hok := base64UrlEncodeArr_eq (hashBin blake2b str)
  exact ⟨_, hok, base64UrlDecodeArr_encodeArr hok⟩

end Cryptography
end StoaCore
