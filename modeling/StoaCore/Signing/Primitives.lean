import StoaCore.Cryptography.KeyPairs
import StoaCore.Signing.UniversalSign

/-!
# Primitives — the public key of a private key

`publicKeyFromPrivateKey` takes a seed of 64 digits, `publicKeyFromExtendedKey` the first half of an
extended key.  `tryDerivePublicKey` checks a key that was entered by hand and takes both formats.
-/

namespace StoaCore
namespace Signing

open Library.Js
open Cryptography

/-! ## hexToBytes -/

/-- `parseInt(text, 16)`, `none` for `NaN`. -/
def parseIntHex (text : JsString) : Option Int :=
  let trimmed := text.dropWhile isStrWhiteSpace
  let sign : Int := if trimmed.head? = some (unit '-') then -1 else 1
  let unsigned :=
    if trimmed.head? = some (unit '-') || trimmed.head? = some (unit '+') then trimmed.tail
    else trimmed
  let stripped :=
    if unsigned.take 2 = js "0x" || unsigned.take 2 = js "0X" then unsigned.drop 2 else unsigned
  let digits := stripped.takeWhile isHexUnit
  if digits = [] then none
  else some (sign * (digits.foldl (fun n c => 16 * n + (hexVal c).getD 0) 0 : Nat))

/-- What an element of a `Uint8Array` keeps of a number. -/
def toUint8 : Option Int → UInt8
  | none => 0
  | some n => UInt8.ofNat (n % 256).toNat

/-- An odd character at the end has no element to go to. -/
def hexToBytes : JsString → Bytes
  | high :: low :: hex => toUint8 (parseIntHex [high, low]) :: hexToBytes hex
  | _ => []

def bytesToNumberLE (bytes : Bytes) : Nat :=
  bytes.foldr (fun b r => r * 256 + b.toNat) 0

/-- `ed25519.CURVE.n` -/
def curveOrder : Nat :=
  2 ^ 252 + 27742317777372353535851937790883648493

/-! ## Public keys -/

section Derive

variable (E : Ed25519)

def publicKeyFromPrivateKey (privateKeyHex : JsString) : Except JsString JsString :=
  (restoreKeyPairFromSecretKey E privateKeyHex).map IKeyPair.publicKey

def publicKeyFromExtendedKey (kLHex : JsString) : Except JsString JsString := do
  let kL := hexToBytes (kLHex.take 64)
  let point ← E.multiplyBase (bytesToNumberLE kL % curveOrder)
  pure (binToHex point)

/-- `tryDerivePublicKey(priv)`; every throw is `null`. -/
def tryDerivePublicKey (priv : JsString) : Option JsString :=
  if priv.length = 128 then (publicKeyFromExtendedKey E (priv.take 64)).toOption
  else if priv.length = 64 then (publicKeyFromPrivateKey E priv).toOption
  else none

/-- The signing functions over the two Ed25519 libraries. -/
def Backend.withEd25519 (B : Backend) : Backend :=
  { B with
    signHash := fun hash pair =>
      (Cryptography.signHash E hash ⟨pair.publicKey, pair.secretKey⟩).mapError .error
    publicKeyFromPrivateKey := fun priv =>
      (Signing.publicKeyFromPrivateKey E priv).mapError .error }

end Derive

theorem mapError_ok {ε ε' α : Type} {f : ε → ε'} {x : Except ε α} {a : α} :
    x.mapError f = .ok a ↔ x = .ok a := by
  cases x with
  | error e =>
      constructor
      · intro h
        cases h
      · intro h
        cases h
  | ok b => exact ⟨fun h => congrArg Except.ok (Except.ok.inj h), fun h => h ▸ rfl⟩

theorem Backend.withEd25519_signHash {B : Backend} {E : Ed25519} {hash sig : JsString}
    {pair : NaclPair} : (B.withEd25519 E).signHash hash pair = .ok sig ↔
      Cryptography.signHash E hash ⟨pair.publicKey, pair.secretKey⟩ = .ok sig :=
  mapError_ok

theorem Backend.withEd25519_publicKeyFromPrivateKey {B : Backend} {E : Ed25519}
    {priv pub : JsString} : (B.withEd25519 E).publicKeyFromPrivateKey priv = .ok pub ↔
      Signing.publicKeyFromPrivateKey E priv = .ok pub :=
  mapError_ok

section Accepted

variable {E : Ed25519} (hE : E.Documented) {priv pub : JsString}

theorem publicKeyFromPrivateKey_ok (h : publicKeyFromPrivateKey E priv = .ok pub) :
    ∃ keyPair, restoreKeyPairFromSecretKey E priv = .ok keyPair ∧ keyPair.publicKey = pub := by
  unfold publicKeyFromPrivateKey at h
  cases hrestore : restoreKeyPairFromSecretKey E priv with
  | error message =>
      rw [hrestore] at h
      cases h
  | ok keyPair =>
      rw [hrestore] at h
      exact ⟨keyPair, rfl, Except.ok.inj h⟩

include hE

/-- A key the check accepts is a seed with its public key, or an extended key with a point. -/
theorem tryDerivePublicKey_cases (h : tryDerivePublicKey E priv = some pub) :
    (priv.length = 64 ∧ publicKeyFromPrivateKey E priv = .ok pub) ∨
      (priv.length = 128 ∧ ∃ point : Bytes, point.length = 32 ∧ pub = binToHex point) := by
  unfold tryDerivePublicKey at h
  split at h
  case isTrue hlength =>
    unfold publicKeyFromExtendedKey at h
    dsimp only at h
    cases hpoint : E.multiplyBase
      (bytesToNumberLE (hexToBytes ((priv.take 64).take 64)) % curveOrder) with
    | error message =>
        rw [hpoint] at h
        cases h
    | ok point =>
        rw [hpoint] at h
        cases h
        exact Or.inr ⟨hlength, point, hE.multiplyBase_length _ _ hpoint, rfl⟩
  case isFalse =>
    split at h
    case isFalse => cases h
    case isTrue hlength =>
      cases hderive : publicKeyFromPrivateKey E priv with
      | error message =>
          rw [hderive] at h
          cases h
      | ok derived =>
          rw [hderive] at h
          exact Or.inl ⟨hlength, congrArg Except.ok (Option.some.inj h)⟩

/-- An accepted key has a public key of 64 digits. -/
theorem length_of_tryDerivePublicKey (h : tryDerivePublicKey E priv = some pub) :
    pub.length = 64 := by
  rcases tryDerivePublicKey_cases hE h with ⟨-, hderive⟩ | ⟨-, point, hpoint, rfl⟩
  · rcases publicKeyFromPrivateKey_ok hderive with ⟨keyPair, hrestore, rfl⟩
    rcases restoreKeyPairFromSecretKey_ok hE hrestore with ⟨-, -, pair, -, hpublic, -, hkey⟩
    rw [hkey, binToHex, length_bufferToHex, hpublic]
  · rw [binToHex, length_bufferToHex, hpoint]

/-- An accepted key signs under its public key exactly if it has 64 digits and the hash can be
decoded. -/
theorem signHash_accepted (B : Backend) (h : tryDerivePublicKey E priv = some pub)
    (hash : JsString) :
    (∃ sig, (B.withEd25519 E).signHash hash ⟨pub, priv⟩ = .ok sig) ↔
      priv.length = 64 ∧ ∃ hashBytes, base64UrlDecodeArr hash = .ok hashBytes := by
  constructor
  · rintro ⟨sig, hsig⟩
    rw [Backend.withEd25519_signHash] at hsig
    rcases signHash_ok hE hsig with ⟨hdecodes, hsecret, -⟩
    refine ⟨?_, hdecodes⟩
    rcases tryDerivePublicKey_cases hE h with ⟨hlength, -⟩ | ⟨hlength, point, hpoint, rfl⟩
    · exact hlength
    · exact absurd hsecret (toTweetNaclSecretKey_extended hlength hpoint)
  · rintro ⟨hlength, hashBytes, hdecode⟩
    rcases tryDerivePublicKey_cases hE h with ⟨-, hderive⟩ | ⟨hlength', -⟩
    · rcases publicKeyFromPrivateKey_ok hderive with ⟨keyPair, hrestore, rfl⟩
      rcases signHash_restored hE hrestore hdecode with ⟨sigBin, hsign, -⟩
      exact ⟨binToHex sigBin, Backend.withEd25519_signHash.2 hsign⟩
    · exact absurd (hlength.symm.trans hlength') (by decide)

end Accepted

end Signing
end StoaCore
