import StoaCore.Cryptography.CryptographyUtils

/-!
# KeyPairs — Ed25519 keypairs and signatures as hexadecimal text

The legacy library hands texts to tweetnacl as bytes.  A private key is a text of 64 digits; the
secret key of tweetnacl is its bytes with those of the public key behind them.
-/

namespace StoaCore
namespace Cryptography

open Library.Js

/-! ## The libraries -/

/-- `SignKeyPair` -/
structure SignKeyPair where
  publicKey : Bytes
  secretKey : Bytes

/-- The two Ed25519 libraries: `sign.keyPair.fromSeed`, `sign.detached` and `sign.detached.verify`
of tweetnacl, and `ExtendedPoint.BASE.multiply(scalar).toRawBytes()` of noble. -/
structure Ed25519 where
  fromSeed : Bytes → Except JsString SignKeyPair
  detached : Bytes → Bytes → Except JsString Bytes
  verify : Bytes → Bytes → Bytes → Except JsString Bool
  multiplyBase : Nat → Except JsString Bytes

/-- What the documentation of both libraries says about lengths, and that a signature verifies under
the public key of its seed. -/
structure Ed25519.Documented (E : Ed25519) : Prop where
  fromSeed_ok : ∀ seed, seed.length = 32 → ∃ pair, E.fromSeed seed = .ok pair ∧
    pair.publicKey.length = 32 ∧ pair.secretKey = seed ++ pair.publicKey
  fromSeed_error : ∀ seed, seed.length ≠ 32 → E.fromSeed seed = .error (js "bad seed size")
  detached_ok : ∀ msg key, key.length = 64 → ∃ sig, E.detached msg key = .ok sig ∧ sig.length = 64
  detached_error : ∀ msg key, key.length ≠ 64 →
    E.detached msg key = .error (js "bad secret key size")
  verify_detached : ∀ seed pair msg sig, E.fromSeed seed = .ok pair →
    E.detached msg pair.secretKey = .ok sig → E.verify msg sig pair.publicKey = .ok true
  multiplyBase_length : ∀ scalar point, E.multiplyBase scalar = .ok point → point.length = 32

/-! ## The functions of the legacy library -/

/-- `IKeyPair` -/
structure IKeyPair where
  publicKey : JsString
  secretKey : JsString

section Functions

variable (E : Ed25519)

def restoreKeyPairFromSecretKey (seed : JsString) : Except JsString IKeyPair :=
  if seed.length ≠ 64 then .error (js "Seed for IKeyPairgeneration has bad size")
  else do
    let keyPair ← E.fromSeed (hexToBin seed)
    pure
      { publicKey := binToHex keyPair.publicKey
        secretKey := (binToHex keyPair.secretKey).take 64 }

def toTweetNaclSecretKey (keyPair : IKeyPair) : Bytes :=
  hexToBin (keyPair.secretKey ++ keyPair.publicKey)

/-- `signHash(hash, keyPair).sig`; the other two fields are the arguments. -/
def signHash (hash : JsString) (keyPair : IKeyPair) : Except JsString JsString := do
  let hshBin ← base64UrlDecodeArr hash
  let sigBin ← E.detached hshBin (toTweetNaclSecretKey keyPair)
  pure (binToHex sigBin)

end Functions

/-! ## Which keypairs sign -/

section Signs

variable {E : Ed25519} (hE : E.Documented) {priv pub hash : JsString}

include hE

/-- A private key with a public key is a seed of 32 bytes, written with 64 digits. -/
theorem restoreKeyPairFromSecretKey_ok
    {keyPair : IKeyPair} (h : restoreKeyPairFromSecretKey E priv = .ok keyPair) :
    priv.length = 64 ∧ (hexToBin priv).length = 32 ∧ ∃ pair, E.fromSeed (hexToBin priv) = .ok pair ∧
      pair.publicKey.length = 32 ∧ pair.secretKey = hexToBin priv ++ pair.publicKey ∧
      keyPair.publicKey = binToHex pair.publicKey := by
  unfold restoreKeyPairFromSecretKey at h
  split at h
  case isTrue => cases h
  case isFalse hlength =>
    have hseed : (hexToBin priv).length = 32 := by
      by_contra hne
      rw [hE.fromSeed_error _ hne] at h
      cases h
    rcases hE.fromSeed_ok _ hseed with ⟨pair, hpair, hpublic, hsecret⟩
    rw [hpair] at h
    cases h
    exact ⟨not_not.1 hlength, hseed, pair, hpair, hpublic, hsecret, rfl⟩

/-- The secret key tweetnacl made for the seed, if the public key is that of the seed. -/
theorem toTweetNaclSecretKey_seed {pair : SignKeyPair} (hlength : priv.length = 64)
    (hpair : E.fromSeed (hexToBin priv) = .ok pair) (hpub : hexToBin pub = pair.publicKey) :
    toTweetNaclSecretKey ⟨pub, priv⟩ = pair.secretKey ∧ pair.secretKey.length = 64 := by
  have hseed : (hexToBin priv).length = 32 := by
    by_contra hne
    cases hpair.symm.trans (hE.fromSeed_error _ hne)
  rcases hE.fromSeed_ok _ hseed with ⟨made, hmade, hpublic, hsecret⟩
  obtain rfl : pair = made := Except.ok.inj (hpair.symm.trans hmade)
  constructor
  · rcases bufferFromHex_append (n := 32) hlength pub with ⟨-, happend⟩ | ⟨hstops, -⟩
    · calc toTweetNaclSecretKey ⟨pub, priv⟩
          = hexToBin priv ++ hexToBin pub := happend
        _ = hexToBin priv ++ pair.publicKey := by rw [hpub]
        _ = pair.secretKey := hsecret.symm
    · exact absurd hseed (Nat.ne_of_lt hstops)
  · rw [hsecret, List.length_append, hseed, hpublic]

/-- A keypair whose private key is the seed of its public key signs every hash that can be decoded,
and the signature verifies. -/
theorem signHash_seed {pair : SignKeyPair} (hlength : priv.length = 64)
    (hpair : E.fromSeed (hexToBin priv) = .ok pair) (hpub : hexToBin pub = pair.publicKey)
    {hashBytes : Bytes} (hdecode : base64UrlDecodeArr hash = .ok hashBytes) :
    ∃ sigBin, signHash E hash ⟨pub, priv⟩ = .ok (binToHex sigBin) ∧ sigBin.length = 64 ∧
      E.verify hashBytes sigBin (hexToBin pub) = .ok true := by
  rcases toTweetNaclSecretKey_seed hE hlength hpair hpub with ⟨htext, hkey⟩
  rcases hE.detached_ok hashBytes pair.secretKey hkey with ⟨sigBin, hsig, hsize⟩
  refine ⟨sigBin, ?_, hsize, ?_⟩
  · unfold signHash
    rw [hdecode]
    show (E.detached hashBytes (toTweetNaclSecretKey ⟨pub, priv⟩) >>= _) = _
    rw [htext, hsig]
    rfl
  · rw [hpub]
    exact hE.verify_detached _ _ _ _ hpair hsig

/-- So does a keypair whose public key has been restored from its private key. -/
theorem signHash_restored {keyPair : IKeyPair}
    (h : restoreKeyPairFromSecretKey E priv = .ok keyPair) {hashBytes : Bytes}
    (hdecode : base64UrlDecodeArr hash = .ok hashBytes) :
    ∃ sigBin, signHash E hash ⟨keyPair.publicKey, priv⟩ = .ok (binToHex sigBin) ∧
      sigBin.length = 64 ∧ E.verify hashBytes sigBin (hexToBin keyPair.publicKey) = .ok true := by
  rcases restoreKeyPairFromSecretKey_ok hE h with ⟨hlength, -, pair, hpair, -, -, hkey⟩
  have hback : hexToBin keyPair.publicKey = pair.publicKey := by
    rw [hkey]
    exact bufferFromHex_bufferToHex pair.publicKey
  exact signHash_seed hE hlength hpair hback hdecode

/-- What `signHash` needs: a hash that can be decoded and a secret key of 64 bytes. -/
theorem signHash_ok {keyPair : IKeyPair} {sig : JsString}
    (h : signHash E hash keyPair = .ok sig) :
    (∃ hashBytes, base64UrlDecodeArr hash = .ok hashBytes) ∧
      (toTweetNaclSecretKey keyPair).length = 64 ∧ sig.length = 128 := by
  unfold signHash at h
  cases hdecode : base64UrlDecodeArr hash with
  | error message =>
      rw [hdecode] at h
      cases h
  | ok hashBytes =>
      rw [hdecode] at h
      have hdetached : (E.detached hashBytes (toTweetNaclSecretKey keyPair) >>= fun sigBin =>
          pure (binToHex sigBin)) = Except.ok sig := h
      have hlength : (toTweetNaclSecretKey keyPair).length = 64 := by
        by_contra hne
        rw [hE.detached_error _ _ hne] at hdetached
        cases hdetached
      rcases hE.detached_ok hashBytes _ hlength with ⟨sigBin, hsig, hsize⟩
      rw [hsig] at hdetached
      cases hdetached
      refine ⟨⟨hashBytes, rfl⟩, hlength, ?_⟩
      rw [binToHex, length_bufferToHex, hsize]

end Signs

/-- A private key of 128 digits never makes a secret key of 64 bytes: it fills them alone, and the
public key still follows. -/
theorem toTweetNaclSecretKey_extended {priv : JsString} (hlength : priv.length = 128)
    {point : Bytes} (hpoint : point.length = 32) :
    (toTweetNaclSecretKey ⟨binToHex point, priv⟩).length ≠ 64 := by
  unfold toTweetNaclSecretKey hexToBin binToHex
  rcases bufferFromHex_append (n := 64) hlength (bufferToHex point) with
    ⟨hread, happend⟩ | ⟨hstops, happend⟩
  · rw [happend, List.length_append, hread, bufferFromHex_bufferToHex, hpoint]
    decide
  · rw [happend]
    exact Nat.ne_of_lt hstops

end Cryptography
end StoaCore
