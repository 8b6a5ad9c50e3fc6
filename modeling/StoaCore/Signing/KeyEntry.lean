import StoaCore.Signing.ManualKeys

/-!
# KeyEntry — which texts are taken for a private key

A seed is decoded strictly: a character that is no digit leaves too few bytes.  The digits of an
extended key are read pair by pair with `parseInt`, which makes a number of every pair.
-/

namespace StoaCore
namespace Signing

open Library.Js
open Cryptography

/-! ## Two decoders -/

/-- Every character is a hexadecimal digit. -/
def IsHexText (text : JsString) : Prop :=
  ∀ c ∈ text, isHexUnit c = true

instance (text : JsString) : Decidable (IsHexText text) :=
  decidable_of_iff (text.all isHexUnit = true) List.all_eq_true

def hexUnits : JsString :=
  js "0123456789abcdefABCDEF"

theorem mem_hexUnits {c : CodeUnit} (h : isHexUnit c = true) : c ∈ hexUnits := by
  have hmem : ∀ n ∈ List.range' 48 10 ++ List.range' 97 6 ++ List.range' 65 6,
      UInt16.ofNat n ∈ hexUnits := by decide
  have hrange : c.toNat ∈ List.range' 48 10 ++ List.range' 97 6 ++ List.range' 65 6 := by
    unfold isHexUnit hexVal isDigit at h
    simp only [Bool.and_eq_true, decide_eq_true_eq, UInt16.le_iff_toNat_le] at h
    have h0 : (unit '0').toNat = 48 ∧ (unit '9').toNat = 57 := by decide
    have ha : (unit 'a').toNat = 97 ∧ (unit 'f').toNat = 102 := by decide
    have hA : (unit 'A').toNat = 65 ∧ (unit 'F').toNat = 70 := by decide
    simp only [h0, ha, hA] at h
    simp only [List.mem_append, List.mem_range'_1]
    split at h
    · omega
    · split at h
      · omega
      · split at h
        · omega
        · cases h
  have hback := hmem _ hrange
  rwa [UInt16.ofNat_toNat] at hback

/-- Two digits have the same value for both decoders. -/
theorem parseIntHex_pair {high low : CodeUnit} (hhigh : high ∈ hexUnits) (hlow : low ∈ hexUnits) :
    ∃ h ∈ hexVal high, ∃ l ∈ hexVal low,
      toUint8 (parseIntHex [high, low]) = UInt8.ofNat (16 * h + l) := by
  have hall : (hexUnits.all fun high => hexUnits.all fun low =>
      ((hexVal high).bind fun h => (hexVal low).map fun l =>
        decide (toUint8 (parseIntHex [high, low]) = UInt8.ofNat (16 * h + l))) == some true) =
          true := by
    decide +kernel
  have hpair := List.all_eq_true.1 (List.all_eq_true.1 hall high hhigh) low hlow
  rw [beq_iff_eq, Option.bind_eq_some_iff] at hpair
  rcases hpair with ⟨h, hh, hmap⟩
  rcases Option.map_eq_some_iff.1 hmap with ⟨l, hl, heq⟩
  exact ⟨h, hh, l, hl, of_decide_eq_true heq⟩

/-- On digits the decoders agree. -/
theorem hexToBytes_of_isHexText {text : JsString} (h : IsHexText text) :
    hexToBytes text = bufferFromHex text := by
  match text with
  | [] => rfl
  | [_] => rfl
  | high :: low :: rest =>
      have hrest : IsHexText rest := fun c hc => h c (by simp [hc])
      have hhigh := mem_hexUnits (h high (by simp))
      have hlow := mem_hexUnits (h low (by simp))
      rcases parseIntHex_pair hhigh hlow with ⟨hi, hhi, lo, hlo, hpair⟩
      rw [hexToBytes, bufferFromHex, hhi, hlo, hpair, hexToBytes_of_isHexText hrest]

/-- The strict decoder reads to the end only if there are digits all the way. -/
theorem isHexText_of_length {text : JsString} {n : Nat} (hlength : text.length = 2 * n)
    (h : (bufferFromHex text).length = n) : IsHexText text := by
  induction n generalizing text with
  | zero =>
      rw [List.length_eq_zero_iff.1 hlength]
      intro c hc
      cases hc
  | succ n ih =>
      match text, hlength with
      | high :: low :: rest, hlength =>
          have hlength' : rest.length = 2 * n := by
            rw [List.length_cons, List.length_cons] at hlength
            omega
          rw [bufferFromHex] at h
          cases hhigh : hexVal high with
          | none => simp [hhigh] at h
          | some hi =>
              cases hlow : hexVal low with
              | none => simp [hhigh, hlow] at h
              | some lo =>
                  simp only [hhigh, hlow, List.length_cons, Nat.add_right_cancel_iff] at h
                  have hrest := ih hlength' h
                  intro c hc
                  rcases List.mem_cons.1 hc with rfl | hc
                  · simp [isHexUnit, hhigh]
                  · rcases List.mem_cons.1 hc with rfl | hc
                    · simp [isHexUnit, hlow]
                    · exact hrest c hc

theorem length_of_isHexText {text : JsString} {n : Nat} (hlength : text.length = 2 * n)
    (h : IsHexText text) : (bufferFromHex text).length = n := by
  induction n generalizing text with
  | zero =>
      rw [List.length_eq_zero_iff.1 hlength]
      rfl
  | succ n ih =>
      match text, hlength with
      | high :: low :: rest, hlength =>
          have hlength' : rest.length = 2 * n := by
            rw [List.length_cons, List.length_cons] at hlength
            omega
          rcases Option.isSome_iff_exists.1 (h high (by simp)) with ⟨hi, hhigh⟩
          rcases Option.isSome_iff_exists.1 (h low (by simp)) with ⟨lo, hlow⟩
          have hrest := ih hlength' fun c hc => h c (by simp [hc])
          simp [bufferFromHex, hhigh, hlow, hrest]

/-! ## Private keys -/

/-- The little-endian number of a half of an extended key. -/
def kLScalar (priv : JsString) : Nat :=
  bytesToNumberLE (bufferFromHex (priv.take 64)) % curveOrder

/-- What the derivation makes of the first 64 characters, digits or not. -/
def readScalar (priv : JsString) : Nat :=
  bytesToNumberLE (hexToBytes (priv.take 64)) % curveOrder

/-- A seed of 64 digits, or an extended key of 128 digits that is not zero. -/
def IsPrivateKey (priv : JsString) : Prop :=
  IsHexText priv ∧ (priv.length = 64 ∨ (priv.length = 128 ∧ kLScalar priv ≠ 0))

theorem readScalar_of_isHexText {priv : JsString} (h : IsHexText priv) :
    readScalar priv = kLScalar priv := by
  unfold readScalar kLScalar
  rw [hexToBytes_of_isHexText fun c hc => h c (List.mem_of_mem_take hc)]

/-- What the documentation of the curve says about multiples of its base point: they exist for the
scalars from one to the order, and are all different. -/
structure MultipliesBase (E : Ed25519) : Prop where
  ok : ∀ scalar, 0 < scalar → scalar < curveOrder → ∃ point, E.multiplyBase scalar = .ok point
  range : ∀ scalar point, E.multiplyBase scalar = .ok point → 0 < scalar
  injective : ∀ scalar scalar' point, E.multiplyBase scalar = .ok point →
    E.multiplyBase scalar' = .ok point → scalar = scalar'

section Entry

variable {E : Ed25519} {priv : JsString}

theorem tryDerivePublicKey_extended (h : priv.length = 128) :
    tryDerivePublicKey E priv = (E.multiplyBase (readScalar priv)).toOption.map binToHex := by
  unfold tryDerivePublicKey publicKeyFromExtendedKey readScalar
  rw [if_pos h, List.take_take, Nat.min_self]
  dsimp only
  cases E.multiplyBase (bytesToNumberLE (hexToBytes (priv.take 64)) % curveOrder) with
  | error message => rfl
  | ok point => rfl

theorem isHexText_of_seed (hE : E.Documented) (hlength : priv.length = 64) {pub : JsString}
    (h : tryDerivePublicKey E priv = some pub) : IsHexText priv := by
  rcases tryDerivePublicKey_cases hE h with ⟨-, hderive⟩ | ⟨hlength', -⟩
  · rcases publicKeyFromPrivateKey_ok hderive with ⟨keyPair, hrestore, -⟩
    rcases restoreKeyPairFromSecretKey_ok hE hrestore with ⟨-, hread, -⟩
    exact isHexText_of_length hlength hread
  · exact absurd (hlength.symm.trans hlength') (by decide)

/-- A text of 128 characters is accepted when the number read from it is not zero. -/
theorem tryDerivePublicKey_extended_iff (hM : MultipliesBase E) (h : priv.length = 128) :
    (∃ pub, tryDerivePublicKey E priv = some pub) ↔ readScalar priv ≠ 0 := by
  rw [tryDerivePublicKey_extended h]
  constructor
  · rintro ⟨pub, hpub⟩
    cases hpoint : E.multiplyBase (readScalar priv) with
    | error message => simp [hpoint, Except.toOption] at hpub
    | ok point => exact (hM.range _ _ hpoint).ne'
  · intro hne
    have hlt : readScalar priv < curveOrder := Nat.mod_lt _ (by decide)
    rcases hM.ok _ (Nat.pos_of_ne_zero hne) hlt with ⟨point, hpoint⟩
    exact ⟨binToHex point, by rw [hpoint]; rfl⟩

/-- A private key is accepted. -/
theorem tryDerivePublicKey_of_isPrivateKey (hE : E.Documented) (hM : MultipliesBase E)
    (h : IsPrivateKey priv) : ∃ pub, tryDerivePublicKey E priv = some pub := by
  rcases h with ⟨hhex, hlength | ⟨hlength, hscalar⟩⟩
  · rcases hE.fromSeed_ok _ (length_of_isHexText hlength hhex) with ⟨pair, hpair, -⟩
    have hrestore : publicKeyFromPrivateKey E priv = .ok (binToHex pair.publicKey) := by
      unfold publicKeyFromPrivateKey restoreKeyPairFromSecretKey hexToBin
      rw [if_neg (not_not.2 hlength), hpair]
      rfl
    refine ⟨binToHex pair.publicKey, ?_⟩
    unfold tryDerivePublicKey
    rw [if_neg (by rw [hlength]; decide), if_pos hlength, hrestore]
    rfl
  · rw [tryDerivePublicKey_extended_iff hM hlength, readScalar_of_isHexText hhex]
    exact hscalar

theorem binToHex_injective {bytes bytes' : Bytes} (h : binToHex bytes = binToHex bytes') :
    bytes = bytes' := by
  rw [← bufferFromHex_bufferToHex bytes, ← bufferFromHex_bufferToHex bytes']
  exact congrArg bufferFromHex h

/-- Extended keys with different scalars are told apart. -/
theorem tryDerivePublicKey_ne (hM : MultipliesBase E) {other : JsString} (h : priv.length = 128)
    (hother : other.length = 128) (hne : readScalar priv ≠ readScalar other) :
    tryDerivePublicKey E priv ≠ tryDerivePublicKey E other := by
  intro heq
  rw [tryDerivePublicKey_extended h, tryDerivePublicKey_extended hother] at heq
  cases hpoint : E.multiplyBase (readScalar priv) with
  | error message =>
      cases hpoint' : E.multiplyBase (readScalar other) with
      | error message' =>
          -- Only zero has no point, and the scalars are not both zero.
          have hzero : ∀ text, (∀ point, E.multiplyBase (readScalar text) ≠ .ok point) →
              readScalar text = 0 := by
            intro text hnone
            by_contra hpos
            have hlt : readScalar text < curveOrder := Nat.mod_lt _ (by decide)
            rcases hM.ok _ (Nat.pos_of_ne_zero hpos) hlt with ⟨point, hok⟩
            exact hnone point hok
          refine hne ((hzero priv fun point => ?_).trans (hzero other fun point => ?_).symm)
          · simp [hpoint]
          · simp [hpoint']
      | ok point' => simp [hpoint, hpoint', Except.toOption] at heq
  | ok point =>
      cases hpoint' : E.multiplyBase (readScalar other) with
      | error message' => simp [hpoint, hpoint', Except.toOption] at heq
      | ok point' =>
          simp only [hpoint, hpoint', Except.toOption, Option.map_some, Option.some.injEq] at heq
          exact hne (hM.injective _ _ _ hpoint (binToHex_injective heq ▸ hpoint'))

end Entry

/-- What is accepted is a private key, except for the texts of 128 characters that are not all
digits and from which a number other than zero is read; keys with different scalars have different
public keys. -/
theorem tryDerivePublicKey_valid_iff {E : Ed25519} (hE : E.Documented) (hM : MultipliesBase E)
    (priv : JsString) :
    ((∀ pub, tryDerivePublicKey E priv = some pub → IsPrivateKey priv) ↔
      (priv.length = 128 → IsHexText priv ∨ readScalar priv = 0)) ∧
    (IsPrivateKey priv → ∃ pub, tryDerivePublicKey E priv = some pub) ∧
    (∀ other : JsString, priv.length = 128 → other.length = 128 → IsHexText priv →
      IsHexText other → kLScalar priv ≠ kLScalar other →
      tryDerivePublicKey E priv ≠ tryDerivePublicKey E other) := by
  refine ⟨?_, tryDerivePublicKey_of_isPrivateKey hE hM, ?_⟩
  · constructor
    · intro hvalid hlength
      by_cases hzero : readScalar priv = 0
      · exact Or.inr hzero
      · rcases (tryDerivePublicKey_extended_iff hM hlength).2 hzero with ⟨pub, hpub⟩
        exact Or.inl (hvalid pub hpub).1
    · intro hcondition pub hpub
      rcases tryDerivePublicKey_cases hE hpub with ⟨hlength, -⟩ | ⟨hlength, -⟩
      · exact ⟨isHexText_of_seed hE hlength hpub, Or.inl hlength⟩
      · have hne := (tryDerivePublicKey_extended_iff hM hlength).1 ⟨pub, hpub⟩
        have hhex := (hcondition hlength).resolve_right hne
        exact ⟨hhex, Or.inr ⟨hlength, readScalar_of_isHexText hhex ▸ hne⟩⟩
  · intro other hlength hlength' hhex hhex' hne
    refine tryDerivePublicKey_ne hM hlength hlength' ?_
    rwa [readScalar_of_isHexText hhex, readScalar_of_isHexText hhex']

/-! ## A text that is no key -/

/-- The little-endian bytes of a number. -/
def numberToBytesLE : Nat → Nat → Bytes
  | 0, _ => []
  | count + 1, n => UInt8.ofNat n :: numberToBytesLE count (n / 256)

theorem length_numberToBytesLE (count n : Nat) : (numberToBytesLE count n).length = count := by
  induction count generalizing n with
  | zero => rfl
  | succ count ih => rw [numberToBytesLE, List.length_cons, ih]

theorem bytesToNumberLE_numberToBytesLE (count n : Nat) :
    bytesToNumberLE (numberToBytesLE count n) = n % 256 ^ count := by
  induction count generalizing n with
  | zero => simp [numberToBytesLE, bytesToNumberLE, Nat.mod_one]
  | succ count ih =>
      have hcons : bytesToNumberLE (numberToBytesLE (count + 1) n) =
          bytesToNumberLE (numberToBytesLE count (n / 256)) * 256 + (UInt8.ofNat n).toNat := rfl
      have hbyte : (UInt8.ofNat n).toNat = n % 256 := UInt8.toNat_ofNat'
      rw [hcons, ih, hbyte, pow_succ', Nat.mod_mul, Nat.mul_comm, Nat.add_comm]

/-- The number behind the text of a multiple of the base point; it is right on the base point. -/
def pointNumber (scalar : Nat) : Nat :=
  if scalar = 1 then 0x6666666666666666666666666666666666666666666666666666666666666658 else scalar

theorem pointNumber_lt {scalar : Nat} (h : scalar < curveOrder) :
    pointNumber scalar < 256 ^ 32 := by
  unfold pointNumber
  split
  · decide
  · exact h.trans (by decide)

theorem pointNumber_injective {scalar scalar' : Nat} (h : scalar < curveOrder)
    (h' : scalar' < curveOrder) (heq : pointNumber scalar = pointNumber scalar') :
    scalar = scalar' := by
  have hlarge :
      curveOrder < 0x6666666666666666666666666666666666666666666666666666666666666658 := by decide
  unfold pointNumber at heq
  split at heq
  · split at heq
    · omega
    · omega
  · split at heq
    · omega
    · exact heq

/-- The libraries on the values of this example. -/
def entryEd25519 : Ed25519 :=
  { transferEd25519 with
    multiplyBase := fun scalar =>
      if 0 < scalar ∧ scalar < curveOrder then .ok (numberToBytesLE 32 (pointNumber scalar))
      else .error (js "expected valid scalar") }

theorem multiplyBase_entryEd25519 {scalar : Nat} {point : Bytes}
    (h : entryEd25519.multiplyBase scalar = .ok point) :
    (0 < scalar ∧ scalar < curveOrder) ∧ point = numberToBytesLE 32 (pointNumber scalar) := by
  have hbody : (if 0 < scalar ∧ scalar < curveOrder then
      Except.ok (numberToBytesLE 32 (pointNumber scalar))
    else .error (js "expected valid scalar")) = Except.ok point := h
  split at hbody
  case isTrue hrange => exact ⟨hrange, (Except.ok.inj hbody).symm⟩
  case isFalse => cases hbody

theorem documented_entryEd25519 : entryEd25519.Documented where
  fromSeed_ok := documented_transferEd25519.fromSeed_ok
  fromSeed_error := documented_transferEd25519.fromSeed_error
  detached_ok := documented_transferEd25519.detached_ok
  detached_error := documented_transferEd25519.detached_error
  verify_detached := documented_transferEd25519.verify_detached
  multiplyBase_length := by
    intro scalar point h
    rw [(multiplyBase_entryEd25519 h).2, length_numberToBytesLE]

theorem multipliesBase_entryEd25519 : MultipliesBase entryEd25519 where
  ok := fun _ hpos hlt => ⟨_, if_pos ⟨hpos, hlt⟩⟩
  range := fun _ _ h => (multiplyBase_entryEd25519 h).1.1
  injective := by
    intro scalar scalar' point h h'
    rcases multiplyBase_entryEd25519 h with ⟨⟨-, hlt⟩, hpoint⟩
    rcases multiplyBase_entryEd25519 h' with ⟨⟨-, hlt'⟩, hpoint'⟩
    have hnumber := congrArg bytesToNumberLE (hpoint.symm.trans hpoint')
    rw [bytesToNumberLE_numberToBytesLE, bytesToNumberLE_numberToBytesLE,
      Nat.mod_eq_of_lt (pointNumber_lt hlt), Nat.mod_eq_of_lt (pointNumber_lt hlt')] at hnumber
    exact pointNumber_injective hlt hlt' hnumber

/-- One digit pair, and no digit behind it. -/
def mistypedKey : JsString :=
  js "01" ++ List.replicate 126 (unit 'z')

/-- It is taken for the scalar one, whose public key is the base point. -/
theorem tryDerivePublicKey_mistypedKey :
    tryDerivePublicKey entryEd25519 mistypedKey =
        some (hexText 64 0x5866666666666666666666666666666666666666666666666666666666666666) ∧
      ¬IsPrivateKey mistypedKey := by
  refine ⟨by decide +kernel, fun h => ?_⟩
  exact absurd h.1 (by decide +kernel)

theorem tryDerivePublicKey_valid_iff_secretKeyA :
    (∀ pub, tryDerivePublicKey entryEd25519 secretKeyA = some pub → IsPrivateKey secretKeyA) ∧
      ∃ pub, tryDerivePublicKey entryEd25519 secretKeyA = some pub :=
  have h := tryDerivePublicKey_valid_iff documented_entryEd25519 multipliesBase_entryEd25519
    secretKeyA
  have hlength : secretKeyA.length = 64 := by decide +kernel
  ⟨h.1.2 fun hlong => absurd (hlength.symm.trans hlong) (by decide),
    h.2.1 ⟨by decide +kernel, Or.inl hlength⟩⟩

end Signing
end StoaCore
