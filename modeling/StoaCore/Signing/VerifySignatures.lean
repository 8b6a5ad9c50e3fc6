import StoaCore.Cryptography.CryptographyUtils
import StoaCore.Signing.MultiParty

/-!
# VerifySignatures — the two checks on an imported transaction

`deserializePartialTransaction` compares the hash with that of the command, and
`verifyExistingSignatures` checks every filled slot against the hash.  Together they tie the
signatures to the bytes of the command.
-/

namespace StoaCore
namespace Signing

open Library.Js
open Cryptography

/-! ## verifyExistingSignatures -/

structure InvalidSignature where
  publicKey : JsString
  reason : JsString

structure VerifyExistingSignaturesResult where
  allValid : Bool
  invalid : List InvalidSignature

/-- `nacl.sign.detached.verify(hash, sig, publicKey)`; an error is the message it throws. -/
abbrev Verify := Bytes → Bytes → Bytes → Except JsString Bool

/-- `/^[0-9a-f]+$/i.test(sigHex)` -/
def isHexText (text : JsString) : Bool :=
  text != [] && text.all isHexUnit

/-- `(slot as { sig: string }).sig` of a filled slot. -/
def sigText (slot : Value) : JsString :=
  match slot.optionalGet (js "sig") with
  | .str sig => sig
  | _ => []

section Verify

variable (verify : Verify)

/-- One turn of the loop: what it pushes, if anything. -/
def verifySlot (hashBytes : Bytes) (pubKeys : List JsString) (i : Nat) (slot : Value) :
    Option InvalidSignature :=
  if !isSlotFilled slot then none
  else
    match pubKeys[i]?.getD [] with
    -- A missing key and an empty one are both falsy.
    | [] =>
        some { publicKey := []
               reason := js ("signer at index " ++ toString i ++ " not declared in cmd.signers") }
    | c :: key =>
        let pubKey := c :: key
        let sigHex := sigText slot
        if !isHexText sigHex || sigHex.length != 128 then
          some { publicKey := pubKey
                 reason := js ("signature is not a 128-char hex string " ++
                   "(Ed25519 = 64 bytes = 128 hex)") }
        else
          match verify hashBytes (hexToBin sigHex) (hexToBin pubKey) with
          | .error message =>
              some { publicKey := pubKey, reason := js "verification threw: " ++ message }
          | .ok false =>
              some { publicKey := pubKey
                     reason := js ("signature failed Ed25519 verification against " ++
                       "transaction.hash") }
          | .ok true => none

/-- The loop over the slots from position `i` on. -/
def verifySlots (hashBytes : Bytes) (pubKeys : List JsString) :
    Nat → List Value → List InvalidSignature
  | _, [] => []
  | i, slot :: slots =>
      (verifySlot verify hashBytes pubKeys i slot).toList ++
        verifySlots hashBytes pubKeys (i + 1) slots

def verifyExistingSignatures (transaction : Command) : VerifyExistingSignaturesResult :=
  let pubKeys := readSignerPubKeys transaction
  match base64UrlDecodeArr transaction.hash with
  | .error message =>
      { allValid := false
        invalid := [{
          publicKey := []
          reason := js "transaction.hash is not valid base64url (" ++ message ++ js ")" }] }
  | .ok hashBytes =>
      let invalid := verifySlots verify hashBytes pubKeys 0 transaction.sigs
      { allValid := invalid.length == 0, invalid := invalid }

end Verify

/-- The repository's hash over a digest function. -/
def Backend.withHash (B : Backend) (blake2b : Bytes → Bytes) : Backend :=
  { B with hash := fun cmd => (Cryptography.hash blake2b cmd).toOption.getD [] }

theorem Backend.withHash_hash (B : Backend) {blake2b : Bytes → Bytes} {cmd text : JsString}
    (h : Cryptography.hash blake2b cmd = .ok text) : (B.withHash blake2b).hash cmd = text := by
  have heq : (B.withHash blake2b).hash cmd =
      (Cryptography.hash blake2b cmd).toOption.getD [] := rfl
  rw [heq, h]
  rfl

/-! ## What a valid transaction shows -/

section Loop

variable {verify : Verify} {hashBytes : Bytes} {pubKeys : List JsString}

/-- A filled slot about which nothing is pushed verifies under the key at its position. -/
theorem verifySlot_none {i : Nat} {slot : Value} (hfilled : isSlotFilled slot = true)
    (h : verifySlot verify hashBytes pubKeys i slot = none) :
    ∃ pubKey, pubKeys[i]? = some pubKey ∧ isHexText (sigText slot) = true ∧
      (sigText slot).length = 128 ∧
      verify hashBytes (hexToBin (sigText slot)) (hexToBin pubKey) = .ok true := by
  unfold verifySlot at h
  rw [if_neg (by simp [hfilled])] at h
  split at h
  case h_1 => cases h
  case h_2 c key hkey =>
    dsimp only at h
    have hpubKey : pubKeys[i]? = some (c :: key) := by
      cases hget : pubKeys[i]? with
      | none =>
          rw [hget] at hkey
          cases hkey
      | some k =>
          rw [hget] at hkey
          exact congrArg some hkey
    split at h
    case isTrue => cases h
    case isFalse hformat =>
      have hboth : isHexText (sigText slot) = true ∧ (sigText slot).length = 128 := by
        simpa using hformat
      split at h
      · cases h
      · cases h
      · exact ⟨c :: key, hpubKey, hboth.1, hboth.2, ‹_›⟩

/-- Nothing is pushed about any slot if the loop ends with an empty list. -/
theorem verifySlots_nil {i : Nat} {slots : List Value}
    (h : verifySlots verify hashBytes pubKeys i slots = []) {n : Nat} {slot : Value}
    (hslot : slots[n]? = some slot) :
    verifySlot verify hashBytes pubKeys (i + n) slot = none := by
  induction slots generalizing i n with
  | nil => cases hslot
  | cons first slots ih =>
      rw [verifySlots, List.append_eq_nil_iff] at h
      rcases h with ⟨hfirst, hrest⟩
      cases n with
      | zero =>
          cases hslot
          exact Option.toList_eq_nil_iff.1 hfirst
      | succ n =>
          have hnext := ih hrest hslot
          rw [Nat.add_assoc, Nat.add_comm 1] at hnext
          exact hnext

end Loop

/-- The signature at position `i` verifies over the digest of the command, under the public key at
position `i` of the signers that are read. -/
def SlotVerifies (blake2b : Bytes → Bytes) (verify : Verify) (tx : Command) (i : Nat) : Prop :=
  ∃ pubKey, (readSignerPubKeys tx)[i]? = some pubKey ∧
    isHexText (sigText (slotAt tx.sigs i)) = true ∧ (sigText (slotAt tx.sigs i)).length = 128 ∧
    verify (hashBin blake2b tx.cmd) (hexToBin (sigText (slotAt tx.sigs i))) (hexToBin pubKey) =
      .ok true

section Import

variable {B : Backend} {blake2b : Bytes → Bytes} {verify : Verify} {json : JsString} {tx : Command}

theorem hash_of_readTransaction {v : Value} (h : readTransaction B v = .ok tx) :
    tx.hash = B.hash tx.cmd := by
  unfold readTransaction at h
  split at h
  · split at h
    · split at h
      case isTrue heq =>
        cases h
        exact heq.symm
      case isFalse => cases h
    · cases h
    · cases h
    · cases h
  · cases h

/-- An envelope is only accepted with the hash of its command. -/
theorem hash_of_deserialize (h : deserializePartialTransaction B json = .ok tx) :
    tx.hash = B.hash tx.cmd := by
  unfold deserializePartialTransaction at h
  split at h
  · cases h
  · unfold readEnvelope at h
    split at h
    · split at h
      · cases h
      · split at h
        · cases h
        · exact hash_of_readTransaction h
    · cases h

/-- The bytes the signatures are checked against are the digest of the command. -/
theorem base64UrlDecodeArr_hash
    (hread : deserializePartialTransaction (B.withHash blake2b) json = .ok tx) :
    base64UrlDecodeArr tx.hash = .ok (hashBin blake2b tx.cmd) := by
  rcases hash_spec blake2b tx.cmd with ⟨text, htext, hdecode⟩
  rw [hash_of_deserialize hread, B.withHash_hash htext, hdecode]

theorem slotVerifies_of_allValid
    (hread : deserializePartialTransaction (B.withHash blake2b) json = .ok tx)
    (hvalid : (verifyExistingSignatures verify tx).allValid = true) {i : Nat}
    (hfilled : isSlotFilled (slotAt tx.sigs i) = true) : SlotVerifies blake2b verify tx i := by
  unfold verifyExistingSignatures at hvalid
  rw [base64UrlDecodeArr_hash hread] at hvalid
  dsimp only at hvalid
  have hnil := List.length_eq_zero_iff.1 (beq_iff_eq.1 hvalid)
  have hslot : tx.sigs[i]? = some (slotAt tx.sigs i) := by
    cases hget : tx.sigs[i]? with
    | none =>
        rw [slotAt, hget] at hfilled
        cases hfilled
    | some slot => rw [slotAt, hget, Option.getD_some]
  have hnone := verifySlots_nil hnil hslot
  rw [Nat.zero_add] at hnone
  exact verifySlot_none hfilled hnone

/-! ## Which commands an envelope can carry -/

/-- A signature valid under `k` exists only over the digest of a command the holder of `k` signs. -/
def Unforgeable (blake2b : Bytes → Bytes) (verify : Verify) (k : Bytes)
    (signs : JsString → Prop) : Prop :=
  ∀ digest sig, verify digest sig k = .ok true → ∃ cmd, signs cmd ∧ hashBin blake2b cmd = digest

/-- No other text encodes to the digest of a signed command. -/
def NoCollision (blake2b : Bytes → Bytes) (signs : JsString → Prop) (cmd : JsString) : Prop :=
  ∀ signed, signs signed → hashBin blake2b signed = hashBin blake2b cmd →
    textEncode signed = textEncode cmd

/-- Whatever was rewritten in an envelope: if both checks pass, every filled slot verifies over the
digest of its command, and a slot of an honest key shows that the key signed a command with the same
bytes, the very command where no lone surrogate is involved. -/
theorem import_tamper_evident
    (hread : deserializePartialTransaction (B.withHash blake2b) json = .ok tx)
    (hvalid : (verifyExistingSignatures verify tx).allValid = true) :
    (∀ i, isSlotFilled (slotAt tx.sigs i) = true → SlotVerifies blake2b verify tx i) ∧
    ∀ (k : Bytes) (signs : JsString → Prop), Unforgeable blake2b verify k signs →
      NoCollision blake2b signs tx.cmd → ∀ i pubKey, isSlotFilled (slotAt tx.sigs i) = true →
        (readSignerPubKeys tx)[i]? = some pubKey → hexToBin pubKey = k →
        ∃ cmd, signs cmd ∧ textEncode cmd = textEncode tx.cmd ∧
          (isWellFormed cmd = true → isWellFormed tx.cmd = true → cmd = tx.cmd) := by
  constructor
  · intro i hfilled
    exact slotVerifies_of_allValid hread hvalid hfilled
  · intro k signs hunforgeable hcollision i pubKey hfilled hpubKey hk
    rcases slotVerifies_of_allValid hread hvalid hfilled with ⟨key, hkey, -, -, hverify⟩
    rw [Option.some.inj (hpubKey.symm.trans hkey)] at hk
    rw [hk] at hverify
    rcases hunforgeable _ _ hverify with ⟨cmd, hsigned, hdigest⟩
    have hbytes := hcollision cmd hsigned hdigest
    exact ⟨cmd, hsigned, hbytes, fun hcmd htx => textEncode_inj hcmd htx hbytes⟩

end Import

/-! ## A replacement character in a command -/

/-- A command whose code holds a replacement character, U+FFFD. -/
def rememberCommand : Value :=
  .obj [
    (js "payload", .obj [(js "exec", .obj [
      (js "code", .str (js "(remember \"\uFFFD\")")), (js "data", .obj [])])]),
    (js "signers", .arr [transferSigner publicKeyA])]

def rememberText : JsString :=
  (stringify rememberCommand []).getD []

/-- The blake2b-256 digest of the command. -/
def rememberDigest : Bytes :=
  bufferFromHex (hexText 64 0x88669e99d5f262f0c1373aad0211df3fc4f2abd73e9b0201562da23816dfa26c)

def rememberHash : JsString := js "iGaemdXyYvDBNzqtAhHfP8Tyq9c-mwIBVi2iOBbfomw"

/-- A's Ed25519 signature of the digest. -/
def rememberSignature : JsString :=
  hexText 128 (0x14dab45f0d35a44635940333436070f587bf9632c29bd7e47fdba19634e0c3ae * 2 ^ 256 +
    0xe0db9d053e5436d01841ecc825f2bed90c3cf71214a6d7277ddd86f65224e806)

/-- A digest function without collisions that is right on the command. -/
def rememberBlake2b : Bytes → Bytes :=
  Equiv.swap (textEncode rememberText) rememberDigest

/-- The verification is right on the values of this example and rejects everything else. -/
def rememberVerify : Verify := fun digest sig key =>
  .ok (decide (digest = rememberDigest) && decide (sig = bufferFromHex rememberSignature) &&
    decide (key = bufferFromHex publicKeyA))

/-- The transaction with A's signature over a command text. -/
def rememberTransaction (cmd : JsString) : Command where
  cmd := cmd
  hash := rememberHash
  sigs := [filledSlot publicKeyA rememberSignature]

theorem hash_rememberText : Cryptography.hash rememberBlake2b rememberText = .ok rememberHash := by
  have hdigest : hashBin rememberBlake2b rememberText = rememberDigest :=
    Equiv.swap_apply_left _ _
  rw [Cryptography.hash, hdigest, base64UrlEncodeArr_eq]
  exact congrArg Except.ok (by decide +kernel)

/-- A signs this command and no other. -/
theorem unforgeable_remember : Unforgeable rememberBlake2b rememberVerify (hexToBin publicKeyA)
    (fun cmd => cmd = rememberText) := by
  intro digest sig hverify
  have hvalid : (decide (digest = rememberDigest) &&
      decide (sig = bufferFromHex rememberSignature) &&
      decide (hexToBin publicKeyA = bufferFromHex publicKeyA)) = true := Except.ok.inj hverify
  rw [Bool.and_eq_true, Bool.and_eq_true, decide_eq_true_iff] at hvalid
  refine ⟨rememberText, rfl, ?_⟩
  rw [hvalid.1.1]
  exact Equiv.swap_apply_left _ _

/-- The envelope of a text with the bytes of the command is imported. -/
theorem deserialize_remember {cmd : JsString} (hbytes : textEncode cmd = textEncode rememberText) :
    deserializePartialTransaction (transferBackend.withHash rememberBlake2b)
      (serializePartialTransaction (rememberTransaction cmd) .undefined) =
        .ok (rememberTransaction cmd) := by
  have hhash : Cryptography.hash rememberBlake2b cmd = .ok rememberHash := by
    rw [← hash_rememberText, Cryptography.hash, Cryptography.hash, hashBin, hashBin, hbytes]
  exact deserialize_serialize (transferBackend.withHash_hash hhash) .undefined

theorem import_tamper_evident_remember :
    SlotVerifies rememberBlake2b rememberVerify (rememberTransaction rememberText) 0 ∧
      ∃ cmd, cmd = rememberText ∧ textEncode cmd = textEncode rememberText := by
  have hspec := import_tamper_evident (deserialize_remember rfl)
    (by decide +kernel :
      (verifyExistingSignatures rememberVerify (rememberTransaction rememberText)).allValid = true)
  have hfilled : isSlotFilled (slotAt (rememberTransaction rememberText).sigs 0) = true := by
    decide +kernel
  refine ⟨hspec.1 0 hfilled, ?_⟩
  rcases hspec.2 _ _ unforgeable_remember (fun signed hsigned _ => congrArg textEncode hsigned) 0
    publicKeyA hfilled (by decide +kernel) rfl with ⟨cmd, hcmd, hbytes, -⟩
  exact ⟨cmd, hcmd, hbytes⟩

/-- The command with a lone surrogate in place of the replacement character. -/
def surrogateText : JsString :=
  rememberText.map fun c => if c = 0xFFFD then 0xD800 else c

/-- The rewritten command passes both checks: it encodes to the bytes that A has signed. -/
theorem lone_surrogate_imported :
    ¬ ∀ (B : Backend) (blake2b : Bytes → Bytes) (verify : Verify) (json : JsString) (tx : Command),
      deserializePartialTransaction (B.withHash blake2b) json = .ok tx →
      (verifyExistingSignatures verify tx).allValid = true →
      ∀ (k : Bytes) (signs : JsString → Prop), Function.Injective blake2b →
        Unforgeable blake2b verify k signs → ∀ i pubKey, isSlotFilled (slotAt tx.sigs i) = true →
          (readSignerPubKeys tx)[i]? = some pubKey → hexToBin pubKey = k → signs tx.cmd := by
  intro h
  have hsame := h transferBackend rememberBlake2b rememberVerify _
    (rememberTransaction surrogateText) (deserialize_remember (by decide +kernel))
    (by decide +kernel) (hexToBin publicKeyA)
    (fun cmd => cmd = rememberText) (Equiv.injective _) unforgeable_remember 0 publicKeyA
    (by decide +kernel) (by decide +kernel) rfl
  exact absurd hsame (by decide +kernel)

end Signing
end StoaCore
