import StoaCore.Library.Js.JsonSame
import StoaCore.Signing.VerifySignatures

/-!
# EnvelopeCodec — what an envelope is, and what survives it

A text is imported exactly when it is an envelope whose hash is that of its command, and an exported
command comes back with slots that read alike.
-/

namespace StoaCore
namespace Signing

open Library.Js
open Cryptography

/-! ## What is an envelope -/

/-- A JSON object with both literals, whose transaction is an object with these three fields. -/
def IsEnvelope (json cmd hash : JsString) (sigs : List Value) : Prop :=
  ∃ fields txFields, parse json = some (.obj fields) ∧
    ((Value.obj fields).optionalGet (js "format")).strictEq (.str (js partialSigFormat)) = true ∧
    ((Value.obj fields).optionalGet (js "version")).strictEq (.num partialSigVersion) = true ∧
    (Value.obj fields).optionalGet (js "transaction") = .obj txFields ∧
    (Value.obj txFields).optionalGet (js "cmd") = .str cmd ∧
    (Value.obj txFields).optionalGet (js "hash") = .str hash ∧
    (Value.obj txFields).optionalGet (js "sigs") = .arr sigs

section Import

variable {B : Backend} {json cmd hash : JsString} {sigs : List Value}

/-- Of an envelope only the hash is checked. -/
theorem deserialize_of_isEnvelope (h : IsEnvelope json cmd hash sigs) :
    deserializePartialTransaction B json =
      if B.hash cmd = hash then .ok ⟨cmd, hash, sigs⟩
      else .error (.tamperedHashError hash (B.hash cmd)) := by
  rcases h with ⟨fields, txFields, hparse, hformat, hversion, htx, hcmd, hhash, hsigs⟩
  simp only [deserializePartialTransaction, hparse, readEnvelope, hformat, hversion, htx,
    readTransaction, hcmd, hhash, hsigs, not_true_eq_false, if_false]

theorem readTransaction_cases (B : Backend) (tx : Value) :
    (∃ txFields cmd hash sigs, tx = .obj txFields ∧ tx.optionalGet (js "cmd") = .str cmd ∧
      tx.optionalGet (js "hash") = .str hash ∧ tx.optionalGet (js "sigs") = .arr sigs) ∨
    ∃ reason, readTransaction B tx = .error (.invalidEnvelopeError reason) := by
  unfold readTransaction
  split
  · split
    · exact Or.inl ⟨_, _, _, _, rfl, ‹_›, ‹_›, ‹_›⟩
    · exact Or.inr ⟨_, rfl⟩
    · exact Or.inr ⟨_, rfl⟩
    · exact Or.inr ⟨_, rfl⟩
  · exact Or.inr ⟨_, rfl⟩

/-- What is no envelope is refused as one. -/
theorem isEnvelope_or_error (B : Backend) (json : JsString) :
    (∃ cmd hash sigs, IsEnvelope json cmd hash sigs) ∨
      ∃ reason, deserializePartialTransaction B json = .error (.invalidEnvelopeError reason) := by
  unfold deserializePartialTransaction
  cases hparse : parse json with
  | none => exact Or.inr ⟨_, rfl⟩
  | some parsed =>
      dsimp only
      unfold readEnvelope
      split
      case h_1 fields =>
        split
        · exact Or.inr ⟨_, rfl⟩
        · split
          · exact Or.inr ⟨_, rfl⟩
          · rename_i hformat hversion
            rcases readTransaction_cases B ((Value.obj fields).optionalGet (js "transaction")) with
              ⟨txFields, cmd, hash, sigs, htx, hcmd, hhash, hsigs⟩ | herror
            · rw [htx] at hcmd hhash hsigs
              exact Or.inl ⟨cmd, hash, sigs, fields, txFields, hparse, not_not.1 hformat,
                not_not.1 hversion, htx, hcmd, hhash, hsigs⟩
            · exact Or.inr herror
      · exact Or.inr ⟨_, rfl⟩

theorem isEnvelope_unique {cmd' hash' : JsString} {sigs' : List Value}
    (h : IsEnvelope json cmd hash sigs) (h' : IsEnvelope json cmd' hash' sigs') :
    cmd' = cmd ∧ hash' = hash ∧ sigs' = sigs := by
  rcases h with ⟨fields, txFields, hparse, -, -, htx, hcmd, hhash, hsigs⟩
  rcases h' with ⟨fields', txFields', hparse', -, -, htx', hcmd', hhash', hsigs'⟩
  cases hparse.symm.trans hparse'
  cases htx.symm.trans htx'
  exact ⟨Value.str.inj (hcmd'.symm.trans hcmd), Value.str.inj (hhash'.symm.trans hhash),
    Value.arr.inj (hsigs'.symm.trans hsigs)⟩

/-- Exactly the envelopes with the right hash are accepted, those with a wrong one are reported as
tampered with, and everything else as no envelope. -/
theorem deserialize_exact (B : Backend) (json : JsString) :
    (∀ tx, deserializePartialTransaction B json = .ok tx ↔
      IsEnvelope json tx.cmd tx.hash tx.sigs ∧ B.hash tx.cmd = tx.hash) ∧
    (∀ expected actual,
      deserializePartialTransaction B json = .error (.tamperedHashError expected actual) ↔
        ∃ cmd sigs, IsEnvelope json cmd expected sigs ∧ B.hash cmd = actual ∧ actual ≠ expected) ∧
    ((∃ reason, deserializePartialTransaction B json = .error (.invalidEnvelopeError reason)) ↔
      ¬∃ cmd hash sigs, IsEnvelope json cmd hash sigs) := by
  rcases isEnvelope_or_error B json with ⟨cmd, hash, sigs, henvelope⟩ | ⟨reason, herror⟩
  · have hresult := deserialize_of_isEnvelope (B := B) henvelope
    by_cases hhash : B.hash cmd = hash
    · rw [if_pos hhash] at hresult
      refine ⟨fun tx => ?_, fun expected actual => ?_, ?_⟩
      · rw [hresult, Except.ok.injEq]
        constructor
        · rintro rfl
          exact ⟨henvelope, hhash⟩
        · rintro ⟨htx, -⟩
          rcases isEnvelope_unique henvelope htx with ⟨rfl, rfl, rfl⟩
          rfl
      · refine ⟨fun h => absurd (hresult.symm.trans h) (by simp), ?_⟩
        rintro ⟨cmd', sigs', henvelope', hactual, hne⟩
        rcases isEnvelope_unique henvelope henvelope' with ⟨rfl, rfl, -⟩
        exact absurd (hactual.symm.trans hhash) hne
      · refine ⟨fun ⟨reason, h⟩ => absurd (hresult.symm.trans h) (by simp), fun h => ?_⟩
        exact absurd ⟨cmd, hash, sigs, henvelope⟩ h
    · rw [if_neg hhash] at hresult
      refine ⟨fun tx => ?_, fun expected actual => ?_, ?_⟩
      · refine ⟨fun h => absurd (hresult.symm.trans h) (by simp), ?_⟩
        rintro ⟨htx, hright⟩
        rcases isEnvelope_unique henvelope htx with ⟨hcmd, hhash', -⟩
        rw [hcmd, hhash'] at hright
        exact absurd hright hhash
      · rw [hresult]
        constructor
        · intro h
          cases h
          exact ⟨cmd, sigs, henvelope, rfl, hhash⟩
        · rintro ⟨cmd', sigs', henvelope', rfl, -⟩
          rcases isEnvelope_unique henvelope henvelope' with ⟨rfl, rfl, -⟩
          rfl
      · refine ⟨fun ⟨reason, h⟩ => absurd (hresult.symm.trans h) (by simp), fun h => ?_⟩
        exact absurd ⟨cmd, hash, sigs, henvelope⟩ h
  · have hnot : ∀ cmd hash sigs, ¬IsEnvelope json cmd hash sigs := by
      intro cmd hash sigs henvelope
      rw [deserialize_of_isEnvelope henvelope] at herror
      split at herror
      · cases herror
      · cases herror
    refine ⟨fun tx => ?_, fun expected actual => ?_, ?_⟩
    · simp [herror, hnot]
    · simp [herror, hnot]
    · simp [herror, hnot]

end Import

/-! ## What survives -/

section Export

variable {slot : Value}

theorem truthy_normalizeValue (v : Value) : (normalizeValue v).truthy = v.truthy := by
  cases v <;> rfl

/-- Whoever reads the signature of a slot sees the same. -/
theorem sig_normalizeValue (h : slot.KeysDistinct) (sig : JsString) :
    (normalizeValue slot).optionalGet (js "sig") = .str sig ↔
      slot.optionalGet (js "sig") = .str sig := by
  rw [optionalGet_normalizeValue h]
  cases hsig : slot.optionalGet (js "sig") <;> simp [Value.isUndefined, normalizeValue]

theorem isSlotFilled_iff (slot : Value) :
    isSlotFilled slot = true ↔
      slot.truthy = true ∧ ∃ sig, slot.optionalGet (js "sig") = .str sig ∧ sig ≠ [] := by
  unfold isSlotFilled
  split
  case h_1 sig hsig => simp [hsig]
  case h_2 hother => simpa using fun _ sig hsig => absurd hsig (hother sig)

theorem isSlotFilled_normalizeValue (h : slot.KeysDistinct) :
    isSlotFilled (normalizeValue slot) = isSlotFilled slot := by
  rw [Bool.eq_iff_iff, isSlotFilled_iff, isSlotFilled_iff, truthy_normalizeValue]
  simp only [sig_normalizeValue h]

theorem sigText_normalizeValue (h : slot.KeysDistinct) :
    sigText (normalizeValue slot) = sigText slot := by
  unfold sigText
  rw [optionalGet_normalizeValue h]
  cases slot.optionalGet (js "sig") <;> rfl

variable {sigs : List Value} (hsigs : ∀ slot ∈ sigs, slot.KeysDistinct)

include hsigs

theorem isSlotFilled_slotAt_normalizeItems (i : Nat) :
    isSlotFilled (slotAt (normalizeItems sigs) i) = isSlotFilled (slotAt sigs i) := by
  unfold slotAt
  rw [normalizeItems_eq_map, List.getElem?_map]
  cases hslot : sigs[i]? with
  | none => rfl
  | some slot => exact isSlotFilled_normalizeValue (hsigs slot (List.mem_of_getElem? hslot))

theorem verifySlots_normalizeItems (verify : Verify) (hashBytes : Bytes) (pubKeys : List JsString)
    (n : Nat) : verifySlots verify hashBytes pubKeys n (normalizeItems sigs) =
      verifySlots verify hashBytes pubKeys n sigs := by
  induction sigs generalizing n with
  | nil => rfl
  | cons slot sigs ih =>
      have hslot := hsigs slot List.mem_cons_self
      have hrest := ih fun v hv => hsigs v (List.mem_cons_of_mem _ hv)
      have hturn : verifySlot verify hashBytes pubKeys n (normalizeValue slot) =
          verifySlot verify hashBytes pubKeys n slot := by
        unfold verifySlot
        rw [isSlotFilled_normalizeValue hslot, sigText_normalizeValue hslot]
      rw [normalizeItems, verifySlots, verifySlots, hturn, hrest]

end Export

section Readers

variable {tx : Command} (hsigs : ∀ slot ∈ tx.sigs, slot.KeysDistinct)

/-- The command as it comes back. -/
def Command.imported (tx : Command) : Command :=
  { tx with sigs := normalizeItems tx.sigs }

theorem readSignerPubKeys_imported (tx : Command) :
    readSignerPubKeys tx.imported = readSignerPubKeys tx := rfl

include hsigs

theorem getMissingSigners_imported : getMissingSigners tx.imported = getMissingSigners tx := by
  unfold getMissingSigners
  rw [readSignerPubKeys_imported]
  refine congrArg (List.map Prod.fst) (List.filter_congr fun entry _ => ?_)
  exact congrArg (!·) (isSlotFilled_slotAt_normalizeItems hsigs entry.2)

theorem getFilledSigners_imported : getFilledSigners tx.imported = getFilledSigners tx := by
  unfold getFilledSigners
  rw [readSignerPubKeys_imported]
  exact congrArg (List.map Prod.fst)
    (List.filter_congr fun entry _ => isSlotFilled_slotAt_normalizeItems hsigs entry.2)

theorem verifyExistingSignatures_imported (verify : Verify) :
    verifyExistingSignatures verify tx.imported = verifyExistingSignatures verify tx := by
  have hhash : tx.imported.hash = tx.hash := rfl
  have hloop : ∀ hashBytes,
      verifySlots verify hashBytes (readSignerPubKeys tx) 0 tx.imported.sigs =
        verifySlots verify hashBytes (readSignerPubKeys tx) 0 tx.sigs :=
    fun hashBytes => verifySlots_normalizeItems hsigs verify hashBytes _ 0
  unfold verifyExistingSignatures
  simp only [readSignerPubKeys_imported, hhash, hloop]

end Readers

/-! ## The codec -/

/-- Import accepts exactly the envelopes with the hash of their command, and what was exported comes
back with the same command and hash and with slots that every reader treats alike. -/
theorem partialSig_codec (B : Backend) (blake2b : Bytes → Bytes) :
    (∀ json,
      (∀ tx, deserializePartialTransaction (B.withHash blake2b) json = .ok tx ↔
        IsEnvelope json tx.cmd tx.hash tx.sigs ∧ Cryptography.hash blake2b tx.cmd = .ok tx.hash) ∧
      (∀ expected actual, deserializePartialTransaction (B.withHash blake2b) json =
          .error (.tamperedHashError expected actual) ↔
        ∃ cmd sigs, IsEnvelope json cmd expected sigs ∧
          Cryptography.hash blake2b cmd = .ok actual ∧ actual ≠ expected) ∧
      ((∃ reason, deserializePartialTransaction (B.withHash blake2b) json =
          .error (.invalidEnvelopeError reason)) ↔
        ¬∃ cmd hash sigs, IsEnvelope json cmd hash sigs)) ∧
    ∀ (tx : Command) (metadata : Value), Cryptography.hash blake2b tx.cmd = .ok tx.hash →
      (∀ slot ∈ tx.sigs, slot.KeysDistinct) →
      ∃ tx', deserializePartialTransaction (B.withHash blake2b)
          (serializePartialTransaction tx metadata) = .ok tx' ∧
        tx'.cmd = tx.cmd ∧ tx'.hash = tx.hash ∧
        List.Forall₂ Value.SameUpToUndefined tx.sigs tx'.sigs ∧
        getMissingSigners tx' = getMissingSigners tx ∧
        getFilledSigners tx' = getFilledSigners tx ∧
        isFullySigned tx' = isFullySigned tx ∧
        ∀ verify, verifyExistingSignatures verify tx' = verifyExistingSignatures verify tx := by
  have hhash : ∀ cmd text, (B.withHash blake2b).hash cmd = text ↔
      Cryptography.hash blake2b cmd = .ok text := by
    intro cmd text
    rcases hash_spec blake2b cmd with ⟨digest, hdigest, -⟩
    rw [B.withHash_hash hdigest, hdigest, Except.ok.injEq]
  constructor
  · intro json
    have hexact := deserialize_exact (B.withHash blake2b) json
    simp only [hhash] at hexact
    exact hexact
  · intro tx metadata htx hsigs
    refine ⟨tx.imported, deserialize_serialize ((hhash _ _).2 htx) metadata, rfl, rfl, ?_,
      getMissingSigners_imported hsigs, getFilledSigners_imported hsigs, ?_,
      verifyExistingSignatures_imported hsigs⟩
    · have hitems : tx.imported.sigs = tx.sigs.map normalizeValue := normalizeItems_eq_map _
      rw [hitems, List.forall₂_map_right_iff, List.forall₂_same]
      exact fun slot hslot => sameUpToUndefined_normalizeValue (hsigs slot hslot)
    · unfold isFullySigned
      rw [getMissingSigners_imported hsigs]

/-- A slot of A, and one that is still `undefined`. -/
def exportedTransaction : Command :=
  { rememberTransaction rememberText with
    sigs := [filledSlot publicKeyA rememberSignature, .undefined] }

theorem partialSig_codec_remember :
    ∃ tx', deserializePartialTransaction (transferBackend.withHash rememberBlake2b)
        (serializePartialTransaction exportedTransaction .undefined) = .ok tx' ∧
      getFilledSigners tx' = getFilledSigners exportedTransaction := by
  have hdistinct : ∀ slot ∈ exportedTransaction.sigs, slot.KeysDistinct := by
    intro slot hslot
    rcases List.mem_cons.1 hslot with rfl | hslot
    · refine .obj _ (by decide) fun m hm => ?_
      rcases List.mem_cons.1 hm with rfl | hm
      · exact .str _
      · rw [List.mem_singleton.1 hm]
        exact .str _
    · rw [List.mem_singleton.1 hslot]
      exact .undefined
  rcases (partialSig_codec transferBackend rememberBlake2b).2 exportedTransaction .undefined
    hash_rememberText hdistinct with ⟨tx', hread, -, -, -, -, hfilled, -⟩
  exact ⟨tx', hread, hfilled⟩

end Signing
end StoaCore
