import StoaCore.Library.Positions
import StoaCore.Signing.VerifySignatures

/-!
# SlotStatus — whose slot is whose

The signature slots of a command stand at the positions of its signers.  The readers of the slots
take the entries without a public key out of the signers first, and then count.
-/

namespace StoaCore
namespace Signing

open Library
open Library.Js
open Library.Positions
open Cryptography

/-! ## The declared signers -/

/-- `JSON.parse(cmd).signers`, where it is an array. -/
def signerEntries (cmd : JsString) : Option (List Value) :=
  match parse cmd with
  | none => none
  | some parsed =>
      match parsed.optionalGet (js "signers") with
      | .arr entries => some entries
      | _ => none

def declaredPubKey (entry : Value) : Option JsString :=
  match entry.optionalGet (js "pubKey") with
  | .str pubKey => some pubKey
  | _ => none

/-- Every key at the position of its signer. -/
def declaredKeys (entries : List Value) : List (Option JsString) :=
  entries.map declaredPubKey

/-- The status of every slot belongs to the signer at its position. -/
structure SlotStatusAligned (entries : List Value) (tx : Command) : Prop where
  missing : getMissingSigners tx =
    pick (fun i => !isSlotFilled (slotAt tx.sigs i)) (declaredKeys entries)
  filled : getFilledSigners tx =
    pick (fun i => isSlotFilled (slotAt tx.sigs i)) (declaredKeys entries)
  fullySigned : isFullySigned tx = true →
    ∀ i, (at? (declaredKeys entries) i).isSome = true → isSlotFilled (slotAt tx.sigs i) = true
  verified : ∀ verify hashBytes, base64UrlDecodeArr tx.hash = .ok hashBytes →
    (verifyExistingSignatures verify tx).invalid =
      verifySlots verify hashBytes ((declaredKeys entries).map (·.getD [])) 0 tx.sigs

section Readers

variable {tx : Command} {entries : List Value}

theorem readSignerPubKeys_eq (h : signerEntries tx.cmd = some entries) :
    readSignerPubKeys tx = (declaredKeys entries).reduceOption := by
  unfold signerEntries at h
  unfold readSignerPubKeys
  cases hparse : parse tx.cmd with
  | none =>
      rw [hparse] at h
      cases h
  | some parsed =>
      rw [hparse] at h
      dsimp only at h ⊢
      cases hsigners : parsed.optionalGet (js "signers") with
      | arr items =>
          rw [hsigners] at h
          cases h
          unfold declaredKeys List.reduceOption
          rw [List.filterMap_map]
          rfl
      | _ =>
          rw [hsigners] at h
          cases h

theorem getFilledSigners_eq (h : signerEntries tx.cmd = some entries) :
    getFilledSigners tx = pick (fun i => isSlotFilled (slotAt tx.sigs i))
      ((declaredKeys entries).reduceOption.map some) := by
  unfold getFilledSigners
  rw [readSignerPubKeys_eq h]
  simpa using pick_map_some (fun i => isSlotFilled (slotAt tx.sigs i)) _ 0

theorem getMissingSigners_eq (h : signerEntries tx.cmd = some entries) :
    getMissingSigners tx = pick (fun i => !isSlotFilled (slotAt tx.sigs i))
      ((declaredKeys entries).reduceOption.map some) := by
  unfold getMissingSigners
  rw [readSignerPubKeys_eq h]
  simpa using pick_map_some (fun i => !isSlotFilled (slotAt tx.sigs i)) _ 0

theorem verifyExistingSignatures_eq (h : signerEntries tx.cmd = some entries) (verify : Verify)
    {hashBytes : Bytes} (hdecode : base64UrlDecodeArr tx.hash = .ok hashBytes) :
    (verifyExistingSignatures verify tx).invalid =
      verifySlots verify hashBytes (declaredKeys entries).reduceOption 0 tx.sigs := by
  unfold verifyExistingSignatures
  rw [hdecode, readSignerPubKeys_eq h]

end Readers

/-! ## The keys the slots are checked with -/

section Loop

variable {verify : Verify} {hashBytes : Bytes} {keys keys' : List JsString}

theorem verifySlot_of_not_filled (keys : List JsString) (i : Nat) {slot : Value}
    (h : isSlotFilled slot = false) : verifySlot verify hashBytes keys i slot = none := by
  unfold verifySlot
  simp [h]

/-- Only the key at the position of a filled slot counts; a missing one is like an empty one. -/
theorem verifySlots_congr {n : Nat} {slots : List Value}
    (h : ∀ i, isSlotFilled (slotAt slots i) = true →
      keys[n + i]?.getD [] = keys'[n + i]?.getD []) :
    verifySlots verify hashBytes keys n slots = verifySlots verify hashBytes keys' n slots := by
  induction slots generalizing n with
  | nil => rfl
  | cons slot slots ih =>
      have hrest := ih (n := n + 1) fun i hi => by
        have hnext := h (i + 1) (by simpa [slotAt] using hi)
        rwa [← Nat.add_assoc, Nat.add_right_comm] at hnext
      have hslot : verifySlot verify hashBytes keys n slot =
          verifySlot verify hashBytes keys' n slot := by
        cases hfilled : isSlotFilled slot with
        | false => rw [verifySlot_of_not_filled _ _ hfilled, verifySlot_of_not_filled _ _ hfilled]
        | true =>
            have hkey := h 0 (by simpa [slotAt] using hfilled)
            unfold verifySlot
            rw [Nat.add_zero] at hkey
            rw [hkey]
      rw [verifySlots, verifySlots, hrest, hslot]

/-- A check that no signature passes. -/
def verifyNone : Verify :=
  fun _ _ _ => .ok false

/-- It complains about every filled slot, and names the key. -/
theorem verifySlot_verifyNone (keys : List JsString) (i : Nat) {slot : Value}
    (h : isSlotFilled slot = true) :
    ∃ reason, verifySlot verifyNone hashBytes keys i slot = some ⟨keys[i]?.getD [], reason⟩ := by
  unfold verifySlot
  simp only [h, Bool.not_true, Bool.false_eq_true, if_false]
  cases hkey : keys[i]?.getD [] with
  | nil => exact ⟨_, rfl⟩
  | cons c key =>
      dsimp only
      split
      · exact ⟨_, rfl⟩
      · exact ⟨_, rfl⟩

/-- The complaints show which keys were used. -/
theorem key_eq_of_verifySlots {n : Nat} {slots : List Value}
    (h : verifySlots verifyNone hashBytes keys n slots =
      verifySlots verifyNone hashBytes keys' n slots) {i : Nat}
    (hi : isSlotFilled (slotAt slots i) = true) :
    keys[n + i]?.getD [] = keys'[n + i]?.getD [] := by
  induction slots generalizing n i with
  | nil => exact absurd hi (by simp [slotAt, isSlotFilled, Value.optionalGet])
  | cons slot slots ih =>
      rw [verifySlots, verifySlots] at h
      have hsplit : (isSlotFilled slot = true → keys[n]?.getD [] = keys'[n]?.getD []) ∧
          verifySlots verifyNone hashBytes keys (n + 1) slots =
            verifySlots verifyNone hashBytes keys' (n + 1) slots := by
        cases hfilled : isSlotFilled slot with
        | false =>
            rw [verifySlot_of_not_filled _ _ hfilled, verifySlot_of_not_filled _ _ hfilled] at h
            exact ⟨fun hf => absurd hf (by decide), h⟩
        | true =>
            rcases verifySlot_verifyNone keys n hfilled with ⟨reason, hone⟩
            rcases verifySlot_verifyNone keys' n hfilled with ⟨reason', htwo⟩
            rw [hone, htwo] at h
            rcases List.cons.inj h with ⟨hcomplaint, hrest⟩
            exact ⟨fun _ => congrArg InvalidSignature.publicKey hcomplaint, hrest⟩
      cases i with
      | zero => exact hsplit.1 (by simpa [slotAt] using hi)
      | succ i =>
          have hnext := ih hsplit.2 (i := i) (by simpa [slotAt] using hi)
          rwa [Nat.add_assoc, Nat.add_comm 1] at hnext

end Loop

theorem getD_map_getD (keys : List (Option JsString)) (i : Nat) :
    ((keys.map (·.getD []))[i]?.getD []) = (at? keys i).getD [] := by
  rw [List.getElem?_map]
  cases h : keys[i]? with
  | none => simp [at?, h]
  | some x => simp [at?, h]

theorem eq_of_getD_nil {key key' : Option JsString} (h : key ≠ some []) (h' : key' ≠ some [])
    (heq : key.getD [] = key'.getD []) : key = key' := by
  cases key with
  | none =>
      cases key' with
      | none => rfl
      | some k' => exact absurd (congrArg some heq.symm) h'
  | some k =>
      cases key' with
      | none => exact absurd (congrArg some heq) h
      | some k' => exact congrArg some heq

/-! ## Alignment -/

section Alignment

variable {cmd : JsString} {entries : List Value}

/-- Slots whose keys are where the readers look for them. -/
theorem slotStatusAligned_of_forall (h : signerEntries cmd = some entries) (hash : JsString)
    (sigs : List Value)
    (hfilled : ∀ i, isSlotFilled (slotAt sigs i) = true →
      (declaredKeys entries).reduceOption[i]? = at? (declaredKeys entries) i)
    (hmissing : getMissingSigners ⟨cmd, hash, sigs⟩ =
      pick (fun i => !isSlotFilled (slotAt sigs i)) (declaredKeys entries)) :
    SlotStatusAligned entries ⟨cmd, hash, sigs⟩ where
  missing := hmissing
  filled := by
    rw [getFilledSigners_eq h]
    refine pick_congr fun i hi => ?_
    rw [at?_map_some]
    exact hfilled i hi
  fullySigned := by
    intro hfully i hi
    rcases Option.isSome_iff_exists.1 hi with ⟨key, hkey⟩
    by_contra hnot
    have hmem : key ∈ getMissingSigners ⟨cmd, hash, sigs⟩ := by
      rw [hmissing]
      exact mem_pick.2 ⟨i, by simpa using hnot, hkey⟩
    have hnil : getMissingSigners ⟨cmd, hash, sigs⟩ = [] := by
      simpa [isFullySigned] using hfully
    exact absurd (hnil ▸ hmem) List.not_mem_nil
  verified := by
    intro verify hashBytes hdecode
    rw [verifyExistingSignatures_eq h verify hdecode]
    refine verifySlots_congr fun i hi => ?_
    rw [Nat.zero_add, getD_map_getD, hfilled i hi]

/-- Only the slot at position `p` is filled. -/
def onlySlot (p : Nat) : List Value :=
  List.replicate p .null ++ [.obj [(js "sig", .str (js "00"))]]

theorem isSlotFilled_onlySlot (p i : Nat) :
    isSlotFilled (slotAt (onlySlot p) i) = decide (i = p) := by
  have hnull : isSlotFilled .null = false := rfl
  have hsigned : isSlotFilled (.obj [(js "sig", .str (js "00"))]) = true := by decide
  have hnone : isSlotFilled .undefined = false := rfl
  unfold slotAt onlySlot
  rcases Nat.lt_trichotomy i p with hlt | rfl | hgt
  · rw [List.getElem?_append_left (by simpa using hlt)]
    simp [hlt, hnull, Nat.ne_of_lt hlt]
  · simp [hsigned]
  · rw [List.getElem?_eq_none (by simpa using Nat.succ_le_of_lt hgt)]
    simp [hnone, Nat.ne_of_gt hgt]

theorem at?_eq_of_aligned (h : signerEntries cmd = some entries)
    (haligned : ∀ hash sigs, SlotStatusAligned entries ⟨cmd, hash, sigs⟩) (p : Nat) :
    (declaredKeys entries).reduceOption[p]? = at? (declaredKeys entries) p := by
  have hfilled := (haligned [] (onlySlot p)).filled
  rw [getFilledSigners_eq h] at hfilled
  simp only [isSlotFilled_onlySlot, pick_single, at?_map_some] at hfilled
  exact Option.ext fun key => by rw [← Option.mem_toList, hfilled, Option.mem_toList]

/-- Without a repeated key the filled ones tell which ones are missing. -/
theorem getMissingSigners_of_filled (h : signerEntries cmd = some entries) {hash : JsString}
    {sigs : List Value} (hnodup : (declaredKeys entries).reduceOption.Nodup)
    (hfilled : getFilledSigners ⟨cmd, hash, sigs⟩ =
      pick (fun i => isSlotFilled (slotAt sigs i)) (declaredKeys entries)) :
    getMissingSigners ⟨cmd, hash, sigs⟩ =
      pick (fun i => !isSlotFilled (slotAt sigs i)) (declaredKeys entries) := by
  have hkeys : ((declaredKeys entries).reduceOption.map some).reduceOption =
      (declaredKeys entries).reduceOption := by
    simp [List.reduceOption]
  rw [getFilledSigners_eq h] at hfilled
  rw [getMissingSigners_eq h, pick_not hnodup, pick_not (by rwa [hkeys]), hkeys, hfilled]

end Alignment

/-- The status of every slot belongs to the signer at its position, whatever the slots hold, exactly
when no entry without a public key stands in front of one with a key.  With distinct keys and given
slots it is enough, and needed, that every filled slot is one of a signer in front of the gaps. -/
theorem slotStatusAligned_iff {cmd : JsString} {entries : List Value}
    (h : signerEntries cmd = some entries) :
    ((∀ hash sigs, SlotStatusAligned entries ⟨cmd, hash, sigs⟩) ↔
      Contiguous (declaredKeys entries)) ∧
    ∀ hash sigs hashBytes, base64UrlDecodeArr hash = .ok hashBytes →
      (declaredKeys entries).reduceOption.Nodup → [] ∉ (declaredKeys entries).reduceOption →
      (SlotStatusAligned entries ⟨cmd, hash, sigs⟩ ↔
        ∀ i, isSlotFilled (slotAt sigs i) = true →
          (declaredKeys entries).reduceOption[i]? = at? (declaredKeys entries) i) := by
  constructor
  · rw [contiguous_iff]
    constructor
    · exact at?_eq_of_aligned h
    · intro hat hash sigs
      refine slotStatusAligned_of_forall h hash sigs (fun i _ => hat i) ?_
      rw [getMissingSigners_eq h]
      exact pick_congr fun i _ => by rw [at?_map_some, hat i]
  · intro hash sigs hashBytes hdecode hnodup hempty
    constructor
    · intro haligned i hi
      have hverified := haligned.verified verifyNone hashBytes hdecode
      rw [verifyExistingSignatures_eq h verifyNone hdecode] at hverified
      have hkey := key_eq_of_verifySlots hverified hi
      rw [Nat.zero_add, getD_map_getD] at hkey
      refine eq_of_getD_nil (fun hread => ?_) (fun hdeclared => ?_) hkey
      · exact hempty (List.mem_of_getElem? hread)
      · refine hempty (List.reduceOption_mem_iff.2 ?_)
        exact List.mem_of_getElem? (Option.join_eq_some_iff.1 hdeclared)
    · intro hfilled
      refine slotStatusAligned_of_forall h hash sigs hfilled
        (getMissingSigners_of_filled h hnodup ?_)
      rw [getFilledSigners_eq h]
      refine pick_congr fun i hi => ?_
      rw [at?_map_some]
      exact hfilled i hi

/-! ## A signer without a key in front -/

/-- `{"signers":[{},{"pubKey":"aa"}]}` -/
def shiftedCommand : JsString :=
  js "\x7b\"signers\":[\x7b\x7d,\x7b\"pubKey\":\"aa\"\x7d]\x7d"

def shiftedTransaction : Command where
  cmd := shiftedCommand
  hash := []
  sigs := [.obj [(js "sig", .str (js "00"))]]

/-- The command counts as fully signed, and its only key as the one that signed, although the slot
of that key is missing. -/
theorem slotStatus_shifted :
    (signerEntries shiftedCommand).map declaredKeys = some [none, some (js "aa")] ∧
      getFilledSigners shiftedTransaction = [js "aa"] ∧
      isFullySigned shiftedTransaction = true ∧
      isSlotFilled (slotAt shiftedTransaction.sigs 1) = false := by
  decide +kernel

def shiftedEntries : List Value :=
  (signerEntries shiftedCommand).getD []

theorem signerEntries_shiftedCommand : signerEntries shiftedCommand = some shiftedEntries := by
  have hsome : (signerEntries shiftedCommand).isSome = true := by decide +kernel
  rcases Option.isSome_iff_exists.1 hsome with ⟨entries, hentries⟩
  unfold shiftedEntries
  rw [hentries]
  rfl

theorem slotStatusAligned_iff_shifted :
    (∀ hash sigs, SlotStatusAligned shiftedEntries ⟨shiftedCommand, hash, sigs⟩) ↔
      Contiguous (declaredKeys shiftedEntries) :=
  (slotStatusAligned_iff signerEntries_shiftedCommand).1

end Signing
end StoaCore
