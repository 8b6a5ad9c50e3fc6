import StoaCore.Signing.PartialSigRuns

/-!
# MultiParty — what every sequence of signers ends with

The facts about runs of passes, read off the write-once store: which slots are filled, that a
filled slot stays, and when the order of the parties makes no difference.  It does make one when
two parties hold different secrets for the same public key, as the last section shows.
-/

namespace StoaCore
namespace Signing

open Library.Js
open Library.WriteOnce

/-! ## Reading the slots of a command -/

/-- The slot of a signer that has signed. -/
def filledSlot (pubKey sig : JsString) : Value :=
  .obj [(js "pubKey", .str pubKey), (js "sig", .str sig)]

theorem filledSlot_inj {k sig sig' : JsString} (h : filledSlot k sig = filledSlot k sig') :
    sig = sig' := by
  unfold filledSlot at h
  simp only [Value.obj.injEq, List.cons.injEq, Prod.mk.injEq, Value.str.injEq, true_and,
    and_true] at h
  exact h

/-- The slots stand one by one beside the declared keys. -/
def Aligned (pubKeys : List JsString) (sigs : List Value) : Prop :=
  sigs.length = pubKeys.length ∧
    ∀ (i : Nat) (k : JsString) (slot : Value), pubKeys[i]? = some k → sigs[i]? = some slot →
      slot.optionalGet (js "pubKey") = .undefined ∨ slot.optionalGet (js "pubKey") = .str k

theorem isSlotFilled_of_slotOf {k : JsString} {sig? : Option JsString} {slot : Value}
    (h : SlotOf k sig? slot) : isSlotFilled slot = sig?.isSome := by
  cases h with
  | undefined => rfl
  | null => rfl
  | pending => rfl
  | filled sig hsig =>
      have hfilled : isSlotFilled (filledSlot k sig) = (sig != []) := rfl
      exact hfilled.trans (bne_iff_ne.2 hsig)

section Slots

variable {cmd hash : JsString} {pubKeys : List JsString} {m m' : Store JsString JsString}
  {tx tx' : Command}

theorem Holds.slot (h : Holds cmd hash pubKeys m tx) {i : Nat} {k : JsString}
    (hk : pubKeys[i]? = some k) : ∃ slot, tx.sigs[i]? = some slot ∧ SlotOf k (m k) slot := by
  rcases List.getElem?_eq_some_iff.1 hk with ⟨hi, hget⟩
  have hi' : i < tx.sigs.length := h.slots.length_eq ▸ hi
  have hslot := h.slots.get hi hi'
  subst hget
  exact ⟨tx.sigs[i], List.getElem?_eq_getElem hi', hslot⟩

theorem Holds.aligned (h : Holds cmd hash pubKeys m tx) : Aligned pubKeys tx.sigs := by
  refine ⟨h.slots.length_eq.symm, ?_⟩
  intro i k slot hk hslot
  rcases h.slot hk with ⟨slot', hslot', hof⟩
  rw [hslot] at hslot'
  cases hslot'
  generalize m k = sig? at hof
  cases hof with
  | undefined => exact Or.inl rfl
  | null => exact Or.inl rfl
  | pending => exact Or.inr rfl
  | filled sig => exact Or.inr rfl

theorem Holds.filled_iff (h : Holds cmd hash pubKeys m tx) {i : Nat} {k : JsString}
    (hk : pubKeys[i]? = some k) : isSlotFilled (slotAt tx.sigs i) = (m k).isSome := by
  rcases h.slot hk with ⟨slot, hslot, hof⟩
  rw [slotAt, hslot]
  exact isSlotFilled_of_slotOf hof

/-- The slot of a signature the store holds. -/
theorem Holds.slot_of_some (h : Holds cmd hash pubKeys m tx) {i : Nat} {k sig : JsString}
    (hk : pubKeys[i]? = some k) (hm : m k = some sig) :
    tx.sigs[i]? = some (filledSlot k sig) := by
  rcases h.slot hk with ⟨slot, hslot, hof⟩
  rw [hm] at hof
  cases hof with
  | filled => exact hslot

/-- A filled slot is one of a declared signer, with the signature the store holds. -/
theorem Holds.of_filled (h : Holds cmd hash pubKeys m tx) {i : Nat}
    (hfilled : isSlotFilled (slotAt tx.sigs i) = true) :
    ∃ k sig, pubKeys[i]? = some k ∧ m k = some sig := by
  -- There is no slot beyond the declared signers.
  have hi : i < pubKeys.length := by
    by_contra hge
    have hnone : tx.sigs[i]? = none :=
      List.getElem?_eq_none (by rw [← h.slots.length_eq]; omega)
    rw [slotAt, hnone] at hfilled
    cases hfilled
  have hk : pubKeys[i]? = some pubKeys[i] := List.getElem?_eq_getElem hi
  rw [h.filled_iff hk] at hfilled
  rcases Option.isSome_iff_exists.1 hfilled with ⟨sig, hsig⟩
  exact ⟨pubKeys[i], sig, hk, hsig⟩

/-- Filled slots stay as they are when the store only grows. -/
theorem Holds.filled_stays (h : Holds cmd hash pubKeys m tx) (h' : Holds cmd hash pubKeys m' tx')
    (hgrows : ∀ k sig, m k = some sig → m' k = some sig) {i : Nat}
    (hfilled : isSlotFilled (slotAt tx.sigs i) = true) : tx'.sigs[i]? = tx.sigs[i]? := by
  rcases h.of_filled hfilled with ⟨k, sig, hk, hm⟩
  rw [h.slot_of_some hk hm, h'.slot_of_some hk (hgrows k sig hm)]

theorem Holds.getFilledSigners_eq (hdecl : Declares cmd pubKeys)
    (h : Holds cmd hash pubKeys m tx) :
    getFilledSigners tx = pubKeys.filter fun k => (m k).isSome := by
  -- The reader parses `cmd` anew and finds the declared keys.
  have hread : readSignerPubKeys tx = pubKeys :=
    readSignerPubKeys_of_declares (by rw [h.cmd]; exact hdecl)
  have hfilter : (pubKeys.zipIdx.filter fun entry => isSlotFilled (slotAt tx.sigs entry.2)) =
      pubKeys.zipIdx.filter ((fun k => (m k).isSome) ∘ Prod.fst) := by
    apply List.filter_congr
    rintro ⟨k, i⟩ hmem
    exact h.filled_iff (List.mk_mem_zipIdx_iff_getElem?.1 hmem)
  rw [getFilledSigners, hread, hfilter, ← List.filter_map, List.zipIdx_map_fst]

theorem Holds.isFullySigned_iff (hdecl : Declares cmd pubKeys)
    (h : Holds cmd hash pubKeys m tx) :
    isFullySigned tx = true ↔ ∀ k ∈ pubKeys, (m k).isSome = true := by
  have hread : readSignerPubKeys tx = pubKeys :=
    readSignerPubKeys_of_declares (by rw [h.cmd]; exact hdecl)
  rw [Signing.isFullySigned_iff, hread]
  constructor
  · intro hall k hk
    rcases List.mem_iff_getElem?.1 hk with ⟨i, hi⟩
    rw [← h.filled_iff hi]
    exact hall i (List.getElem?_eq_some_iff.1 hi).1
  · intro hall i hi
    rw [h.filled_iff (List.getElem?_eq_getElem hi)]
    exact hall _ (List.getElem_mem hi)

end Slots

/-! ## Who has offered a signature -/

/-- Some party holds a keypair with this public key. -/
def Held (passes : List Pass) (k : JsString) : Prop :=
  ∃ pass ∈ passes, ∃ kp ∈ pass.keypairs, kp.publicKey = some k

instance (passes : List Pass) (k : JsString) : Decidable (Held passes k) :=
  inferInstanceAs (Decidable (∃ pass ∈ passes, ∃ kp ∈ pass.keypairs, kp.publicKey = some k))

/-- Keypairs of the same declared signer make the same signature, whoever holds them. -/
def Agree (B : Backend) (hash : JsString) (pubKeys : List JsString) (passes : List Pass) : Prop :=
  ∀ pass ∈ passes, ∀ kp ∈ pass.keypairs, ∀ pass' ∈ passes, ∀ kp' ∈ pass'.keypairs,
    kp.key ∈ pubKeys → kp.key = kp'.key →
      keypairSignature B hash kp = keypairSignature B hash kp'

theorem mem_passOffers {B : Backend} {hash : JsString} {pubKeys : List JsString}
    {keypairs : List UniversalKeypair} {o : JsString × JsString} :
    o ∈ passOffers B hash pubKeys keypairs ↔
      ∃ kp ∈ keypairs, kp.key ∈ pubKeys ∧ offerOf B hash kp = o := by
  simp only [passOffers, List.mem_append, List.mem_map, List.mem_filter, decide_eq_true_eq]
  constructor
  · rintro (⟨kp, ⟨⟨hkp, hkey⟩, -⟩, ho⟩ | ⟨kp, ⟨⟨hkp, hkey⟩, -⟩, ho⟩)
    · exact ⟨kp, hkp, hkey, ho⟩
    · exact ⟨kp, hkp, hkey, ho⟩
  · rintro ⟨kp, hkp, hkey, ho⟩
    -- Every handled keypair is in one of the two halves of the pass.
    cases hcw : kp.isChainweaver with
    | false => exact Or.inl ⟨kp, ⟨⟨hkp, hkey⟩, by simp [hcw]⟩, ho⟩
    | true => exact Or.inr ⟨kp, ⟨⟨hkp, hkey⟩, hcw⟩, ho⟩

theorem mem_allOffers {B : Backend} {hash : JsString} {pubKeys : List JsString}
    {passes : List Pass} {o : JsString × JsString} :
    o ∈ allOffers B hash pubKeys passes ↔
      ∃ pass ∈ passes, ∃ kp ∈ pass.keypairs, kp.key ∈ pubKeys ∧ offerOf B hash kp = o := by
  simp only [allOffers, List.mem_flatMap, mem_passOffers]

/-- The declared keys that end with a signature are the ones some party held. -/
theorem offers_isSome_iff {B : Backend} {hash : JsString} {pubKeys : List JsString}
    (hempty : [] ∉ pubKeys) (passes : List Pass) {k : JsString} (hk : k ∈ pubKeys) :
    (offers (fun _ => none) (allOffers B hash pubKeys passes) k).isSome = true ↔
      Held passes k := by
  -- A keypair without a public key counts as one with the empty key, which nobody declares.
  have hkey : ∀ kp : UniversalKeypair, kp.key = k ↔ kp.publicKey = some k := by
    intro kp
    unfold UniversalKeypair.key
    cases kp.publicKey with
    | none =>
        have hne : [] ≠ k := fun heq => hempty (heq ▸ hk)
        simpa using hne
    | some k' => simp
  rw [isSome_offers]
  simp only [mem_allOffers, Option.isSome_none, Bool.false_eq_true, false_or]
  constructor
  · rintro ⟨v, pass, hpass, kp, hkp, -, ho⟩
    exact ⟨pass, hpass, kp, hkp, (hkey kp).1 (congrArg Prod.fst ho)⟩
  · rintro ⟨pass, hpass, kp, hkp, hpublic⟩
    have hkp' := (hkey kp).2 hpublic
    exact ⟨_, pass, hpass, kp, hkp, hkp'.symm ▸ hk, Prod.ext hkp' rfl⟩

theorem consistent_allOffers {B : Backend} {hash : JsString} {pubKeys : List JsString}
    {passes : List Pass} (h : Agree B hash pubKeys passes) :
    Consistent (allOffers B hash pubKeys passes) := by
  intro k v w hv hw
  rcases mem_allOffers.1 hv with ⟨pass, hpass, kp, hkp, hkey, ho⟩
  rcases mem_allOffers.1 hw with ⟨pass', hpass', kp', hkp', -, ho'⟩
  have hsame : kp.key = kp'.key := (congrArg Prod.fst ho).trans (congrArg Prod.fst ho').symm
  have hsig := h pass hpass kp hkp pass' hpass' kp' hkp' hkey hsame
  have hoffer : (offerOf B hash kp).2 = (offerOf B hash kp').2 := by
    simp only [offerOf, hsig]
  rw [ho, ho'] at hoffer
  exact hoffer

/-! ### What a run shows -/

section Shown

variable {B : Backend} {cmd hash : JsString} {pubKeys : List JsString} {passes : List Pass}
  {tx : Command}
  (h : Holds cmd hash pubKeys (offers (fun _ => none) (allOffers B hash pubKeys passes)) tx)

include h

/-- The filled signers, in the order of the declaration. -/
theorem Holds.filledSigners_of_passes (hdecl : Declares cmd pubKeys) (hempty : [] ∉ pubKeys) :
    getFilledSigners tx = pubKeys.filter fun k => decide (Held passes k) := by
  rw [h.getFilledSigners_eq hdecl]
  apply List.filter_congr
  intro k hk
  rw [Bool.eq_iff_iff, offers_isSome_iff hempty passes hk, decide_eq_true_eq]

theorem Holds.fullySigned_of_passes (hdecl : Declares cmd pubKeys) (hempty : [] ∉ pubKeys) :
    isFullySigned tx = true ↔ ∀ k ∈ pubKeys, Held passes k := by
  rw [h.isFullySigned_iff hdecl]
  exact forall₂_congr fun k hk => offers_isSome_iff hempty passes hk

end Shown

/-! ## The theorem -/

/-- What a sequence of passes over a built command ends with. -/
structure SignedBy (B : Backend) (tx : Command) (pubKeys : List JsString) (passes : List Pass)
    (final : Command) : Prop where
  cmd : final.cmd = tx.cmd
  hash : final.hash = tx.hash
  aligned : Aligned pubKeys final.sigs
  filledSigners : getFilledSigners final = pubKeys.filter fun k => decide (Held passes k)
  fullySigned : isFullySigned final = true ↔ ∀ k ∈ pubKeys, Held passes k
  filled : ∀ i k, pubKeys[i]? = some k →
    (isSlotFilled (slotAt final.sigs i) = true ↔ Held passes k)
  /-- At every moment in between, `cmd`, `hash` and the alignment are the same, and the slots that
  are filled by then stay. -/
  stays : ∀ front back, passes = front ++ back → ∃ middle,
    runPasses B tx front = .ok middle ∧ runPasses B middle back = .ok final ∧
      middle.cmd = tx.cmd ∧ middle.hash = tx.hash ∧ Aligned pubKeys middle.sigs ∧
      ∀ i, isSlotFilled (slotAt middle.sigs i) = true → final.sigs[i]? = middle.sigs[i]?
  /-- If the keypairs of each signer agree, any order ends with the same filled slots. -/
  anyOrder : ∀ passes', passes'.Perm passes → Agree B tx.hash pubKeys passes → ∃ final',
    runPasses B tx passes' = .ok final' ∧
      ∀ i, isSlotFilled (slotAt final.sigs i) = true ∨ isSlotFilled (slotAt final'.sigs i) = true →
        final'.sigs[i]? = final.sigs[i]?

/-- Every sequence of passes over a built command succeeds; it fills exactly the slots of the
signers some party held a keypair for, never changes a filled slot, and does not depend on the
order of the parties as long as their keypairs agree. -/
theorem partial_signing {B : Backend} (hB : SignaturesNonEmpty B) {tx : Command}
    {pubKeys : List JsString} (htx : Built B tx pubKeys) {passes : List Pass}
    (hsigns : ∀ pass ∈ passes, SignsAlone B tx.hash pubKeys pass.keypairs) :
    ∃ final, runPasses B tx passes = .ok final ∧ SignedBy B tx pubKeys passes final := by
  -- Any part of the run, from any command that holds some store.
  have hrun : ∀ (l : List Pass), (∀ pass ∈ l, SignsAlone B tx.hash pubKeys pass.keypairs) →
      ∀ m tx', Holds tx.cmd tx.hash pubKeys m tx' → ∃ final, runPasses B tx' l = .ok final ∧
        Holds tx.cmd tx.hash pubKeys (offers m (allOffers B tx.hash pubKeys l)) final :=
    fun l hl m tx' h =>
      runPasses_holds htx.declares htx.nodup htx.nonempty htx.hash.symm hB hl h
  rcases hrun passes hsigns _ tx htx.holds with ⟨final, hfinal, h⟩
  refine ⟨final, hfinal, h.cmd, h.hash, h.aligned, h.filledSigners_of_passes htx.declares
    htx.nonempty, h.fullySigned_of_passes htx.declares htx.nonempty, ?_, ?_, ?_⟩
  -- The store at the end has a signature for exactly the signers somebody held a keypair for.
  · intro i k hk
    rw [h.filled_iff hk]
    exact offers_isSome_iff htx.nonempty passes (List.mem_of_getElem? hk)
  -- A prefix of the run ends in a store that the rest of the run only extends.
  · intro front back hsplit
    subst hsplit
    rcases hrun front (fun pass hpass => hsigns pass (by simp [hpass])) _ tx htx.holds with
      ⟨middle, hmiddle, hm⟩
    have hback : runPasses B middle back = .ok final := by
      rw [runPasses, List.foldlM_append] at hfinal
      rw [runPasses] at hmiddle
      rw [hmiddle] at hfinal
      exact hfinal
    refine ⟨middle, hmiddle, hback, hm.cmd, hm.hash, hm.aligned, ?_⟩
    intro i hfilled
    refine hm.filled_stays h ?_ hfilled
    intro k sig hsig
    rw [allOffers, List.flatMap_append, offers_append]
    exact offers_of_some hsig _
  -- Consistent offers make the same store in any order.
  · intro passes' hperm hagree
    rcases hrun passes' (fun pass hpass => hsigns pass (hperm.mem_iff.1 hpass)) _ tx htx.holds with
      ⟨final', hfinal', h'⟩
    have hsame : offers (fun _ => none) (allOffers B tx.hash pubKeys passes) =
        offers (fun _ => none) (allOffers B tx.hash pubKeys passes') :=
      offers_perm _ (hperm.symm.flatMap_right _) (consistent_allOffers hagree)
    rw [← hsame] at h'
    refine ⟨final', hfinal', ?_⟩
    rintro i (hfilled | hfilled)
    · exact h.filled_stays h' (fun _ _ hsig => hsig) hfilled
    · exact (h'.filled_stays h (fun _ _ hsig => hsig) hfilled).symm

/-! ## Two parties with Ed25519 keys -/

def publicKeyA : JsString :=
  hexText 64 0xd04ab232742bb4ab3a1368bd4615e4e6d0224ab71a016baf8520a332c9778737

def publicKeyB : JsString :=
  hexText 64 0xa09aa5f47a6759802ff955f8dc2d2a14a5c99d23be97f864127ff9383455a4f0

def secretKeyA : JsString :=
  hexText 64 0x1111111111111111111111111111111111111111111111111111111111111111

def secretKeyB : JsString :=
  hexText 64 0x2222222222222222222222222222222222222222222222222222222222222222

def transferSigner (pubKey : JsString) : Value :=
  .obj [(js "pubKey", .str pubKey), (js "scheme", .str (js "ED25519"))]

/-- A command for two signers. -/
def transferCommand : Value :=
  .obj [
    (js "payload", .obj [(js "exec", .obj [
      (js "code", .str (js "(coin.transfer \"alice\" \"bob\" 1.0)")), (js "data", .obj [])])]),
    (js "signers", .arr [transferSigner publicKeyA, transferSigner publicKeyB]),
    (js "networkId", .str (js "stoa"))]

def transferHash : JsString := js "21H6cd8wqo4O8elDVLyQ_IOzyy-o3MLUvu3uGJbtpNA"

def signatureAA : JsString :=
  hexText 128 (0x8dee59ac61db481090f202f72cfd684ff6fc36921bed2911f6520aa8ce824f42 * 2 ^ 256 +
    0x144e832dc793e4b00830d40f844dc0f90a7171893f274857ce0cec0ae422c405)

def signatureAB : JsString :=
  hexText 128 (0xa9b30b833820dd7bb1f06810d7798495a8b5b851627064ed6c3af31c0dff6dbc * 2 ^ 256 +
    0x4e9c5581a2c3b0ced98062eeea1052cd45fc46bf480ff984000632ec07269a0e)

def signatureBB : JsString :=
  hexText 128 (0xa9b30b833820dd7bb1f06810d7798495a8b5b851627064ed6c3af31c0dff6dbc * 2 ^ 256 +
    0x1814b820fd295cba52dc0a9ba92981e7701d516906263ff2b956299753d8fb0e)

/-- The Ed25519 signatures of `transferHash` under each pair of a public and a secret key. -/
def transferSignatures : List (NaclPair × JsString) :=
  [(⟨publicKeyA, secretKeyA⟩, signatureAA), (⟨publicKeyA, secretKeyB⟩, signatureAB),
    (⟨publicKeyB, secretKeyB⟩, signatureBB)]

/-- The libraries on the values of this example; they reject everything else. -/
def transferBackend : Backend where
  signHash := fun hash keypair =>
    match transferSignatures.find? fun entry =>
        decide (hash = transferHash) && decide (entry.1 = keypair) with
    | some entry => .ok entry.2
    | none => .error (.external (js "bad key"))
  kadenaSign := fun _ _ _ => .error (.external (js "bad key"))
  publicKeyFromPrivateKey := fun _ => .error (.external (js "bad key"))
  hash := fun _ => transferHash

def transferTransaction : Command :=
  createTransaction transferBackend transferCommand

def koalaKeypair (publicKey secretKey : JsString) : UniversalKeypair :=
  { publicKey := some publicKey, secretKey := secretKey, seedType := some .koala,
    encryptedSecretKey := .undefined, password := none }

theorem signaturesNonEmpty_transferBackend : SignaturesNonEmpty transferBackend where
  nacl := by
    intro hash keypair sig hsign
    simp only [transferBackend] at hsign
    split at hsign
    · rename_i entry hentry
      cases hsign
      have hall : ∀ entry ∈ transferSignatures, entry.2 ≠ [] := by decide +kernel
      exact hall entry (List.mem_of_find?_eq_some hentry)
    · cases hsign
  chainweaver := by
    intro password hash key sig hsign
    cases hsign

theorem built_transferTransaction :
    Built transferBackend transferTransaction [publicKeyA, publicKeyB] :=
  built_createTransaction transferBackend
    [transferSigner publicKeyA, transferSigner publicKeyB] rfl rfl
    (List.Forall₂.cons rfl (List.Forall₂.cons rfl .nil)) (by decide +kernel) (by decide +kernel)

/-- The first party signs for A with an unrelated key in the list, the second for B. -/
def transferPasses : List Pass :=
  [⟨.obj [(js "exportedBy", .str (js "Person A"))],
      [koalaKeypair publicKeyA secretKeyA, koalaKeypair secretKeyB secretKeyB]⟩,
    ⟨.undefined, [koalaKeypair publicKeyB secretKeyB]⟩]

theorem partial_signing_transferPasses :
    ∃ final, runPasses transferBackend transferTransaction transferPasses = .ok final ∧
      SignedBy transferBackend transferTransaction [publicKeyA, publicKeyB] transferPasses final :=
  partial_signing signaturesNonEmpty_transferBackend built_transferTransaction (by
    intro pass hpass kp hkp hkey
    -- The table of the example has a signature for every relevant keypair.
    have hall : ∀ pass ∈ transferPasses, ∀ kp ∈ pass.keypairs, kp.key ∈ [publicKeyA, publicKeyB] →
        (keypairSignature transferBackend transferHash kp).toOption.isSome = true := by
      decide +kernel
    have hsome := hall pass hpass kp hkp hkey
    have hhash : transferTransaction.hash = transferHash := rfl
    rw [hhash]
    cases hsign : keypairSignature transferBackend transferHash kp with
    | ok sig => exact ⟨sig, rfl⟩
    | error e =>
        rw [hsign] at hsome
        cases hsome)

/-! ## Why the keypairs have to agree -/

/-- The right secret of A. -/
def rightPass : Pass :=
  ⟨.undefined, [koalaKeypair publicKeyA secretKeyA]⟩

/-- The public key of A with the secret of B; nacl signs with it all the same. -/
def wrongPass : Pass :=
  ⟨.undefined, [koalaKeypair publicKeyA secretKeyB]⟩

theorem signsAlone_rightPass :
    SignsAlone transferBackend transferHash [publicKeyA, publicKeyB] rightPass.keypairs := by
  intro kp hkp _
  rw [List.mem_singleton.1 hkp]
  exact ⟨signatureAA, by decide +kernel⟩

theorem signsAlone_wrongPass :
    SignsAlone transferBackend transferHash [publicKeyA, publicKeyB] wrongPass.keypairs := by
  intro kp hkp _
  rw [List.mem_singleton.1 hkp]
  exact ⟨signatureAB, by decide +kernel⟩

theorem offers_rightPass_wrongPass :
    offers (fun _ => none) (allOffers transferBackend transferHash [publicKeyA, publicKeyB]
      [rightPass, wrongPass]) publicKeyA = some signatureAA := by
  decide +kernel

theorem offers_wrongPass_rightPass :
    offers (fun _ => none) (allOffers transferBackend transferHash [publicKeyA, publicKeyB]
      [wrongPass, rightPass]) publicKeyA = some signatureAB := by
  decide +kernel

/-- Which of two parties with the same public key and different secrets comes first decides the
signature that stays. -/
theorem order_matters :
    ¬ ∀ (B : Backend) (tx : Command) (pubKeys : List JsString) (passes passes' : List Pass),
      SignaturesNonEmpty B → Built B tx pubKeys →
      (∀ pass ∈ passes, SignsAlone B tx.hash pubKeys pass.keypairs) → passes'.Perm passes →
      ∀ final final', runPasses B tx passes = .ok final → runPasses B tx passes' = .ok final' →
        ∀ i, isSlotFilled (slotAt final.sigs i) = true → final'.sigs[i]? = final.sigs[i]? := by
  intro h
  have hbuilt := built_transferTransaction
  have hsigns : ∀ pass ∈ [rightPass, wrongPass],
      SignsAlone transferBackend transferHash [publicKeyA, publicKeyB] pass.keypairs := by
    intro pass hpass
    rcases List.mem_pair.1 hpass with rfl | rfl
    · exact signsAlone_rightPass
    · exact signsAlone_wrongPass
  have hsigns' : ∀ pass ∈ [wrongPass, rightPass],
      SignsAlone transferBackend transferHash [publicKeyA, publicKeyB] pass.keypairs := by
    intro pass hpass
    exact hsigns pass ((List.Perm.swap _ _ _).mem_iff.1 hpass)
  rcases runPasses_holds hbuilt.declares hbuilt.nodup hbuilt.nonempty rfl
    signaturesNonEmpty_transferBackend hsigns hbuilt.holds with ⟨final, hfinal, hholds⟩
  rcases runPasses_holds hbuilt.declares hbuilt.nodup hbuilt.nonempty rfl
    signaturesNonEmpty_transferBackend hsigns' hbuilt.holds with ⟨final', hfinal', hholds'⟩
  -- The slot of A is filled in both orders, by different signatures.
  have hright := hholds.slot_of_some (i := 0) rfl offers_rightPass_wrongPass
  have hwrong := hholds'.slot_of_some (i := 0) rfl offers_wrongPass_rightPass
  have hfilled : isSlotFilled (slotAt final.sigs 0) = true := by
    rw [slotAt, hright]
    exact isSlotFilled_of_slotOf (SlotOf.filled signatureAA (by decide +kernel))
  have hsame := h transferBackend transferTransaction [publicKeyA, publicKeyB]
    [rightPass, wrongPass] [wrongPass, rightPass] signaturesNonEmpty_transferBackend hbuilt hsigns
    (List.Perm.swap _ _ _) final final' hfinal hfinal' 0 hfilled
  rw [hright, hwrong] at hsame
  exact absurd (filledSlot_inj (Option.some.inj hsame)) (by decide +kernel)

end Signing
end StoaCore
