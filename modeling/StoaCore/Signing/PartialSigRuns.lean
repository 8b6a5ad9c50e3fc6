import StoaCore.Library.WriteOnce
import StoaCore.Signing.PartialSig

/-!
# PartialSigRuns — any number of parties, in any order

What the parties do to a command is what a write-once store does: a slot is `undefined`, `null`
or `{ pubKey }` while its signer has not signed, and keeps its first signature for good.  The
relation `Holds` ties the command to the store, `signPartial` refines a list of offers, and an
export followed by an import changes neither.
-/

namespace StoaCore
namespace Signing

open Library.Js
open Library.WriteOnce

/-! ## Declared signers -/

/-- The signers declare these public keys, one by one. -/
abbrev SignersOf (signers : List Value) (pubKeys : List JsString) : Prop :=
  List.Forall₂ (fun signer pubKey => signer.get (js "pubKey") = some (.str pubKey)) signers pubKeys

/-- `cmd` parses to a command whose signers declare these public keys. -/
def Declares (cmd : JsString) (pubKeys : List JsString) : Prop :=
  ∃ payload signers, parse cmd = some payload ∧
    payload.get (js "signers") = some (.arr signers) ∧ SignersOf signers pubKeys

/-- An access that does not throw returns what optional chaining returns. -/
theorem optionalGet_of_get {v w : Value} {name : JsString} (h : v.get name = some w) :
    v.optionalGet name = w := by
  unfold Value.get at h
  split at h
  · cases h
  · cases h
  · exact Option.some.inj h

section Declared

variable {cmd : JsString} {pubKeys : List JsString} {signers : List Value}

theorem pubKeysOf_arr (h : SignersOf signers pubKeys) :
    pubKeysOf (.arr signers) = .ok (pubKeys.map Value.str) := by
  induction h with
  | nil => rfl
  | @cons signer k signers pubKeys hk _ ih =>
      have hhead : pubKeyOf signer = .ok (.str k) := by
        simp only [pubKeyOf, hk]
      have htail : signers.mapM pubKeyOf = .ok (pubKeys.map Value.str) := ih
      simp only [pubKeysOf, List.mapM_cons, hhead, htail]
      rfl

theorem someSigner_eq (h : SignersOf signers pubKeys) (publicKey : JsString) :
    someSigner publicKey signers = .ok (decide (publicKey ∈ pubKeys)) := by
  induction h with
  | nil => rfl
  | @cons signer k signers pubKeys hk _ ih =>
      have hhead : pubKeyOf signer = .ok (.str k) := by
        simp only [pubKeyOf, hk]
      have hstep : someSigner publicKey (signer :: signers) =
          if (Value.str k).strictEq (.str publicKey) then .ok true
          else someSigner publicKey signers := by
        simp only [someSigner, hhead]
        rfl
      rw [hstep, ih, Value.strictEq_str]
      -- `some` stops at the first match, so a later signer is looked at only behind a mismatch.
      by_cases heq : k = publicKey
      · simp [heq]
      · simp [heq, Ne.symm heq]

theorem parseSigners_of_declares (h : Declares cmd pubKeys) :
    ∃ signers, parseSigners cmd = .ok (.arr signers) ∧ SignersOf signers pubKeys := by
  rcases h with ⟨payload, signers, hparse, hget, hkeys⟩
  exact ⟨signers, by simp only [parseSigners, hparse, hget], hkeys⟩

theorem signerPubKeys_of_declares (h : Declares cmd pubKeys) :
    signerPubKeys cmd = .ok (pubKeys.map Value.str) := by
  rcases parseSigners_of_declares h with ⟨signers, hsigners, hkeys⟩
  have hpubKeys := pubKeysOf_arr hkeys
  simp only [signerPubKeys, hsigners]
  exact hpubKeys

theorem includesKey_map_str (pubKeys : List JsString) (k : JsString) :
    includesKey (pubKeys.map Value.str) k = decide (k ∈ pubKeys) := by
  rw [Bool.eq_iff_iff]
  simp [includesKey]

theorem readSignerPubKeys_of_declares {tx : Command} (h : Declares tx.cmd pubKeys) :
    readSignerPubKeys tx = pubKeys := by
  rcases h with ⟨payload, signers, hparse, hget, hkeys⟩
  simp only [readSignerPubKeys, hparse, optionalGet_of_get hget]
  clear hget
  induction hkeys with
  | nil => rfl
  | cons hk _ ih => simp only [List.filterMap_cons, optionalGet_of_get hk, ih]

end Declared

/-! ## Slots -/

/-- The slot of signer `pubKey` when the store holds `sig?` for it. -/
inductive SlotOf (pubKey : JsString) : Option JsString → Value → Prop
  | undefined : SlotOf pubKey none .undefined
  | null : SlotOf pubKey none .null
  | pending : SlotOf pubKey none (.obj [(js "pubKey", .str pubKey)])
  | filled (sig : JsString) (hsig : sig ≠ []) :
      SlotOf pubKey (some sig) (.obj [(js "pubKey", .str pubKey), (js "sig", .str sig)])

/-- The slots stand one by one beside the declared keys, as the store says. -/
abbrev SlotsOf (pubKeys : List JsString) (m : Store JsString JsString) (sigs : List Value) : Prop :=
  List.Forall₂ (fun pubKey slot => SlotOf pubKey (m pubKey) slot) pubKeys sigs

/-- No slot of another signer matches. -/
theorem strictEq_of_slotOf {pubKey k : JsString} {sig? : Option JsString} {slot : Value}
    (h : SlotOf pubKey sig? slot) (hne : pubKey ≠ k) :
    (slot.optionalGet (js "pubKey")).strictEq (.str k) = false := by
  cases h with
  | undefined => rfl
  | null => rfl
  | pending => exact decide_eq_false hne
  | filled sig => exact decide_eq_false hne

theorem strictEq_self (k : JsString) : (Value.str k).strictEq (.str k) = true :=
  decide_eq_true rfl

/-- With one signature to attach, a fresh slot takes it if it is its own. -/
theorem slotOf_freshSlot (k pubKey : JsString) {sig : JsString} (hsig : sig ≠ []) :
    SlotOf k (if pubKey = k then some sig else none)
      (freshSlot [{ sig := some sig, pubKey := some pubKey }] (.str k)) := by
  -- A signature that is the empty string would not be written: `signature?.sig` is falsy.
  cases sig with
  | nil => exact absurd rfl hsig
  | cons c sig =>
      by_cases hk : pubKey = k
      · have hfresh : freshSlot [{ sig := some (c :: sig), pubKey := some pubKey }] (.str k) =
            .obj [(js "pubKey", .str k), (js "sig", .str (c :: sig))] := by
          simp [freshSlot, hk]
        rw [hfresh, if_pos hk]
        exact SlotOf.filled (c :: sig) hsig
      · have hfresh : freshSlot [{ sig := some (c :: sig), pubKey := some pubKey }] (.str k) =
            .obj [(js "pubKey", .str k)] := by
          simp [freshSlot, hk]
        rw [hfresh, if_neg hk]
        exact SlotOf.pending

theorem find_slotsOf_of_notMem {pubKeys : List JsString} {m : Store JsString JsString}
    {sigs : List Value} (h : SlotsOf pubKeys m sigs) {k : JsString} (hk : k ∉ pubKeys) :
    sigs.find? (fun sig => (sig.optionalGet (js "pubKey")).strictEq (.str k)) = none := by
  induction h with
  | nil => rfl
  | @cons pubKey slot pubKeys sigs hslot _ ih =>
      have hne : pubKey ≠ k := fun heq => hk (by simp [heq])
      rw [List.find?_cons, strictEq_of_slotOf hslot hne]
      exact ih fun hmem => hk (List.mem_cons_of_mem _ hmem)

/-- Looking a slot up by public key finds the slot at that signer's position, unless it is
`undefined` or `null`. -/
theorem find_slotsOf {pubKeys : List JsString} {m : Store JsString JsString} {sigs : List Value}
    (h : SlotsOf pubKeys m sigs) (hnodup : pubKeys.Nodup) {k : JsString} (hk : k ∈ pubKeys) :
    ∃ slot, SlotOf k (m k) slot ∧
      sigs.find? (fun sig => (sig.optionalGet (js "pubKey")).strictEq (.str k)) =
        if (slot.optionalGet (js "pubKey")).strictEq (.str k) then some slot else none := by
  induction h with
  | nil => cases hk
  | @cons pubKey slot pubKeys sigs hslot hrest ih =>
      rcases List.nodup_cons.1 hnodup with ⟨hnot, hnodup⟩
      by_cases heq : pubKey = k
      -- The slot of the first signer; no other slot can match, since the keys are distinct.
      · subst heq
        refine ⟨slot, hslot, ?_⟩
        rw [List.find?_cons, find_slotsOf_of_notMem hrest hnot]
        cases (slot.optionalGet (js "pubKey")).strictEq (.str pubKey) <;> rfl
      · have hmem : k ∈ pubKeys := (List.mem_cons.1 hk).resolve_left fun h => heq h.symm
        rcases ih hnodup hmem with ⟨slot', hslot', hfind⟩
        refine ⟨slot', hslot', ?_⟩
        rw [List.find?_cons, strictEq_of_slotOf hslot heq]
        exact hfind

theorem offer_apply (m : Store JsString JsString) (pubKey sig k : JsString) :
    offer m (pubKey, sig) k = (m k).or (if pubKey = k then some sig else none) := by
  by_cases heq : pubKey = k
  · subst heq
    simp [offer_self]
  · rw [offer_of_ne m (Ne.symm heq), if_neg heq]
    simp

/-- One slot after one signature has been attached: the store has got one offer. -/
theorem slotOf_slotByPubKey {pubKeys : List JsString} {m : Store JsString JsString}
    {sigs : List Value} (h : SlotsOf pubKeys m sigs) (hnodup : pubKeys.Nodup) {k : JsString}
    (hk : k ∈ pubKeys) (pubKey : JsString) {sig : JsString} (hsig : sig ≠ []) :
    SlotOf k (offer m (pubKey, sig) k)
      (slotByPubKey sigs [{ sig := some sig, pubKey := some pubKey }] (.str k)) := by
  have hfresh := slotOf_freshSlot k pubKey hsig
  rcases find_slotsOf h hnodup hk with ⟨slot, hslot, hfind⟩
  rw [offer_apply]
  unfold slotByPubKey
  -- The store decides: without a signature the slot is written afresh, whatever it looked like.
  cases hm : m k with
  | none =>
      rw [hm] at hslot
      rw [Option.none_or]
      cases hslot with
      | undefined =>
          rw [hfind]
          exact hfresh
      | null =>
          rw [hfind]
          exact hfresh
      | pending =>
          rw [hfind.trans (if_pos (strictEq_self k))]
          exact hfresh
  | some sig' =>
      rw [hm] at hslot
      cases hslot with
      | filled _ hsig' =>
          rw [hfind.trans (if_pos (strictEq_self k))]
          -- The slot holds a signature, so it is returned as it is.
          have hfilled : ((Value.obj [(js "pubKey", .str k), (js "sig", .str sig')]).truthy &&
              ((Value.obj [(js "pubKey", .str k), (js "sig", .str sig')]).optionalGet
                (js "sig")).truthy) = true := decide_eq_true hsig'
          simp only [hfilled, if_true]
          exact SlotOf.filled sig' hsig'

/-! ## Commands and stores -/

/-- The command is the one given by `cmd` and `hash`, with the signatures of the store. -/
structure Holds (cmd hash : JsString) (pubKeys : List JsString) (m : Store JsString JsString)
    (tx : Command) : Prop where
  cmd : tx.cmd = cmd
  hash : tx.hash = hash
  slots : SlotsOf pubKeys m tx.sigs

/-- Signatures are non-empty strings. -/
structure SignaturesNonEmpty (B : Backend) : Prop where
  nacl : ∀ hash keypair sig, B.signHash hash keypair = .ok sig → sig ≠ []
  chainweaver : ∀ password hash key sig, B.kadenaSign password hash key = .ok sig → sig ≠ []

section Passes

variable {B : Backend} {cmd hash : JsString} {pubKeys : List JsString}
  {m : Store JsString JsString} {tx : Command}

/-- Attaching one signature is one offer. -/
theorem addSignatures_holds (hdecl : Declares cmd pubKeys) (hnodup : pubKeys.Nodup)
    (h : Holds cmd hash pubKeys m tx) (pubKey : JsString) {sig : JsString} (hsig : sig ≠ []) :
    ∃ tx', addSignatures tx [{ sig := some sig, pubKey := some pubKey }] = .ok tx' ∧
      Holds cmd hash pubKeys (offer m (pubKey, sig)) tx' := by
  rcases parseSigners_of_declares hdecl with ⟨signers, hsigners, hkeys⟩
  have hpubKeys := pubKeysOf_arr hkeys
  -- Every slot is rewritten in the order of the declared keys.
  refine ⟨{ tx with
    sigs := (pubKeys.map Value.str).map
      (slotByPubKey tx.sigs [{ sig := some sig, pubKey := some pubKey }]) }, ?_, ?_⟩
  · simp only [addSignatures, h.cmd, hsigners, ok_bind, hpubKeys]
    rfl
  · refine ⟨h.cmd, h.hash, ?_⟩
    rw [List.map_map]
    refine List.forall₂_map_right_iff.2 (List.forall₂_same.2 ?_)
    intro k hk
    exact slotOf_slotByPubKey h.slots hnodup hk pubKey hsig

/-- A fold whose steps are offers is the offers of the whole list. -/
theorem foldlM_holds {α : Type} {f : Command → α → Except Thrown Command}
    (o : α → JsString × JsString) {l : List α}
    (hf : ∀ a ∈ l, ∀ m tx, Holds cmd hash pubKeys m tx →
      ∃ tx', f tx a = .ok tx' ∧ Holds cmd hash pubKeys (offer m (o a)) tx')
    (h : Holds cmd hash pubKeys m tx) :
    ∃ tx', l.foldlM f tx = .ok tx' ∧ Holds cmd hash pubKeys (offers m (l.map o)) tx' := by
  -- On the list, with the store and the command as they are after each step.
  induction l generalizing m tx with
  | nil => exact ⟨tx, rfl, h⟩
  | cons a l ih =>
      rcases hf a (by simp) m tx h with ⟨tx₁, hstep, h₁⟩
      rcases ih (fun b hb => hf b (by simp [hb])) h₁ with ⟨tx₂, hrest, h₂⟩
      refine ⟨tx₂, ?_, h₂⟩
      rw [List.foldlM_cons, hstep]
      exact hrest

/-! ## One pass of signPartial -/

/-- What one keypair alone makes of the hash. -/
def keypairSignature (B : Backend) (hash : JsString) (kp : UniversalKeypair) :
    Except Thrown JsString :=
  if kp.isChainweaver then B.kadenaSign (kp.password.getD []) hash kp.encryptedSecretKey
  else B.signHash hash kp.toNaclPair

def offerOf (B : Backend) (hash : JsString) (kp : UniversalKeypair) : JsString × JsString :=
  (kp.key, (keypairSignature B hash kp).toOption.getD [])

/-- The offers of a pass: the relevant keypairs, those for nacl first. -/
def passOffers (B : Backend) (hash : JsString) (pubKeys : List JsString)
    (keypairs : List UniversalKeypair) : List (JsString × JsString) :=
  let handled := keypairs.filter fun kp => decide (kp.key ∈ pubKeys)
  (handled.filter fun kp => !kp.isChainweaver).map (offerOf B hash) ++
    (handled.filter UniversalKeypair.isChainweaver).map (offerOf B hash)

/-- Every relevant keypair signs on its own without throwing. -/
def SignsAlone (B : Backend) (hash : JsString) (pubKeys : List JsString)
    (keypairs : List UniversalKeypair) : Prop :=
  ∀ kp ∈ keypairs, kp.key ∈ pubKeys → ∃ sig, keypairSignature B hash kp = .ok sig

theorem getRelevantKeypairs_eq {signers : List Value} (hkeys : SignersOf signers pubKeys)
    {pairs : List NaclPair} (hpairs : ∀ pair ∈ pairs, pair.publicKey ∈ pubKeys) :
    getRelevantKeypairs (.arr signers) pairs = .ok pairs := by
  induction pairs with
  | nil => rfl
  | cons pair pairs ih =>
      have hpair : isRelevant (.arr signers) pair = .ok true := by
        rw [isRelevant, someSigner_eq hkeys, decide_eq_true (hpairs pair (by simp))]
      have hrest := ih fun p hp => hpairs p (by simp [hp])
      simp only [getRelevantKeypairs, hpair, hrest]
      rfl

/-- The nacl half of a pass. -/
theorem createSignWithKeypair_holds (hdecl : Declares cmd pubKeys) (hnodup : pubKeys.Nodup)
    (hB : SignaturesNonEmpty B) {kps : List UniversalKeypair} (hne : kps ≠ [])
    (hnacl : ∀ kp ∈ kps, kp.isChainweaver = false ∧ kp.key ∈ pubKeys ∧
      ∃ sig, keypairSignature B hash kp = .ok sig)
    (h : Holds cmd hash pubKeys m tx) :
    ∃ tx', createSignWithKeypair B (kps.map UniversalKeypair.toNaclPair) tx = .ok tx' ∧
      Holds cmd hash pubKeys (offers m (kps.map (offerOf B hash))) tx' := by
  rcases parseSigners_of_declares hdecl with ⟨signers, hsigners, hkeys⟩
  -- The handled keypairs pass the relevance filter of the nacl half unchanged.
  have hrelevant : getRelevantKeypairs (.arr signers) (kps.map UniversalKeypair.toNaclPair) =
      .ok (kps.map UniversalKeypair.toNaclPair) := by
    apply getRelevantKeypairs_eq hkeys
    intro pair hpair
    rcases List.mem_map.1 hpair with ⟨kp, hkp, rfl⟩
    exact (hnacl kp hkp).2.1
  have hstep : ∀ kp ∈ kps, ∀ m tx, Holds cmd hash pubKeys m tx →
      ∃ tx', signWithKeypair B tx kp.toNaclPair = .ok tx' ∧
        Holds cmd hash pubKeys (offer m (offerOf B hash kp)) tx' := by
    intro kp hkp m tx h
    rcases hnacl kp hkp with ⟨hcw, -, sig, hsig⟩
    have hsign : B.signHash hash kp.toNaclPair = .ok sig := by
      simpa [keypairSignature, hcw] using hsig
    have hoffer : offerOf B hash kp = (kp.key, sig) := by
      rw [offerOf, hsig]
      rfl
    rcases addSignatures_holds hdecl hnodup h kp.key (hB.nacl _ _ _ hsign) with ⟨tx', hadd, h'⟩
    refine ⟨tx', ?_, by rw [hoffer]; exact h'⟩
    simp only [signWithKeypair, h.hash, hsign, ok_bind]
    exact hadd
  rcases foldlM_holds (offerOf B hash) hstep h with ⟨tx', hfold, h'⟩
  refine ⟨tx', ?_, h'⟩
  have hnonempty : (kps.map UniversalKeypair.toNaclPair).isEmpty = false := by
    simpa using hne
  simp only [createSignWithKeypair, h.cmd, hsigners, ok_bind, hrelevant, hnonempty]
  rw [← hfold, List.foldlM_map]
  rfl

/-- The chainweaver half of a pass. -/
theorem signWithChainweaver_holds (hdecl : Declares cmd pubKeys) (hnodup : pubKeys.Nodup)
    (hempty : [] ∉ pubKeys) (hB : SignaturesNonEmpty B) {kps : List UniversalKeypair}
    (hchainweaver : ∀ kp ∈ kps, kp.isChainweaver = true ∧ kp.key ∈ pubKeys ∧
      ∃ sig, keypairSignature B hash kp = .ok sig)
    (h : Holds cmd hash pubKeys m tx) :
    ∃ tx', kps.foldlM (signWithChainweaver B) tx = .ok tx' ∧
      Holds cmd hash pubKeys (offers m (kps.map (offerOf B hash))) tx' := by
  refine foldlM_holds (offerOf B hash) ?_ h
  intro kp hkp m tx h
  rcases hchainweaver kp hkp with ⟨hcw, hkey, sig, hsig⟩
  have hsign : B.kadenaSign (kp.password.getD []) hash kp.encryptedSecretKey = .ok sig := by
    simpa [keypairSignature, hcw] using hsig
  have hoffer : offerOf B hash kp = (kp.key, sig) := by
    rw [offerOf, hsig]
    rfl
  -- The chainweaver half hands on `kp.publicKey`, which is there because the key is declared.
  have hpublic : kp.publicKey = some kp.key := by
    unfold UniversalKeypair.key at hkey ⊢
    cases hpk : kp.publicKey with
    | none =>
        rw [hpk] at hkey
        exact absurd hkey hempty
    | some k => rfl
  rcases addSignatures_holds hdecl hnodup h kp.key (hB.chainweaver _ _ _ _ hsign) with
    ⟨tx', hadd, h'⟩
  refine ⟨tx', ?_, by rw [hoffer]; exact h'⟩
  simp only [signWithChainweaver, h.hash, hsign, hpublic, ok_bind]
  exact hadd

theorem signPartial_eq (B : Backend) (tx : Command) (keypairs : List UniversalKeypair) :
    signPartial B tx keypairs = (signerPubKeys tx.cmd).bind fun signers =>
      let handled := handledKeypairs signers keypairs
      attachSignatures B tx
        ((handled.filter fun kp => !kp.isChainweaver).map UniversalKeypair.toNaclPair ++ [])
        (handled.filter UniversalKeypair.isChainweaver) := by
  unfold signPartial universalSignTransaction
  cases signerPubKeys tx.cmd <;> rfl

/-- A pass of `signPartial` is the offers of its keypairs. -/
theorem signPartial_holds (hdecl : Declares cmd pubKeys) (hnodup : pubKeys.Nodup)
    (hempty : [] ∉ pubKeys) (hB : SignaturesNonEmpty B) {keypairs : List UniversalKeypair}
    (hsigns : SignsAlone B hash pubKeys keypairs) (h : Holds cmd hash pubKeys m tx) :
    ∃ tx', signPartial B tx keypairs = .ok tx' ∧
      Holds cmd hash pubKeys (offers m (passOffers B hash pubKeys keypairs)) tx' := by
  rw [signPartial_eq, h.cmd, signerPubKeys_of_declares hdecl]
  have hhandled : handledKeypairs (pubKeys.map Value.str) keypairs =
      keypairs.filter fun kp => decide (kp.key ∈ pubKeys) := by
    simp only [handledKeypairs, includesKey_map_str]
  simp only [Except.bind, hhandled, List.append_nil]
  rw [passOffers, offers_append]
  set handled := keypairs.filter fun kp => decide (kp.key ∈ pubKeys) with hdef
  have hmem : ∀ kp ∈ handled, kp.key ∈ pubKeys ∧ ∃ sig, keypairSignature B hash kp = .ok sig := by
    intro kp hkp
    rcases List.mem_filter.1 hkp with ⟨hkp, hkey⟩
    have hkey : kp.key ∈ pubKeys := by simpa using hkey
    exact ⟨hkey, hsigns kp hkp hkey⟩
  -- Without a nacl pair `createSignWithKeypair` is not called; it would throw.
  have hnacl : ∃ tx₁,
      signWithNacl B tx
          ((handled.filter fun kp => !kp.isChainweaver).map UniversalKeypair.toNaclPair) =
        .ok tx₁ ∧
      Holds cmd hash pubKeys
        (offers m ((handled.filter fun kp => !kp.isChainweaver).map (offerOf B hash))) tx₁ := by
    by_cases hnil : (handled.filter fun kp => !kp.isChainweaver) = []
    · rw [hnil]
      exact ⟨tx, rfl, h⟩
    · rw [signWithNacl, if_neg (by simpa using hnil)]
      refine createSignWithKeypair_holds hdecl hnodup hB hnil ?_ h
      intro kp hkp
      rcases List.mem_filter.1 hkp with ⟨hkp, hcw⟩
      exact ⟨by simpa using hcw, hmem kp hkp⟩
  rcases hnacl with ⟨tx₁, hsign₁, h₁⟩
  have hrest : ∀ kp ∈ handled.filter UniversalKeypair.isChainweaver,
      kp.isChainweaver = true ∧ kp.key ∈ pubKeys ∧
        ∃ sig, keypairSignature B hash kp = .ok sig := by
    intro kp hkp
    rcases List.mem_filter.1 hkp with ⟨hkp, hcw⟩
    exact ⟨hcw, hmem kp hkp⟩
  rcases signWithChainweaver_holds hdecl hnodup hempty hB hrest h₁ with ⟨tx₂, hsign₂, h₂⟩
  refine ⟨tx₂, ?_, h₂⟩
  simp only [attachSignatures, hsign₁, ok_bind]
  exact hsign₂

end Passes

/-! ## Export and import -/

theorem normalize_transactionValue (tx : Command) :
    normalizeValue (transactionValue tx) =
      transactionValue { tx with sigs := normalizeItems tx.sigs } := rfl

theorem normalize_partialSigEnvelope (tx : Command) (metadata : Value) :
    normalizeValue (partialSigEnvelope tx metadata) =
      partialSigEnvelope { tx with sigs := normalizeItems tx.sigs } (normalizeValue metadata) := by
  have htruthy : (normalizeValue metadata).truthy = metadata.truthy := by
    cases metadata <;> rfl
  have hfields := normalize_transactionValue tx
  unfold partialSigEnvelope
  rw [htruthy]
  -- Falsy metadata leaves no member behind.
  by_cases hmetadata : metadata.truthy = true
  · have hdefined : metadata.isUndefined = false := by
      cases metadata <;> first | rfl | cases hmetadata
    rw [if_pos hmetadata, if_pos hmetadata]
    simp only [normalizeValue, List.cons_append, List.nil_append, normalizeMembers, hdefined]
    rfl
  · rw [if_neg hmetadata, if_neg hmetadata]
    rfl

/-- An envelope whose hash is right passes every check. -/
theorem readEnvelope_partialSigEnvelope {B : Backend} (tx : Command)
    (hhash : B.hash tx.cmd = tx.hash) (metadata : Value) :
    readEnvelope B (partialSigEnvelope tx metadata) = .ok tx := by
  have hformat : ((partialSigEnvelope tx metadata).optionalGet (js "format")).strictEq
      (.str (js partialSigFormat)) = true := strictEq_self _
  have hversion : ((partialSigEnvelope tx metadata).optionalGet (js "version")).strictEq
      (.num partialSigVersion) = true :=
    decide_eq_true (rfl : partialSigVersion.toNumber = partialSigVersion.toNumber)
  have htransaction : (partialSigEnvelope tx metadata).optionalGet (js "transaction") =
      transactionValue tx := rfl
  -- Hide the members, so that the checks are decided by the facts above and not by evaluation.
  rcases (⟨_, rfl⟩ : ∃ fields, partialSigEnvelope tx metadata = .obj fields) with ⟨fields, hobj⟩
  rw [hobj] at hformat hversion htransaction ⊢
  simp only [readEnvelope]
  rw [if_neg (not_not.2 hformat), if_neg (not_not.2 hversion), htransaction]
  exact if_pos hhash

/-- An imported export is the command with its slots as JSON gives them back. -/
theorem deserialize_serialize {B : Backend} {tx : Command} (hhash : B.hash tx.cmd = tx.hash)
    (metadata : Value) :
    deserializePartialTransaction B (serializePartialTransaction tx metadata) =
      .ok { tx with sigs := normalizeItems tx.sigs } := by
  have htext : stringify (partialSigEnvelope tx metadata) (js "  ") =
      some (serializePartialTransaction tx metadata) := rfl
  have hgap : ∀ c ∈ js "  ", isWhitespace c = true := List.all_eq_true.1 (by decide)
  have hparse := parse_stringify hgap htext
  rw [normalize_partialSigEnvelope] at hparse
  simp only [deserializePartialTransaction, hparse]
  exact readEnvelope_partialSigEnvelope { tx with sigs := normalizeItems tx.sigs } hhash _

theorem slotOf_normalize {pubKey : JsString} {sig? : Option JsString} {slot : Value}
    (h : SlotOf pubKey sig? slot) : SlotOf pubKey sig? (normalizeValue slot) := by
  cases h with
  | undefined => exact SlotOf.null
  | null => exact SlotOf.null
  | pending => exact SlotOf.pending
  | filled sig hsig => exact SlotOf.filled sig hsig

theorem slotsOf_normalizeItems {pubKeys : List JsString} {m : Store JsString JsString}
    {sigs : List Value} (h : SlotsOf pubKeys m sigs) :
    SlotsOf pubKeys m (normalizeItems sigs) := by
  induction h with
  | nil => exact List.Forall₂.nil
  | cons hslot _ ih => exact List.Forall₂.cons (slotOf_normalize hslot) ih

theorem import_holds {B : Backend} {cmd hash : JsString} {pubKeys : List JsString}
    {m : Store JsString JsString} {tx : Command} (hhash : B.hash cmd = hash)
    (h : Holds cmd hash pubKeys m tx) (metadata : Value) :
    ∃ tx', deserializePartialTransaction B (serializePartialTransaction tx metadata) = .ok tx' ∧
      Holds cmd hash pubKeys m tx' := by
  have hhash' : B.hash tx.cmd = tx.hash := by rw [h.cmd, h.hash, hhash]
  exact ⟨_, deserialize_serialize hhash' metadata, h.cmd, h.hash, slotsOf_normalizeItems h.slots⟩

/-! ## Runs of passes -/

/-- One party: the metadata of the export it gets and the keypairs it holds. -/
structure Pass where
  metadata : Value
  keypairs : List UniversalKeypair

def runPass (B : Backend) (tx : Command) (pass : Pass) : Except Thrown Command := do
  let imported ← deserializePartialTransaction B (serializePartialTransaction tx pass.metadata)
  signPartial B imported pass.keypairs

def runPasses (B : Backend) (tx : Command) (passes : List Pass) : Except Thrown Command :=
  passes.foldlM (runPass B) tx

/-- The offers of all passes, in order. -/
def allOffers (B : Backend) (hash : JsString) (pubKeys : List JsString) (passes : List Pass) :
    List (JsString × JsString) :=
  passes.flatMap fun pass => passOffers B hash pubKeys pass.keypairs

/-- What the builder hands out: distinct non-empty declared keys, empty slots, the hash of the
command. -/
structure Built (B : Backend) (tx : Command) (pubKeys : List JsString) : Prop where
  declares : Declares tx.cmd pubKeys
  nodup : pubKeys.Nodup
  nonempty : [] ∉ pubKeys
  hash : tx.hash = B.hash tx.cmd
  sigs : tx.sigs = List.replicate pubKeys.length .undefined

/-- `pactCommand.signers?.length ?? 0` -/
def signerCount (pactCommand : Value) : Nat :=
  match pactCommand.optionalGet (js "signers") with
  | .arr signers => signers.length
  | _ => 0

/-- The last step of the builder: print the command, hash the text, leave every slot empty. -/
def createTransaction (B : Backend) (pactCommand : Value) : Command :=
  let cmd := (stringify pactCommand []).getD []
  { cmd := cmd
    hash := B.hash cmd
    sigs := List.replicate (signerCount pactCommand) .undefined }

/-- A command without `undefined` members whose signers have distinct non-empty keys is built. -/
theorem built_createTransaction (B : Backend) {pactCommand : Value} (signers : List Value)
    {pubKeys : List JsString} (hplain : normalizeValue pactCommand = pactCommand)
    (hget : pactCommand.get (js "signers") = some (.arr signers))
    (hkeys : SignersOf signers pubKeys) (hnodup : pubKeys.Nodup) (hempty : [] ∉ pubKeys) :
    Built B (createTransaction B pactCommand) pubKeys := by
  -- A command with signers is no `undefined`, so there is a text to hash.
  have hdefined : pactCommand.isUndefined = false := by
    cases pactCommand <;> first | rfl | cases hget
  have htext : stringify pactCommand [] = some (createTransaction B pactCommand).cmd := by
    simp [createTransaction, stringify, hdefined]
  have hparse := parse_stringify (fun c hc => by cases hc) htext
  rw [hplain] at hparse
  refine ⟨⟨pactCommand, signers, hparse, hget, hkeys⟩, hnodup, hempty, rfl, ?_⟩
  simp only [createTransaction, signerCount, optionalGet_of_get hget, hkeys.length_eq]

theorem Built.holds {B : Backend} {tx : Command} {pubKeys : List JsString}
    (h : Built B tx pubKeys) : Holds tx.cmd tx.hash pubKeys (fun _ => none) tx := by
  refine ⟨rfl, rfl, ?_⟩
  rw [h.sigs]
  clear h
  induction pubKeys with
  | nil => exact List.Forall₂.nil
  | cons k pubKeys ih => exact List.Forall₂.cons SlotOf.undefined ih

/-- A run of passes is the offers of all of them. -/
theorem runPasses_holds {B : Backend} {pubKeys : List JsString} {cmd hash : JsString}
    (hdecl : Declares cmd pubKeys) (hnodup : pubKeys.Nodup) (hempty : [] ∉ pubKeys)
    (hhash : B.hash cmd = hash) (hB : SignaturesNonEmpty B) {passes : List Pass}
    (hsigns : ∀ pass ∈ passes, SignsAlone B hash pubKeys pass.keypairs)
    {m : Store JsString JsString} {tx : Command} (h : Holds cmd hash pubKeys m tx) :
    ∃ final, runPasses B tx passes = .ok final ∧
      Holds cmd hash pubKeys (offers m (allOffers B hash pubKeys passes)) final := by
  -- On the passes: each is an import, which changes no store, and a list of offers.
  induction passes generalizing m tx with
  | nil => exact ⟨tx, rfl, h⟩
  | cons pass passes ih =>
      rcases import_holds hhash h pass.metadata with ⟨imported, himport, h₁⟩
      rcases signPartial_holds hdecl hnodup hempty hB (hsigns pass (by simp)) h₁ with
        ⟨signed, hsign, h₂⟩
      rcases ih (fun p hp => hsigns p (by simp [hp])) h₂ with ⟨final, hrest, h₃⟩
      refine ⟨final, ?_, ?_⟩
      · have hpass : runPass B tx pass = .ok signed := by
          simp only [runPass, himport, ok_bind]
          exact hsign
        rw [runPasses, List.foldlM_cons, hpass]
        exact hrest
      · rw [allOffers, List.flatMap_cons, offers_append]
        exact h₃

end Signing
end StoaCore
