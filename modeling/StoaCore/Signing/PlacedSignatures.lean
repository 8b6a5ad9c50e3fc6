import StoaCore.Signing.AllOrNothing
import StoaCore.Signing.ManualKeys

/-!
# PlacedSignatures — when the signatures that a call places are valid

A keypair of a seed signs with tweetnacl, a keypair labelled for the hd-wallet with the wallet,
unless its password is empty: then tweetnacl signs with whatever the keypair has for a secret key.
A slot that the call fills may also take over an entry that stood elsewhere.
-/

namespace StoaCore
namespace Signing

open Library.Js
open Cryptography

/-! ## Keypairs that carry their key -/

/-- The private key is the Ed25519 seed of the public key, written with 64 digits. -/
def SeedOf (E : Ed25519) (secretKey pub : JsString) : Prop :=
  secretKey.length = 64 ∧
    ∃ pair, E.fromSeed (hexToBin secretKey) = .ok pair ∧ hexToBin pub = pair.publicKey

/-- What an encrypted extended key means: whose key it holds, and which passwords open it. -/
structure HdWallet where
  holdsKey : Value → JsString → Prop
  opens : JsString → Value → Prop

/-- With the right password `kadenaSign` makes a valid signature, otherwise it throws. -/
structure HdWallet.Documented (W : HdWallet) (B : Backend) (verify : Verify) : Prop where
  signs : ∀ password hash hashBytes encrypted pub, W.holdsKey encrypted pub →
    W.opens password encrypted → base64UrlDecodeArr hash = .ok hashBytes →
      ∃ sig, B.kadenaSign password hash encrypted = .ok sig ∧ Verifies verify hash pub sig
  throws : ∀ password hash encrypted pub, W.holdsKey encrypted pub →
    ¬ (W.opens password encrypted ∧ ∃ hashBytes, base64UrlDecodeArr hash = .ok hashBytes) →
      ∃ e, B.kadenaSign password hash encrypted = .error e

/-- `seedType` names the hd-wallet. -/
def UniversalKeypair.isLabelled (kp : UniversalKeypair) : Bool :=
  kp.seedType == some .chainweaver || kp.seedType == some .eckowallet

/-- A koala or foreign keypair has the seed of its public key, a chainweaver or eckowallet keypair
an encrypted key for it. -/
structure UniversalKeypair.CarriesKey (E : Ed25519) (W : HdWallet) (kp : UniversalKeypair) :
    Prop where
  seed : kp.seedType = some .koala ∨ kp.seedType = some .foreign →
    ∃ pub, kp.publicKey = some pub ∧ SeedOf E kp.secretKey pub
  encrypted : kp.isLabelled = true → kp.encryptedSecretKey.truthy = true ∧
    ∃ pub, kp.publicKey = some pub ∧ W.holdsKey kp.encryptedSecretKey pub

section Sound

variable {E : Ed25519} (hE : E.Documented) {B : Backend} {hash sig : JsString}

include hE

/-- A signature under the seed of a public key verifies. -/
theorem verifies_signHash {priv pub : JsString} (hseed : SeedOf E priv pub)
    (h : (B.withEd25519 E).signHash hash ⟨pub, priv⟩ = .ok sig) :
    Verifies E.verify hash pub sig := by
  rcases hseed with ⟨hlength, pair, hpair, hpub⟩
  rw [Backend.withEd25519_signHash] at h
  rcases (signHash_ok hE h).1 with ⟨hashBytes, hdecode⟩
  rcases signHash_seed hE hlength hpair hpub hdecode with ⟨sigBin, hmade, hsize, hverify⟩
  obtain rfl : sig = binToHex sigBin := Except.ok.inj (h.symm.trans hmade)
  exact verifies_binToHex hdecode hsize hverify

/-- The callback's private keys are seeds of the keys they derive. -/
theorem seedOf_of_derives {priv pub : JsString}
    (h : (B.withEd25519 E).publicKeyFromPrivateKey priv = .ok pub) : SeedOf E priv pub := by
  rcases publicKeyFromPrivateKey_ok (Backend.withEd25519_publicKeyFromPrivateKey.1 h) with
    ⟨keyPair, hrestore, rfl⟩
  rcases restoreKeyPairFromSecretKey_ok hE hrestore with ⟨hlength, -, pair, hpair, -, -, hkey⟩
  refine ⟨hlength, pair, hpair, ?_⟩
  rw [hkey, hexToBin, binToHex, bufferFromHex_bufferToHex]

omit hE

theorem verifies_kadenaSign {W : HdWallet} {verify : Verify} (hW : W.Documented B verify)
    {encrypted : Value} {password pub : JsString} (hholds : W.holdsKey encrypted pub)
    (h : B.kadenaSign password hash encrypted = .ok sig) : Verifies verify hash pub sig := by
  by_cases hright : W.opens password encrypted ∧
      ∃ hashBytes, base64UrlDecodeArr hash = .ok hashBytes
  · rcases hright with ⟨hopens, hashBytes, hdecode⟩
    rcases hW.signs password hash hashBytes encrypted pub hholds hopens hdecode with
      ⟨made, hmade, hverifies⟩
    rw [Except.ok.inj (h.symm.trans hmade)]
    exact hverifies
  · rcases hW.throws password hash encrypted pub hholds hright with ⟨e, herror⟩
    cases h.symm.trans herror

end Sound

/-! ## What a call should and what it does place -/

/-- The keypairs that sign through tweetnacl. -/
def naclKeypairs (pubKeys : List Value) (kps : List UniversalKeypair) : List UniversalKeypair :=
  (handledKeypairs pubKeys kps).filter fun kp => !kp.isChainweaver

/-- Every slot that was empty and is filled now holds a signature that verifies under its key. -/
def NewSlotsVerify (verify : Verify) (tx signed : Command) (pubKeys : List Value) : Prop :=
  ∀ i, isSlotFilled (slotAt tx.sigs i) = false → isSlotFilled (slotAt signed.sigs i) = true →
    ∃ k, pubKeys[i]? = some (.str k) ∧ SlotSigned verify signed k (slotAt signed.sigs i)

/-- The call has placed valid signatures only, and no labelled keypair signed through tweetnacl. -/
structure PlacesValid (verify : Verify) (tx signed : Command) (pubKeys : List Value)
    (kps : List UniversalKeypair) : Prop where
  verifies : NewSlotsVerify verify tx signed pubKeys
  routed : ∀ kp ∈ naclKeypairs pubKeys kps, kp.isLabelled = false

/-- What the input of a call has to fulfil.  Labelled keypairs have a password; an entry that a
signer keeps, and that moves to an empty slot, is signed; and an unlabelled keypair that is the
first for an empty slot makes a valid signature. -/
structure RoutesSafely (E : Ed25519) (B : Backend) (tx : Command) (pubKeys : List Value)
    (kps : List UniversalKeypair) (asks : Bool) : Prop where
  passwords : ∀ kp ∈ kps, includesKey pubKeys kp.key = true → kp.isLabelled = true →
    kp.password.getD [] ≠ []
  kept : pubKeys.any (signable (kps.map UniversalKeypair.key) asks) = true →
    ∀ i pubKey entry, pubKeys[i]? = some pubKey → isSlotFilled (slotAt tx.sigs i) = false →
      keptSlot tx.sigs pubKey = some entry → isSlotFilled entry = true →
        ∃ k, pubKey = .str k ∧ SlotSigned E.verify tx k entry
  unlabelled : ∀ i k kp, pubKeys[i]? = some (.str k) → isSlotFilled (slotAt tx.sigs i) = false →
    keptSlot tx.sigs (.str k) = none →
      (naclKeypairs pubKeys kps).find? (fun kp => decide (k = kp.key)) = some kp →
        kp.seedType = none →
          ∃ sig, B.signHash tx.hash kp.toNaclPair = .ok sig ∧ Verifies E.verify tx.hash k sig

/-! ## The first signer of a key -/

/-- Keypairs that sign through tweetnacl come first; behind them are the private keys that were
asked for and the keypairs of the hd-wallet. -/
theorem firstSigner_cases {pubKeys : List Value} {kps : List UniversalKeypair}
    {pairs : List NaclPair} {k : JsString} {s : Signer}
    (h : (signersOf pubKeys kps pairs).find? (fun s => (Value.str k).strictEq (.str s.key)) =
      some s) :
    (∃ kp, (naclKeypairs pubKeys kps).find? (fun kp => decide (k = kp.key)) = some kp ∧
      s = .nacl kp.toNaclPair) ∨
    (∃ pair ∈ pairs, s = .nacl pair ∧ pair.publicKey = k) ∨
      ∃ kp ∈ kps, kp.isChainweaver = true ∧ s = .chainweaver kp ∧ kp.key = k := by
  have hkey : k = s.key := of_decide_eq_true
    (List.find?_some (p := fun s : Signer => (Value.str k).strictEq (.str s.key)) h)
  rw [find_signersOf_eq] at h
  rcases Option.or_eq_some_iff.1 h with hfirst | ⟨-, hlater⟩
  · rcases Option.map_eq_some_iff.1 hfirst with ⟨kp, hkp, rfl⟩
    exact Or.inl ⟨kp, hkp, rfl⟩
  · rcases List.mem_append.1 (List.mem_of_find?_eq_some hlater) with hforeign | hwallet
    · rcases List.mem_map.1 hforeign with ⟨pair, hpair, rfl⟩
      exact Or.inr (Or.inl ⟨pair, hpair, rfl, hkey.symm⟩)
    · rcases List.mem_map.1 hwallet with ⟨kp, hkp, rfl⟩
      rcases List.mem_filter.1 hkp with ⟨hkp, hchainweaver⟩
      exact Or.inr (Or.inr ⟨kp, (List.mem_filter.1 hkp).1, hchainweaver, rfl, hkey.symm⟩)

/-! ## Where a filled slot comes from -/

/-- The slots of `signed` are those of `tx` after the steps, which attach by public key. -/
structure SlotsFrom (B : Backend) (tx signed : Command) (pubKeys : List Value)
    (steps : List Signer) : Prop where
  hash : signed.hash = tx.hash
  keyed : steps.any Signer.isKeyless = false
  signs : ∀ s ∈ steps, ∃ sig, s.sign B tx.hash = .ok sig ∧ sig ≠ []
  slots : signed.sigs =
    if steps = [] then tx.sigs else pubKeys.map (slotAfter B tx.hash steps tx.sigs)

section Slots

variable {B : Backend} {tx signed : Command} {pubKeys : List Value} {steps : List Signer}
  (hfrom : SlotsFrom B tx signed pubKeys steps) {i : Nat} {pubKey : Value}

include hfrom

theorem SlotsFrom.slotAt_eq (hne : steps ≠ []) (hi : pubKeys[i]? = some pubKey) :
    slotAt signed.sigs i = slotAfter B tx.hash steps tx.sigs pubKey := by
  have hslots := hfrom.slots
  rw [if_neg hne] at hslots
  rw [hslots, slotAt, List.getElem?_map, hi]
  rfl

theorem SlotsFrom.slotAt_kept (hne : steps ≠ []) (hi : pubKeys[i]? = some pubKey) {entry : Value}
    (hkept : keptSlot tx.sigs pubKey = some entry) : slotAt signed.sigs i = entry := by
  rw [hfrom.slotAt_eq hne hi, slotAfter, entryFor_keyed hfrom.keyed, hkept]
  rfl

theorem SlotsFrom.slotAt_made (hi : pubKeys[i]? = some pubKey)
    (hkept : keptSlot tx.sigs pubKey = none) {s : Signer}
    (hfind : steps.find? (fun s => pubKey.strictEq (.str s.key)) = some s) {sig : JsString}
    (hsign : s.sign B tx.hash = .ok sig) : slotAt signed.sigs i = slotWith pubKey sig := by
  have hne : steps ≠ [] := List.ne_nil_of_mem (List.mem_of_find?_eq_some hfind)
  rw [hfrom.slotAt_eq hne hi, slotAfter_keyed hfrom.keyed hfind, hkept, Signer.signed_eq hsign]
  rfl

/-- A slot that was empty and is filled now holds an entry that was kept, or the signature of the
first signer of its key. -/
theorem SlotsFrom.newly_filled (hempty : isSlotFilled (slotAt tx.sigs i) = false)
    (hfilled : isSlotFilled (slotAt signed.sigs i) = true) :
    steps ≠ [] ∧ ∃ pubKey, pubKeys[i]? = some pubKey ∧
      (keptSlot tx.sigs pubKey = some (slotAt signed.sigs i) ∨
        keptSlot tx.sigs pubKey = none ∧ ∃ s k sig, pubKey = .str k ∧
          steps.find? (fun s => (Value.str k).strictEq (.str s.key)) = some s ∧
          s.sign B tx.hash = .ok sig ∧ slotAt signed.sigs i = slotWith (.str k) sig) := by
  have hslots := hfrom.slots
  have hne : steps ≠ [] := by
    intro hnil
    rw [if_pos hnil] at hslots
    rw [hslots] at hfilled
    exact absurd (hempty.symm.trans hfilled) (by decide)
  refine ⟨hne, ?_⟩
  cases hi : pubKeys[i]? with
  | none =>
      -- Behind the declared keys there is no slot.
      have hnone : slotAt signed.sigs i = .undefined := by
        rw [if_neg hne] at hslots
        rw [hslots, slotAt, List.getElem?_map, hi]
        rfl
      rw [hnone] at hfilled
      cases hfilled
  | some pubKey =>
      refine ⟨pubKey, rfl, ?_⟩
      cases hkept : keptSlot tx.sigs pubKey with
      | some entry => exact Or.inl (congrArg some (hfrom.slotAt_kept hne hi hkept).symm)
      | none =>
          refine Or.inr ⟨rfl, ?_⟩
          cases hfind : steps.find? fun s => pubKey.strictEq (.str s.key) with
          | none =>
              have hbare : slotAt signed.sigs i = bareSlot pubKey := by
                rw [hfrom.slotAt_eq hne hi, slotAfter, entryFor_keyed hfrom.keyed, hkept,
                  madeFor_keyed hfrom.keyed, hfind]
                rfl
              rw [hbare] at hfilled
              cases hfilled
          | some s =>
              have hkey : pubKey = .str s.key := Value.eq_of_strictEq_str
                (List.find?_some (p := fun s : Signer => pubKey.strictEq (.str s.key)) hfind)
              rcases hfrom.signs s (List.mem_of_find?_eq_some hfind) with ⟨sig, hsign, -⟩
              rw [hkey] at hfind hi hkept
              exact ⟨s, s.key, sig, hkey, hfind, hsign, hfrom.slotAt_made hi hkept hfind hsign⟩

end Slots

/-! ## Exactly when the placed signatures are valid -/

section Call

variable {σ : Type} {E : Ed25519} {W : HdWallet} {B : Backend} {tx signed : Command}
  {pubKeys : List Value} {kps : List UniversalKeypair}
  {onMissingKey : Option (Value → Async σ JsString)} {w w' : σ} {pairs : List NaclPair}

theorem isLabelled_of_isChainweaver {kp : UniversalKeypair} (h : kp.isChainweaver = true) :
    kp.isLabelled = true := by
  unfold UniversalKeypair.isChainweaver at h
  rw [Bool.and_eq_true, Bool.and_eq_true] at h
  exact h.1.1

/-- A labelled keypair with an encrypted key goes to the hd-wallet if it has a password. -/
theorem isChainweaver_iff {kp : UniversalKeypair} (hkp : kp.CarriesKey E W)
    (hlabelled : kp.isLabelled = true) :
    kp.isChainweaver = true ↔ kp.password.getD [] ≠ [] := by
  have htruthy := (hkp.encrypted hlabelled).1
  unfold UniversalKeypair.isLabelled at hlabelled
  unfold UniversalKeypair.isChainweaver
  rw [hlabelled, htruthy, Bool.true_and, Bool.true_and, bne_iff_ne]

/-- Somebody signs exactly if some declared key is signable. -/
theorem signersOf_ne_nil_iff
    (hpairs : Async.runIn (foreignKeyPairs B onMissingKey pubKeys
      ((handledKeypairs pubKeys kps).map UniversalKeypair.key)) w = (.ok pairs, w')) :
    signersOf pubKeys kps pairs ≠ [] ↔
      pubKeys.any (signable (kps.map UniversalKeypair.key) onMissingKey.isSome) = true := by
  constructor
  · intro hne
    rcases List.exists_mem_of_ne_nil _ hne with ⟨s, hs⟩
    rcases mem_signersOf.1 hs with ⟨kp, hkp, hincluded, -⟩ | ⟨pair, hpair, -⟩
    · rcases List.any_eq_true.1 hincluded with ⟨pubKey, hmem, heq⟩
      exact List.any_eq_true.2 ⟨pubKey, hmem,
        signable_iff.2 (Or.inr ⟨kp.key, List.mem_map_of_mem hkp, heq⟩)⟩
    · rcases (foreignKeyPairs_spec (congrArg Prod.fst hpairs)).1 pair hpair with
        ⟨hasks, pubKey, hmem, -⟩
      exact List.any_eq_true.2 ⟨pubKey, hmem, signable_iff.2 (Or.inl hasks)⟩
  · intro hany
    rcases List.any_eq_true.1 hany with ⟨pubKey, hmem, hsignable⟩
    rcases signable_iff.1 hsignable with hasks | ⟨k, hk, heq⟩
    · rcases exists_signer hasks hpairs hmem with ⟨s, hs, -⟩
      exact List.ne_nil_of_mem hs
    · rcases List.mem_map.1 hk with ⟨kp, hkp, rfl⟩
      exact List.ne_nil_of_mem (mem_signersOf.2
        (Or.inl ⟨kp, hkp, List.any_eq_true.2 ⟨pubKey, hmem, heq⟩, rfl⟩))

variable (hkps : ∀ kp ∈ kps, kp.CarriesKey E W)

include hkps

/-- No signature is attached by position. -/
theorem keyed_of_carriesKey :
    (signersOf pubKeys kps pairs).any Signer.isKeyless = false := by
  rw [List.any_eq_false]
  intro s hs hkeyless
  rcases mem_signersOf.1 hs with ⟨kp, hkp, -, rfl⟩ | ⟨pair, -, rfl⟩
  · cases hcw : kp.isChainweaver with
    | false =>
        rw [hcw] at hkeyless
        cases hkeyless
    | true =>
        rw [hcw] at hkeyless
        rcases ((hkps kp hkp).encrypted (isLabelled_of_isChainweaver hcw)).2 with ⟨pub, hpub, -⟩
        have hnone : kp.publicKey = none := Option.isNone_iff_eq_none.1 hkeyless
        cases hpub.symm.trans hnone
  · cases hkeyless

variable (hW : W.Documented B E.verify)

include hW

theorem verifies_chainweaver {kp : UniversalKeypair} (hkp : kp ∈ kps)
    (hcw : kp.isChainweaver = true) {hash sig : JsString}
    (h : (Signer.chainweaver kp).sign (B.withEd25519 E) hash = .ok sig) :
    Verifies E.verify hash kp.key sig := by
  rcases ((hkps kp hkp).encrypted (isLabelled_of_isChainweaver hcw)).2 with ⟨pub, hpub, hholds⟩
  have hkey : kp.key = pub := by
    rw [UniversalKeypair.key, hpub]
    rfl
  rw [hkey]
  exact verifies_kadenaSign hW hholds h

variable (hE : E.Documented)

include hE

/-- Whoever signs, the signature is not empty. -/
theorem signed_ne_nil {s : Signer} (hs : s ∈ signersOf pubKeys kps pairs) {hash : JsString}
    (hsigns : s.Signs (B.withEd25519 E) hash pubKeys) :
    s.signed (B.withEd25519 E) hash ≠ [] := by
  rcases hsigns.1 with ⟨sig, hsig⟩
  rw [Signer.signed_eq hsig]
  have hnacl : ∀ pair : NaclPair, (B.withEd25519 E).signHash hash pair = .ok sig → sig ≠ [] := by
    intro pair hmade hnil
    have hlength := (signHash_ok hE (Backend.withEd25519_signHash.1 hmade)).2.2
    rw [hnil] at hlength
    cases hlength
  rcases mem_signersOf.1 hs with ⟨kp, hkp, -, rfl⟩ | ⟨pair, -, rfl⟩
  · cases hcw : kp.isChainweaver with
    | false =>
        rw [hcw] at hsig
        exact hnacl _ hsig
    | true =>
        rw [hcw] at hsig
        exact (verifies_chainweaver hkps hW hkp hcw hsig).ne_nil
  · exact hnacl _ hsig

/-- The first signer of a key makes a valid signature, if it is none of the keypairs without a
seed. -/
theorem verifies_firstSigner
    (hpairs : Async.runIn (foreignKeyPairs (B.withEd25519 E) onMissingKey pubKeys
      ((handledKeypairs pubKeys kps).map UniversalKeypair.key)) w = (.ok pairs, w'))
    (hrouted : ∀ kp ∈ naclKeypairs pubKeys kps, kp.isLabelled = false) {k hash sig : JsString}
    (hunlabelled : ∀ kp,
      (naclKeypairs pubKeys kps).find? (fun kp => decide (k = kp.key)) = some kp →
        kp.seedType = none → ∃ sig, (B.withEd25519 E).signHash hash kp.toNaclPair = .ok sig ∧
          Verifies E.verify hash k sig)
    {s : Signer} (hfind : (signersOf pubKeys kps pairs).find?
      (fun s => (Value.str k).strictEq (.str s.key)) = some s)
    (hsign : s.sign (B.withEd25519 E) hash = .ok sig) : Verifies E.verify hash k sig := by
  rcases firstSigner_cases hfind with ⟨kp, hfirst, rfl⟩ | ⟨pair, hpair, rfl, rfl⟩ |
    ⟨kp, hkp, hcw, rfl, rfl⟩
  · have hmem := List.mem_of_find?_eq_some hfirst
    have hin : kp ∈ kps := (List.mem_filter.1 (List.mem_filter.1 hmem).1).1
    have hkey : k = kp.key := of_decide_eq_true
      (List.find?_some (p := fun kp : UniversalKeypair => decide (k = kp.key)) hfirst)
    have hseed : kp.seedType = some .koala ∨ kp.seedType = some .foreign →
        Verifies E.verify hash k sig := by
      intro hlabel
      rcases (hkps kp hin).seed hlabel with ⟨pub, hpub, hseed⟩
      have hpublic : kp.key = pub := by
        rw [UniversalKeypair.key, hpub]
        rfl
      rw [hkey, hpublic]
      apply verifies_signHash hE hseed
      rw [← hpublic]
      exact hsign
    cases hlabel : kp.seedType with
    | none =>
        rcases hunlabelled kp hfirst hlabel with ⟨made, hmade, hverifies⟩
        rw [Except.ok.inj (hsign.symm.trans hmade)]
        exact hverifies
    | some seedType =>
        have hnot := hrouted kp hmem
        unfold UniversalKeypair.isLabelled at hnot
        cases seedType with
        | koala => exact hseed (Or.inl hlabel)
        | foreign => exact hseed (Or.inr hlabel)
        | chainweaver =>
            rw [hlabel] at hnot
            cases hnot
        | eckowallet =>
            rw [hlabel] at hnot
            cases hnot
  · cases onMissingKey with
    | none =>
        cases hpairs
        cases hpair
    | some callback =>
        exact verifies_signHash hE
          (seedOf_of_derives hE (resolveMissingKeys_pairs hpairs pair hpair).1) hsign
  · exact verifies_chainweaver hkps hW hkp hcw hsign

/-- The slots after a call that returns. -/
theorem slotsFrom_of_ok (hkeys : signerPubKeys tx.cmd = .ok pubKeys)
    (hpairs : Async.runIn (foreignKeyPairs (B.withEd25519 E) onMissingKey pubKeys
      ((handledKeypairs pubKeys kps).map UniversalKeypair.key)) w = (.ok pairs, w'))
    (h : (signersOf pubKeys kps pairs).foldlM (signStep (B.withEd25519 E)) tx = .ok signed) :
    SlotsFrom (B.withEd25519 E) tx signed pubKeys (signersOf pubKeys kps pairs) := by
  have hdeclared := includesKey_of_foreignPairs hpairs
  rcases (foldlM_signStep_ok_iff (lists_of_signersOf hkeys hdeclared)).1 h with ⟨hsigns, heq⟩
  have hnonempty : ∀ s ∈ signersOf pubKeys kps pairs,
      s.signed (B.withEd25519 E) tx.hash ≠ [] :=
    fun s hs => signed_ne_nil hkps hW hE hs (hsigns s hs)
  refine ⟨?_, keyed_of_carriesKey hkps, ?_, slots_of_signed hkeys h hdeclared hnonempty⟩
  · rw [heq]
  · intro s hs
    rcases (hsigns s hs).1 with ⟨sig, hsig⟩
    have hne := hnonempty s hs
    rw [Signer.signed_eq hsig] at hne
    exact ⟨sig, hsig, hne⟩

omit hW hE in
/-- A call that places valid signatures only had a safe input. -/
theorem routesSafely_of_placesValid
    (hpairs : Async.runIn (foreignKeyPairs (B.withEd25519 E) onMissingKey pubKeys
      ((handledKeypairs pubKeys kps).map UniversalKeypair.key)) w = (.ok pairs, w'))
    (hfrom : SlotsFrom (B.withEd25519 E) tx signed pubKeys (signersOf pubKeys kps pairs))
    (h : PlacesValid E.verify tx signed pubKeys kps) :
    RoutesSafely E (B.withEd25519 E) tx pubKeys kps onMissingKey.isSome := by
  have hverifies : ∀ {i : Nat} {pubKey slot : Value}, pubKeys[i]? = some pubKey →
      isSlotFilled (slotAt tx.sigs i) = false → slotAt signed.sigs i = slot →
        isSlotFilled slot = true → ∃ k, pubKey = .str k ∧ SlotSigned E.verify tx k slot := by
    rintro i pubKey slot hi hempty rfl hfilled
    rcases h.verifies i hempty hfilled with ⟨k, hk, hsigned⟩
    exact ⟨k, Option.some.inj (hi.symm.trans hk), (slotSigned_congr hfrom.hash _).1 hsigned⟩
  refine ⟨?_, ?_, ?_⟩
  · intro kp hkp hincluded hlabelled
    rw [← isChainweaver_iff (hkps kp hkp) hlabelled]
    by_contra hnacl
    have hmem : kp ∈ naclKeypairs pubKeys kps :=
      List.mem_filter.2 ⟨List.mem_filter.2 ⟨hkp, hincluded⟩, by simpa using hnacl⟩
    exact absurd (hlabelled.symm.trans (h.routed kp hmem)) (by decide)
  · intro hany i pubKey entry hi hempty hkept hfilled
    have hne := (signersOf_ne_nil_iff hpairs).2 hany
    exact hverifies hi hempty (hfrom.slotAt_kept hne hi hkept) hfilled
  · intro i k kp hi hempty hkept hfirst _
    have hfind : (signersOf pubKeys kps pairs).find?
        (fun s => (Value.str k).strictEq (.str s.key)) = some (.nacl kp.toNaclPair) := by
      have hfirst' : ((handledKeypairs pubKeys kps).filter fun kp => !kp.isChainweaver).find?
          (fun kp => (Value.str k).strictEq (.str kp.key)) = some kp := hfirst
      rw [find_signersOf_eq, hfirst']
      rfl
    rcases hfrom.signs _ (List.mem_of_find?_eq_some hfind) with ⟨sig, hsign, hne⟩
    have hslot := hfrom.slotAt_made hi hkept hfind hsign
    have hfilled : isSlotFilled (slotWith (.str k) sig) = true := bne_iff_ne.2 hne
    rcases hverifies hi hempty hslot hfilled with ⟨k', hk', hsigned⟩
    rw [Value.str.inj hk']
    exact ⟨sig, hsign, slotSigned_slotWith.1 hsigned⟩

/-- On a safe input a call places valid signatures only. -/
theorem placesValid_of_routesSafely
    (hpairs : Async.runIn (foreignKeyPairs (B.withEd25519 E) onMissingKey pubKeys
      ((handledKeypairs pubKeys kps).map UniversalKeypair.key)) w = (.ok pairs, w'))
    (hfrom : SlotsFrom (B.withEd25519 E) tx signed pubKeys (signersOf pubKeys kps pairs))
    (h : RoutesSafely E (B.withEd25519 E) tx pubKeys kps onMissingKey.isSome) :
    PlacesValid E.verify tx signed pubKeys kps := by
  have hrouted : ∀ kp ∈ naclKeypairs pubKeys kps, kp.isLabelled = false := by
    intro kp hkp
    rcases List.mem_filter.1 hkp with ⟨hhandled, hnacl⟩
    rcases List.mem_filter.1 hhandled with ⟨hin, hincluded⟩
    by_contra hlabelled
    rw [Bool.not_eq_false] at hlabelled
    have hcw := (isChainweaver_iff (hkps kp hin) hlabelled).2
      (h.passwords kp hin hincluded hlabelled)
    rw [hcw] at hnacl
    cases hnacl
  refine ⟨?_, hrouted⟩
  intro i hempty hfilled
  rcases hfrom.newly_filled hempty hfilled with ⟨hne, pubKey, hi, hkept | hmade⟩
  · rcases h.kept ((signersOf_ne_nil_iff hpairs).1 hne) i pubKey _ hi hempty hkept hfilled with
      ⟨k, rfl, hsigned⟩
    exact ⟨k, hi, (slotSigned_congr hfrom.hash _).2 hsigned⟩
  · rcases hmade with ⟨hkept, s, k, sig, rfl, hfind, hsign, hslot⟩
    have hverifies : Verifies E.verify tx.hash k sig :=
      verifies_firstSigner hkps hW hE hpairs hrouted
        (fun kp hfirst hlabel => h.unlabelled i k kp hi hempty hkept hfirst hlabel) hfind hsign
    rw [hslot]
    exact ⟨k, hi, (slotSigned_congr hfrom.hash _).2 (slotSigned_slotWith.2 hverifies)⟩

end Call

/-- Whenever `universalSignTransaction` returns, the signatures it has placed are valid exactly if
every keypair labelled for the hd-wallet had a password, as far as the entries that move and the
keypairs without a label are valid themselves. -/
theorem placed_signatures_valid_iff {σ : Type} {E : Ed25519} (hE : E.Documented) {W : HdWallet}
    {B : Backend} (hW : W.Documented B E.verify) {tx signed : Command} {pubKeys : List Value}
    (hkeys : signerPubKeys tx.cmd = .ok pubKeys) {kps : List UniversalKeypair}
    (hkps : ∀ kp ∈ kps, kp.CarriesKey E W) (onMissingKey : Option (Value → Async σ JsString))
    (w : σ) (h : (Async.runIn
      (universalSignTransaction (B.withEd25519 E) tx kps onMissingKey) w).1 = .ok signed) :
    PlacesValid E.verify tx signed pubKeys kps ↔
      RoutesSafely E (B.withEd25519 E) tx pubKeys kps onMissingKey.isSome := by
  rcases exists_foreignPairs hkeys h with ⟨pairs, w', hpairs⟩
  rw [runIn_universalSignTransaction hkeys hpairs] at h
  have hfrom := slotsFrom_of_ok hkps hW hE hkeys hpairs h
  exact ⟨routesSafely_of_placesValid hkps hpairs hfrom,
    placesValid_of_routesSafely hkps hW hE hpairs hfrom⟩

/-! ## A keypair without its password -/

/-- The encrypted key of A, and its password. -/
def transferWallet : HdWallet where
  holdsKey := fun encrypted pub => encrypted = .str (js "encrypted") ∧ pub = publicKeyA
  opens := fun password _ => password = js "pw"

def walletBackend : Backend :=
  { transferBackend with
    kadenaSign := fun password hash _ =>
      if password = js "pw" then
        match base64UrlDecodeArr hash with
        | .ok hashBytes => .ok (binToHex (transferSigned hashBytes (hexToBin publicKeyA)))
        | .error message => .error (.error message)
      else .error (.external (js "Decryption failed")) }

theorem documented_transferWallet :
    transferWallet.Documented walletBackend transferEd25519.verify where
  signs := by
    rintro password hash hashBytes encrypted pub ⟨-, rfl⟩ hpassword hdecode
    have hlength := length_transferSigned hashBytes (hexToBin publicKeyA)
    refine ⟨binToHex (transferSigned hashBytes (hexToBin publicKeyA)), ?_,
      verifies_binToHex hdecode hlength (congrArg Except.ok (decide_eq_true rfl))⟩
    simp only [walletBackend, if_pos (show password = js "pw" from hpassword), hdecode]
  throws := by
    intro password hash encrypted pub _ hwrong
    unfold walletBackend
    dsimp only
    split
    case isFalse => exact ⟨_, rfl⟩
    case isTrue hpassword =>
      cases hdecode : base64UrlDecodeArr hash with
      | error message => exact ⟨_, rfl⟩
      | ok hashBytes => exact absurd ⟨hpassword, hashBytes, hdecode⟩ hwrong

/-- The keypair of A, labelled for the hd-wallet; its secret key is that of B. -/
def chainweaverKeypair (password : Option JsString) : UniversalKeypair where
  publicKey := some publicKeyA
  secretKey := secretKeyB
  seedType := some .chainweaver
  encryptedSecretKey := .str (js "encrypted")
  password := password

theorem carriesKey_chainweaverKeypair (E : Ed25519) (password : Option JsString) :
    (chainweaverKeypair password).CarriesKey E transferWallet where
  seed := by
    intro hlabel
    rcases hlabel with hlabel | hlabel
    · cases hlabel
    · cases hlabel
  encrypted := fun _ => ⟨rfl, publicKeyA, rfl, rfl, rfl⟩

theorem carriesKey_koalaKeypair :
    (koalaKeypair publicKeyB secretKeyB).CarriesKey transferEd25519 transferWallet where
  seed := by
    intro _
    have hderive : (walletBackend.withEd25519 transferEd25519).publicKeyFromPrivateKey secretKeyB =
        .ok publicKeyB := by decide +kernel
    exact ⟨publicKeyB, rfl, seedOf_of_derives documented_transferEd25519 hderive⟩
  encrypted := by
    intro hlabelled
    cases hlabelled

/-- A signs with the hd-wallet and B with tweetnacl. -/
theorem placed_signatures_valid_iff_transfer :
    ∃ signed, (Async.runIn (universalSignTransaction (walletBackend.withEd25519 transferEd25519)
        transferTransaction [koalaKeypair publicKeyB secretKeyB,
          chainweaverKeypair (some (js "pw"))] (none : Option (Value → Async Unit JsString)))
            ()).1 = .ok signed ∧
      PlacesValid transferEd25519.verify transferTransaction signed
        [.str publicKeyA, .str publicKeyB]
        [koalaKeypair publicKeyB secretKeyB, chainweaverKeypair (some (js "pw"))] := by
  have hkeys : signerPubKeys transferTransaction.cmd = .ok [.str publicKeyA, .str publicKeyB] :=
    signerPubKeys_of_declares built_transferTransaction.declares
  have hkps : ∀ kp ∈ [koalaKeypair publicKeyB secretKeyB, chainweaverKeypair (some (js "pw"))],
      kp.CarriesKey transferEd25519 transferWallet :=
    List.forall_mem_cons.2 ⟨carriesKey_koalaKeypair, List.forall_mem_singleton.2
      (carriesKey_chainweaverKeypair transferEd25519 (some (js "pw")))⟩
  have hsafe : RoutesSafely transferEd25519 (walletBackend.withEd25519 transferEd25519)
      transferTransaction [.str publicKeyA, .str publicKeyB]
      [koalaKeypair publicKeyB secretKeyB, chainweaverKeypair (some (js "pw"))] false := by
    have hkept : ∀ pubKey, keptSlot transferTransaction.sigs pubKey = none := by
      intro pubKey
      -- No entry is there yet.
      have hundefined : transferTransaction.sigs.all Value.isUndefined = true := by
        decide +kernel
      unfold keptSlot
      cases hfind : transferTransaction.sigs.find? fun sig =>
          (sig.optionalGet (js "pubKey")).strictEq pubKey with
      | none => rfl
      | some entry =>
          have hentry := List.all_eq_true.1 hundefined entry (List.mem_of_find?_eq_some hfind)
          cases entry with
          | undefined => rfl
          | _ => cases hentry
    refine ⟨?_, ?_, ?_⟩
    · intro kp hkp _ hlabelled
      rcases List.mem_cons.1 hkp with rfl | hkp
      · cases hlabelled
      · rw [List.mem_singleton.1 hkp]
        decide
    · intro _ i pubKey entry _ _ hentry _
      cases (hkept pubKey).symm.trans hentry
    · intro i k kp _ _ _ hfirst hlabel
      have hmem := (List.mem_filter.1 (List.mem_filter.1 (List.mem_of_find?_eq_some hfirst)).1).1
      rcases List.mem_cons.1 hmem with rfl | hmem
      · cases hlabel
      · rw [List.mem_singleton.1 hmem] at hlabel
        cases hlabel
  have hok : (Async.runIn (universalSignTransaction
      (walletBackend.withEd25519 transferEd25519) transferTransaction
      [koalaKeypair publicKeyB secretKeyB, chainweaverKeypair (some (js "pw"))]
      (none : Option (Value → Async Unit JsString))) ()).1.isOk = true := by decide +kernel
  rcases exists_of_isOk hok with ⟨signed, hrun⟩
  exact ⟨signed, hrun, (placed_signatures_valid_iff documented_transferEd25519
    documented_transferWallet hkeys hkps none () hrun).2 hsafe⟩

/-- The secret key of B with the public key of A behind it. -/
def crossedKey : Bytes :=
  hexToBin (secretKeyB ++ publicKeyA)

/-- The libraries with the signature that tweetnacl makes of the crossed key. -/
def crossedEd25519 : Ed25519 :=
  { transferEd25519 with
    detached := fun msg key =>
      if msg = transferDigest ∧ key = crossedKey then .ok (hexToBin signatureAB)
      else transferEd25519.detached msg key }

theorem documented_crossedEd25519 : crossedEd25519.Documented where
  fromSeed_ok := documented_transferEd25519.fromSeed_ok
  fromSeed_error := documented_transferEd25519.fromSeed_error
  detached_ok := by
    intro msg key hkey
    unfold crossedEd25519
    dsimp only
    split
    · exact ⟨_, rfl, by decide +kernel⟩
    · exact documented_transferEd25519.detached_ok msg key hkey
  detached_error := by
    intro msg key hkey
    have hlength : crossedKey.length = 64 := by decide +kernel
    have hother : ¬ (msg = transferDigest ∧ key = crossedKey) := by
      rintro ⟨-, rfl⟩
      exact hkey hlength
    exact (if_neg hother).trans (documented_transferEd25519.detached_error msg key hkey)
  verify_detached := by
    intro seed pair msg sig hpair hsig
    have hpair' : transferEd25519.fromSeed seed = .ok pair := hpair
    by_cases hcrossed : msg = transferDigest ∧ pair.secretKey = crossedKey
    · -- The seed of B does not make the public key of A.
      have hlength : seed.length = 32 := by
        by_contra hne
        cases hpair'.symm.trans (documented_transferEd25519.fromSeed_error seed hne)
      rcases documented_transferEd25519.fromSeed_ok seed hlength with
        ⟨made, hmade, hpublic, hsecret⟩
      obtain rfl : pair = made := Except.ok.inj (hpair'.symm.trans hmade)
      have hseed : seed = crossedKey.take 32 := by
        rw [← hcrossed.2, hsecret, ← hlength, List.take_left]
      have hback : pair.publicKey = crossedKey.drop 32 := by
        rw [← hcrossed.2, hsecret, ← hlength, List.drop_left]
      have hderived : (transferEd25519.fromSeed (crossedKey.take 32)).toOption.map
          SignKeyPair.publicKey ≠ some (crossedKey.drop 32) := by decide +kernel
      rw [← hseed, hpair', ← hback] at hderived
      exact absurd rfl hderived
    · have hsig' : transferEd25519.detached msg pair.secretKey = .ok sig := by
        have hmade : crossedEd25519.detached msg pair.secretKey =
            transferEd25519.detached msg pair.secretKey := if_neg hcrossed
        rw [← hmade]
        exact hsig
      exact documented_transferEd25519.verify_detached seed pair msg sig hpair' hsig'
  multiplyBase_length := documented_transferEd25519.multiplyBase_length

/-- Without its password the keypair of A signs through tweetnacl, with the secret key of B. -/
theorem mislabelled_signature_invalid :
    ¬ ∀ (E : Ed25519) (W : HdWallet) (B : Backend) (tx signed : Command) (pubKeys : List Value)
      (kps : List UniversalKeypair), E.Documented → W.Documented B E.verify →
      signerPubKeys tx.cmd = .ok pubKeys → (∀ kp ∈ kps, kp.CarriesKey E W) →
      (Async.runIn (universalSignTransaction (B.withEd25519 E) tx kps
        (none : Option (Value → Async Unit JsString))) ()).1 = .ok signed →
      NewSlotsVerify E.verify tx signed pubKeys := by
  intro h
  have hkeys : signerPubKeys transferTransaction.cmd = .ok [.str publicKeyA, .str publicKeyB] :=
    signerPubKeys_of_declares built_transferTransaction.declares
  have hfacts : ((Async.runIn (universalSignTransaction
      (walletBackend.withEd25519 crossedEd25519) transferTransaction [chainweaverKeypair none]
      (none : Option (Value → Async Unit JsString))) ()).1.toOption.map fun signed =>
        decide (signed.hash = transferHash) && isSlotFilled (slotAt signed.sigs 0) &&
          decide (sigText (slotAt signed.sigs 0) = signatureAB)) = some true := by
    decide +kernel
  cases hrun : (Async.runIn (universalSignTransaction
      (walletBackend.withEd25519 crossedEd25519) transferTransaction [chainweaverKeypair none]
      (none : Option (Value → Async Unit JsString))) ()).1 with
  | error e =>
      rw [hrun] at hfacts
      cases hfacts
  | ok signed =>
      rw [hrun] at hfacts
      have hall := Option.some.inj hfacts
      rw [Bool.and_eq_true, Bool.and_eq_true] at hall
      have hverifies := h crossedEd25519 transferWallet walletBackend transferTransaction signed _
        [chainweaverKeypair none] documented_crossedEd25519 documented_transferWallet hkeys
        (List.forall_mem_singleton.2 (carriesKey_chainweaverKeypair crossedEd25519 none)) hrun
      rcases hverifies 0 (by decide +kernel) hall.1.2 with ⟨k, hk, hashBytes, hdecode, -, -, hok⟩
      obtain rfl : publicKeyA = k := Value.str.inj (Option.some.inj hk)
      rw [of_decide_eq_true hall.1.1, base64UrlDecodeArr_transferHash] at hdecode
      rw [of_decide_eq_true hall.2, ← Except.ok.inj hdecode] at hok
      have hwrong : crossedEd25519.verify transferDigest (hexToBin signatureAB)
          (hexToBin publicKeyA) = .ok false := by decide +kernel
      rw [hwrong] at hok
      cases hok

end Signing
end StoaCore
