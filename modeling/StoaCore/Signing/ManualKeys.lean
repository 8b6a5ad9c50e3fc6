import StoaCore.Signing.ForeignKeys
import StoaCore.Signing.Primitives
import StoaCore.Signing.VerifySignatures

/-!
# ManualKeys — which keys entered by hand can sign

`tryDerivePublicKey` accepts a private key in two formats.  The two paths on which such a key signs
read it as a seed of 64 digits, each with a length check of its own.
-/

namespace StoaCore
namespace Signing

open Library.Js
open Library.Traced
open Cryptography

/-! ## Signed slots -/

/-- The slot carries a signature of the transaction's hash that verifies under the public key. -/
def SlotSigned (verify : Verify) (tx : Command) (pubKey : JsString) (slot : Value) : Prop :=
  ∃ hashBytes, base64UrlDecodeArr tx.hash = .ok hashBytes ∧ isHexText (sigText slot) = true ∧
    (sigText slot).length = 128 ∧
    verify hashBytes (hexToBin (sigText slot)) (hexToBin pubKey) = .ok true

/-- Every slot of the signer is signed. -/
def SignedUnder (verify : Verify) (pubKeys : List Value) (pub : JsString) (signed : Command) :
    Prop :=
  ∀ i : Nat, pubKeys[i]? = some (.str pub) → SlotSigned verify signed pub (slotAt signed.sigs i)

theorem isHexText_binToHex {bytes : Bytes} (h : bytes ≠ []) :
    isHexText (binToHex bytes) = true := by
  have hdigits : ∀ c ∈ binToHex bytes, isHexUnit c = true := by
    intro c hc
    rcases List.mem_flatMap.1 hc with ⟨b, -, hcb⟩
    have hlt := b.toNat_lt
    have hval : ∀ d < 16, isHexUnit (hexDigit d) = true := by
      intro d hd
      rw [isHexUnit, hexVal_hexDigit hd]
      rfl
    rcases List.mem_cons.1 hcb with rfl | hcb
    · exact hval _ (by omega)
    · rw [List.mem_singleton.1 hcb]
      exact hval _ (by omega)
  have hne : binToHex bytes ≠ [] := by
    intro hnil
    have hlength := length_bufferToHex bytes
    rw [show bufferToHex bytes = [] from hnil] at hlength
    exact h (List.length_eq_zero_iff.1 (by simpa using hlength.symm))
  rw [isHexText, Bool.and_eq_true]
  exact ⟨bne_iff_ne.2 hne, List.all_eq_true.2 hdigits⟩

/-- The text is a signature of the hash that verifies under the public key. -/
def Verifies (verify : Verify) (hash pubKey sig : JsString) : Prop :=
  ∃ hashBytes, base64UrlDecodeArr hash = .ok hashBytes ∧ isHexText sig = true ∧
    sig.length = 128 ∧ verify hashBytes (hexToBin sig) (hexToBin pubKey) = .ok true

theorem slotSigned_slotWith {verify : Verify} {tx : Command} {pub sig : JsString} {pubKey : Value} :
    SlotSigned verify tx pub (slotWith pubKey sig) ↔ Verifies verify tx.hash pub sig :=
  Iff.rfl

theorem Verifies.ne_nil {verify : Verify} {hash pub sig : JsString}
    (h : Verifies verify hash pub sig) : sig ≠ [] := by
  rintro rfl
  rcases h with ⟨_, _, _, hlength, _⟩
  cases hlength

/-- A signature of 64 bytes that verifies, as text. -/
theorem verifies_binToHex {verify : Verify} {hash pub : JsString} {hashBytes sigBin : Bytes}
    (hdecode : base64UrlDecodeArr hash = .ok hashBytes) (hsize : sigBin.length = 64)
    (hverify : verify hashBytes sigBin (hexToBin pub) = .ok true) :
    Verifies verify hash pub (binToHex sigBin) := by
  have hne : sigBin ≠ [] := by
    rintro rfl
    cases hsize
  refine ⟨hashBytes, hdecode, isHexText_binToHex hne, ?_, ?_⟩
  · rw [binToHex, length_bufferToHex, hsize]
  · rw [hexToBin, binToHex, bufferFromHex_bufferToHex]
    exact hverify

/-! ## The rest of the call -/

def UniversalKeypair.signer (kp : UniversalKeypair) : Signer :=
  if kp.isChainweaver then .chainweaver kp else .nacl kp.toNaclPair

section Served

variable {σ : Type} (B : Backend)

/-- The callback delivers the private keys of the missing signers, `pub` apart, for which only the
call of the callback counts. -/
def Served (callback : Value → Async σ JsString) (pub : JsString) :
    List Value → List JsString → σ → Prop
  | [], _, _ => True
  | pubKey :: pubKeys, handled, w =>
      if handled.any fun key => pubKey.strictEq (.str key) then
        Served callback pub pubKeys handled w
      else if pubKey.strictEq (.str pub) then
        Served callback pub pubKeys (pub :: handled) (Async.runIn (callback pubKey) w).2
      else
        ∃ rawKey derived w', Async.runIn (callback pubKey) w = (.ok rawKey, w') ∧
          B.publicKeyFromPrivateKey rawKey = .ok derived ∧
          pubKey.strictEq (.str derived) = true ∧
          Served callback pub pubKeys (derived :: handled) w'

/-- What a call needs beyond a usable private key of the signer `pub`: a hash that can be decoded,
keypairs that sign, and private keys for the other missing signers; an entry that the signer keeps
has to be signed. -/
structure RestSigns (verify : Verify) (tx : Command) (pubKeys : List Value)
    (kps : List UniversalKeypair) (onMissingKey : Option (Value → Async σ JsString))
    (pub : JsString) (w : σ) : Prop where
  decodes : ∃ hashBytes, base64UrlDecodeArr tx.hash = .ok hashBytes
  kept : ∀ entry, keptSlot tx.sigs (.str pub) = some entry → SlotSigned verify tx pub entry
  signs : ∀ kp ∈ handledKeypairs pubKeys kps, kp.key ≠ pub → kp.signer.Signs B tx.hash pubKeys
  served : ∀ callback, onMissingKey = some callback →
    Served B callback pub pubKeys ((handledKeypairs pubKeys kps).map UniversalKeypair.key) w

variable {B} {callback : Value → Async σ JsString} {pub : JsString} {pubKeys : List Value}
  {handled : List JsString} {w w' : σ}

/-- The flow ends with pairs exactly if the other signers are served, where `pub` is handled or its
private key passes the check. -/
theorem served_iff (priv : JsString)
    (hpub : (handled.any fun key => (Value.str pub).strictEq (.str key)) = true ∨
      B.publicKeyFromPrivateKey priv = .ok pub ∧
        ∀ w, ∃ w', Async.runIn (callback (.str pub)) w = (.ok priv, w')) :
    Served B callback pub pubKeys handled w ↔
      ∃ pairs w', Async.runIn (resolveMissingKeys B callback pubKeys handled) w =
        (.ok pairs, w') := by
  -- On the signers; `pub` stays handled once it is.
  induction pubKeys generalizing handled w with
  | nil => exact ⟨fun _ => ⟨[], w, rfl⟩, fun _ => trivial⟩
  | cons pubKey pubKeys ih =>
      unfold Served
      by_cases hhandled : (handled.any fun key => pubKey.strictEq (.str key)) = true
      · rw [resolveMissingKeys, if_pos hhandled, if_pos hhandled]
        exact ih hpub
      · rw [if_neg hhandled]
        by_cases hkey : pubKey.strictEq (.str pub) = true
        · rw [if_pos hkey, Value.eq_of_strictEq_str hkey]
          rw [Value.eq_of_strictEq_str hkey] at hhandled
          rcases hpub with hin | ⟨hderive, hcallback⟩
          · exact absurd hin hhandled
          · rcases hcallback w with ⟨w₁, hasked⟩
            have hin : ((pub :: handled).any fun key =>
                (Value.str pub).strictEq (.str key)) = true :=
              List.any_eq_true.2 ⟨pub, List.mem_cons_self, strictEq_self pub⟩
            rw [hasked, ih (Or.inl hin)]
            constructor
            · rintro ⟨rest, w₂, hrest⟩
              exact ⟨_, w₂, (resolveMissingKeys_cons hhandled).2
                ⟨priv, pub, w₁, rest, hasked, hderive, strictEq_self pub, hrest, rfl⟩⟩
            · rintro ⟨pairs, w₂, hrun⟩
              rcases (resolveMissingKeys_cons hhandled).1 hrun with
                ⟨rawKey, derived, w₃, rest, hasked', -, heq, hrest, -⟩
              rw [hasked] at hasked'
              cases hasked'
              have hsame : pub = derived := of_decide_eq_true heq
              rw [← hsame] at hrest
              exact ⟨rest, w₂, hrest⟩
        · rw [if_neg hkey]
          have hstep : ∀ derived, (((derived :: handled).any fun key =>
              (Value.str pub).strictEq (.str key)) = true ∨
                B.publicKeyFromPrivateKey priv = .ok pub ∧
                  ∀ w, ∃ w', Async.runIn (callback (.str pub)) w = (.ok priv, w')) := by
            intro derived
            refine hpub.imp_left fun hin => ?_
            rw [List.any_cons, hin, Bool.or_true]
          constructor
          · rintro ⟨rawKey, derived, w₁, hasked, hderive, heq, hserved⟩
            rcases (ih (hstep derived)).1 hserved with ⟨rest, w₂, hrest⟩
            exact ⟨_, w₂, (resolveMissingKeys_cons hhandled).2
              ⟨rawKey, derived, w₁, rest, hasked, hderive, heq, hrest, rfl⟩⟩
          · rintro ⟨pairs, w₂, hrun⟩
            rcases (resolveMissingKeys_cons hhandled).1 hrun with
              ⟨rawKey, derived, w₁, rest, hasked, hderive, heq, hrest, -⟩
            exact ⟨rawKey, derived, w₁, hasked, hderive, heq,
              (ih (hstep derived)).2 ⟨rest, w₂, hrest⟩⟩

/-- Without a callback the flow always ends, with it exactly if the other signers are served. -/
theorem served_iff_foreignKeyPairs {onMissingKey : Option (Value → Async σ JsString)}
    (priv : JsString)
    (hpub : ∀ callback, onMissingKey = some callback →
      (handled.any fun key => (Value.str pub).strictEq (.str key)) = true ∨
        B.publicKeyFromPrivateKey priv = .ok pub ∧
          ∀ w, ∃ w', Async.runIn (callback (.str pub)) w = (.ok priv, w')) :
    (∀ callback, onMissingKey = some callback → Served B callback pub pubKeys handled w) ↔
      ∃ pairs w', Async.runIn (foreignKeyPairs B onMissingKey pubKeys handled) w =
        (.ok pairs, w') := by
  cases onMissingKey with
  | none => exact ⟨fun _ => ⟨[], w, rfl⟩, fun _ _ h => (nomatch h)⟩
  | some callback =>
      have hiff : Served B callback pub pubKeys handled w ↔
          ∃ pairs w', Async.runIn (resolveMissingKeys B callback pubKeys handled) w =
            (.ok pairs, w') := served_iff priv (hpub callback rfl)
      constructor
      · exact fun hserved => hiff.1 (hserved callback rfl)
      · intro hpairs asked hasked
        cases hasked
        exact hiff.2 hpairs

/-- Each pair of the flow is a private key the callback delivered, and it derives its signer. -/
theorem resolveMissingKeys_pairs {pairs : List NaclPair}
    (h : Async.runIn (resolveMissingKeys B callback pubKeys handled) w = (.ok pairs, w')) :
    ∀ pair ∈ pairs, B.publicKeyFromPrivateKey pair.secretKey = .ok pair.publicKey ∧
      pair.publicKey ∉ handled ∧
      ∃ w₁ w₂, Async.runIn (callback (.str pair.publicKey)) w₁ = (.ok pair.secretKey, w₂) := by
  induction pubKeys generalizing handled w pairs with
  | nil =>
      cases h
      exact fun _ hpair => absurd hpair List.not_mem_nil
  | cons pubKey pubKeys ih =>
      by_cases hhandled : (handled.any fun key => pubKey.strictEq (.str key)) = true
      · rw [resolveMissingKeys, if_pos hhandled] at h
        exact ih h
      · rcases (resolveMissingKeys_cons hhandled).1 h with
          ⟨rawKey, derived, w₁, rest, hasked, hderive, heq, hrest, rfl⟩
        rw [Value.eq_of_strictEq_str heq] at hasked hhandled
        intro pair hpair
        rcases List.mem_cons.1 hpair with rfl | hpair
        · refine ⟨hderive, fun hmem => ?_, w, w₁, hasked⟩
          exact hhandled (List.any_eq_true.2 ⟨derived, hmem, strictEq_self derived⟩)
        · rcases ih hrest pair hpair with ⟨hpair, hnot, hdelivered⟩
          exact ⟨hpair, fun hmem => hnot (List.mem_cons_of_mem _ hmem), hdelivered⟩

end Served

/-! ## A call -/

theorem UniversalKeypair.signer_key (kp : UniversalKeypair) : kp.signer.key = kp.key := by
  unfold signer
  split
  · rfl
  · rfl

section Call

variable {σ : Type} {E : Ed25519} {B : Backend} {priv pub : JsString} {tx : Command}
  {pubKeys : List Value} {kps : List UniversalKeypair}
  {onMissingKey : Option (Value → Async σ JsString)} {w w' : σ} {pairs : List NaclPair}

theorem signaturesNonEmpty_withEd25519 (hE : E.Documented) (hB : SignaturesNonEmpty B) :
    SignaturesNonEmpty (B.withEd25519 E) where
  nacl := by
    intro hash pair sig hsig
    have hlength := (signHash_ok hE (Backend.withEd25519_signHash.1 hsig)).2.2
    intro hnil
    rw [hnil] at hlength
    cases hlength
  chainweaver := hB.chainweaver

theorem slotSigned_congr {verify : Verify} {signed : Command} (hhash : signed.hash = tx.hash)
    (slot : Value) : SlotSigned verify signed pub slot ↔ SlotSigned verify tx pub slot := by
  unfold SlotSigned
  rw [hhash]

variable (hE : E.Documented)

include hE

/-- The slot with the signature of an accepted key of 64 digits is signed. -/
theorem slotSigned_accepted (haccept : tryDerivePublicKey E priv = some pub)
    (hlength : priv.length = 64) {hashBytes : Bytes}
    (hdecode : base64UrlDecodeArr tx.hash = .ok hashBytes) (pubKey : Value) :
    SlotSigned E.verify tx pub
      (slotWith pubKey ((Signer.nacl ⟨pub, priv⟩).signed (B.withEd25519 E) tx.hash)) := by
  rcases tryDerivePublicKey_cases hE haccept with ⟨-, hderive⟩ | ⟨hextended, -⟩
  · rcases publicKeyFromPrivateKey_ok hderive with ⟨keyPair, hrestore, rfl⟩
    rcases signHash_restored hE hrestore hdecode with ⟨sigBin, hsign, hsize, hverify⟩
    have hsigned : (Signer.nacl ⟨keyPair.publicKey, priv⟩).signed (B.withEd25519 E) tx.hash =
        binToHex sigBin := Signer.signed_eq (Backend.withEd25519_signHash.2 hsign)
    rw [hsigned]
    exact slotSigned_slotWith.2 (verifies_binToHex hdecode hsize hverify)
  · exact absurd (hlength.symm.trans hextended) (by decide)

/-- A private key the callback delivered signs, for it has passed the check. -/
theorem signs_of_foreignPair {hashBytes : Bytes}
    (hdecode : base64UrlDecodeArr tx.hash = .ok hashBytes) {handled : List JsString}
    (hpairs : Async.runIn (foreignKeyPairs (B.withEd25519 E) onMissingKey pubKeys handled) w =
      (.ok pairs, w')) {pair : NaclPair} (hpair : pair ∈ pairs) :
    (Signer.nacl pair).Signs (B.withEd25519 E) tx.hash pubKeys := by
  cases onMissingKey with
  | none =>
      cases hpairs
      cases hpair
  | some callback =>
      have hderive := (resolveMissingKeys_pairs hpairs pair hpair).1
      rcases publicKeyFromPrivateKey_ok (Backend.withEd25519_publicKeyFromPrivateKey.1 hderive) with
        ⟨keyPair, hrestore, hkey⟩
      rcases signHash_restored hE hrestore hdecode with ⟨sigBin, hsign, -⟩
      rw [hkey] at hsign
      exact ⟨⟨_, Backend.withEd25519_signHash.2 hsign⟩, fun h => (nomatch h)⟩

variable (hB : SignaturesNonEmpty B) (haccept : tryDerivePublicKey E priv = some pub)
  (hkeys : signerPubKeys tx.cmd = .ok pubKeys) (hdeclared : .str pub ∈ pubKeys)
  (hpairs : Async.runIn (foreignKeyPairs (B.withEd25519 E) onMissingKey pubKeys
    ((handledKeypairs pubKeys kps).map UniversalKeypair.key)) w = (.ok pairs, w'))
  (hmem : .nacl ⟨pub, priv⟩ ∈ signersOf pubKeys kps pairs)
  (hown : ∀ s ∈ signersOf pubKeys kps pairs, s.key = pub → s = .nacl ⟨pub, priv⟩)

include hB haccept hkeys hdeclared hpairs hmem hown

/-- After a successful call, each slot of `pub` holds the entry it kept, or the signature of the
accepted key. -/
theorem slots_of_accepted {signed : Command}
    (hfold : (signersOf pubKeys kps pairs).foldlM (signStep (B.withEd25519 E)) tx = .ok signed)
    {i : Nat} (hi : pubKeys[i]? = some (.str pub)) :
    slotAt signed.sigs i = (keptSlot tx.sigs (.str pub)).getD (slotWith (.str pub)
      ((Signer.nacl ⟨pub, priv⟩).signed (B.withEd25519 E) tx.hash)) := by
  have hdeclaredPairs := includesKey_of_foreignPairs hpairs
  have hsigns := ((foldlM_signStep_ok_iff fun _ => lists_of_mem hkeys hdeclared).1 hfold).1
  have hkeyed : (signersOf pubKeys kps pairs).any Signer.isKeyless = false := by
    by_contra hkeyless
    rw [Bool.not_eq_false] at hkeyless
    rw [pubKeys_of_keyless hsigns hkeyless] at hdeclared
    have hempty : pub = [] := by simpa using hdeclared
    have hlength := length_of_tryDerivePublicKey hE haccept
    rw [hempty] at hlength
    cases hlength
  have hfind : (signersOf pubKeys kps pairs).find?
      (fun s => (Value.str pub).strictEq (.str s.key)) = some (.nacl ⟨pub, priv⟩) := by
    have hsome : ((signersOf pubKeys kps pairs).find?
        (fun s => (Value.str pub).strictEq (.str s.key))).isSome = true :=
      List.find?_isSome.2 ⟨_, hmem, strictEq_self pub⟩
    rcases Option.isSome_iff_exists.1 hsome with ⟨s, hs⟩
    have hkey : pub = s.key := of_decide_eq_true
      (List.find?_some (p := fun s : Signer => (Value.str pub).strictEq (.str s.key)) hs)
    rw [hs, hown s (List.mem_of_find?_eq_some hs) hkey.symm]
  have hslots := (slots_of_steps (signaturesNonEmpty_withEd25519 hE hB) hkeys hfold
    hdeclaredPairs).2
  rw [if_neg (List.ne_nil_of_mem hmem)] at hslots
  have hat : slotAt pubKeys i = .str pub := by
    rw [slotAt, hi]
    rfl
  rw [hslots, slotAt_map (List.getElem?_eq_some_iff.1 hi).1, hat, slotAfter_keyed hkeyed hfind]

/-- A call that has the accepted key of `pub` among its signers signs the slots of `pub` exactly if
the key has 64 digits and the other signers sign. -/
theorem call_signed_iff :
    (∃ signed w₁, Async.runIn (universalSignTransaction (B.withEd25519 E) tx kps onMissingKey) w =
        (.ok signed, w₁) ∧ SignedUnder E.verify pubKeys pub signed) ↔
      priv.length = 64 ∧ (∃ hashBytes, base64UrlDecodeArr tx.hash = .ok hashBytes) ∧
        (∀ entry, keptSlot tx.sigs (.str pub) = some entry → SlotSigned E.verify tx pub entry) ∧
        ∀ kp ∈ handledKeypairs pubKeys kps, kp.key ≠ pub →
          kp.signer.Signs (B.withEd25519 E) tx.hash pubKeys := by
  have hlists : signersOf pubKeys kps pairs ≠ [] → Lists tx.cmd pubKeys :=
    fun _ => lists_of_mem hkeys hdeclared
  have hslots : ∀ signed, (signersOf pubKeys kps pairs).foldlM (signStep (B.withEd25519 E)) tx =
      .ok signed → ∀ i : Nat, pubKeys[i]? = some (.str pub) → slotAt signed.sigs i =
        (keptSlot tx.sigs (.str pub)).getD (slotWith (.str pub)
          ((Signer.nacl ⟨pub, priv⟩).signed (B.withEd25519 E) tx.hash)) :=
    fun _ hfold _ hi => slots_of_accepted hE hB haccept hkeys hdeclared hpairs hmem hown hfold hi
  rw [runIn_universalSignTransaction hkeys hpairs]
  constructor
  · rintro ⟨signed, w₁, hrun, hunder⟩
    have hfold := (Prod.ext_iff.1 hrun).1
    rcases (foldlM_signStep_ok_iff hlists).1 hfold with ⟨hsigns, hsigned⟩
    have hhash : signed.hash = tx.hash := by rw [hsigned]
    rcases (signHash_accepted hE B haccept tx.hash).1 (hsigns _ hmem).1 with ⟨hlength, hdecodes⟩
    refine ⟨hlength, hdecodes, fun entry hentry => ?_, fun kp hkp _ => ?_⟩
    · rcases List.getElem?_of_mem hdeclared with ⟨i, hi⟩
      have hslot := hunder i hi
      rw [hslots _ hfold i hi, hentry] at hslot
      exact (slotSigned_congr hhash entry).1 hslot
    · rcases List.mem_filter.1 hkp with ⟨hkp, hkey⟩
      exact hsigns _ (mem_signersOf.2 (Or.inl ⟨kp, hkp, hkey, rfl⟩))
  · rintro ⟨hlength, ⟨hashBytes, hdecode⟩, hkept, hrest⟩
    have hsigns : ∀ s ∈ signersOf pubKeys kps pairs,
        s.Signs (B.withEd25519 E) tx.hash pubKeys := by
      intro s hs
      by_cases hkey : s.key = pub
      · rw [hown s hs hkey]
        exact ⟨(signHash_accepted hE B haccept tx.hash).2 ⟨hlength, hashBytes, hdecode⟩,
          fun h => (nomatch h)⟩
      · rcases mem_signersOf.1 hs with ⟨kp, hkp, hincluded, rfl⟩ | ⟨pair, hpair, rfl⟩
        · have hne : kp.key ≠ pub := fun heq => hkey (kp.signer_key.trans heq)
          exact hrest kp (List.mem_filter.2 ⟨hkp, hincluded⟩) hne
        · exact signs_of_foreignPair hE hdecode hpairs hpair
    have hfold := (foldlM_signStep_ok_iff hlists).2 ⟨hsigns, rfl⟩
    refine ⟨_, w', Prod.ext hfold rfl, fun i hi => ?_⟩
    rw [slotSigned_congr rfl, hslots _ hfold i hi]
    cases hentry : keptSlot tx.sigs (.str pub) with
    | some entry => exact hkept entry hentry
    | none => exact slotSigned_accepted hE haccept hlength hdecode (.str pub)

end Call

section Usable

variable {σ : Type} {E : Ed25519} {B : Backend} {priv pub : JsString} {tx : Command}
  {pubKeys : List Value} {kps : List UniversalKeypair}
  {onMissingKey : Option (Value → Async σ JsString)} {w : σ}

/-- A call whose signers are known as soon as the flow has ended with pairs, where the flow does end
if the other signers are served. -/
theorem call_usable_iff (hE : E.Documented) (hB : SignaturesNonEmpty B)
    (haccept : tryDerivePublicKey E priv = some pub) (hkeys : signerPubKeys tx.cmd = .ok pubKeys)
    (hdeclared : .str pub ∈ pubKeys)
    (hsigners : ∀ pairs w', Async.runIn (foreignKeyPairs (B.withEd25519 E) onMissingKey pubKeys
        ((handledKeypairs pubKeys kps).map UniversalKeypair.key)) w = (.ok pairs, w') →
      .nacl ⟨pub, priv⟩ ∈ signersOf pubKeys kps pairs ∧
        ∀ s ∈ signersOf pubKeys kps pairs, s.key = pub → s = .nacl ⟨pub, priv⟩)
    (hserved : priv.length = 64 →
      ((∀ callback, onMissingKey = some callback → Served (B.withEd25519 E) callback pub pubKeys
          ((handledKeypairs pubKeys kps).map UniversalKeypair.key) w) ↔
        ∃ pairs w', Async.runIn (foreignKeyPairs (B.withEd25519 E) onMissingKey pubKeys
          ((handledKeypairs pubKeys kps).map UniversalKeypair.key)) w = (.ok pairs, w'))) :
    (∃ signed w₁, Async.runIn (universalSignTransaction (B.withEd25519 E) tx kps onMissingKey) w =
        (.ok signed, w₁) ∧ SignedUnder E.verify pubKeys pub signed) ↔
      priv.length = 64 ∧
        RestSigns (B.withEd25519 E) E.verify tx pubKeys kps onMissingKey pub w := by
  constructor
  · rintro ⟨signed, w₁, hrun, hunder⟩
    have hended := exists_foreignPairs hkeys (congrArg Prod.fst hrun)
    rcases hended with ⟨pairs, w', hpairs⟩
    rcases hsigners pairs w' hpairs with ⟨hmem, hown⟩
    rcases (call_signed_iff hE hB haccept hkeys hdeclared hpairs hmem hown).1
      ⟨signed, w₁, hrun, hunder⟩ with ⟨hlength, hdecodes, hkept, hsigns⟩
    have hrest := (hserved hlength).2 ⟨pairs, w', hpairs⟩
    exact ⟨hlength, hdecodes, hkept, hsigns, hrest⟩
  · rintro ⟨hlength, hrest⟩
    rcases (hserved hlength).1 hrest.served with ⟨pairs, w', hpairs⟩
    rcases hsigners pairs w' hpairs with ⟨hmem, hown⟩
    exact (call_signed_iff hE hB haccept hkeys hdeclared hpairs hmem hown).2
      ⟨hlength, hrest.decodes, hrest.kept, hrest.signs⟩

/-- The signer of a keypair that is handled, where no two keypairs have one key: it is the only one
with its key, for the callback is not asked for a key that is handled. -/
theorem signers_of_keypair (hnodup : (kps.map UniversalKeypair.key).Nodup) {kp : UniversalKeypair}
    (hkp : kp ∈ kps) (hincluded : includesKey pubKeys kp.key = true) {pairs : List NaclPair}
    {w' : σ} (hpairs : Async.runIn (foreignKeyPairs B onMissingKey pubKeys
      ((handledKeypairs pubKeys kps).map UniversalKeypair.key)) w = (.ok pairs, w')) :
    kp.signer ∈ signersOf pubKeys kps pairs ∧
      ∀ s ∈ signersOf pubKeys kps pairs, s.key = kp.key → s = kp.signer := by
  refine ⟨mem_signersOf.2 (Or.inl ⟨kp, hkp, hincluded, rfl⟩), fun s hs hkey => ?_⟩
  rcases mem_signersOf.1 hs with ⟨other, hother, -, rfl⟩ | ⟨pair, hpair, rfl⟩
  · have hsame : other = kp :=
      List.inj_on_of_nodup_map hnodup hother hkp (other.signer_key.symm.trans hkey)
    rw [hsame]
    rfl
  · cases onMissingKey with
    | none =>
        cases hpairs
        cases hpair
    | some callback =>
        have hnot : pair.publicKey ∉ _ := (resolveMissingKeys_pairs hpairs pair hpair).2.1
        have hhandled : kp.key ∈ (handledKeypairs pubKeys kps).map UniversalKeypair.key :=
          List.mem_map.2 ⟨kp, List.mem_filter.2 ⟨hkp, hincluded⟩, rfl⟩
        exact absurd hhandled (hkey ▸ hnot)

end Usable

/-! ## Both paths -/

section Universal

variable {σ : Type} {E : Ed25519} {B : Backend} {priv pub : JsString} {tx : Command}
  {pubKeys : List Value} {kps : List UniversalKeypair} {callback : Value → Async σ JsString} {w : σ}

/-- The pairs under `pub` that the flow collects hold the key the callback delivers for `pub`. -/
theorem foreignPair_of_callback
    (hcallback : ∀ w, ∃ w', Async.runIn (callback (.str pub)) w = (.ok priv, w'))
    {handled : List JsString} {pairs : List NaclPair} {w' : σ}
    (hpairs : Async.runIn (resolveMissingKeys B callback pubKeys handled) w = (.ok pairs, w'))
    {pair : NaclPair} (hpair : pair ∈ pairs) (hkey : pair.publicKey = pub) :
    pair = ⟨pub, priv⟩ := by
  rcases (resolveMissingKeys_pairs hpairs pair hpair).2.2 with ⟨w₁, w₂, hdelivered⟩
  rcases hcallback w₁ with ⟨w₃, hpriv⟩
  rw [hkey, hpriv] at hdelivered
  have hsecret : priv = pair.secretKey := Except.ok.inj (Prod.ext_iff.1 hdelivered).1
  rw [← hkey, hsecret]

/-- Where no keypair has the key, the pair the callback completes is the only signer with it. -/
theorem signers_of_callback (hdeclared : .str pub ∈ pubKeys) (hmissing : ∀ kp ∈ kps, kp.key ≠ pub)
    (hcallback : ∀ w, ∃ w', Async.runIn (callback (.str pub)) w = (.ok priv, w'))
    {pairs : List NaclPair} {w' : σ}
    (hpairs : Async.runIn (foreignKeyPairs B (some callback) pubKeys
      ((handledKeypairs pubKeys kps).map UniversalKeypair.key)) w = (.ok pairs, w')) :
    .nacl ⟨pub, priv⟩ ∈ signersOf pubKeys kps pairs ∧
      ∀ s ∈ signersOf pubKeys kps pairs, s.key = pub → s = .nacl ⟨pub, priv⟩ := by
  have hpair : ∃ pair ∈ pairs, pair.publicKey = pub := by
    rcases (foreignKeyPairs_spec (congrArg Prod.fst hpairs)).2 rfl _ hdeclared with
      ⟨k, hk, heq⟩ | ⟨pair, hpair, heq⟩
    · rcases List.mem_map.1 hk with ⟨kp, hkp, rfl⟩
      exact absurd (of_decide_eq_true heq : pub = kp.key).symm
        (hmissing kp (List.mem_filter.1 hkp).1)
    · exact ⟨pair, hpair, (of_decide_eq_true heq : pub = pair.publicKey).symm⟩
  rcases hpair with ⟨pair, hpair, hkey⟩
  rw [foreignPair_of_callback hcallback hpairs hpair hkey] at hpair
  refine ⟨mem_signersOf.2 (Or.inr ⟨_, hpair, rfl⟩), fun s hs hkey => ?_⟩
  rcases mem_signersOf.1 hs with ⟨kp, hkp, -, rfl⟩ | ⟨pair, hpair, rfl⟩
  · exact absurd (kp.signer_key.symm.trans hkey) (hmissing kp hkp)
  · rw [foreignPair_of_callback hcallback hpairs hpair hkey]

/-- A key that the callback delivers for a signer without a keypair. -/
theorem universalSign_accepted (hE : E.Documented) (hB : SignaturesNonEmpty B)
    (haccept : tryDerivePublicKey E priv = some pub) (hkeys : signerPubKeys tx.cmd = .ok pubKeys)
    (hdeclared : .str pub ∈ pubKeys) (hmissing : ∀ kp ∈ kps, kp.key ≠ pub)
    (hcallback : ∀ w, ∃ w', Async.runIn (callback (.str pub)) w = (.ok priv, w')) :
    (∃ signed w₁, Async.runIn (universalSignTransaction (B.withEd25519 E) tx kps
        (some callback)) w = (.ok signed, w₁) ∧ SignedUnder E.verify pubKeys pub signed) ↔
      priv.length = 64 ∧
        RestSigns (B.withEd25519 E) E.verify tx pubKeys kps (some callback) pub w := by
  apply call_usable_iff hE hB haccept hkeys hdeclared
  · exact fun _ _ hpairs => signers_of_callback hdeclared hmissing hcallback hpairs
  · intro hlength
    have hderive : (B.withEd25519 E).publicKeyFromPrivateKey priv = .ok pub := by
      rcases tryDerivePublicKey_cases hE haccept with ⟨-, hderive⟩ | ⟨hextended, -⟩
      · exact Backend.withEd25519_publicKeyFromPrivateKey.2 hderive
      · exact absurd (hlength.symm.trans hextended) (by decide)
    apply served_iff_foreignKeyPairs priv
    intro asked hasked
    cases hasked
    exact Or.inr ⟨hderive, hcallback⟩

end Universal

section Execute

variable {σ : Type} {S : Strategy σ} {args : ExecuteArgs σ} {w : σ} {r : Ready} {t : Trace σ Event}

/-- The strategy over the two Ed25519 libraries. -/
def Strategy.withEd25519 (S : Strategy σ) (E : Ed25519) : Strategy σ :=
  { S with backend := S.backend.withEd25519 E }

/-- The run signs for `pub` with the private key that `resolvedForeignKeys` holds for it. -/
structure Ready.UsesResolved (args : ExecuteArgs σ) (r : Ready) (pub priv : JsString) : Prop where
  resolved : args.resolvedForeignKeys.truthyText pub = some priv
  signs : ∃ kp ∈ r.keypairs args, kp.publicKey = pub ∧ kp.privateKey = priv ∧
    kp.seedType = some .foreign

/-- The command a run submits is the one that `sign` returns. -/
theorem submit_iff_signed
    (hready : run (S.untilReady args) { world := w, events := [] } = (.ok r, t))
    (signed : Command) :
    .submit signed ∈ (S.runExecute args w).2.events ↔
      ∃ w', Async.runIn (universalSignTransaction S.backend r.tx (r.universalKeypairs args)
        S.resolver.requestForeignKey) t.world = (.ok signed, w') := by
  rw [runExecute_of_ready hready]
  rcases hrun : Async.runIn (universalSignTransaction S.backend r.tx (r.universalKeypairs args)
    S.resolver.requestForeignKey) t.world with ⟨out, w'⟩
  cases out with
  | error e =>
      have hfail : (Async.runIn (S.sign r.tx r.simulated.capsKeypair
          (r.simulated.guardKeypairs ++ args.extraSigners)) t.world).1 = .error e := by
        rw [Strategy.sign_eq, hrun]
      rw [(Strategy.signAndSubmit_of_error hfail).2]
      constructor
      · exact fun h => absurd h (noSubmit_of_ready hready signed)
      · rintro ⟨_, h⟩
        cases h
  | ok made =>
      have hok : (Async.runIn (S.sign r.tx r.simulated.capsKeypair
          (r.simulated.guardKeypairs ++ args.extraSigners)) t.world).1 = .ok made := by
        rw [Strategy.sign_eq, hrun]
      rw [Strategy.signAndSubmit_of_ok hok, List.mem_append, List.mem_singleton]
      constructor
      · rintro (h | h)
        · exact absurd h (noSubmit_of_ready hready signed)
        · cases h
          exact ⟨w', rfl⟩
      · rintro ⟨_, h⟩
        cases h
        exact Or.inr rfl

/-- The keypair of a resolved key signs as a plain one. -/
theorem Ready.UsesResolved.keypair {pub priv : JsString} (h : r.UsesResolved args pub priv) :
    ∃ kp ∈ r.universalKeypairs args, kp.key = pub ∧ kp.signer = .nacl ⟨pub, priv⟩ := by
  rcases h.signs with ⟨kadena, hkadena, rfl, rfl, hforeign⟩
  have hnacl : (fromKeypair kadena.toLoose).isChainweaver = false := by
    simp [UniversalKeypair.isChainweaver, fromKeypair, KadenaKeypair.toLoose, hforeign]
  refine ⟨fromKeypair kadena.toLoose, List.mem_map_of_mem hkadena, rfl, ?_⟩
  rw [UniversalKeypair.signer, hnacl]
  rfl

/-- A key of `resolvedForeignKeys` that the run signs with. -/
theorem execute_accepted {E : Ed25519} (hE : E.Documented) (hB : SignaturesNonEmpty S.backend)
    {priv pub : JsString} (haccept : tryDerivePublicKey E priv = some pub)
    (hready : run ((S.withEd25519 E).untilReady args) { world := w, events := [] } = (.ok r, t))
    {pubKeys : List Value} (hkeys : signerPubKeys r.tx.cmd = .ok pubKeys)
    (hdeclared : .str pub ∈ pubKeys) (huses : r.UsesResolved args pub priv) :
    (∃ signed, .submit signed ∈ ((S.withEd25519 E).runExecute args w).2.events ∧
        SignedUnder E.verify pubKeys pub signed) ↔
      priv.length = 64 ∧ RestSigns (S.backend.withEd25519 E) E.verify r.tx pubKeys
        (r.universalKeypairs args) S.resolver.requestForeignKey pub t.world := by
  have hsubmit : (∃ signed, .submit signed ∈ ((S.withEd25519 E).runExecute args w).2.events ∧
      SignedUnder E.verify pubKeys pub signed) ↔
        ∃ signed w', Async.runIn (universalSignTransaction (S.backend.withEd25519 E) r.tx
          (r.universalKeypairs args) S.resolver.requestForeignKey) t.world = (.ok signed, w') ∧
            SignedUnder E.verify pubKeys pub signed := by
    constructor
    · rintro ⟨signed, hmem, hunder⟩
      rcases (submit_iff_signed hready signed).1 hmem with ⟨w', hrun⟩
      exact ⟨signed, w', hrun, hunder⟩
    · rintro ⟨signed, w', hrun, hunder⟩
      exact ⟨signed, (submit_iff_signed hready signed).2 ⟨w', hrun⟩, hunder⟩
  rcases huses.keypair with ⟨kp, hkp, rfl, hsigner⟩
  have hincluded : includesKey pubKeys kp.key = true :=
    List.any_eq_true.2 ⟨_, hdeclared, strictEq_self kp.key⟩
  rw [hsubmit]
  apply call_usable_iff hE hB haccept hkeys hdeclared
  · intro pairs w' hpairs
    rw [← hsigner]
    exact signers_of_keypair nodup_universalKeypairs hkp hincluded hpairs
  · intro _
    apply served_iff_foreignKeyPairs priv
    intro callback _
    have hhandled : kp.key ∈
        (handledKeypairs pubKeys (r.universalKeypairs args)).map UniversalKeypair.key :=
      List.mem_map.2 ⟨kp, List.mem_filter.2 ⟨hkp, hincluded⟩, rfl⟩
    exact Or.inl (List.any_eq_true.2 ⟨_, hhandled, strictEq_self kp.key⟩)

end Execute

/-- A key that the check accepts can be used, on either path, exactly if it has 64 digits, as far as
the rest of the call signs. -/
theorem accepted_key_usable_iff {E : Ed25519} (hE : E.Documented) {priv pub : JsString}
    (haccept : tryDerivePublicKey E priv = some pub) :
    (∀ (σ : Type) (B : Backend) (tx : Command) (pubKeys : List Value)
      (kps : List UniversalKeypair) (callback : Value → Async σ JsString) (w : σ),
      SignaturesNonEmpty B → signerPubKeys tx.cmd = .ok pubKeys → .str pub ∈ pubKeys →
      (∀ kp ∈ kps, kp.key ≠ pub) →
      (∀ w, ∃ w', Async.runIn (callback (.str pub)) w = (.ok priv, w')) →
      ((∃ signed w₁, Async.runIn
          (universalSignTransaction (B.withEd25519 E) tx kps (some callback)) w =
            (.ok signed, w₁) ∧ SignedUnder E.verify pubKeys pub signed) ↔
        priv.length = 64 ∧
          RestSigns (B.withEd25519 E) E.verify tx pubKeys kps (some callback) pub w)) ∧
    ∀ (σ : Type) (S : Strategy σ) (args : ExecuteArgs σ) (w : σ) (r : Ready) (t : Trace σ Event)
      (pubKeys : List Value),
      SignaturesNonEmpty S.backend →
      run ((S.withEd25519 E).untilReady args) { world := w, events := [] } = (.ok r, t) →
      signerPubKeys r.tx.cmd = .ok pubKeys → .str pub ∈ pubKeys → r.UsesResolved args pub priv →
      ((∃ signed, .submit signed ∈ ((S.withEd25519 E).runExecute args w).2.events ∧
          SignedUnder E.verify pubKeys pub signed) ↔
        priv.length = 64 ∧ RestSigns (S.backend.withEd25519 E) E.verify r.tx pubKeys
          (r.universalKeypairs args) S.resolver.requestForeignKey pub t.world) := by
  constructor
  · intro σ B tx pubKeys kps callback w hB hkeys hdeclared hmissing hcallback
    exact universalSign_accepted hE hB haccept hkeys hdeclared hmissing hcallback
  · intro σ S args w r t pubKeys hB hready hkeys hdeclared huses
    exact execute_accepted hE hB haccept hready hkeys hdeclared huses

/-! ## A seed and an extended key -/

/-- Seed, public key and signature of `transferHash`, of both parties. -/
def transferKeys : List (Bytes × Bytes × Bytes) :=
  [(hexToBin secretKeyA, hexToBin publicKeyA, hexToBin signatureAA),
    (hexToBin secretKeyB, hexToBin publicKeyB, hexToBin signatureBB)]

def transferDigest : Bytes :=
  (base64UrlDecodeArr transferHash).toOption.getD []

/-- The two halves of an extended key, and the public key of the first one. -/
def extendedKey : JsString :=
  hexText 64 0x3333333333333333333333333333333333333333333333333333333333333333 ++
    hexText 64 0x4444444444444444444444444444444444444444444444444444444444444444

def extendedPublicKey : JsString :=
  hexText 64 0x65892814b0a9bee7ade5ad675c62284ea7e249fba0fcd65fafa007d33817d66a

/-- The signature a public key has for a message; it is right on the values of this example. -/
def transferSigned (msg publicKey : Bytes) : Bytes :=
  match transferKeys.find? fun key => decide (msg = transferDigest ∧ publicKey = key.2.1) with
  | some key => key.2.2
  | none => List.replicate 64 0

theorem length_transferSigned (msg publicKey : Bytes) :
    (transferSigned msg publicKey).length = 64 := by
  have hlengths : ∀ key ∈ transferKeys, key.2.2.length = 64 := by decide +kernel
  unfold transferSigned
  split
  · exact hlengths _ (List.mem_of_find?_eq_some ‹_›)
  · rfl

/-- The libraries on the values of this example, with their length checks. -/
def transferEd25519 : Ed25519 where
  fromSeed := fun seed =>
    if seed.length ≠ 32 then .error (js "bad seed size")
    else
      let publicKey := match transferKeys.find? fun key => decide (seed = key.1) with
        | some key => key.2.1
        | none => List.replicate 32 0
      .ok ⟨publicKey, seed ++ publicKey⟩
  detached := fun msg key =>
    if key.length ≠ 64 then .error (js "bad secret key size")
    else .ok (transferSigned msg (key.drop 32))
  verify := fun msg sig publicKey => .ok (decide (sig = transferSigned msg publicKey))
  multiplyBase := fun scalar =>
    .ok (if scalar = 0x3333333333333333333333333333332f49645974a4c5cb02afc09e41c51b76c then
      hexToBin extendedPublicKey
    else List.replicate 32 0)

theorem documented_transferEd25519 : transferEd25519.Documented where
  fromSeed_ok := by
    intro seed hseed
    refine ⟨_, if_neg (not_not.2 hseed), ?_, rfl⟩
    have hlengths : ∀ key ∈ transferKeys, key.2.1.length = 32 := by decide +kernel
    dsimp only
    split
    · exact hlengths _ (List.mem_of_find?_eq_some ‹_›)
    · rfl
  fromSeed_error := fun seed hseed => if_pos hseed
  detached_ok := fun msg key hkey =>
    ⟨_, if_neg (not_not.2 hkey), length_transferSigned msg (key.drop 32)⟩
  detached_error := fun msg key hkey => if_pos hkey
  verify_detached := by
    intro seed pair msg sig hpair hsig
    by_cases hseed : seed.length ≠ 32
    · have herror : transferEd25519.fromSeed seed = .error (js "bad seed size") := if_pos hseed
      rw [herror] at hpair
      cases hpair
    · have hok : transferEd25519.fromSeed seed = .ok _ := if_neg hseed
      rw [hok] at hpair
      have hdrop : pair.secretKey.drop 32 = pair.publicKey := by
        cases hpair
        exact (congrArg (List.drop · _) (not_not.1 hseed).symm).trans (List.drop_left ..)
      by_cases hsecret : pair.secretKey.length ≠ 64
      · have herror : transferEd25519.detached msg pair.secretKey =
            .error (js "bad secret key size") := if_pos hsecret
        rw [herror] at hsig
        cases hsig
      · have hmade : transferEd25519.detached msg pair.secretKey =
            .ok (transferSigned msg (pair.secretKey.drop 32)) := if_neg hsecret
        rw [hmade, hdrop] at hsig
        cases hsig
        exact congrArg Except.ok (decide_eq_true rfl)
  multiplyBase_length := by
    intro scalar point hpoint
    cases hpoint
    split
    · decide +kernel
    · rfl

/-- A signer that signs when it is evaluated, under a public key it names. -/
theorem Signer.signs_of_isSome {B : Backend} {hash : JsString} {s : Signer}
    (hsign : (s.sign B hash).toOption.isSome = true) (hkey : s.pubKey.isSome = true)
    (pubKeys : List Value) : s.Signs B hash pubKeys := by
  constructor
  · cases hs : s.sign B hash with
    | ok sig => exact ⟨sig, rfl⟩
    | error e =>
        rw [hs] at hsign
        cases hsign
  · intro hnone
    rw [hnone] at hkey
    cases hkey

theorem tryDerivePublicKey_secretKeyA :
    tryDerivePublicKey transferEd25519 secretKeyA = some publicKeyA := by
  decide +kernel

theorem base64UrlDecodeArr_transferHash :
    base64UrlDecodeArr transferHash = .ok transferDigest := by
  decide +kernel

/-- B's keypair signs, and the callback is only asked for A. -/
theorem restSigns_transfer :
    RestSigns (transferBackend.withEd25519 transferEd25519) transferEd25519.verify
      transferTransaction [.str publicKeyA, .str publicKeyB] [koalaKeypair publicKeyB secretKeyB]
      (some fun _ => pure secretKeyA) publicKeyA () := by
  have hhandled : handledKeypairs [.str publicKeyA, .str publicKeyB]
      [koalaKeypair publicKeyB secretKeyB] = [koalaKeypair publicKeyB secretKeyB] :=
    List.filter_eq_self.2 (by decide +kernel)
  refine ⟨⟨_, base64UrlDecodeArr_transferHash⟩, ?_, ?_, ?_⟩
  · intro entry hentry
    have hnone : (keptSlot transferTransaction.sigs (.str publicKeyA)).isNone = true := by
      decide +kernel
    rw [hentry] at hnone
    cases hnone
  · intro kp hkp _
    rw [hhandled, List.mem_singleton] at hkp
    rw [hkp]
    exact Signer.signs_of_isSome (by decide +kernel) rfl _
  · intro callback hcallback
    cases hcallback
    have hkey : (koalaKeypair publicKeyB secretKeyB).key = publicKeyB := rfl
    have hmissing : ¬ ([publicKeyB].any fun key =>
        (Value.str publicKeyA).strictEq (.str key)) = true := by decide +kernel
    have hlast : ([publicKeyA, publicKeyB].any fun key =>
        (Value.str publicKeyB).strictEq (.str key)) = true := by decide +kernel
    rw [hhandled, List.map_singleton, hkey]
    unfold Served
    rw [if_neg hmissing, if_pos (strictEq_self publicKeyA)]
    unfold Served
    rw [if_pos hlast]
    trivial

/-- The conditions in a run that cannot ask for keys, evaluated. -/
theorem restSigns_of_ready {S : Strategy Unit} {args : ExecuteArgs Unit} {r : Ready}
    {pub priv : JsString} (pubKeys : List Value) (hfills : r.FillsResolved args pub priv)
    (hhash : r.tx.hash = transferHash)
    (hsigners : ((r.universalKeypairs args).all fun kp =>
      (kp.signer.sign (S.backend.withEd25519 transferEd25519) transferHash).toOption.isSome &&
        kp.signer.pubKey.isSome) = true) (w : Unit) :
    RestSigns (S.backend.withEd25519 transferEd25519) transferEd25519.verify r.tx pubKeys
      (r.universalKeypairs args) none pub w := by
  refine ⟨⟨transferDigest, ?_⟩, ?_, ?_, ?_⟩
  · rw [hhash, base64UrlDecodeArr_transferHash]
  · intro entry hentry
    rw [hfills.free] at hentry
    cases hentry
  · intro kp hkp _
    have hkp := List.all_eq_true.1 hsigners kp (List.mem_filter.1 hkp).1
    rw [Bool.and_eq_true] at hkp
    rw [hhash]
    exact Signer.signs_of_isSome hkp.1 hkp.2 pubKeys
  · intro callback hcallback
    cases hcallback

/-- The secret of A as the key that was entered: the callback delivers it, or it was resolved before
the run. -/
theorem accepted_key_usable_iff_transfer :
    (∃ signed w₁, Async.runIn (universalSignTransaction
        (transferBackend.withEd25519 transferEd25519) transferTransaction
        [koalaKeypair publicKeyB secretKeyB] (some fun _ => pure secretKeyA)) () =
          (.ok signed, w₁) ∧
      SignedUnder transferEd25519.verify [.str publicKeyA, .str publicKeyB] publicKeyA signed) ∧
    ∃ pubKeys signed, .str publicKeyA ∈ pubKeys ∧
      .submit signed ∈ ((partyBStrategy.withEd25519 transferEd25519).runExecute
        (pastedArgs secretKeyA) ()).2.events ∧
      SignedUnder transferEd25519.verify pubKeys publicKeyA signed := by
  have hlength : secretKeyA.length = 64 := by decide +kernel
  constructor
  · have hkeys : signerPubKeys transferTransaction.cmd = .ok [.str publicKeyA, .str publicKeyB] :=
      signerPubKeys_of_declares built_transferTransaction.declares
    exact ((accepted_key_usable_iff documented_transferEd25519 tryDerivePublicKey_secretKeyA).1 Unit
      transferBackend transferTransaction _ [koalaKeypair publicKeyB secretKeyB]
      (fun _ => pure secretKeyA) () signaturesNonEmpty_transferBackend hkeys List.mem_cons_self
      (by decide +kernel) fun _ => ⟨(), rfl⟩).2 ⟨hlength, restSigns_transfer⟩
  · have hfacts : ((run ((partyBStrategy.withEd25519 transferEd25519).untilReady
        (pastedArgs secretKeyA)) { world := (), events := [] }).1.toOption.map fun r =>
          r.fillsResolved (pastedArgs secretKeyA) publicKeyA secretKeyA &&
            decide (r.tx.hash = transferHash) &&
            (r.universalKeypairs (pastedArgs secretKeyA)).all fun kp =>
              (kp.signer.sign (partyBStrategy.backend.withEd25519 transferEd25519)
                transferHash).toOption.isSome && kp.signer.pubKey.isSome) = some true := by
      decide +kernel
    rcases hready : run ((partyBStrategy.withEd25519 transferEd25519).untilReady
      (pastedArgs secretKeyA)) { world := (), events := [] } with ⟨out, t⟩
    rw [hready] at hfacts
    cases out with
    | error e => cases hfacts
    | ok r =>
        have hall := Option.some.inj hfacts
        rw [Bool.and_eq_true, Bool.and_eq_true] at hall
        have hfills := Ready.fillsResolved_of hall.1.1
        rcases hfills.declared with ⟨pubKeys, hkeys, hincluded⟩
        have hdeclared : .str publicKeyA ∈ pubKeys := by
          rcases List.any_eq_true.1 hincluded with ⟨pubKey, hmem, heq⟩
          rw [← Value.eq_of_strictEq_str heq]
          exact hmem
        have hB : SignaturesNonEmpty partyBStrategy.backend :=
          ⟨signaturesNonEmpty_transferBackend.nacl, signaturesNonEmpty_transferBackend.chainweaver⟩
        have hrest := restSigns_of_ready (S := partyBStrategy) pubKeys hfills
          (of_decide_eq_true hall.1.2) hall.2 t.world
        rcases ((accepted_key_usable_iff documented_transferEd25519
          tryDerivePublicKey_secretKeyA).2 Unit partyBStrategy (pastedArgs secretKeyA) () r t
          pubKeys hB hready hkeys hdeclared ⟨hfills.resolved, hfills.signs⟩).2 ⟨hlength, hrest⟩ with
          ⟨signed, hsubmit, hunder⟩
        exact ⟨pubKeys, signed, hdeclared, hsubmit, hunder⟩

/-- A transfer that only the extended key signs. -/
def extendedTransaction : Command :=
  let cmd := (stringify (.obj [
    (js "payload", .obj [(js "exec", .obj [
      (js "code", .str (js "(coin.transfer \"alice\" \"bob\" 1.0)")), (js "data", .obj [])])]),
    (js "signers", .arr [transferSigner extendedPublicKey]),
    (js "networkId", .str (js "stoa"))]) []).getD []
  { cmd := cmd, hash := js "QMTqIH5H9dTo3DR7I9maOg6kOBadpfu6wLbYpVf1KUA", sigs := [.undefined] }

/-- The extended key is resolved for the account's guard. -/
def extendedArgs : ExecuteArgs Unit where
  build := fun _ => pure extendedTransaction
  guards := [{ pred := js "keys-all", keys := [extendedPublicKey] }]
  paymentKey := some publicKeyB
  resolvedForeignKeys := [(extendedPublicKey, extendedKey)]

/-- The extended key passes the check, its transaction declares it, and both paths throw. -/
theorem extended_key_throws :
    tryDerivePublicKey transferEd25519 extendedKey = some extendedPublicKey ∧
      (signerPubKeys extendedTransaction.cmd).toOption.map (includesKey · extendedPublicKey) =
        some true ∧
      (Async.runIn (universalSignTransaction (transferBackend.withEd25519 transferEd25519)
        extendedTransaction [] (some fun _ => pure extendedKey)) ()).1.map (fun _ => ()) =
          .error (.error (js "Seed for IKeyPairgeneration has bad size")) ∧
      ((partyBStrategy.withEd25519 transferEd25519).runExecute extendedArgs ()).1.map
        (fun _ => ()) = .error (.thrown (.error (js "bad secret key size"))) := by
  refine ⟨?_, ?_, ?_, ?_⟩
  · decide +kernel
  · decide +kernel
  · decide +kernel
  · decide +kernel

end Signing
end StoaCore
