import StoaCore.Signing.Attachment
import StoaCore.Signing.StrategyRuns

/-!
# Coverage — when a submitted command is fully signed

The build closure chooses the signers of the command; nothing checks afterwards that a key was
found for each of them.  `Covered` is what has to hold of the command the closure returned.
-/

namespace StoaCore
namespace Signing

open Library.Js
open Library.Traced

/-! ## Which signers get a signature -/

/-- A key for the signer is at hand, or the resolver can ask for one. -/
def signable (keys : List JsString) (asks : Bool) (pubKey : Value) : Bool :=
  asks || keys.any fun k => pubKey.strictEq (.str k)

theorem signable_iff {keys : List JsString} {asks : Bool} {pubKey : Value} :
    signable keys asks pubKey = true ↔
      asks = true ∨ ∃ k ∈ keys, pubKey.strictEq (.str k) = true := by
  rw [signable, Bool.or_eq_true, List.any_eq_true]

section Universal

variable {σ : Type} {B : Backend}

section Missing

variable {callback : Value → Async σ JsString} {pubKey : Value} {pubKeys : List Value}
  {handled : List JsString} {w w₁ : σ} {rawKey derived : JsString}

section Asked

variable (hmissing : ¬ (handled.any fun key => pubKey.strictEq (.str key)) = true)
  (hasked : Async.runIn (callback pubKey) w = (.ok rawKey, w₁))

include hmissing hasked

theorem resolveMissingKeys_throws {e : Thrown}
    (hderive : B.publicKeyFromPrivateKey rawKey = .error e) :
    Async.runIn (resolveMissingKeys B callback (pubKey :: pubKeys) handled) w = (.error e, w₁) := by
  rw [resolveMissingKeys, if_neg hmissing, Async.runIn_bind_of_ok hasked, hderive]
  exact Async.runIn_bind_of_error (Async.runIn_lift _ w₁) _

theorem resolveMissingKeys_mismatch (hderive : B.publicKeyFromPrivateKey rawKey = .ok derived)
    (hkey : ¬ pubKey.strictEq (.str derived) = true) :
    Async.runIn (resolveMissingKeys B callback (pubKey :: pubKeys) handled) w =
      (.error (.error (js "Key mismatch.\nExpected: " ++ pubKey.template ++
        js "\nDerived:  " ++ derived)), w₁) := by
  rw [resolveMissingKeys, if_neg hmissing, Async.runIn_bind_of_ok hasked, hderive,
    Async.runIn_bind_of_ok (Async.runIn_lift _ w₁), if_neg hkey]
  rfl

/-- The key is right, and the flow goes on with the signers behind it. -/
theorem resolveMissingKeys_matches (hderive : B.publicKeyFromPrivateKey rawKey = .ok derived)
    (hkey : pubKey.strictEq (.str derived) = true) :
    Async.runIn (resolveMissingKeys B callback (pubKey :: pubKeys) handled) w =
      Async.runIn (resolveMissingKeys B callback pubKeys (derived :: handled) >>= fun pairs =>
        pure (⟨derived, rawKey⟩ :: pairs)) w₁ := by
  rw [resolveMissingKeys, if_neg hmissing, Async.runIn_bind_of_ok hasked, hderive,
    Async.runIn_bind_of_ok (Async.runIn_lift _ w₁), if_pos hkey]

end Asked

/-- The flow goes past a signer without a keypair exactly if the callback delivers a private key
that derives the signer's public key. -/
theorem resolveMissingKeys_cons {w₂ : σ} {pairs : List NaclPair}
    (hmissing : ¬ (handled.any fun key => pubKey.strictEq (.str key)) = true) :
    Async.runIn (resolveMissingKeys B callback (pubKey :: pubKeys) handled) w = (.ok pairs, w₂) ↔
      ∃ rawKey derived w₁ rest, Async.runIn (callback pubKey) w = (.ok rawKey, w₁) ∧
        B.publicKeyFromPrivateKey rawKey = .ok derived ∧
        pubKey.strictEq (.str derived) = true ∧
        Async.runIn (resolveMissingKeys B callback pubKeys (derived :: handled)) w₁ =
          (.ok rest, w₂) ∧
        pairs = ⟨derived, rawKey⟩ :: rest := by
  constructor
  · intro h
    rcases hasked : Async.runIn (callback pubKey) w with ⟨out, w₁⟩
    cases out with
    | error e =>
        rw [resolveMissingKeys, if_neg hmissing, Async.runIn_bind_of_error hasked] at h
        cases h
    | ok rawKey =>
        cases hderive : B.publicKeyFromPrivateKey rawKey with
        | error e =>
            rw [resolveMissingKeys_throws hmissing hasked hderive] at h
            cases h
        | ok derived =>
            by_cases hkey : pubKey.strictEq (.str derived) = true
            · rw [resolveMissingKeys_matches hmissing hasked hderive hkey] at h
              rcases Async.bind_ok (congrArg Prod.fst h) with ⟨rest, w₃, hrest, -⟩
              rw [Async.runIn_bind_of_ok hrest] at h
              cases h
              exact ⟨rawKey, derived, w₁, rest, rfl, hderive, hkey, hrest, rfl⟩
            · rw [resolveMissingKeys_mismatch hmissing hasked hderive hkey] at h
              cases h
  · rintro ⟨rawKey, derived, w₁, rest, hasked, hderive, hkey, hrest, rfl⟩
    rw [resolveMissingKeys_matches hmissing hasked hderive hkey, Async.runIn_bind_of_ok hrest]
    rfl

end Missing

/-- The foreign-key flow ends with a key for every declared signer that had none. -/
theorem resolveMissingKeys_spec (callback : Value → Async σ JsString) {pubKeys : List Value}
    {handled : List JsString} {w : σ} {pairs : List NaclPair}
    (h : (Async.runIn (resolveMissingKeys B callback pubKeys handled) w).1 = .ok pairs) :
    (∀ pubKey ∈ pubKeys, (∃ k ∈ handled, pubKey.strictEq (.str k) = true) ∨
      ∃ pair ∈ pairs, pubKey.strictEq (.str pair.publicKey) = true) ∧
    ∀ pair ∈ pairs, ∃ pubKey ∈ pubKeys, pubKey.strictEq (.str pair.publicKey) = true := by
  induction pubKeys generalizing handled w pairs with
  | nil =>
      cases h
      exact ⟨fun _ hk => absurd hk List.not_mem_nil, fun _ hp => absurd hp List.not_mem_nil⟩
  | cons pubKey pubKeys ih =>
      by_cases hhandled : (handled.any fun key => pubKey.strictEq (.str key)) = true
      · -- The signer is handled already: the callback is not asked, and nothing is added.
        rw [resolveMissingKeys, if_pos hhandled] at h
        rcases ih h with ⟨hall, hpairs⟩
        constructor
        · intro k hk
          rcases List.mem_cons.1 hk with rfl | hk
          · exact Or.inl (List.any_eq_true.1 hhandled)
          · exact hall k hk
        · intro pair hpair
          rcases hpairs pair hpair with ⟨k, hk, heq⟩
          exact ⟨k, List.mem_cons_of_mem _ hk, heq⟩
      · -- A key is asked for and derived; a mismatch throws, so success means it is the signer's.
        rcases (resolveMissingKeys_cons hhandled).1 (Prod.ext h rfl) with
          ⟨rawKey, derived, w₁, rest, -, -, heq, hrest, rfl⟩
        rcases ih (congrArg Prod.fst hrest) with ⟨hall, hpairs⟩
        constructor
        · intro k hk
          rcases List.mem_cons.1 hk with rfl | hk
          · exact Or.inr ⟨_, List.mem_cons_self, heq⟩
          · rcases hall k hk with ⟨d, hd, hkd⟩ | ⟨pair, hpair, hkp⟩
            · rcases List.mem_cons.1 hd with rfl | hd
              · exact Or.inr ⟨_, List.mem_cons_self, hkd⟩
              · exact Or.inl ⟨d, hd, hkd⟩
            · exact Or.inr ⟨pair, List.mem_cons_of_mem _ hpair, hkp⟩
        · intro pair hpair
          rcases List.mem_cons.1 hpair with rfl | hpair
          · exact ⟨pubKey, List.mem_cons_self, heq⟩
          · rcases hpairs pair hpair with ⟨k, hk, hkp⟩
            exact ⟨k, List.mem_cons_of_mem _ hk, hkp⟩

/-- The pairs of the foreign-key flow belong to declared signers; if the flow runs, every declared
signer is handled or has one. -/
theorem foreignKeyPairs_spec {onMissingKey : Option (Value → Async σ JsString)}
    {pubKeys : List Value} {handled : List JsString} {w : σ} {pairs : List NaclPair}
    (h : (Async.runIn (foreignKeyPairs B onMissingKey pubKeys handled) w).1 = .ok pairs) :
    (∀ pair ∈ pairs, onMissingKey.isSome = true ∧
      ∃ pubKey ∈ pubKeys, pubKey.strictEq (.str pair.publicKey) = true) ∧
    (onMissingKey.isSome = true → ∀ pubKey ∈ pubKeys,
      (∃ k ∈ handled, pubKey.strictEq (.str k) = true) ∨
        ∃ pair ∈ pairs, pubKey.strictEq (.str pair.publicKey) = true) := by
  cases onMissingKey with
  | none =>
      cases h
      exact ⟨fun _ hp => absurd hp List.not_mem_nil, fun hasks => nomatch hasks⟩
  | some callback =>
      rcases resolveMissingKeys_spec callback h with ⟨hall, hpairs⟩
      exact ⟨fun pair hpair => ⟨rfl, hpairs pair hpair⟩, fun _ => hall⟩

theorem includesKey_of_foreignPairs {onMissingKey : Option (Value → Async σ JsString)}
    {pubKeys : List Value} {handled : List JsString} {w w' : σ} {pairs : List NaclPair}
    (h : Async.runIn (foreignKeyPairs B onMissingKey pubKeys handled) w = (.ok pairs, w')) :
    ∀ pair ∈ pairs, includesKey pubKeys pair.publicKey = true := by
  intro pair hpair
  exact List.any_eq_true.2 ((foreignKeyPairs_spec (congrArg Prod.fst h)).1 pair hpair).2

/-- What `universalSignTransaction` attaches: a signature for each signable signer. -/
structure SignsFor (tx : Command) (keys : List JsString) (asks : Bool) (signed : Command)
    (pubKeys : List Value) (os : List (JsString × JsString)) : Prop where
  declared : signerPubKeys tx.cmd = .ok pubKeys
  nonempty : ∀ o ∈ os, o.2 ≠ []
  signed_eq : signed = { tx with sigs := os.foldl (attach pubKeys) tx.sigs }
  relevant : ∀ o ∈ os, ∃ pubKey ∈ pubKeys, pubKey.strictEq (.str o.1) = true
  signs : ∀ pubKey ∈ pubKeys,
    (∃ o ∈ os, pubKey.strictEq (.str o.1) = true) ↔ signable keys asks pubKey = true

/-- The keys of the signatures: those of the handled keypairs and those of the foreign pairs. -/
theorem mem_attached {handled : List UniversalKeypair} {pairs : List NaclPair} {k : JsString} :
    k ∈ ((handled.filter fun kp => !kp.isChainweaver).map UniversalKeypair.toNaclPair ++
        pairs).map NaclPair.publicKey ++
        (handled.filter UniversalKeypair.isChainweaver).map UniversalKeypair.key ↔
      (∃ kp ∈ handled, kp.key = k) ∨ ∃ pair ∈ pairs, pair.publicKey = k := by
  simp only [List.map_append, List.map_map, List.mem_append, List.mem_map, List.mem_filter,
    Function.comp_apply]
  constructor
  · rintro ((⟨kp, ⟨hkp, -⟩, rfl⟩ | hpair) | ⟨kp, ⟨hkp, -⟩, rfl⟩)
    · exact Or.inl ⟨kp, hkp, rfl⟩
    · exact Or.inr hpair
    · exact Or.inl ⟨kp, hkp, rfl⟩
  · rintro (⟨kp, hkp, rfl⟩ | hpair)
    · cases hcw : kp.isChainweaver with
      | false => exact Or.inl (Or.inl ⟨kp, ⟨hkp, by simp [hcw]⟩, rfl⟩)
      | true => exact Or.inr ⟨kp, ⟨hkp, hcw⟩, rfl⟩
    · exact Or.inl (Or.inr hpair)

theorem universalSignTransaction_spec (hB : SignaturesNonEmpty B) {tx signed : Command}
    {kps : List UniversalKeypair} (hpublic : ∀ kp ∈ kps, kp.publicKey = some kp.key)
    {onMissingKey : Option (Value → Async σ JsString)} {w : σ}
    (h : (Async.runIn (universalSignTransaction B tx kps onMissingKey) w).1 = .ok signed) :
    ∃ pubKeys os,
      SignsFor tx (kps.map UniversalKeypair.key) onMissingKey.isSome signed pubKeys os := by
  unfold universalSignTransaction at h
  rcases Async.bind_ok h with ⟨pubKeys, w₁, hdeclared, h⟩
  rcases Async.bind_ok h with ⟨pairs, w₂, hforeign, h⟩
  have hdeclared : signerPubKeys tx.cmd = .ok pubKeys := congrArg Prod.fst hdeclared
  rcases foreignKeyPairs_spec (congrArg Prod.fst hforeign) with ⟨hpairs, hall⟩
  have hhandled : ∀ kp, kp ∈ handledKeypairs pubKeys kps ↔
      kp ∈ kps ∧ includesKey pubKeys kp.key = true := fun kp => List.mem_filter
  -- The keypairs that reach the back ends belong to declared signers, by the filter before them.
  have hattach : Attaches pubKeys tx _ signed := attaches_attachSignatures hB hdeclared ?_ ?_ h
  · rcases hattach with ⟨os, hos, hnonempty, hsigned⟩
    have hmem : ∀ k, (∃ o ∈ os, o.1 = k) ↔ (∃ kp ∈ handledKeypairs pubKeys kps, kp.key = k) ∨
        ∃ pair ∈ pairs, pair.publicKey = k := by
      intro k
      rw [← mem_attached, ← hos, List.mem_map]
    refine ⟨pubKeys, os, hdeclared, hnonempty, hsigned, ?_, ?_⟩
    · intro o ho
      rcases (hmem o.1).1 ⟨o, ho, rfl⟩ with ⟨kp, hkp, heq⟩ | ⟨pair, hpair, heq⟩
      · exact heq ▸ List.any_eq_true.1 ((hhandled kp).1 hkp).2
      · exact heq ▸ (hpairs pair hpair).2
    · intro pubKey hpubKey
      rw [signable_iff]
      constructor
      · rintro ⟨o, ho, hkey⟩
        rcases (hmem o.1).1 ⟨o, ho, rfl⟩ with ⟨kp, hkp, heq⟩ | ⟨pair, hpair, -⟩
        · exact Or.inr ⟨kp.key, List.mem_map_of_mem ((hhandled kp).1 hkp).1, heq ▸ hkey⟩
        · exact Or.inl (hpairs pair hpair).1
      · -- A signable signer has a handled keypair or a foreign pair.
        intro hsignable
        have hkey : (∃ kp ∈ handledKeypairs pubKeys kps, pubKey.strictEq (.str kp.key) = true) ∨
            ∃ pair ∈ pairs, pubKey.strictEq (.str pair.publicKey) = true := by
          rcases hsignable with hasks | ⟨k, hk, heq⟩
          · apply (hall hasks pubKey hpubKey).imp_left
            rintro ⟨k, hk, heq⟩
            rcases List.mem_map.1 hk with ⟨kp, hkp, rfl⟩
            exact ⟨kp, hkp, heq⟩
          · rcases List.mem_map.1 hk with ⟨kp, hkp, rfl⟩
            exact Or.inl ⟨kp, (hhandled kp).2 ⟨hkp, List.any_eq_true.2 ⟨pubKey, hpubKey, heq⟩⟩, heq⟩
        rcases hkey with ⟨kp, hkp, heq⟩ | ⟨pair, hpair, heq⟩
        · rcases (hmem kp.key).2 (Or.inl ⟨kp, hkp, rfl⟩) with ⟨o, ho, hok⟩
          exact ⟨o, ho, hok ▸ heq⟩
        · rcases (hmem pair.publicKey).2 (Or.inr ⟨pair, hpair, rfl⟩) with ⟨o, ho, hok⟩
          exact ⟨o, ho, hok ▸ heq⟩
  · intro pair hpair
    rcases List.mem_append.1 hpair with hpair | hpair
    · rcases List.mem_map.1 hpair with ⟨kp, hkp, rfl⟩
      exact ((hhandled kp).1 (List.mem_filter.1 hkp).1).2
    · exact List.any_eq_true.2 (hpairs pair hpair).2
  · intro kp hkp
    exact hpublic kp ((hhandled kp).1 (List.mem_filter.1 hkp).1).1

end Universal

/-! ## Fully signed commands -/

/-- One slot for each declared signer, and every slot filled. -/
def FullySigned (signed : Command) : Prop :=
  isFullySigned signed = true ∧
    ∃ pubKeys, signerPubKeys signed.cmd = .ok pubKeys ∧ signed.sigs.length = pubKeys.length ∧
      ∀ slot ∈ signed.sigs, isSlotFilled slot = true

/-- What has to hold of a command before it is signed.  If some signer gets a signature, all slots
are written anew: each signer's slot has to be kept and filled, or not kept and signable.  If none
does, the slots stay as they are. -/
def CoveredBy (keys : List JsString) (asks : Bool) (tx : Command) : Prop :=
  ∀ pubKeys, signerPubKeys tx.cmd = .ok pubKeys →
    if pubKeys.any (signable keys asks) then
      ∀ pubKey ∈ pubKeys,
        match keptSlot tx.sigs pubKey with
        | some slot => isSlotFilled slot = true
        | none => signable keys asks pubKey = true
    else tx.sigs.length = pubKeys.length ∧ ∀ slot ∈ tx.sigs, isSlotFilled slot = true

section Signed

variable {keys : List JsString} {asks : Bool} {tx signed : Command} {pubKeys : List Value}
  {os : List (JsString × JsString)}

theorem isFullySigned_of_slots (hkeys : signerPubKeys tx.cmd = .ok pubKeys)
    (hlength : tx.sigs.length = pubKeys.length)
    (hfilled : ∀ slot ∈ tx.sigs, isSlotFilled slot = true) : isFullySigned tx = true := by
  rw [isFullySigned_iff]
  intro i hi
  -- There are at least as many slots as signers that the slot readers see.
  have hlt : i < tx.sigs.length :=
    hlength ▸ lt_of_lt_of_le hi (readSignerPubKeys_length_le hkeys)
  rw [slotAt, List.getElem?_eq_getElem hlt]
  exact hfilled _ (List.getElem_mem hlt)

/-- Being fully signed is a matter of the slots alone. -/
theorem fullySigned_iff (hkeys : signerPubKeys tx.cmd = .ok pubKeys) :
    FullySigned tx ↔
      tx.sigs.length = pubKeys.length ∧ ∀ slot ∈ tx.sigs, isSlotFilled slot = true := by
  constructor
  · rintro ⟨-, pubKeys', hkeys', hslots⟩
    rw [hkeys] at hkeys'
    cases hkeys'
    exact hslots
  · rintro ⟨hlength, hfilled⟩
    exact ⟨isFullySigned_of_slots hkeys hlength hfilled, pubKeys, hkeys, hlength, hfilled⟩

theorem coveredBy_iff (hkeys : signerPubKeys tx.cmd = .ok pubKeys) :
    CoveredBy keys asks tx ↔
      if pubKeys.any (signable keys asks) then
        ∀ pubKey ∈ pubKeys,
          match keptSlot tx.sigs pubKey with
          | some slot => isSlotFilled slot = true
          | none => signable keys asks pubKey = true
      else tx.sigs.length = pubKeys.length ∧ ∀ slot ∈ tx.sigs, isSlotFilled slot = true := by
  constructor
  · intro h
    exact h pubKeys hkeys
  · intro h pubKeys' hkeys'
    rw [hkeys] at hkeys'
    cases hkeys'
    exact h

/-- The signed command is fully signed exactly if the command was covered. -/
theorem SignsFor.fullySigned_iff (h : SignsFor tx keys asks signed pubKeys os) :
    FullySigned signed ↔ CoveredBy keys asks tx := by
  have hdeclared : signerPubKeys signed.cmd = .ok pubKeys := by
    rw [h.signed_eq]
    exact h.declared
  rw [Signing.fullySigned_iff hdeclared, coveredBy_iff h.declared]
  by_cases hos : os = []
  · -- Nothing was attached, so no signer was signable.
    have hsame : signed = tx := by
      rw [h.signed_eq, hos, List.foldl_nil]
    have hnone : pubKeys.any (signable keys asks) = false := by
      rw [List.any_eq_false]
      intro pubKey hmem hsignable
      rcases (h.signs pubKey hmem).2 hsignable with ⟨o, ho, -⟩
      rw [hos] at ho
      cases ho
    rw [hsame, hnone]
    exact Iff.rfl
  -- At least one signature was attached, so all slots were written anew.
  · have hsome : pubKeys.any (signable keys asks) = true := by
      rcases List.exists_mem_of_ne_nil os hos with ⟨o, ho⟩
      rcases h.relevant o ho with ⟨pubKey, hmem, heq⟩
      exact List.any_eq_true.2 ⟨pubKey, hmem, (h.signs pubKey hmem).1 ⟨o, ho, heq⟩⟩
    have hslots : signed.sigs =
        pubKeys.map fun pubKey => (settledSlot tx.sigs os pubKey).getD (bareSlot pubKey) := by
      rw [h.signed_eq]
      exact foldl_attach h.nonempty hos tx.sigs
    have hsignable : ∀ pubKey ∈ pubKeys,
        (isSlotFilled ((settledSlot tx.sigs os pubKey).getD (bareSlot pubKey)) = true ↔
          match keptSlot tx.sigs pubKey with
          | some slot => isSlotFilled slot = true
          | none => signable keys asks pubKey = true) := by
      intro pubKey hmem
      rw [isSlotFilled_settled h.nonempty]
      cases keptSlot tx.sigs pubKey with
      | some slot => exact Iff.rfl
      | none => exact h.signs pubKey hmem
    rw [hslots, hsome, List.length_map, if_pos rfl]
    constructor
    · rintro ⟨-, hfilled⟩ pubKey hmem
      exact (hsignable pubKey hmem).1 (hfilled _ (List.mem_map_of_mem hmem))
    · intro hcovered
      refine ⟨rfl, ?_⟩
      intro slot hslot
      rcases List.mem_map.1 hslot with ⟨pubKey, hmem, rfl⟩
      exact (hsignable pubKey hmem).2 (hcovered pubKey hmem)

end Signed

/-! ## What execute submits -/

theorem mem_dedupKeypairs {kps : List KadenaKeypair} {seen : List JsString} {k : JsString} :
    k ∈ (dedupKeypairs kps seen).map KadenaKeypair.publicKey ↔
      k ∈ kps.map KadenaKeypair.publicKey ∧ k ∉ seen := by
  induction kps generalizing seen with
  | nil => simp [dedupKeypairs]
  | cons kp kps ih =>
      unfold dedupKeypairs
      split
      case isTrue hseen =>
        rw [ih, List.map_cons, List.mem_cons]
        constructor
        · exact fun h => ⟨Or.inr h.1, h.2⟩
        · rintro ⟨rfl | h, hnot⟩
          · exact absurd hseen hnot
          · exact ⟨h, hnot⟩
      case isFalse hnew =>
        rw [List.map_cons, List.map_cons, List.mem_cons, List.mem_cons, ih, List.mem_cons]
        constructor
        · rintro (rfl | ⟨h, hnot⟩)
          · exact ⟨Or.inl rfl, hnew⟩
          · exact ⟨Or.inr h, fun hmem => hnot (Or.inr hmem)⟩
        · rintro ⟨rfl | h, hnot⟩
          · exact Or.inl rfl
          · by_cases hk : k = kp.publicKey
            · exact Or.inl hk
            · exact Or.inr ⟨h, fun hor => hor.elim hk hnot⟩

theorem signable_congr {keys keys' : List JsString} (h : ∀ k, k ∈ keys ↔ k ∈ keys') (asks : Bool) :
    signable keys asks = signable keys' asks := by
  funext pubKey
  rw [Bool.eq_iff_iff, signable_iff, signable_iff]
  simp only [h]

section Execute

variable {σ : Type} (S : Strategy σ) (args : ExecuteArgs σ)

/-- What has to hold of the command that the closure returns for `ctx`. -/
def Covered (ctx : BuildContext) (tx : Command) : Prop :=
  CoveredBy (ctx.capsKeyPub :: (ctx.guardPubs ++ args.extraSigners.map KadenaKeypair.publicKey))
    S.resolver.requestForeignKey.isSome tx

variable {S args}

/-- `sign` has a signature for a signer if one of its keypairs or the resolver has a key. -/
theorem sign_spec (hB : SignaturesNonEmpty S.backend) {tx signed : Command}
    {capsKey : KadenaKeypair} {guardKeypairs : List KadenaKeypair} {w : σ}
    (h : (Async.runIn (S.sign tx capsKey guardKeypairs) w).1 = .ok signed) :
    FullySigned signed ↔
      CoveredBy (capsKey.publicKey :: guardKeypairs.map KadenaKeypair.publicKey)
        S.resolver.requestForeignKey.isSome tx := by
  rcases universalSignTransaction_spec hB (fun kp hkp => by
    rcases List.mem_map.1 hkp with ⟨k, -, rfl⟩
    rfl) h with ⟨pubKeys, os, hsigns⟩
  rw [hsigns.fullySigned_iff]
  have hkeys : ((dedupKeypairs (capsKey :: guardKeypairs) []).map fun kp =>
      fromKeypair kp.toLoose).map UniversalKeypair.key =
      (dedupKeypairs (capsKey :: guardKeypairs) []).map KadenaKeypair.publicKey := by
    rw [List.map_map]
    rfl
  -- Deduplication drops keypairs and no keys, so it changes nothing about who can sign.
  have hsame : ∀ k, k ∈ (dedupKeypairs (capsKey :: guardKeypairs) []).map KadenaKeypair.publicKey ↔
      k ∈ capsKey.publicKey :: guardKeypairs.map KadenaKeypair.publicKey := by
    intro k
    rw [mem_dedupKeypairs, List.map_cons]
    simp
  rw [hkeys]
  unfold CoveredBy
  rw [signable_congr hsame]

/-- In every call of `execute`, what is submitted is fully signed exactly if the command built
last was covered. -/
theorem submitted_fully_signed_iff (hB : SignaturesNonEmpty S.backend) (w : σ) :
    (∀ signed, .submit signed ∈ (S.runExecute args w).2.events → FullySigned signed) ↔
      ∀ ctx tx signed,
        [.building ctx, .built tx, .submit signed] <:+ (S.runExecute args w).2.events →
          Covered S args ctx tx := by
  have hevents : (S.runExecute args w).2.events = [] ∨
      ∃ codexPubs, S.Reached args codexPubs (S.runExecute args w).2.events :=
    Strategy.runExecute_events w
  rcases hevents with hnil | hreached
  · rw [hnil]
    constructor
    · intro _ ctx tx signed hsuffix
      simp at hsuffix
    · intro _ signed hsubmit
      cases hsubmit
  -- What is submitted has been built last and signed, and signing is exact by `sign_spec`.
  · rcases hreached with ⟨codexPubs, c, capsKeypair, -, -, hstages⟩
    have hiff : ∀ ctx tx signed,
        [.building ctx, .built tx, .submit signed] <:+ (S.runExecute args w).2.events →
          (FullySigned signed ↔ Covered S args ctx tx) := by
      intro ctx tx signed hsuffix
      rcases hstages.signed_of_suffix hsuffix with ⟨⟨gasMeta, gasLimit, rfl⟩, w', hsigned⟩
      rw [sign_spec hB hsigned, List.map_append]
      exact Iff.rfl
    constructor
    · intro hall ctx tx signed hsuffix
      have hmem : Event.submit signed ∈ (S.runExecute args w).2.events :=
        hsuffix.subset (by simp)
      exact (hiff ctx tx signed hsuffix).1 (hall signed hmem)
    · intro hall signed hsubmit
      rcases hstages.submitted hsubmit with ⟨ctx, tx, hsuffix⟩
      exact (hiff ctx tx signed hsuffix).2 (hall ctx tx signed hsuffix)

end Execute

/-! ## A build closure that declares a second signer -/

/-- A codex with the key of A; the resolver cannot ask for others. -/
def soleStrategy : Strategy Unit where
  resolver :=
    { listCodexPubs := pure ⟨[publicKeyA], List.nodup_singleton _⟩
      getKeyPairByPublicKey := fun pub =>
        pure { publicKey := pub, privateKey := secretKeyA, seedType := some .koala } }
  client :=
    { dirtyRead := fun _ w => (.value (.obj [(js "gas", .num Strategy.simGasLimit)]), w)
      submit := fun _ w => (.value (.obj [(js "requestKey", .str transferHash)]), w) }
  backend := transferBackend
  environment :=
    { dateNow := fun _ => 1772000000000
      failover := fun _ => {}
      arithmetic := Rounding.binary64 }

/-- The closure wires in B beside the gas payer. -/
def cosignArgs : ExecuteArgs Unit where
  build := fun _ => pure transferTransaction
  guards := []

def submittedUnsigned : Event → Bool
  | .submit signed => !isFullySigned signed
  | _ => false

/-- The command is submitted with the slot of B empty. -/
theorem cosigner_left_out :
    ¬ ∀ signed, .submit signed ∈ (soleStrategy.runExecute cosignArgs ()).2.events →
      FullySigned signed := by
  intro h
  have hany : (soleStrategy.runExecute cosignArgs ()).2.events.any submittedUnsigned = true := by
    decide +kernel
  rcases List.any_eq_true.1 hany with ⟨e, hmem, he⟩
  cases e with
  | submit signed =>
      have hsigned := (h signed hmem).1
      rw [submittedUnsigned, hsigned] at he
      cases he
  | building ctx => cases he
  | built tx => cases he
  | dirtyRead tx => cases he

/-- The same closure with the keypair of B among the extra signers. -/
def extraSignerArgs : ExecuteArgs Unit :=
  { cosignArgs with
    extraSigners :=
      [{ publicKey := publicKeyB, privateKey := secretKeyB, seedType := some .koala }] }

theorem submitted_fully_signed_iff_extraSigner :
    (∀ signed, .submit signed ∈ (soleStrategy.runExecute extraSignerArgs ()).2.events →
      FullySigned signed) ↔
      ∀ ctx tx signed,
        [.building ctx, .built tx, .submit signed] <:+
          (soleStrategy.runExecute extraSignerArgs ()).2.events →
            Covered soleStrategy extraSignerArgs ctx tx :=
  submitted_fully_signed_iff signaturesNonEmpty_transferBackend ()

end Signing
end StoaCore
