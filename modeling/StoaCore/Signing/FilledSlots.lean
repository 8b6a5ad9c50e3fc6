import StoaCore.Signing.SigningSteps

/-!
# FilledSlots — which slots survive a signing call

The slot readers go by position: signer `i` has signed if slot `i` holds a signature.  The signing
path goes by public key and writes all slots anew.  A slot survives where the two views agree.
-/

namespace StoaCore
namespace Signing

open Library.WriteOnce
open Library.Js

/-! ## The slots after a call -/

/-- The slot of a signer with a signature. -/
def slotWith (pubKey : Value) (sig : JsString) : Value :=
  .obj [(js "pubKey", pubKey), (js "sig", .str sig)]

section Slots

variable (B : Backend) (hash : JsString) (steps : List Signer) (sigs : List Value)

/-- The entry a signer keeps: the first under the signer's key, if it holds a signature.  A keyless
signer overwrites it. -/
def entryFor (pubKey : Value) : Option Value :=
  if steps.any Signer.isKeyless then none else keptSlot sigs pubKey

/-- The signature a signer gets where no entry is kept: that of the last keyless signer, else of the
first with the signer's key. -/
def madeFor (pubKey : Value) : Option JsString :=
  ((steps.filter Signer.isKeyless).getLast?.or
    (steps.find? fun s => pubKey.strictEq (.str s.key))).map (Signer.signed B hash)

def slotAfter (pubKey : Value) : Value :=
  ((entryFor steps sigs pubKey).or ((madeFor B hash steps pubKey).map (slotWith pubKey))).getD
    (bareSlot pubKey)

end Slots

section Placed

variable {B : Backend} {hash : JsString} {steps : List Signer} {sigs pubKeys : List Value}

theorem entryFor_keyed (hkeyed : steps.any Signer.isKeyless = false) (pubKey : Value) :
    entryFor steps sigs pubKey = keptSlot sigs pubKey := by
  rw [entryFor, hkeyed, if_neg Bool.false_ne_true]

theorem madeFor_keyed (hkeyed : steps.any Signer.isKeyless = false) (pubKey : Value) :
    madeFor B hash steps pubKey =
      (steps.find? fun s => pubKey.strictEq (.str s.key)).map (Signer.signed B hash) := by
  have hnone : steps.filter Signer.isKeyless = [] :=
    List.filter_eq_nil_iff.2 (List.any_eq_false.1 hkeyed)
  rw [madeFor, hnone, List.getLast?_nil, Option.none_or]

/-- Without a keyless signer every signature is attached by public key. -/
theorem foldl_place_keyed (hkeyed : steps.any Signer.isKeyless = false) :
    (steps.map (Signer.signature B hash)).foldl (place pubKeys) sigs =
      (steps.map fun s => (s.key, s.signed B hash)).foldl (attach pubKeys) sigs := by
  induction steps generalizing sigs with
  | nil => rfl
  | cons s steps ih =>
      rw [List.any_cons, Bool.or_eq_false_iff] at hkeyed
      have hstep : place pubKeys sigs (s.signature B hash) =
          attach pubKeys sigs (s.key, s.signed B hash) := by
        unfold Signer.isKeyless at hkeyed
        unfold place Signer.signature Signer.key
        cases hpub : s.pubKey with
        | none =>
            rw [hpub] at hkeyed
            cases hkeyed.1
        | some k => rfl
      rw [List.map_cons, List.foldl_cons, hstep, List.map_cons, List.foldl_cons]
      exact ih hkeyed.2

theorem slotsAfter_keyed (hsigns : ∀ s ∈ steps, s.signed B hash ≠ []) (hne : steps ≠ [])
    (hkeyed : steps.any Signer.isKeyless = false) :
    (steps.map (Signer.signature B hash)).foldl (place pubKeys) sigs =
      pubKeys.map (slotAfter B hash steps sigs) := by
  have hos : ∀ o ∈ steps.map fun s => (s.key, s.signed B hash), o.2 ≠ [] := by
    intro o ho
    rcases List.mem_map.1 ho with ⟨s, hs, rfl⟩
    exact hsigns s hs
  rw [foldl_place_keyed hkeyed, foldl_attach hos (by simpa using hne)]
  apply List.map_congr_left
  intro pubKey _
  rw [slotAfter, settledSlot, entryFor_keyed hkeyed, madeFor_keyed hkeyed, List.find?_map]
  cases keptSlot sigs pubKey with
  | some slot => rfl
  | none =>
      rw [Option.none_or, Option.none_or]
      cases hfind : steps.find? fun s => pubKey.strictEq (.str s.key) with
      | none =>
          have hfind' : steps.find? ((fun o : JsString × JsString => pubKey.strictEq (.str o.1)) ∘
              fun s => (s.key, s.signed B hash)) = none := hfind
          rw [hfind']
          rfl
      | some s =>
          have hfind' : steps.find? ((fun o : JsString × JsString => pubKey.strictEq (.str o.1)) ∘
              fun s => (s.key, s.signed B hash)) = some s := hfind
          have hkey : pubKey = .str s.key := Value.eq_of_strictEq_str
            (List.find?_some (p := fun s : Signer => pubKey.strictEq (.str s.key)) hfind)
          rw [hfind', hkey]
          rfl

/-- Without a keyless signer, a signer keeps its entry or gets the signature of the first signer
with its key. -/
theorem slotAfter_keyed (hkeyed : steps.any Signer.isKeyless = false) {pubKey : Value} {s : Signer}
    (hfind : steps.find? (fun s => pubKey.strictEq (.str s.key)) = some s) :
    slotAfter B hash steps sigs pubKey =
      (keptSlot sigs pubKey).getD (slotWith pubKey (s.signed B hash)) := by
  rw [slotAfter, entryFor_keyed hkeyed, madeFor_keyed hkeyed, hfind]
  cases keptSlot sigs pubKey with
  | some entry => rfl
  | none => rfl

/-- The last keyless signer and the keyed ones behind it. -/
theorem exists_last_keyless (h : steps.any Signer.isKeyless = true) :
    ∃ before s after, steps = before ++ s :: after ∧ s.isKeyless = true ∧
      after.any Signer.isKeyless = false := by
  induction steps with
  | nil => cases h
  | cons s steps ih =>
      cases hrest : steps.any Signer.isKeyless with
      | true =>
          rcases ih hrest with ⟨before, t, after, rfl, ht, hafter⟩
          exact ⟨s :: before, t, after, rfl, ht, hafter⟩
      | false =>
          rw [List.any_cons, hrest, Bool.or_false] at h
          exact ⟨[], s, steps, rfl, h, hrest⟩

/-- With a keyless signer there is one slot, and the last of them decides it. -/
theorem slotsAfter_keyless (hsigns : ∀ s ∈ steps, s.signed B hash ≠ [])
    (hkeyless : steps.any Signer.isKeyless = true) :
    (steps.map (Signer.signature B hash)).foldl (place [.str []]) sigs =
      [.str []].map (slotAfter B hash steps sigs) := by
  rcases exists_last_keyless hkeyless with ⟨before, s, after, rfl, hs, hafter⟩
  have hpub : s.pubKey = none := Option.isNone_iff_eq_none.1 hs
  have hnone : after.filter Signer.isKeyless = [] :=
    List.filter_eq_nil_iff.2 (List.any_eq_false.1 hafter)
  have hmade : madeFor B hash (before ++ s :: after) (.str []) = some (s.signed B hash) := by
    rw [madeFor, List.filter_append, List.filter_cons_of_pos hs, hnone, List.getLast?_append,
      List.getLast?_singleton]
    rfl
  have hslot : slotAfter B hash (before ++ s :: after) sigs (.str []) =
      filledSlot [] (s.signed B hash) := by
    rw [slotAfter, hmade, entryFor, if_pos hkeyless]
    rfl
  have hplace : ∀ l, place [.str []] l (s.signature B hash) =
      [filledSlot [] (s.signed B hash)] := by
    intro l
    rw [place, Signer.signature, hpub]
    rfl
  rw [List.map_append, List.foldl_append, List.map_cons, List.foldl_cons, hplace,
    List.map_singleton, hslot]
  -- The signers behind it find its signature under the empty key and keep it.
  have hmem : s ∈ before ++ s :: after := List.mem_append_right before List.mem_cons_self
  have hkept : keptSlot [filledSlot [] (s.signed B hash)] (.str []) =
      some (filledSlot [] (s.signed B hash)) := by
    have htruthy : ((filledSlot [] (s.signed B hash)).truthy &&
        ((filledSlot [] (s.signed B hash)).optionalGet (js "sig")).truthy) = true :=
      decide_eq_true (hsigns s hmem)
    have hfind : [filledSlot [] (s.signed B hash)].find? (fun sig =>
        (sig.optionalGet (js "pubKey")).strictEq (.str [])) =
          some (filledSlot [] (s.signed B hash)) := rfl
    rw [keptSlot, hfind, Option.filter_some, if_pos htruthy]
  rw [foldl_place_keyed hafter]
  by_cases hnil : after = []
  · rw [hnil]
    rfl
  · have hos : ∀ o ∈ after.map fun s => (s.key, s.signed B hash), o.2 ≠ [] := by
      intro o ho
      rcases List.mem_map.1 ho with ⟨t, ht, rfl⟩
      exact hsigns t (List.mem_append_right before (List.mem_cons_of_mem s ht))
    rw [foldl_attach hos (by simpa using hnil), List.map_singleton, settledSlot, hkept]
    rfl

/-- The slots after a list of steps. -/
theorem slotsAfter_eq (hsigns : ∀ s ∈ steps, s.signed B hash ≠ []) (hne : steps ≠ [])
    (hkeyless : steps.any Signer.isKeyless = true → pubKeys = [.str []]) :
    (steps.map (Signer.signature B hash)).foldl (place pubKeys) sigs =
      pubKeys.map (slotAfter B hash steps sigs) := by
  cases hany : steps.any Signer.isKeyless with
  | false => exact slotsAfter_keyed hsigns hne hany
  | true =>
      rw [hkeyless hany]
      exact slotsAfter_keyless hsigns hany

end Placed

/-! ## Reading a slot -/

section Reading

variable {B : Backend} {hash : JsString} {steps : List Signer} {sigs : List Value}

/-- The slot after a call carries the signature `sig`, in terms of the slots before it. -/
def Carries (B : Backend) (hash : JsString) (steps : List Signer) (sigs : List Value)
    (pubKey sig : Value) : Prop :=
  match entryFor steps sigs pubKey with
  | some entry => entry.optionalGet (js "sig") = sig
  | none => (madeFor B hash steps pubKey).map Value.str = some sig

/-- Neither an entry nor a keypair fills the slot of the signer. -/
def LeavesEmpty (B : Backend) (hash : JsString) (steps : List Signer) (sigs : List Value)
    (pubKey : Value) : Prop :=
  match entryFor steps sigs pubKey with
  | some entry => isSlotFilled entry = false
  | none => madeFor B hash steps pubKey = none

theorem sig_slotAfter (pubKey : Value) {sig : JsString} :
    (slotAfter B hash steps sigs pubKey).optionalGet (js "sig") = .str sig ↔
      Carries B hash steps sigs pubKey (.str sig) := by
  unfold slotAfter Carries
  cases entryFor steps sigs pubKey with
  | some entry => rfl
  | none =>
      cases madeFor B hash steps pubKey with
      | none =>
          constructor
          · intro h
            cases h
          · intro h
            cases h
      | some made => exact (Option.some_inj (a := Value.str made)).symm

theorem madeFor_nonempty (hsigns : ∀ s ∈ steps, s.signed B hash ≠ []) {pubKey : Value}
    {sig : JsString} (h : madeFor B hash steps pubKey = some sig) : sig ≠ [] := by
  rcases Option.map_eq_some_iff.1 h with ⟨s, hs, rfl⟩
  apply hsigns s
  rcases Option.or_eq_some_iff.1 hs with hlast | ⟨-, hfind⟩
  · exact (List.mem_filter.1 (List.mem_of_getLast? hlast)).1
  · exact List.mem_of_find?_eq_some hfind

theorem isSlotFilled_slotAfter (hsigns : ∀ s ∈ steps, s.signed B hash ≠ []) (pubKey : Value) :
    isSlotFilled (slotAfter B hash steps sigs pubKey) = false ↔
      LeavesEmpty B hash steps sigs pubKey := by
  unfold slotAfter LeavesEmpty
  cases entryFor steps sigs pubKey with
  | some entry => rfl
  | none =>
      cases hmade : madeFor B hash steps pubKey with
      | none => exact ⟨fun _ => rfl, fun _ => rfl⟩
      | some made =>
          have hfilled : isSlotFilled (slotWith pubKey made) = true :=
            bne_iff_ne.2 (madeFor_nonempty hsigns hmade)
          constructor
          · intro h
            exact absurd (hfilled.symm.trans h) (by decide)
          · intro h
            cases h

end Reading

/-- The text of a filled slot's signature. -/
theorem sig_of_isSlotFilled {slot : Value} (h : isSlotFilled slot = true) :
    ∃ sig, slot.optionalGet (js "sig") = .str sig := by
  unfold isSlotFilled at h
  split at h
  · exact ⟨_, ‹_›⟩
  · cases h

/-! ## The slots that survive -/

/-- Filled slots keep their signature, and slots of signers without a supplied key stay empty. -/
structure SlotsSurvive (supplied : JsString → Prop) (tx tx' : Command) : Prop where
  filled : ∀ i < (readSignerPubKeys tx).length, isSlotFilled (slotAt tx.sigs i) = true →
    (slotAt tx'.sigs i).optionalGet (js "sig") = (slotAt tx.sigs i).optionalGet (js "sig")
  unfilled : ∀ i k, (readSignerPubKeys tx)[i]? = some k → ¬ supplied k →
    isSlotFilled (slotAt tx.sigs i) = false → isSlotFilled (slotAt tx'.sigs i) = false

/-- The keypairs of the list and the private keys that were asked for. -/
def Supplied (kps : List UniversalKeypair) (pairs : List NaclPair) (k : JsString) : Prop :=
  (∃ kp ∈ kps, kp.key = k) ∨ ∃ pair ∈ pairs, pair.publicKey = k

/-- Where anything is signed, looking a signer up by public key gives what its position gives. -/
structure PositionsAgree (B : Backend) (tx : Command) (pubKeys : List Value)
    (kps : List UniversalKeypair) (pairs : List NaclPair) : Prop where
  filled : signersOf pubKeys kps pairs ≠ [] → ∀ i < (readSignerPubKeys tx).length,
    isSlotFilled (slotAt tx.sigs i) = true →
      Carries B tx.hash (signersOf pubKeys kps pairs) tx.sigs (slotAt pubKeys i)
        ((slotAt tx.sigs i).optionalGet (js "sig"))
  unfilled : signersOf pubKeys kps pairs ≠ [] → ∀ i k, (readSignerPubKeys tx)[i]? = some k →
    ¬ Supplied kps pairs k → isSlotFilled (slotAt tx.sigs i) = false →
      LeavesEmpty B tx.hash (signersOf pubKeys kps pairs) tx.sigs (slotAt pubKeys i)

section Survive

variable {σ : Type} {B : Backend} {tx tx' : Command} {pubKeys : List Value}
  {kps : List UniversalKeypair} {pairs : List NaclPair}

/-- A keyless signer is a keypair without a public key, which is handled where the empty key is
declared. -/
theorem includesKey_of_keyless {s : Signer} (hs : s ∈ signersOf pubKeys kps pairs)
    (hkeyless : s.isKeyless = true) : includesKey pubKeys [] = true := by
  have hpub : s.pubKey = none := Option.isNone_iff_eq_none.1 hkeyless
  rcases mem_signersOf.1 hs with ⟨kp, -, hkey, hkp⟩ | ⟨pair, -, rfl⟩
  · have hkpub : kp.publicKey = none := by
      cases hcw : kp.isChainweaver with
      | true =>
          rw [hkp, hcw] at hpub
          exact hpub
      | false =>
          rw [hkp, hcw] at hpub
          cases hpub
    rw [UniversalKeypair.key, hkpub] at hkey
    exact hkey
  · cases hpub

/-- There it is the only key. -/
theorem pubKeys_of_keyless
    (hsigns : ∀ s ∈ signersOf pubKeys kps pairs, s.Signs B tx.hash pubKeys)
    (h : (signersOf pubKeys kps pairs).any Signer.isKeyless = true) : pubKeys = [.str []] := by
  rcases List.any_eq_true.1 h with ⟨s, hs, hkeyless⟩
  have hkey := includesKey_of_keyless hs hkeyless
  have hpub : s.pubKey = none := Option.isNone_iff_eq_none.1 hkeyless
  rcases List.length_eq_one_iff.1 ((hsigns s hs).2 hpub) with ⟨p, rfl⟩
  rw [includesKey, List.any_cons, List.any_nil, Bool.or_false] at hkey
  rw [Value.eq_of_strictEq_str hkey]

/-- Where somebody signs, the signers of the command are an array. -/
theorem lists_of_signersOf (hkeys : signerPubKeys tx.cmd = .ok pubKeys)
    (hpairs : ∀ pair ∈ pairs, includesKey pubKeys pair.publicKey = true)
    (hne : signersOf pubKeys kps pairs ≠ []) : Lists tx.cmd pubKeys := by
  rcases List.exists_mem_of_ne_nil _ hne with ⟨s, hs⟩
  have hkey : ∃ k, includesKey pubKeys k = true := by
    rcases mem_signersOf.1 hs with ⟨kp, -, hkey, -⟩ | ⟨pair, hpair, -⟩
    · exact ⟨kp.key, hkey⟩
    · exact ⟨pair.publicKey, hpairs pair hpair⟩
  rcases hkey with ⟨k, hk⟩
  rcases List.any_eq_true.1 hk with ⟨pubKey, hmem, -⟩
  exact lists_of_mem hkeys hmem

/-- A successful call leaves the slots as they are, or writes each signer's slot anew. -/
theorem slots_of_signed (hkeys : signerPubKeys tx.cmd = .ok pubKeys)
    (h : (signersOf pubKeys kps pairs).foldlM (signStep B) tx = .ok tx')
    (hpairs : ∀ pair ∈ pairs, includesKey pubKeys pair.publicKey = true)
    (hnonempty : ∀ s ∈ signersOf pubKeys kps pairs, s.signed B tx.hash ≠ []) :
    tx'.sigs = if signersOf pubKeys kps pairs = [] then tx.sigs
      else pubKeys.map (slotAfter B tx.hash (signersOf pubKeys kps pairs) tx.sigs) := by
  rcases (foldlM_signStep_ok_iff (lists_of_signersOf hkeys hpairs)).1 h with ⟨hsigns, rfl⟩
  split
  case isTrue hnil => rw [hnil]; rfl
  case isFalse hne => exact slotsAfter_eq hnonempty hne (pubKeys_of_keyless hsigns)

theorem slots_of_steps (hB : SignaturesNonEmpty B) (hkeys : signerPubKeys tx.cmd = .ok pubKeys)
    (h : (signersOf pubKeys kps pairs).foldlM (signStep B) tx = .ok tx')
    (hpairs : ∀ pair ∈ pairs, includesKey pubKeys pair.publicKey = true) :
    (∀ s ∈ signersOf pubKeys kps pairs, s.signed B tx.hash ≠ []) ∧
    tx'.sigs = if signersOf pubKeys kps pairs = [] then tx.sigs
      else pubKeys.map (slotAfter B tx.hash (signersOf pubKeys kps pairs) tx.sigs) := by
  have hsigns := ((foldlM_signStep_ok_iff (lists_of_signersOf hkeys hpairs)).1 h).1
  have hnonempty : ∀ s ∈ signersOf pubKeys kps pairs, s.signed B tx.hash ≠ [] := by
    intro s hs
    rcases (hsigns s hs).1 with ⟨sig, hsig⟩
    rw [Signer.signed_eq hsig]
    exact Signer.sign_nonempty hB hsig
  exact ⟨hnonempty, slots_of_signed hkeys h hpairs hnonempty⟩

theorem slotAt_map {f : Value → Value} {l : List Value} {i : Nat} (hi : i < l.length) :
    slotAt (l.map f) i = f (slotAt l i) := by
  unfold slotAt
  rw [List.getElem?_map, List.getElem?_eq_getElem hi]
  rfl

/-- After the steps of a call the slots survive if positions and public keys agree. -/
theorem slotsSurvive_iff_of_steps (hB : SignaturesNonEmpty B)
    (hkeys : signerPubKeys tx.cmd = .ok pubKeys)
    (h : (signersOf pubKeys kps pairs).foldlM (signStep B) tx = .ok tx')
    (hpairs : ∀ pair ∈ pairs, includesKey pubKeys pair.publicKey = true) :
    SlotsSurvive (Supplied kps pairs) tx tx' ↔ PositionsAgree B tx pubKeys kps pairs := by
  rcases slots_of_steps hB hkeys h hpairs with ⟨hsigns, hsigs⟩
  have hlength := readSignerPubKeys_length_le hkeys
  by_cases hnil : signersOf pubKeys kps pairs = []
  · -- Nothing is signed: the slots are those of before.
    rw [if_pos hnil] at hsigs
    constructor
    · intro _
      exact ⟨fun hne => absurd hnil hne, fun hne => absurd hnil hne⟩
    · intro _
      exact ⟨fun i _ _ => by rw [hsigs], fun i k _ _ hempty => by rw [hsigs]; exact hempty⟩
  · rw [if_neg hnil] at hsigs
    have hslot : ∀ i < (readSignerPubKeys tx).length, slotAt tx'.sigs i =
        slotAfter B tx.hash (signersOf pubKeys kps pairs) tx.sigs (slotAt pubKeys i) := by
      intro i hi
      rw [hsigs, slotAt_map (Nat.lt_of_lt_of_le hi hlength)]
    have hbound : ∀ {i k}, (readSignerPubKeys tx)[i]? = some k →
        i < (readSignerPubKeys tx).length := fun hk => (List.getElem?_eq_some_iff.1 hk).1
    constructor
    · intro hsurvive
      refine ⟨fun _ i hi hfilled => ?_, fun _ i k hk hsupplied hempty => ?_⟩
      · have hsig := hsurvive.filled i hi hfilled
        rcases sig_of_isSlotFilled hfilled with ⟨sig, hsig'⟩
        rw [hslot i hi, hsig'] at hsig
        rw [hsig']
        exact (sig_slotAfter _).1 hsig
      · have hsame := hsurvive.unfilled i k hk hsupplied hempty
        rw [hslot i (hbound hk)] at hsame
        exact (isSlotFilled_slotAfter hsigns _).1 hsame
    · intro hagree
      refine ⟨fun i hi hfilled => ?_, fun i k hk hsupplied hempty => ?_⟩
      · have hcarries := hagree.filled hnil i hi hfilled
        rcases sig_of_isSlotFilled hfilled with ⟨sig, hsig'⟩
        rw [hsig'] at hcarries ⊢
        rw [hslot i hi]
        exact (sig_slotAfter _).2 hcarries
      · rw [hslot i (hbound hk)]
        exact (isSlotFilled_slotAfter hsigns _).2 (hagree.unfilled hnil i k hk hsupplied hempty)

/-- Exactly where positions and public keys agree, filled slots survive `universalSignTransaction`
and `signPartial`, and slots of signers without a supplied key stay empty. -/
theorem filled_slots_survive_iff (hB : SignaturesNonEmpty B)
    (hkeys : signerPubKeys tx.cmd = .ok pubKeys) (kps : List UniversalKeypair) :
    (∀ (onMissingKey : Option (Value → Async σ JsString)) (w w' : σ) (pairs : List NaclPair) tx',
      Async.runIn (foreignKeyPairs B onMissingKey pubKeys
        ((handledKeypairs pubKeys kps).map UniversalKeypair.key)) w = (.ok pairs, w') →
      (Async.runIn (universalSignTransaction B tx kps onMissingKey) w).1 = .ok tx' →
        (SlotsSurvive (Supplied kps pairs) tx tx' ↔ PositionsAgree B tx pubKeys kps pairs)) ∧
    ∀ tx', signPartial B tx kps = .ok tx' →
      (SlotsSurvive (Supplied kps []) tx tx' ↔ PositionsAgree B tx pubKeys kps []) := by
  constructor
  · intro onMissingKey w w' pairs tx' hforeign hrun
    rw [runIn_universalSignTransaction hkeys hforeign] at hrun
    exact slotsSurvive_iff_of_steps hB hkeys hrun (includesKey_of_foreignPairs hforeign)
  · intro tx' hrun
    have hrun' : (Async.runIn (universalSignTransaction (σ := Unit) B tx kps none) ()).1 =
        .ok tx' := hrun
    have hforeign : Async.runIn (foreignKeyPairs (σ := Unit) B none pubKeys
        ((handledKeypairs pubKeys kps).map UniversalKeypair.key)) () = (.ok [], ()) := rfl
    rw [runIn_universalSignTransaction hkeys hforeign] at hrun'
    exact slotsSurvive_iff_of_steps hB hkeys hrun' fun _ h => absurd h List.not_mem_nil

end Survive

/-! ## Slots in the order of the signers -/

section Ordered

variable {B : Backend} {tx : Command} {keys : List JsString} {m : Store JsString JsString}
  {kps : List UniversalKeypair} {pairs : List NaclPair}

theorem keptSlot_of_slotsOf (h : SlotsOf keys m tx.sigs) (hnodup : keys.Nodup) {k : JsString}
    (hk : k ∈ keys) : keptSlot tx.sigs (.str k) = (m k).map (filledSlot k) := by
  rcases find_slotsOf h hnodup hk with ⟨slot, hslot, hfind⟩
  unfold keptSlot
  cases hm : m k with
  | none =>
      rw [hm] at hslot
      cases hslot with
      | undefined =>
          rw [hfind]
          rfl
      | null =>
          rw [hfind]
          rfl
      | pending =>
          rw [hfind.trans (if_pos (strictEq_self k))]
          rfl
  | some sig =>
      rw [hm] at hslot
      cases hslot with
      | filled _ hsig =>
          have htruthy : ((filledSlot k sig).truthy &&
              ((filledSlot k sig).optionalGet (js "sig")).truthy) = true := decide_eq_true hsig
          rw [hfind.trans (if_pos (strictEq_self k))]
          exact if_pos htruthy

/-- A signer without a supplied key gets no signature, unless a signer is keyless. -/
theorem madeFor_of_not_supplied {pubKeys : List Value} {hash : JsString}
    (hkeyed : (signersOf pubKeys kps pairs).any Signer.isKeyless = false) {k : JsString}
    (hk : ¬ Supplied kps pairs k) :
    madeFor B hash (signersOf pubKeys kps pairs) (.str k) = none := by
  rw [madeFor_keyed hkeyed, Option.map_eq_none_iff, List.find?_eq_none]
  intro s hs heq
  have hkey : s.key = k := (of_decide_eq_true heq).symm
  apply hk
  rcases mem_signersOf.1 hs with ⟨kp, hkp, -, rfl⟩ | ⟨pair, hpair, rfl⟩
  · refine Or.inl ⟨kp, hkp, ?_⟩
    rw [← hkey]
    cases kp.isChainweaver <;> rfl
  · exact Or.inr ⟨pair, hpair, hkey⟩

theorem slotAt_of_slotsOf (h : SlotsOf keys m tx.sigs) {i : Nat} {k : JsString}
    (hk : keys[i]? = some k) : SlotOf k (m k) (slotAt tx.sigs i) := by
  rcases List.getElem?_eq_some_iff.1 hk with ⟨hi, rfl⟩
  have hi' : i < tx.sigs.length := h.length_eq ▸ hi
  have hslot : slotAt tx.sigs i = tx.sigs.get ⟨i, hi'⟩ := by
    rw [slotAt, List.getElem?_eq_getElem hi']
    rfl
  rw [hslot]
  exact List.Forall₂.get h hi hi'

/-- Positions and public keys agree on every command whose slots stand in the order of distinct
signers, as those do that `createTransaction` and `signPartial` return. -/
theorem positionsAgree_of_slotsOf (hdecl : Declares tx.cmd keys) (hnodup : keys.Nodup)
    (hempty : [] ∉ keys) (h : SlotsOf keys m tx.sigs) :
    PositionsAgree B tx (keys.map Value.str) kps pairs := by
  have hpubKeys : readSignerPubKeys tx = keys := readSignerPubKeys_of_declares hdecl
  have hkeyed : (signersOf (keys.map Value.str) kps pairs).any Signer.isKeyless = false := by
    rw [List.any_eq_false]
    intro s hs hkeyless
    -- Its key would be empty, and that is no signer's.
    have hkey := includesKey_of_keyless hs hkeyless
    rw [includesKey_map_str, decide_eq_true_iff] at hkey
    exact hempty hkey
  have hentry : ∀ {i k}, keys[i]? = some k →
      entryFor (signersOf (keys.map Value.str) kps pairs) tx.sigs
        (slotAt (keys.map Value.str) i) = (m k).map (filledSlot k) ∧
      slotAt (keys.map Value.str) i = .str k ∧ SlotOf k (m k) (slotAt tx.sigs i) := by
    intro i k hk
    have hslot : slotAt (keys.map Value.str) i = .str k := by
      rw [slotAt, List.getElem?_map, hk]
      rfl
    refine ⟨?_, hslot, slotAt_of_slotsOf h hk⟩
    rw [entryFor_keyed hkeyed, hslot, keptSlot_of_slotsOf h hnodup (List.mem_of_getElem? hk)]
  constructor
  · intro _ i hi hfilled
    rw [hpubKeys] at hi
    rcases hentry (List.getElem?_eq_getElem hi) with ⟨hentry, -, hslot⟩
    rw [isSlotFilled_of_slotOf hslot] at hfilled
    rcases Option.isSome_iff_exists.1 hfilled with ⟨sig, hm⟩
    rw [hm] at hslot hentry
    rw [Carries, hentry]
    generalize slotAt tx.sigs i = slot at hslot
    cases hslot with
    | filled _ _ => rfl
  · intro _ i k hk hsupplied hunfilled
    rw [hpubKeys] at hk
    rcases hentry hk with ⟨hentry, hkey, hslot⟩
    rw [isSlotFilled_of_slotOf hslot] at hunfilled
    have hm : m k = none := Option.isNone_iff_eq_none.1 (by simpa using hunfilled)
    rw [hm] at hentry
    rw [LeavesEmpty, hentry, hkey]
    exact madeFor_of_not_supplied hkeyed hsupplied

end Ordered

/-! ## An entry without a public key -/

/-- The second party signs the transfer as it was built. -/
theorem filled_slots_survive_iff_transfer :
    ∃ tx', signPartial transferBackend transferTransaction [koalaKeypair publicKeyB secretKeyB] =
        .ok tx' ∧
      SlotsSurvive (Supplied [koalaKeypair publicKeyB secretKeyB] []) transferTransaction tx' := by
  have hbuilt := built_transferTransaction
  have hkeys := signerPubKeys_of_declares hbuilt.declares
  have hagree : PositionsAgree transferBackend transferTransaction _
      [koalaKeypair publicKeyB secretKeyB] [] :=
    positionsAgree_of_slotsOf hbuilt.declares hbuilt.nodup hbuilt.nonempty hbuilt.holds.slots
  have hok : (signPartial transferBackend transferTransaction
      [koalaKeypair publicKeyB secretKeyB]).isOk = true := by decide +kernel
  rcases exists_of_isOk hok with ⟨tx', hsign⟩
  exact ⟨tx', hsign, ((filled_slots_survive_iff (σ := Unit) signaturesNonEmpty_transferBackend
    hkeys [koalaKeypair publicKeyB secretKeyB]).2 tx' hsign).2 hagree⟩

/-- The transfer with A's signature in an entry that names no public key. -/
def unkeyedTransaction : Command :=
  { transferTransaction with sigs := [.obj [(js "sig", .str signatureAA)], .obj []] }

/-- B signs, and the signature of A is gone. -/
theorem unkeyed_signature_dropped :
    ¬ ∀ (B : Backend) (tx : Command) (kps : List UniversalKeypair) (tx' : Command),
      SignaturesNonEmpty B → signPartial B tx kps = .ok tx' →
        SlotsSurvive (Supplied kps []) tx tx' := by
  intro h
  have hdropped : ((signPartial transferBackend unkeyedTransaction
      [koalaKeypair publicKeyB secretKeyB]).toOption.map fun tx' =>
        ((slotAt tx'.sigs 0).optionalGet (js "sig")).isUndefined) = some true := by decide +kernel
  cases hsign : signPartial transferBackend unkeyedTransaction
      [koalaKeypair publicKeyB secretKeyB] with
  | error e =>
      rw [hsign] at hdropped
      cases hdropped
  | ok tx' =>
      have hsurvive := h transferBackend unkeyedTransaction [koalaKeypair publicKeyB secretKeyB] tx'
        signaturesNonEmpty_transferBackend hsign
      have hkept := hsurvive.filled 0 (by decide +kernel) (by decide +kernel)
      rw [hsign] at hdropped
      have hundefined : ((slotAt tx'.sigs 0).optionalGet (js "sig")).isUndefined = true :=
        Option.some.inj hdropped
      rw [hkept] at hundefined
      exact absurd hundefined (by decide +kernel)

end Signing
end StoaCore
