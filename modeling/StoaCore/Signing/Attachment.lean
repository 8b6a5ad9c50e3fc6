import StoaCore.Signing.MultiParty

/-!
# Attachment — which slots a signing call leaves filled

For any command whose signers can be read, whatever its slots hold: a slot that is kept stays, and
every other slot holds a signature exactly if one was attached for its signer.
-/

namespace StoaCore
namespace Signing

open Library.Js

/-! ## The slot that is kept -/

/-- The slot `addSignatures` finds for a signer and keeps. -/
def keptSlot (sigs : List Value) (pubKey : Value) : Option Value :=
  (sigs.find? fun sig => (sig.optionalGet (js "pubKey")).strictEq pubKey).filter fun existed =>
    existed.truthy && (existed.optionalGet (js "sig")).truthy

/-- The slot of a signer without a signature. -/
def bareSlot (pubKey : Value) : Value :=
  .obj [(js "pubKey", pubKey)]

theorem slotByPubKey_eq (sigs : List Value) (signatures : List Signature) (pubKey : Value) :
    slotByPubKey sigs signatures pubKey =
      (keptSlot sigs pubKey).getD (freshSlot signatures pubKey) := by
  unfold slotByPubKey keptSlot
  cases sigs.find? fun sig => (sig.optionalGet (js "pubKey")).strictEq pubKey with
  | none => rfl
  | some existed =>
      simp only [Option.filter_some]
      split <;> rfl

theorem keptSlot_congr (sigs : List Value) {a b : Value} (h : a.strictEq b = true) :
    keptSlot sigs a = keptSlot sigs b := by
  unfold keptSlot
  simp only [Value.strictEq_congr h]

theorem strictEq_of_keptSlot {sigs : List Value} {pubKey slot : Value}
    (h : keptSlot sigs pubKey = some slot) :
    (slot.optionalGet (js "pubKey")).strictEq pubKey = true :=
  List.find?_some (p := fun sig : Value => (sig.optionalGet (js "pubKey")).strictEq pubKey)
    (Option.filter_eq_some_iff.1 h).1

theorem truthy_of_keptSlot {sigs : List Value} {pubKey slot : Value}
    (h : keptSlot sigs pubKey = some slot) :
    (slot.truthy && (slot.optionalGet (js "sig")).truthy) = true :=
  (Option.filter_eq_some_iff.1 h).2

/-! ## One signature -/

/-- The slots after a signature `(pubKey, sig)` has been attached. -/
def attach (pubKeys sigs : List Value) (o : JsString × JsString) : List Value :=
  pubKeys.map (slotByPubKey sigs [{ sig := some o.2, pubKey := some o.1 }])

theorem freshSlot_eq (o : JsString × JsString) (hsig : o.2 ≠ []) (pubKey : Value) :
    freshSlot [{ sig := some o.2, pubKey := some o.1 }] pubKey =
      if pubKey.strictEq (.str o.1) then filledSlot o.1 o.2 else bareSlot pubKey := by
  -- An empty signature would be falsy and leave the slot bare.
  rcases o with ⟨k, sig⟩
  cases sig with
  | nil => exact absurd rfl hsig
  | cons c sig =>
      cases hk : pubKey.strictEq (.str k) with
      | true =>
          rw [Value.eq_of_strictEq_str hk]
          simp [freshSlot, filledSlot]
      | false =>
          have hk' : (Value.str k).strictEq pubKey = false := by rw [Value.strictEq_comm, hk]
          simp [freshSlot, bareSlot, hk']

section One

variable (sigs : List Value) (o : JsString × JsString)

/-- The slot of a signer names that signer. -/
theorem strictEq_slot (a pubKey : Value) :
    (((keptSlot sigs a).getD
      (if a.strictEq (.str o.1) then filledSlot o.1 o.2 else bareSlot a)).optionalGet
        (js "pubKey")).strictEq pubKey = a.strictEq pubKey := by
  cases hkept : keptSlot sigs a with
  | some slot =>
      have heq := Value.strictEq_congr (strictEq_of_keptSlot hkept) pubKey
      rw [Option.getD_some, Value.strictEq_comm, heq, Value.strictEq_comm]
  | none =>
      rw [Option.getD_none]
      cases ha : a.strictEq (.str o.1) with
      | true =>
          rw [Value.eq_of_strictEq_str ha]
          rfl
      | false => rfl

variable (hsig : o.2 ≠ [])

include hsig

theorem attach_eq (pubKeys : List Value) :
    attach pubKeys sigs o = pubKeys.map fun pubKey =>
      (keptSlot sigs pubKey).getD
        (if pubKey.strictEq (.str o.1) then filledSlot o.1 o.2 else bareSlot pubKey) := by
  unfold attach
  apply List.map_congr_left
  intro pubKey _
  rw [slotByPubKey_eq, freshSlot_eq o hsig]

/-- Afterwards the signer's slot is kept if it was, or if the signature is the signer's. -/
theorem keptSlot_attach {pubKeys : List Value} {pubKey : Value} (hmem : pubKey ∈ pubKeys) :
    keptSlot (attach pubKeys sigs o) pubKey =
      (keptSlot sigs pubKey).or
        (if pubKey.strictEq (.str o.1) then some (filledSlot o.1 o.2) else none) := by
  rw [attach_eq sigs o hsig]
  cases hself : pubKey.strictEq pubKey with
  | false =>
      -- An array or an object is equal to nothing.
      have hne : ∀ v : Value, v.strictEq pubKey = false := by
        intro v
        cases hv : v.strictEq pubKey with
        | false => rfl
        | true =>
            have hcongr := Value.strictEq_congr hv pubKey
            rw [Value.strictEq_comm, hv, hself] at hcongr
            cases hcongr
      have hstr : pubKey.strictEq (.str o.1) = false := by rw [Value.strictEq_comm, hne]
      have hnone : ∀ l : List Value, keptSlot l pubKey = none := by
        intro l
        rw [keptSlot, List.find?_eq_none.2 fun v _ => by simp [hne]]
        rfl
      simp [hnone, hstr]
  | true =>
      -- The new slots name the signers they are made for, so the search finds that of an equal key.
      have hfind : (pubKeys.find? fun a => a.strictEq pubKey).isSome = true :=
        List.find?_isSome.2 ⟨pubKey, hmem, hself⟩
      rcases Option.isSome_iff_exists.1 hfind with ⟨a, ha⟩
      have heq : a.strictEq pubKey = true :=
        List.find?_some (p := fun a : Value => a.strictEq pubKey) ha
      have hkept := keptSlot_congr sigs heq
      have hstr : a.strictEq (.str o.1) = pubKey.strictEq (.str o.1) := by
        rw [Value.strictEq_comm a, Value.strictEq_comm pubKey, Value.strictEq_congr heq]
      have hpred : (fun sig : Value => (sig.optionalGet (js "pubKey")).strictEq pubKey) ∘
          (fun a => (keptSlot sigs a).getD
            (if a.strictEq (.str o.1) then filledSlot o.1 o.2 else bareSlot a)) =
          fun a => a.strictEq pubKey := by
        funext a
        exact strictEq_slot sigs o a pubKey
      rw [keptSlot, List.find?_map, hpred, ha, Option.map_some, hkept, hstr]
      cases hslot : keptSlot sigs pubKey with
      | some slot =>
          have htruthy := truthy_of_keptSlot hslot
          simp only [Option.getD_some, Option.filter_some, htruthy, if_true, Option.some_or]
      | none =>
          rw [Option.getD_none, Option.none_or]
          cases pubKey.strictEq (.str o.1) with
          | true =>
              have hfilled : ((filledSlot o.1 o.2).truthy &&
                  ((filledSlot o.1 o.2).optionalGet (js "sig")).truthy) = true :=
                decide_eq_true hsig
              simp only [if_true, Option.filter_some, hfilled]
          | false => rfl

end One

/-! ## A list of signatures -/

/-- The slot a signer ends with, if it is not bare. -/
def settledSlot (sigs : List Value) (os : List (JsString × JsString)) (pubKey : Value) :
    Option Value :=
  (keptSlot sigs pubKey).or
    ((os.find? fun o => pubKey.strictEq (.str o.1)).map fun o => filledSlot o.1 o.2)

/-- The slots after at least one signature has been attached. -/
theorem foldl_attach {pubKeys : List Value} {os : List (JsString × JsString)}
    (hsigs : ∀ o ∈ os, o.2 ≠ []) (hne : os ≠ []) (sigs : List Value) :
    os.foldl (attach pubKeys) sigs =
      pubKeys.map fun pubKey => (settledSlot sigs os pubKey).getD (bareSlot pubKey) := by
  -- The slots are general: each signature changes them for those that follow.
  induction os generalizing sigs with
  | nil => exact absurd rfl hne
  | cons o os ih =>
      have hsig := hsigs o List.mem_cons_self
      rw [List.foldl_cons]
      by_cases hos : os = []
      · subst hos
        rw [List.foldl_nil, attach_eq sigs o hsig]
        apply List.map_congr_left
        intro pubKey _
        unfold settledSlot
        cases keptSlot sigs pubKey with
        | some slot => rfl
        | none => cases hk : pubKey.strictEq (.str o.1) <;> simp [hk]
      · rw [ih (fun o' ho' => hsigs o' (List.mem_cons_of_mem _ ho')) hos]
        apply List.map_congr_left
        intro pubKey hmem
        -- The first signature settles its own slot and leaves the others as they were.
        have hsettled : settledSlot (attach pubKeys sigs o) os pubKey =
            settledSlot sigs (o :: os) pubKey := by
          unfold settledSlot
          rw [keptSlot_attach sigs o hsig hmem, List.find?_cons, Option.or_assoc]
          cases pubKey.strictEq (.str o.1) <;> rfl
        rw [hsettled]

/-- A signer's last slot is filled if a filled one is kept, or if none is and one of the
signatures is the signer's. -/
theorem isSlotFilled_settled {os : List (JsString × JsString)} (hsigs : ∀ o ∈ os, o.2 ≠ [])
    (sigs : List Value) (pubKey : Value) :
    isSlotFilled ((settledSlot sigs os pubKey).getD (bareSlot pubKey)) = true ↔
      match keptSlot sigs pubKey with
      | some slot => isSlotFilled slot = true
      | none => ∃ o ∈ os, pubKey.strictEq (.str o.1) = true := by
  unfold settledSlot
  cases keptSlot sigs pubKey with
  | some slot => rfl
  | none =>
      rw [Option.none_or]
      dsimp only
      rw [← List.find?_isSome]
      cases hfind : os.find? fun o => pubKey.strictEq (.str o.1) with
      | none =>
          have hbare : isSlotFilled (bareSlot pubKey) = false := rfl
          simp [hbare]
      | some o =>
          have hfilled : isSlotFilled (filledSlot o.1 o.2) = true :=
            bne_iff_ne.2 (hsigs o (List.mem_of_find?_eq_some hfind))
          simpa using hfilled

/-! ## What signing calls attach -/

/-- The command `tx'` is `tx` with signatures of these keys attached in turn. -/
def Attaches (pubKeys : List Value) (tx : Command) (keys : List JsString) (tx' : Command) : Prop :=
  ∃ os : List (JsString × JsString), os.map Prod.fst = keys ∧ (∀ o ∈ os, o.2 ≠ []) ∧
    tx' = { tx with sigs := os.foldl (attach pubKeys) tx.sigs }

section Calls

variable {pubKeys : List Value} {tx tx' tx'' : Command} {keys keys' : List JsString}

theorem Attaches.refl (pubKeys : List Value) (tx : Command) : Attaches pubKeys tx [] tx :=
  ⟨[], rfl, fun _ h => absurd h List.not_mem_nil, rfl⟩

theorem Attaches.cmd (h : Attaches pubKeys tx keys tx') : tx'.cmd = tx.cmd := by
  rcases h with ⟨os, -, -, rfl⟩
  rfl

theorem Attaches.trans (h : Attaches pubKeys tx keys tx') (h' : Attaches pubKeys tx' keys' tx'') :
    Attaches pubKeys tx (keys ++ keys') tx'' := by
  rcases h with ⟨os, rfl, hos, rfl⟩
  rcases h' with ⟨os', rfl, hos', rfl⟩
  refine ⟨os ++ os', List.map_append, ?_, ?_⟩
  · intro o ho
    exact (List.mem_append.1 ho).elim (hos o) (hos' o)
  · rw [List.foldl_append]

/-- The signers are an array, or there are none. -/
theorem signers_cases {cmd : JsString} {signers : Value}
    (hsigners : parseSigners cmd = .ok signers) (hkeys : signerPubKeys cmd = .ok pubKeys) :
    (∃ items, signers = .arr items ∧ items.mapM pubKeyOf = .ok pubKeys) ∨
      pubKeys = [] ∧ (signers = .undefined ∨ signers = .null) := by
  simp only [signerPubKeys, hsigners, ok_bind] at hkeys
  cases signers with
  | undefined =>
      cases hkeys
      exact Or.inr ⟨rfl, Or.inl rfl⟩
  | null =>
      cases hkeys
      exact Or.inr ⟨rfl, Or.inr rfl⟩
  | arr items => exact Or.inl ⟨items, rfl, hkeys⟩
  | bool b => cases hkeys
  | num n => cases hkeys
  | str s => cases hkeys
  | obj fields => cases hkeys

theorem attaches_addSignatures (hkeys : signerPubKeys tx.cmd = .ok pubKeys) {k sig : JsString}
    (hsig : sig ≠ [])
    (h : addSignatures tx [{ sig := some sig, pubKey := some k }] = .ok tx') :
    Attaches pubKeys tx [k] tx' := by
  unfold addSignatures at h
  rcases bind_ok h with ⟨signers, hsigners, h⟩
  rcases bind_ok h with ⟨order, horder, h⟩
  -- `addSignatures` reads the signers without a default; where it succeeds, both readings agree.
  have hsame : order = pubKeys := by
    rcases signers_cases hsigners hkeys with ⟨items, rfl, hitems⟩ | ⟨-, rfl | rfl⟩
    · exact Except.ok.inj (horder.symm.trans hitems)
    · cases horder
    · cases horder
  subst hsame
  refine ⟨[(k, sig)], rfl, ?_, ?_⟩
  · intro o ho
    rw [List.mem_singleton.1 ho]
    exact hsig
  · cases h
    rfl

/-- A loop of signing steps attaches the keys of its list. -/
theorem attaches_foldlM {α : Type} {f : Command → α → Except Thrown Command} {key : α → JsString}
    {cmd : JsString} {l : List α}
    (hf : ∀ a ∈ l, ∀ tx tx', tx.cmd = cmd → f tx a = .ok tx' → Attaches pubKeys tx [key a] tx')
    (hcmd : tx.cmd = cmd) (h : l.foldlM f tx = .ok tx') : Attaches pubKeys tx (l.map key) tx' := by
  induction l generalizing tx with
  | nil =>
      cases h
      exact Attaches.refl pubKeys _
  | cons a l ih =>
      rw [List.foldlM_cons] at h
      rcases bind_ok h with ⟨tx₁, hstep, hrest⟩
      have hfirst := hf a List.mem_cons_self _ tx₁ hcmd hstep
      exact hfirst.trans (ih (fun b hb => hf b (List.mem_cons_of_mem _ hb))
        (hfirst.cmd.trans hcmd) hrest)

theorem someSigner_of_mapM {items : List Value} (hitems : items.mapM pubKeyOf = .ok pubKeys)
    (k : JsString) : someSigner k items = .ok (includesKey pubKeys k) := by
  induction items generalizing pubKeys with
  | nil =>
      cases hitems
      rfl
  | cons item items ih =>
      rw [List.mapM_cons] at hitems
      rcases bind_ok hitems with ⟨pubKey, hitem, hitems⟩
      rcases bind_ok hitems with ⟨rest, hrest, heq⟩
      cases heq
      simp only [someSigner, hitem, ok_bind, ih hrest, includesKey, List.any_cons]
      cases pubKey.strictEq (.str k) <;> rfl

theorem length_of_mapM {items : List Value} (hitems : items.mapM pubKeyOf = .ok pubKeys) :
    pubKeys.length = items.length := by
  induction items generalizing pubKeys with
  | nil =>
      cases hitems
      rfl
  | cons item items ih =>
      rw [List.mapM_cons] at hitems
      rcases bind_ok hitems with ⟨pubKey, -, hitems⟩
      rcases bind_ok hitems with ⟨rest, hrest, heq⟩
      cases heq
      rw [List.length_cons, List.length_cons, ih hrest]

/-- The slot readers count no more signers than are declared. -/
theorem readSignerPubKeys_length_le (hkeys : signerPubKeys tx.cmd = .ok pubKeys) :
    (readSignerPubKeys tx).length ≤ pubKeys.length := by
  rcases bind_ok hkeys with ⟨signers, hsigners, -⟩
  have hcases := signers_cases hsigners hkeys
  unfold parseSigners at hsigners
  unfold readSignerPubKeys
  cases hparse : parse tx.cmd with
  | none => exact Nat.zero_le _
  | some payload =>
      rw [hparse] at hsigners
      dsimp only at hsigners ⊢
      cases hget : payload.get (js "signers") with
      | none =>
          rw [hget] at hsigners
          cases hsigners
      | some v =>
          rw [hget] at hsigners
          cases hsigners
          rw [optionalGet_of_get hget]
          -- A signer whose key is no string is declared, but the slot readers pass over it.
          rcases hcases with ⟨items, rfl, hitems⟩ | ⟨-, rfl | rfl⟩
          · rw [length_of_mapM hitems]
            exact List.length_filterMap_le _ _
          · exact Nat.zero_le _
          · exact Nat.zero_le _

/-- Keypairs of declared signers are all relevant. -/
theorem getRelevantKeypairs_all {signers : Value} (hsigners : pubKeysOf signers = .ok pubKeys)
    {pairs : List NaclPair} (hpairs : ∀ pair ∈ pairs, includesKey pubKeys pair.publicKey = true) :
    getRelevantKeypairs signers pairs = .ok pairs := by
  cases signers with
  | arr items =>
      induction pairs with
      | nil => rfl
      | cons pair pairs ih =>
          have hpair : isRelevant (.arr items) pair = .ok true := by
            rw [isRelevant, someSigner_of_mapM hsigners, hpairs pair List.mem_cons_self]
          have hrest := ih fun p hp => hpairs p (List.mem_cons_of_mem _ hp)
          simp only [getRelevantKeypairs, hpair, hrest]
          rfl
  | undefined => cases hsigners
  | null => cases hsigners
  | bool b => cases hsigners
  | num n => cases hsigners
  | str s => cases hsigners
  | obj fields => cases hsigners

section Backends

variable {B : Backend} (hB : SignaturesNonEmpty B)

include hB

theorem attaches_signWithKeypair (hkeys : signerPubKeys tx.cmd = .ok pubKeys) {pair : NaclPair}
    (h : signWithKeypair B tx pair = .ok tx') : Attaches pubKeys tx [pair.publicKey] tx' := by
  unfold signWithKeypair at h
  rcases bind_ok h with ⟨sig, hsign, h⟩
  exact attaches_addSignatures hkeys (hB.nacl _ _ _ hsign) h

theorem attaches_signWithChainweaver (hkeys : signerPubKeys tx.cmd = .ok pubKeys)
    {kp : UniversalKeypair} (hkp : kp.publicKey = some kp.key)
    (h : signWithChainweaver B tx kp = .ok tx') : Attaches pubKeys tx [kp.key] tx' := by
  unfold signWithChainweaver at h
  rcases bind_ok h with ⟨sig, hsign, h⟩
  rw [hkp] at h
  exact attaches_addSignatures hkeys (hB.chainweaver _ _ _ _ hsign) h

/-- The nacl half: every pair signs, since all of them belong to declared signers. -/
theorem attaches_signWithNacl (hkeys : signerPubKeys tx.cmd = .ok pubKeys) {pairs : List NaclPair}
    (hpairs : ∀ pair ∈ pairs, includesKey pubKeys pair.publicKey = true)
    (h : signWithNacl B tx pairs = .ok tx') :
    Attaches pubKeys tx (pairs.map NaclPair.publicKey) tx' := by
  unfold signWithNacl at h
  split at h
  case isTrue hempty =>
    rw [List.isEmpty_iff.1 hempty]
    cases h
    exact Attaches.refl pubKeys tx
  case isFalse hne =>
    unfold createSignWithKeypair at h
    rcases bind_ok h with ⟨signers, hsigners, h⟩
    rcases bind_ok h with ⟨relevant, hrelevant, h⟩
    have horder : pubKeysOf signers = .ok pubKeys := by
      rcases signers_cases hsigners hkeys with ⟨items, rfl, hitems⟩ | ⟨hnil, -⟩
      · exact hitems
      · -- Without declared keys there would be no pair.
        subst hnil
        cases pairs with
        | nil => exact absurd rfl hne
        | cons pair pairs => cases hpairs pair List.mem_cons_self
    rw [getRelevantKeypairs_all horder hpairs] at hrelevant
    cases hrelevant
    split at h
    · cases h
    · exact attaches_foldlM (fun pair _ tx tx' hcmd hstep =>
        attaches_signWithKeypair hB (hcmd ▸ hkeys) hstep) rfl h

theorem attaches_attachSignatures (hkeys : signerPubKeys tx.cmd = .ok pubKeys)
    {pairs : List NaclPair} {chainweaverPairs : List UniversalKeypair}
    (hpairs : ∀ pair ∈ pairs, includesKey pubKeys pair.publicKey = true)
    (hcw : ∀ kp ∈ chainweaverPairs, kp.publicKey = some kp.key)
    (h : attachSignatures B tx pairs chainweaverPairs = .ok tx') :
    Attaches pubKeys tx
      (pairs.map NaclPair.publicKey ++ chainweaverPairs.map UniversalKeypair.key) tx' := by
  unfold attachSignatures at h
  rcases bind_ok h with ⟨tx₁, hnacl, h⟩
  have hfirst := attaches_signWithNacl hB hkeys hpairs hnacl
  refine hfirst.trans (attaches_foldlM (fun kp hkp tx tx' hcmd hstep => ?_) hfirst.cmd h)
  exact attaches_signWithChainweaver hB (hcmd ▸ hkeys) (hcw kp hkp) hstep

end Backends

end Calls

end Signing
end StoaCore
