import StoaCore.Signing.ForeignKeys

/-!
# AllOrNothing — signing with a callback for the missing keys

A noting callback does what the callback does and keeps each call with its outcome.  The flow asks
once for each declared key without a keypair; the first answer that is not the private key of the
key it was asked for ends the call, and no back end has been called by then.
-/

namespace StoaCore
namespace Signing

open Library.Js

/-! ## Notes -/

/-- A call of the callback: the key it was asked for, and how it ended. -/
structure Delivery where
  pubKey : Value
  outcome : Except Thrown JsString

section Notes

variable {σ : Type}

/-- Does what the callback does and adds the call to the notes. -/
def noting (callback : Value → Async σ JsString) (pubKey : Value) :
    Async (σ × List Delivery) JsString :=
  ExceptT.mk fun w =>
    ((Async.runIn (callback pubKey) w.1).1,
      ((Async.runIn (callback pubKey) w.1).2,
        w.2 ++ [⟨pubKey, (Async.runIn (callback pubKey) w.1).1⟩]))

/-- The calls of the callback in one call of `universalSignTransaction`, in order. -/
def deliveries (B : Backend) (tx : Command) (kps : List UniversalKeypair)
    (callback : Value → Async σ JsString) (w : σ) : List Delivery :=
  (Async.runIn (universalSignTransaction B tx kps (some (noting callback))) (w, [])).2.2

/-- What these calls of the callback make of the world. -/
def worldAfter (callback : Value → Async σ JsString) (w : σ) (made : List Delivery) : σ :=
  made.foldl (fun w d => (Async.runIn (callback d.pubKey) w).2) w

end Notes

/-! ## One answer -/

/-- What the flow makes of an answer of the callback. -/
def checkAnswer (B : Backend) (pubKey : Value) : Except Thrown JsString → Except Thrown NaclPair
  | .error e => .error e
  | .ok rawKey =>
      match B.publicKeyFromPrivateKey rawKey with
      | .error e => .error e
      | .ok derived =>
          if pubKey.strictEq (.str derived) then .ok ⟨derived, rawKey⟩
          else .error (.error (js "Key mismatch.\nExpected: " ++ pubKey.template ++
            js "\nDerived:  " ++ derived))

/-- The callback delivered a private key that does not derive the key it was asked for. -/
def Delivery.Mismatched (B : Backend) (d : Delivery) : Prop :=
  ∃ rawKey, d.outcome = .ok rawKey ∧
    ∀ derived, B.publicKeyFromPrivateKey rawKey = .ok derived → d.pubKey ≠ .str derived

section Answers

variable {B : Backend} {pubKey : Value} {outcome : Except Thrown JsString} {pair : NaclPair}

theorem checkAnswer_ok (h : checkAnswer B pubKey outcome = .ok pair) :
    outcome = .ok pair.secretKey ∧ B.publicKeyFromPrivateKey pair.secretKey = .ok pair.publicKey ∧
      pubKey = .str pair.publicKey := by
  unfold checkAnswer at h
  cases outcome with
  | error e => cases h
  | ok rawKey =>
      dsimp only at h
      cases hderive : B.publicKeyFromPrivateKey rawKey with
      | error e =>
          rw [hderive] at h
          cases h
      | ok derived =>
          rw [hderive] at h
          dsimp only at h
          split at h
          case isFalse => cases h
          case isTrue heq =>
            cases h
            exact ⟨rfl, hderive, Value.eq_of_strictEq_str heq⟩

theorem not_mismatched_of_checkAnswer {d : Delivery}
    (h : checkAnswer B d.pubKey d.outcome = .ok pair) : ¬ d.Mismatched B := by
  rintro ⟨rawKey, houtcome, hnone⟩
  rcases checkAnswer_ok h with ⟨hraw, hderive, hkey⟩
  obtain rfl : rawKey = pair.secretKey := Except.ok.inj (houtcome.symm.trans hraw)
  exact hnone _ hderive hkey

end Answers

/-! ## The flow -/

section Flow

variable {σ : Type} {B : Backend} {callback : Value → Async σ JsString}

theorem runIn_bind_pure {α β : Type} (x : Async σ α) (f : α → β) (w : σ) :
    Async.runIn (x >>= fun a => pure (f a)) w =
      ((Async.runIn x w).1.map f, (Async.runIn x w).2) := by
  rcases hx : Async.runIn x w with ⟨r, w'⟩
  cases r with
  | ok a =>
      rw [Async.runIn_bind_of_ok hx]
      rfl
  | error e =>
      rw [Async.runIn_bind_of_error hx]
      rfl

/-- A missing key: the callback is asked, and its answer ends the flow or adds a pair. -/
theorem resolveMissingKeys_missing {pubKey : Value} {pubKeys : List Value}
    {handled : List JsString} {w : σ}
    (hmissing : ¬ (handled.any fun key => pubKey.strictEq (.str key)) = true) :
    Async.runIn (resolveMissingKeys B callback (pubKey :: pubKeys) handled) w =
      match checkAnswer B pubKey (Async.runIn (callback pubKey) w).1 with
      | .error e => (.error e, (Async.runIn (callback pubKey) w).2)
      | .ok pair =>
          let rest := Async.runIn
            (resolveMissingKeys B callback pubKeys (pair.publicKey :: handled))
            (Async.runIn (callback pubKey) w).2
          (rest.1.map (pair :: ·), rest.2) := by
  rcases hasked : Async.runIn (callback pubKey) w with ⟨out, w₁⟩
  cases out with
  | error e =>
      rw [resolveMissingKeys, if_neg hmissing, Async.runIn_bind_of_error hasked]
      rfl
  | ok rawKey =>
      unfold checkAnswer
      dsimp only
      cases hderive : B.publicKeyFromPrivateKey rawKey with
      | error e => exact resolveMissingKeys_throws hmissing hasked hderive
      | ok derived =>
          dsimp only
          by_cases hkey : pubKey.strictEq (.str derived) = true
          · rw [resolveMissingKeys_matches hmissing hasked hderive hkey, if_pos hkey]
            exact runIn_bind_pure _ _ w₁
          · rw [resolveMissingKeys_mismatch hmissing hasked hderive hkey, if_neg hkey]

/-- The calls that the flow makes of the callback. -/
def flowDeliveries (B : Backend) (callback : Value → Async σ JsString) :
    List Value → List JsString → σ → List Delivery
  | [], _, _ => []
  | pubKey :: pubKeys, handled, w =>
      if handled.any fun key => pubKey.strictEq (.str key) then
        flowDeliveries B callback pubKeys handled w
      else
        let asked := Async.runIn (callback pubKey) w
        ⟨pubKey, asked.1⟩ ::
          match checkAnswer B pubKey asked.1 with
          | .error _ => []
          | .ok pair => flowDeliveries B callback pubKeys (pair.publicKey :: handled) asked.2

/-- The notes hold the calls of the flow, which otherwise runs as it does without notes. -/
theorem resolveMissingKeys_noting (pubKeys : List Value) (handled : List JsString) (w : σ)
    (notes : List Delivery) :
    Async.runIn (resolveMissingKeys B (noting callback) pubKeys handled) (w, notes) =
      ((Async.runIn (resolveMissingKeys B callback pubKeys handled) w).1,
        ((Async.runIn (resolveMissingKeys B callback pubKeys handled) w).2,
          notes ++ flowDeliveries B callback pubKeys handled w)) := by
  induction pubKeys generalizing handled w notes with
  | nil =>
      rw [flowDeliveries, List.append_nil]
      rfl
  | cons pubKey pubKeys ih =>
      by_cases hhandled : (handled.any fun key => pubKey.strictEq (.str key)) = true
      · rw [resolveMissingKeys, resolveMissingKeys, flowDeliveries, if_pos hhandled,
          if_pos hhandled, if_pos hhandled]
        exact ih handled w notes
      · have hnoting : Async.runIn (noting callback pubKey) (w, notes) =
            ((Async.runIn (callback pubKey) w).1, ((Async.runIn (callback pubKey) w).2,
              notes ++ [⟨pubKey, (Async.runIn (callback pubKey) w).1⟩])) := rfl
        rw [resolveMissingKeys_missing hhandled, resolveMissingKeys_missing hhandled, hnoting,
          flowDeliveries, if_neg hhandled]
        dsimp only
        cases checkAnswer B pubKey (Async.runIn (callback pubKey) w).1 with
        | error e => rfl
        | ok pair =>
            dsimp only
            rw [ih]
            simp only [List.append_assoc, List.singleton_append]

/-- Nothing but the callback changes the world. -/
theorem world_resolveMissingKeys (pubKeys : List Value) (handled : List JsString) (w : σ) :
    (Async.runIn (resolveMissingKeys B callback pubKeys handled) w).2 =
      worldAfter callback w (flowDeliveries B callback pubKeys handled w) := by
  induction pubKeys generalizing handled w with
  | nil => rfl
  | cons pubKey pubKeys ih =>
      by_cases hhandled : (handled.any fun key => pubKey.strictEq (.str key)) = true
      · rw [resolveMissingKeys, flowDeliveries, if_pos hhandled, if_pos hhandled]
        exact ih handled w
      · rw [resolveMissingKeys_missing hhandled, flowDeliveries, if_neg hhandled]
        dsimp only
        cases checkAnswer B pubKey (Async.runIn (callback pubKey) w).1 with
        | error e => rfl
        | ok pair => exact ih (pair.publicKey :: handled) (Async.runIn (callback pubKey) w).2

/-- The back ends have no part in the flow: it only derives public keys. -/
theorem resolveMissingKeys_congr {B' : Backend}
    (h : B'.publicKeyFromPrivateKey = B.publicKeyFromPrivateKey) (pubKeys : List Value)
    (handled : List JsString) :
    resolveMissingKeys B' callback pubKeys handled =
      resolveMissingKeys B callback pubKeys handled := by
  induction pubKeys generalizing handled with
  | nil => rfl
  | cons pubKey pubKeys ih =>
      rw [resolveMissingKeys, resolveMissingKeys, h]
      simp only [ih]

/-! ## Which keys are asked for -/

theorem any_strictEq_str (handled : List JsString) (k : JsString) :
    (handled.any fun key => (Value.str k).strictEq (.str key)) = true ↔ k ∈ handled := by
  rw [List.any_eq_true]
  constructor
  · rintro ⟨key, hkey, heq⟩
    exact (of_decide_eq_true heq : k = key) ▸ hkey
  · intro hmem
    exact ⟨k, hmem, strictEq_self k⟩

/-- The keys that are not handled, each where it is declared first. -/
def missingKeys (keys handled : List JsString) : List JsString :=
  (keys.filter fun k => decide (k ∉ handled)).eraseDups

theorem missingKeys_cons_of_mem {k : JsString} {keys handled : List JsString} (h : k ∈ handled) :
    missingKeys (k :: keys) handled = missingKeys keys handled := by
  unfold missingKeys
  rw [List.filter_cons_of_neg (by simpa using h)]

theorem missingKeys_cons_of_not_mem {k : JsString} {keys handled : List JsString}
    (h : k ∉ handled) :
    missingKeys (k :: keys) handled = k :: missingKeys keys (k :: handled) := by
  unfold missingKeys
  rw [List.filter_cons_of_pos (by simpa using h), List.eraseDups_cons, List.filter_filter]
  congr 2
  apply List.filter_congr
  intro x _
  by_cases hx : x = k
  · simp [hx]
  · simp [hx]

/-- A flow that ends with pairs has asked for each missing key once, in the order of declaration,
and each answer derived the key it was asked for. -/
theorem flowDeliveries_of_ok {keys handled : List JsString} {w : σ} {pairs : List NaclPair}
    (h : (Async.runIn (resolveMissingKeys B callback (keys.map Value.str) handled) w).1 =
      .ok pairs) :
    (flowDeliveries B callback (keys.map Value.str) handled w).map Delivery.pubKey =
        (missingKeys keys handled).map Value.str ∧
      ∀ d ∈ flowDeliveries B callback (keys.map Value.str) handled w, ¬ d.Mismatched B := by
  induction keys generalizing handled w pairs with
  | nil => exact ⟨rfl, fun _ hd => absurd hd List.not_mem_nil⟩
  | cons k keys ih =>
      rw [List.map_cons] at h ⊢
      by_cases hhandled : (handled.any fun key => (Value.str k).strictEq (.str key)) = true
      · rw [resolveMissingKeys, if_pos hhandled] at h
        rw [flowDeliveries, if_pos hhandled,
          missingKeys_cons_of_mem ((any_strictEq_str handled k).1 hhandled)]
        exact ih h
      · rw [resolveMissingKeys_missing hhandled] at h
        rw [flowDeliveries, if_neg hhandled,
          missingKeys_cons_of_not_mem (mt (any_strictEq_str handled k).2 hhandled)]
        dsimp only at h ⊢
        cases hanswer : checkAnswer B (.str k) (Async.runIn (callback (.str k)) w).1 with
        | error e =>
            rw [hanswer] at h
            cases h
        | ok pair =>
            rw [hanswer] at h
            dsimp only at h ⊢
            -- The pair is for this very key, which is handled from now on.
            obtain hkey : k = pair.publicKey := Value.str.inj (checkAnswer_ok hanswer).2.2
            rw [← hkey] at h ⊢
            cases hrest : (Async.runIn (resolveMissingKeys B callback (keys.map Value.str)
                (k :: handled)) (Async.runIn (callback (.str k)) w).2).1 with
            | error e =>
                rw [hrest] at h
                cases h
            | ok rest =>
                rcases ih hrest with ⟨hasked, hanswers⟩
                refine ⟨?_, List.forall_mem_cons.2 ⟨?_, hanswers⟩⟩
                · rw [List.map_cons, List.map_cons, hasked]
                · exact not_mismatched_of_checkAnswer hanswer

end Flow

/-! ## A call -/

/-- An entry of `sigs` as the type of a command has it: nothing, or an object whose key and
signature are texts where they are there. -/
def SlotTyped (slot : Value) : Prop :=
  slot = .undefined ∨ ∃ fields, slot = .obj fields ∧ ∀ name ∈ [js "pubKey", js "sig"],
    slot.optionalGet name = .undefined ∨ ∃ text, slot.optionalGet name = .str text

/-- Every declared signer's slot is filled, and the rest of the command is as it was. -/
structure AllSigned (keys : List JsString) (tx signed : Command) : Prop where
  cmd : signed.cmd = tx.cmd
  hash : signed.hash = tx.hash
  filled : ∀ i k, keys[i]? = some k → isSlotFilled (slotAt signed.sigs i) = true ∧
    (slotAt signed.sigs i).optionalGet (js "pubKey") = .str k

/-- The call rejects in the same way whatever the signing functions of the back ends do: none has
been called. -/
def RejectsUnsigned {σ : Type} (B : Backend) (tx : Command) (kps : List UniversalKeypair)
    (callback : Value → Async σ JsString) (w : σ) : Prop :=
  ∃ e w', ∀ B' : Backend, B'.publicKeyFromPrivateKey = B.publicKeyFromPrivateKey →
    Async.runIn (universalSignTransaction B' tx kps (some callback)) w = (.error e, w')

section Call

variable {σ : Type} {B : Backend} {callback : Value → Async σ JsString} {tx : Command}
  {keys : List JsString} {kps : List UniversalKeypair} {w w' : σ} {pairs : List NaclPair}

theorem isSlotFilled_of_kept {pubKey entry : Value} (htyped : ∀ slot ∈ tx.sigs, SlotTyped slot)
    (hkept : keptSlot tx.sigs pubKey = some entry) : isSlotFilled entry = true := by
  have htruthy := truthy_of_keptSlot hkept
  rw [Bool.and_eq_true] at htruthy
  have hmem : entry ∈ tx.sigs := List.mem_of_find?_eq_some (Option.filter_eq_some_iff.1 hkept).1
  rcases htyped entry hmem with rfl | ⟨fields, rfl, htext⟩
  · cases htruthy.1
  · rcases htext (js "sig") (by simp) with hsig | ⟨sig, hsig⟩
    · rw [hsig] at htruthy
      cases htruthy.2
    · have hne : sig ≠ [] := by
        rw [hsig] at htruthy
        exact of_decide_eq_true htruthy.2
      unfold isSlotFilled
      rw [hsig]
      exact bne_iff_ne.2 hne

/-- With a callback every declared key has a signer, its own or one of the flow. -/
theorem exists_signer {onMissingKey : Option (Value → Async σ JsString)} {pubKeys : List Value}
    (hasks : onMissingKey.isSome = true)
    (hpairs : Async.runIn (foreignKeyPairs B onMissingKey pubKeys
      ((handledKeypairs pubKeys kps).map UniversalKeypair.key)) w = (.ok pairs, w'))
    {pubKey : Value} (hmem : pubKey ∈ pubKeys) :
    ∃ s ∈ signersOf pubKeys kps pairs, pubKey.strictEq (.str s.key) = true := by
  rcases (foreignKeyPairs_spec (congrArg Prod.fst hpairs)).2 hasks pubKey hmem with
    ⟨k, hk, heq⟩ | ⟨pair, hpair, heq⟩
  · rcases List.mem_map.1 hk with ⟨kp, hkp, rfl⟩
    rcases List.mem_filter.1 hkp with ⟨hkp, hincluded⟩
    refine ⟨_, mem_signersOf.2 (Or.inl ⟨kp, hkp, hincluded, rfl⟩), ?_⟩
    split
    · exact heq
    · exact heq
  · exact ⟨.nacl pair, mem_signersOf.2 (Or.inr ⟨pair, hpair, rfl⟩), heq⟩

/-- The slot of a key with a signer is filled, and names the key. -/
theorem filled_slotAfter {hash : JsString} {steps : List Signer}
    (hsigns : ∀ s ∈ steps, s.signed B hash ≠ [])
    (htyped : ∀ slot ∈ tx.sigs, SlotTyped slot) {k : JsString}
    (hsigner : ∃ s ∈ steps, (Value.str k).strictEq (.str s.key) = true) :
    isSlotFilled (slotAfter B hash steps tx.sigs (.str k)) = true ∧
      (slotAfter B hash steps tx.sigs (.str k)).optionalGet (js "pubKey") = .str k := by
  have hmade : (madeFor B hash steps (.str k)).isSome = true := by
    have hfind : (steps.find? fun s => (Value.str k).strictEq (.str s.key)).isSome = true :=
      List.find?_isSome.2 hsigner
    rw [madeFor, Option.isSome_map, Option.isSome_or, hfind, Bool.or_true]
  constructor
  · by_contra hempty
    rw [Bool.not_eq_true, isSlotFilled_slotAfter hsigns, LeavesEmpty] at hempty
    cases hentry : entryFor steps tx.sigs (.str k) with
    | none =>
        rw [hentry] at hempty
        dsimp only at hempty
        rw [hempty] at hmade
        cases hmade
    | some entry =>
        rw [hentry] at hempty
        dsimp only at hempty
        have hkept : keptSlot tx.sigs (.str k) = some entry := by
          unfold entryFor at hentry
          split at hentry
          · cases hentry
          · exact hentry
        rw [isSlotFilled_of_kept htyped hkept] at hempty
        cases hempty
  · unfold slotAfter entryFor
    rcases Option.isSome_iff_exists.1 hmade with ⟨sig, hsig⟩
    rw [hsig]
    split
    · rfl
    · cases hkept : keptSlot tx.sigs (.str k) with
      | none => rfl
      | some entry => exact Value.eq_of_strictEq_str (strictEq_of_keptSlot hkept)

variable (hkeys : signerPubKeys tx.cmd = .ok (keys.map Value.str))

include hkeys

/-- A call ends in the world in which the flow ends. -/
theorem world_universalSignTransaction (callback : Value → Async σ JsString) (w : σ) :
    (Async.runIn (universalSignTransaction B tx kps (some callback)) w).2 =
      (Async.runIn (resolveMissingKeys B callback (keys.map Value.str)
        ((handledKeypairs (keys.map Value.str) kps).map UniversalKeypair.key)) w).2 := by
  rcases hflow : Async.runIn (resolveMissingKeys B callback (keys.map Value.str)
    ((handledKeypairs (keys.map Value.str) kps).map UniversalKeypair.key)) w with ⟨r, w'⟩
  cases r with
  | ok pairs =>
      have hpairs : Async.runIn (foreignKeyPairs B (some callback) (keys.map Value.str)
          ((handledKeypairs (keys.map Value.str) kps).map UniversalKeypair.key)) w =
            (.ok pairs, w') := hflow
      rw [runIn_universalSignTransaction hkeys hpairs]
  | error e =>
      unfold universalSignTransaction
      rw [hkeys]
      exact congrArg Prod.snd (Async.runIn_bind_of_error hflow _)

theorem deliveries_eq :
    deliveries B tx kps callback w = flowDeliveries B callback (keys.map Value.str)
      ((handledKeypairs (keys.map Value.str) kps).map UniversalKeypair.key) w := by
  rw [deliveries, world_universalSignTransaction hkeys, resolveMissingKeys_noting,
    List.nil_append]

/-- A call with a callback that returns has filled every declared slot. -/
theorem allSigned_of_ok (hB : SignaturesNonEmpty B) (htyped : ∀ slot ∈ tx.sigs, SlotTyped slot)
    {signed : Command}
    (h : (Async.runIn (universalSignTransaction B tx kps (some callback)) w).1 = .ok signed) :
    AllSigned keys tx signed := by
  rcases exists_foreignPairs hkeys h with ⟨pairs, w', hpairs⟩
  rw [runIn_universalSignTransaction hkeys hpairs] at h
  have hdeclared := includesKey_of_foreignPairs hpairs
  rcases slots_of_steps hB hkeys h hdeclared with ⟨hsigns, hsigs⟩
  have hsame : signed.cmd = tx.cmd ∧ signed.hash = tx.hash := by
    rcases (foldlM_signStep_ok_iff (lists_of_signersOf hkeys hdeclared)).1 h with ⟨-, rfl⟩
    exact ⟨rfl, rfl⟩
  refine ⟨hsame.1, hsame.2, ?_⟩
  intro i k hk
  have hmem : Value.str k ∈ keys.map Value.str := List.mem_map_of_mem (List.mem_of_getElem? hk)
  have hsigner := exists_signer rfl hpairs hmem
  rcases hsigner with ⟨s, hs, -⟩
  rw [if_neg (List.ne_nil_of_mem hs)] at hsigs
  have hslot : slotAt signed.sigs i = slotAfter B tx.hash
      (signersOf (keys.map Value.str) kps pairs) tx.sigs (.str k) := by
    rw [hsigs, slotAt, List.getElem?_map, List.getElem?_map, hk]
    rfl
  rw [hslot]
  exact filled_slotAfter hsigns htyped (exists_signer rfl hpairs hmem)

/-- A flow that ends with an error ends the call, before anything is signed. -/
theorem rejectsUnsigned_of_error {e : Thrown}
    (h : (Async.runIn (resolveMissingKeys B callback (keys.map Value.str)
      ((handledKeypairs (keys.map Value.str) kps).map UniversalKeypair.key)) w).1 = .error e) :
    RejectsUnsigned B tx kps callback w := by
  refine ⟨e, (Async.runIn (resolveMissingKeys B callback (keys.map Value.str)
    ((handledKeypairs (keys.map Value.str) kps).map UniversalKeypair.key)) w).2, ?_⟩
  intro B' hderive
  have hflow : resolveMissingKeys B' callback (keys.map Value.str)
      ((handledKeypairs (keys.map Value.str) kps).map UniversalKeypair.key) =
        resolveMissingKeys B callback (keys.map Value.str)
          ((handledKeypairs (keys.map Value.str) kps).map UniversalKeypair.key) :=
    resolveMissingKeys_congr hderive _ _
  apply Prod.ext
  · apply universalSignTransaction_of_error hkeys
    rw [foreignKeyPairs, hflow]
    exact h
  · rw [world_universalSignTransaction hkeys, hflow]

end Call

/-- The declared keys without a keypair, each where it is declared first. -/
def uncoveredKeys (keys : List JsString) (kps : List UniversalKeypair) : List JsString :=
  missingKeys keys (kps.map UniversalKeypair.key)

/-- For a declared key it is the same to have a keypair and to have a handled one. -/
theorem missingKeys_handled (keys : List JsString) (kps : List UniversalKeypair) :
    missingKeys keys ((handledKeypairs (keys.map Value.str) kps).map UniversalKeypair.key) =
      uncoveredKeys keys kps := by
  unfold uncoveredKeys missingKeys
  congr 1
  apply List.filter_congr
  intro k hk
  rw [decide_eq_decide, not_iff_not, List.mem_map, List.mem_map]
  constructor
  · rintro ⟨kp, hkp, rfl⟩
    exact ⟨kp, (List.mem_filter.1 hkp).1, rfl⟩
  · rintro ⟨kp, hkp, rfl⟩
    refine ⟨kp, List.mem_filter.2 ⟨hkp, ?_⟩, rfl⟩
    exact List.any_eq_true.2 ⟨_, List.mem_map_of_mem hk, strictEq_self kp.key⟩

/-- With a callback for missing keys a call signs for every declared key, or it rejects.  If it
returns, every slot is filled and the callback has been asked once for each key without a keypair;
an answer that does not derive its key makes it reject before anything is signed; and nothing but
the callback ever changes the world, in which the transaction is. -/
theorem universalSignTransaction_allOrNothing {σ : Type} {B : Backend} (hB : SignaturesNonEmpty B)
    {tx : Command} {keys : List JsString}
    (hkeys : signerPubKeys tx.cmd = .ok (keys.map Value.str))
    (htyped : ∀ slot ∈ tx.sigs, SlotTyped slot) (kps : List UniversalKeypair)
    (callback : Value → Async σ JsString) (w : σ) :
    (∀ signed, (Async.runIn (universalSignTransaction B tx kps (some callback)) w).1 = .ok signed →
      AllSigned keys tx signed ∧
        (deliveries B tx kps callback w).map Delivery.pubKey =
          (uncoveredKeys keys kps).map Value.str) ∧
      (∀ d ∈ deliveries B tx kps callback w, d.Mismatched B → RejectsUnsigned B tx kps callback w) ∧
      (Async.runIn (universalSignTransaction B tx kps (some callback)) w).2 =
        worldAfter callback w (deliveries B tx kps callback w) := by
  refine ⟨?_, ?_, ?_⟩
  · intro signed h
    refine ⟨allSigned_of_ok hkeys hB htyped h, ?_⟩
    rcases exists_foreignPairs hkeys h with ⟨pairs, w', hpairs⟩
    rw [deliveries_eq hkeys, ← missingKeys_handled]
    exact (flowDeliveries_of_ok (congrArg Prod.fst hpairs)).1
  · intro d hd hmismatched
    rw [deliveries_eq hkeys] at hd
    cases hflow : (Async.runIn (resolveMissingKeys B callback (keys.map Value.str)
        ((handledKeypairs (keys.map Value.str) kps).map UniversalKeypair.key)) w).1 with
    | error e => exact rejectsUnsigned_of_error hkeys hflow
    | ok pairs => exact absurd hmismatched ((flowDeliveries_of_ok hflow).2 d hd)
  · rw [world_universalSignTransaction hkeys, world_resolveMissingKeys, deliveries_eq hkeys]

/-- B has a keypair and A is asked for: with A's private key the transfer is signed, with B's it is
rejected. -/
theorem universalSignTransaction_allOrNothing_transfer :
    (∃ signed, (Async.runIn (universalSignTransaction derivingBackend transferTransaction
        [koalaKeypair publicKeyB secretKeyB] (some fun _ => pure secretKeyA)) ()).1 = .ok signed ∧
      AllSigned [publicKeyA, publicKeyB] transferTransaction signed) ∧
    RejectsUnsigned derivingBackend transferTransaction [koalaKeypair publicKeyB secretKeyB]
      (fun _ => pure secretKeyB) () := by
  have hB : SignaturesNonEmpty derivingBackend :=
    ⟨signaturesNonEmpty_transferBackend.nacl, signaturesNonEmpty_transferBackend.chainweaver⟩
  have hkeys : signerPubKeys transferTransaction.cmd =
      .ok ([publicKeyA, publicKeyB].map Value.str) :=
    signerPubKeys_of_declares built_transferTransaction.declares
  have htyped : ∀ slot ∈ transferTransaction.sigs, SlotTyped slot := by
    intro slot hslot
    have hundefined : transferTransaction.sigs.all Value.isUndefined = true := by decide +kernel
    have hslot := List.all_eq_true.1 hundefined slot hslot
    cases slot with
    | undefined => exact Or.inl rfl
    | _ => cases hslot
  have hall : ∀ callback : Value → Async Unit JsString, _ := fun callback =>
    universalSignTransaction_allOrNothing hB hkeys htyped [koalaKeypair publicKeyB secretKeyB]
      callback ()
  constructor
  · have hok : (Async.runIn (universalSignTransaction derivingBackend transferTransaction
        [koalaKeypair publicKeyB secretKeyB] (some fun _ => pure secretKeyA)) ()).1.isOk =
          true := by decide +kernel
    rcases exists_of_isOk hok with ⟨signed, hrun⟩
    exact ⟨signed, hrun, ((hall _).1 signed hrun).1⟩
  · have hmade : (deliveries derivingBackend transferTransaction
        [koalaKeypair publicKeyB secretKeyB] (fun _ => pure secretKeyB) ()).any (fun d =>
          d.pubKey.strictEq (.str publicKeyA) &&
            decide (d.outcome.toOption = some secretKeyB)) = true := by decide +kernel
    rcases List.any_eq_true.1 hmade with ⟨d, hd, hsame⟩
    rw [Bool.and_eq_true, decide_eq_true_eq] at hsame
    apply (hall _).2.1 d hd
    refine ⟨secretKeyB, ?_, ?_⟩
    · cases houtcome : d.outcome with
      | error e =>
          rw [houtcome] at hsame
          cases hsame.2
      | ok rawKey =>
          rw [houtcome] at hsame
          rw [Option.some.inj hsame.2]
    · intro derived hderived
      have hB' : derivingBackend.publicKeyFromPrivateKey secretKeyB = .ok publicKeyB := by
        decide +kernel
      rw [Value.eq_of_strictEq_str hsame.1, ← Except.ok.inj (hB'.symm.trans hderived)]
      intro heq
      exact absurd (Value.str.inj heq) (by decide +kernel)

end Signing
end StoaCore
