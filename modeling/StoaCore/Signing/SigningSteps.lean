import StoaCore.Signing.Coverage

/-!
# SigningSteps — a signing call as one list of steps

The two back ends differ in how a signature is made, not in how it is attached.  A call is a list
of `Signer`s that sign the same hash in turn, and it succeeds exactly if each of them does.
-/

namespace StoaCore
namespace Signing

open Library.Js

/-! ## Signers -/

/-- What makes a signature: a nacl pair, or a chainweaver keypair. -/
inductive Signer
  | nacl (pair : NaclPair)
  | chainweaver (kp : UniversalKeypair)

/-- The public key the signature is attached under. -/
def Signer.pubKey : Signer → Option JsString
  | .nacl pair => some pair.publicKey
  | .chainweaver kp => kp.publicKey

def Signer.key (s : Signer) : JsString :=
  s.pubKey.getD []

/-- The keypair names no public key; its signature is attached by position. -/
def Signer.isKeyless (s : Signer) : Bool :=
  s.pubKey.isNone

def Signer.sign (B : Backend) (hash : JsString) : Signer → Except Thrown JsString
  | .nacl pair => B.signHash hash pair
  | .chainweaver kp => B.kadenaSign (kp.password.getD []) hash kp.encryptedSecretKey

/-- The signature a signer makes, where it makes one. -/
def Signer.signed (B : Backend) (hash : JsString) (s : Signer) : JsString :=
  (s.sign B hash).toOption.getD []

def Signer.signature (B : Backend) (hash : JsString) (s : Signer) : Signature :=
  { sig := some (s.signed B hash), pubKey := s.pubKey }

theorem Signer.signed_eq {B : Backend} {hash sig : JsString} {s : Signer}
    (h : s.sign B hash = .ok sig) : s.signed B hash = sig := by
  unfold signed
  rw [h]
  rfl

theorem Signer.sign_nonempty {B : Backend} (hB : SignaturesNonEmpty B) {hash sig : JsString}
    {s : Signer} (h : s.sign B hash = .ok sig) : sig ≠ [] := by
  cases s with
  | nacl pair => exact hB.nacl _ _ _ h
  | chainweaver kp => exact hB.chainweaver _ _ _ _ h

/-- One step: the signer signs the hash, and the signature is attached. -/
def signStep (B : Backend) (tx : Command) (s : Signer) : Except Thrown Command := do
  let sig ← s.sign B tx.hash
  addSignatures tx [{ sig := some sig, pubKey := s.pubKey }]

/-- The signers of a call, in the order in which they sign. -/
def signersOf (pubKeys : List Value) (keypairs : List UniversalKeypair)
    (foreignPairs : List NaclPair) : List Signer :=
  let handled := handledKeypairs pubKeys keypairs
  ((handled.filter fun kp => !kp.isChainweaver).map UniversalKeypair.toNaclPair ++
      foreignPairs).map Signer.nacl ++
    (handled.filter UniversalKeypair.isChainweaver).map Signer.chainweaver

/-! ## One step -/

/-- The slots after one signature. -/
def place (pubKeys sigs : List Value) (signature : Signature) : List Value :=
  if signature.pubKey.isSome then pubKeys.map (slotByPubKey sigs [signature])
  else slotsByOrder pubKeys [signature] sigs

/-- The signers of the command are an array, and these are their keys. -/
def Lists (cmd : JsString) (pubKeys : List Value) : Prop :=
  ∃ signers, parseSigners cmd = .ok signers ∧ pubKeysOf signers = .ok pubKeys

theorem lists_of_mem {cmd : JsString} {pubKeys : List Value} {pubKey : Value}
    (hkeys : signerPubKeys cmd = .ok pubKeys) (hmem : pubKey ∈ pubKeys) : Lists cmd pubKeys := by
  rcases bind_ok hkeys with ⟨signers, hsigners, -⟩
  rcases signers_cases hsigners hkeys with ⟨items, rfl, hitems⟩ | ⟨rfl, -⟩
  · exact ⟨_, hsigners, hitems⟩
  · exact absurd hmem List.not_mem_nil

/-- A keyless signature needs a command with one signer. -/
theorem addSignatures_one {tx : Command} {pubKeys : List Value} (hlists : Lists tx.cmd pubKeys)
    (signature : Signature) (tx' : Command) :
    addSignatures tx [signature] = .ok tx' ↔
      (signature.pubKey = none → pubKeys.length = 1) ∧
        tx' = { tx with sigs := place pubKeys tx.sigs signature } := by
  rcases hlists with ⟨signers, hsigners, hkeys⟩
  unfold addSignatures place
  rw [hsigners, ok_bind, hkeys, ok_bind]
  cases hpub : signature.pubKey with
  | some k =>
      have hall : allSignaturesHavePubKeys [signature] = true := by
        simp [allSignaturesHavePubKeys, hpub]
      rw [if_pos hall]
      constructor
      · intro h
        cases h
        exact ⟨(fun h => nomatch h), rfl⟩
      · rintro ⟨-, rfl⟩
        rfl
  | none =>
      have hall : ¬ allSignaturesHavePubKeys [signature] = true := by
        simp [allSignaturesHavePubKeys, hpub]
      rw [if_neg hall, List.length_singleton]
      by_cases hlength : pubKeys.length = 1
      · rw [if_pos hlength]
        constructor
        · intro h
          cases h
          exact ⟨fun _ => hlength, rfl⟩
        · rintro ⟨-, rfl⟩
          rfl
      · rw [if_neg hlength]
        constructor
        · intro h
          cases h
        · rintro ⟨h, -⟩
          exact absurd (h rfl) hlength

/-- The signer makes a signature of the hash, and it can be attached. -/
def Signer.Signs (B : Backend) (hash : JsString) (pubKeys : List Value) (s : Signer) : Prop :=
  (∃ sig, s.sign B hash = .ok sig) ∧ (s.pubKey = none → pubKeys.length = 1)

section Steps

variable {B : Backend} {tx tx' : Command} {pubKeys : List Value}

theorem signStep_ok_iff (hlists : Lists tx.cmd pubKeys) (s : Signer) :
    signStep B tx s = .ok tx' ↔ s.Signs B tx.hash pubKeys ∧
      tx' = { tx with sigs := place pubKeys tx.sigs (s.signature B tx.hash) } := by
  unfold signStep Signer.Signs
  cases hsign : s.sign B tx.hash with
  | error e =>
      constructor
      · intro h
        cases h
      · rintro ⟨⟨⟨sig, hsig⟩, -⟩, -⟩
        cases hsig
  | ok sig =>
      have hsigned := Signer.signed_eq hsign
      rw [ok_bind, addSignatures_one hlists, Signer.signature, hsigned]
      constructor
      · rintro ⟨hlength, rfl⟩
        exact ⟨⟨⟨sig, rfl⟩, hlength⟩, rfl⟩
      · rintro ⟨⟨-, hlength⟩, rfl⟩
        exact ⟨hlength, rfl⟩

/-- A list of steps succeeds if every signer signs; the signatures are placed in turn. -/
theorem foldlM_signStep_ok_iff {steps : List Signer}
    (hlists : steps ≠ [] → Lists tx.cmd pubKeys) :
    steps.foldlM (signStep B) tx = .ok tx' ↔ (∀ s ∈ steps, s.Signs B tx.hash pubKeys) ∧
      tx' = { tx with
        sigs := (steps.map (Signer.signature B tx.hash)).foldl (place pubKeys) tx.sigs } := by
  -- On the steps; the command changes only in its slots, so each step signs the same hash.
  induction steps generalizing tx with
  | nil =>
      constructor
      · intro h
        cases h
        exact ⟨fun _ h => absurd h List.not_mem_nil, rfl⟩
      · rintro ⟨-, rfl⟩
        rfl
  | cons s steps ih =>
      have hlists := hlists (List.cons_ne_nil s steps)
      rw [List.foldlM_cons, List.forall_mem_cons]
      constructor
      · intro h
        rcases bind_ok h with ⟨tx₁, hstep, hrest⟩
        rcases (signStep_ok_iff hlists s).1 hstep with ⟨hs, heq⟩
        have hlists₁ : Lists tx₁.cmd pubKeys := heq ▸ hlists
        rcases (ih fun _ => hlists₁).1 hrest with ⟨hsteps, rfl⟩
        subst heq
        exact ⟨⟨hs, hsteps⟩, rfl⟩
      · rintro ⟨⟨hs, hsteps⟩, rfl⟩
        rw [(signStep_ok_iff hlists s).2 ⟨hs, rfl⟩, ok_bind]
        apply (ih fun _ => ?_).2
        · exact ⟨hsteps, rfl⟩
        · exact hlists

/-! ## A call -/

theorem foldlM_map_signer {α : Type} (f : α → Signer) (g : Command → α → Except Thrown Command)
    (hfg : ∀ tx a, signStep B tx (f a) = g tx a) (l : List α) (tx : Command) :
    (l.map f).foldlM (signStep B) tx = l.foldlM g tx := by
  induction l generalizing tx with
  | nil => rfl
  | cons a l ih =>
      rw [List.map_cons, List.foldlM_cons, List.foldlM_cons, hfg]
      cases g tx a with
      | error e => rfl
      | ok tx₁ => exact ih tx₁

/-- The signing half is a list of steps, as long as the nacl pairs belong to declared signers. -/
theorem attachSignatures_eq (hkeys : signerPubKeys tx.cmd = .ok pubKeys) {pairs : List NaclPair}
    (hpairs : ∀ pair ∈ pairs, includesKey pubKeys pair.publicKey = true)
    (chainweaverPairs : List UniversalKeypair) :
    attachSignatures B tx pairs chainweaverPairs =
      (pairs.map Signer.nacl ++ chainweaverPairs.map Signer.chainweaver).foldlM
        (signStep B) tx := by
  have hnacl : signWithNacl B tx pairs = (pairs.map Signer.nacl).foldlM (signStep B) tx := by
    rw [foldlM_map_signer Signer.nacl (signWithKeypair B) (fun _ _ => rfl)]
    cases pairs with
    | nil => rfl
    | cons pair pairs =>
        -- All pairs are relevant, so the check before the loop passes.
        rcases List.any_eq_true.1 (hpairs pair List.mem_cons_self) with ⟨pubKey, hmem, -⟩
        rcases lists_of_mem hkeys hmem with ⟨signers, hsigners, hlisted⟩
        have hrelevant := getRelevantKeypairs_all hlisted hpairs
        simp only [signWithNacl, createSignWithKeypair, hsigners, hrelevant, ok_bind]
        rfl
  unfold attachSignatures
  rw [hnacl, List.foldlM_append]
  congr 1
  funext signed
  rw [foldlM_map_signer Signer.chainweaver (signWithChainweaver B) (fun _ _ => rfl)]

end Steps

section Call

variable {σ : Type} {B : Backend} {tx : Command} {pubKeys : List Value}
  {kps : List UniversalKeypair} {onMissingKey : Option (Value → Async σ JsString)} {w w' : σ}
  {pairs : List NaclPair}

/-- A signer that signs has a keypair of a declared signer. -/
theorem mem_signersOf {s : Signer} :
    s ∈ signersOf pubKeys kps pairs ↔
      (∃ kp ∈ kps, includesKey pubKeys kp.key = true ∧
        s = if kp.isChainweaver then .chainweaver kp else .nacl kp.toNaclPair) ∨
      ∃ pair ∈ pairs, s = .nacl pair := by
  simp only [signersOf, handledKeypairs, List.mem_append, List.mem_map, List.mem_filter]
  constructor
  · rintro (⟨pair, ⟨kp, ⟨⟨hkp, hkey⟩, hcw⟩, rfl⟩ | hpair, rfl⟩ | ⟨kp, ⟨⟨hkp, hkey⟩, hcw⟩, rfl⟩)
    · rw [Bool.not_eq_true'] at hcw
      exact Or.inl ⟨kp, hkp, hkey, by simp [hcw]⟩
    · exact Or.inr ⟨pair, hpair, rfl⟩
    · exact Or.inl ⟨kp, hkp, hkey, by simp [hcw]⟩
  · rintro (⟨kp, hkp, hkey, rfl⟩ | ⟨pair, hpair, rfl⟩)
    · cases hcw : kp.isChainweaver with
      | false => exact Or.inl ⟨_, Or.inl ⟨kp, ⟨⟨hkp, hkey⟩, by simp [hcw]⟩, rfl⟩, rfl⟩
      | true => exact Or.inr ⟨kp, ⟨⟨hkp, hkey⟩, hcw⟩, rfl⟩
    · exact Or.inl ⟨pair, Or.inr hpair, rfl⟩

/-- The first signer of a key is the first keypair that signs with nacl, if there is one. -/
theorem find_signersOf_eq (pubKeys : List Value) (kps : List UniversalKeypair)
    (pairs : List NaclPair) (pubKey : Value) :
    (signersOf pubKeys kps pairs).find? (fun s => pubKey.strictEq (.str s.key)) =
      ((((handledKeypairs pubKeys kps).filter fun kp => !kp.isChainweaver).find? fun kp =>
        pubKey.strictEq (.str kp.key)).map fun kp => .nacl kp.toNaclPair).or
          ((pairs.map Signer.nacl ++ ((handledKeypairs pubKeys kps).filter
            UniversalKeypair.isChainweaver).map Signer.chainweaver).find? fun s =>
              pubKey.strictEq (.str s.key)) := by
  have hsteps : signersOf pubKeys kps pairs =
      ((handledKeypairs pubKeys kps).filter fun kp => !kp.isChainweaver).map
          (fun kp => Signer.nacl kp.toNaclPair) ++
        (pairs.map Signer.nacl ++ ((handledKeypairs pubKeys kps).filter
          UniversalKeypair.isChainweaver).map Signer.chainweaver) := by
    simp only [signersOf, List.map_append, List.map_map, List.append_assoc]
    rfl
  rw [hsteps, List.find?_append, List.find?_map]
  rfl

/-- Once the private keys of the missing signers are at hand, the call is its steps. -/
theorem runIn_universalSignTransaction (hkeys : signerPubKeys tx.cmd = .ok pubKeys)
    (hpairs : Async.runIn (foreignKeyPairs B onMissingKey pubKeys
      ((handledKeypairs pubKeys kps).map UniversalKeypair.key)) w = (.ok pairs, w')) :
    Async.runIn (universalSignTransaction B tx kps onMissingKey) w =
      ((signersOf pubKeys kps pairs).foldlM (signStep B) tx, w') := by
  have hrun : Async.runIn (universalSignTransaction B tx kps onMissingKey) w =
      (attachSignatures B tx (((handledKeypairs pubKeys kps).filter fun kp =>
        !kp.isChainweaver).map UniversalKeypair.toNaclPair ++ pairs)
        ((handledKeypairs pubKeys kps).filter UniversalKeypair.isChainweaver), w') := by
    unfold universalSignTransaction
    rw [hkeys]
    exact Library.Traced.stateRun_bind_of_ok hpairs _
  rw [hrun, attachSignatures_eq hkeys]
  · rfl
  · intro pair hpair
    rcases List.mem_append.1 hpair with hpair | hpair
    · rcases List.mem_map.1 hpair with ⟨kp, hkp, rfl⟩
      exact (List.mem_filter.1 (List.mem_filter.1 hkp).1).2
    · exact includesKey_of_foreignPairs hpairs pair hpair

/-- A call that succeeds has had the private keys of the missing signers at hand. -/
theorem exists_foreignPairs (hkeys : signerPubKeys tx.cmd = .ok pubKeys) {signed : Command}
    (h : (Async.runIn (universalSignTransaction B tx kps onMissingKey) w).1 = .ok signed) :
    ∃ pairs w', Async.runIn (foreignKeyPairs B onMissingKey pubKeys
      ((handledKeypairs pubKeys kps).map UniversalKeypair.key)) w = (.ok pairs, w') := by
  unfold universalSignTransaction at h
  rw [hkeys] at h
  rcases Async.bind_ok h with ⟨_, w₁, hlift, h⟩
  cases hlift
  rcases Async.bind_ok h with ⟨pairs, w', hpairs, -⟩
  exact ⟨pairs, w', hpairs⟩

/-- What ends the foreign-key flow ends the call. -/
theorem universalSignTransaction_of_error (hkeys : signerPubKeys tx.cmd = .ok pubKeys) {e : Thrown}
    (h : (Async.runIn (foreignKeyPairs B onMissingKey pubKeys
      ((handledKeypairs pubKeys kps).map UniversalKeypair.key)) w).1 = .error e) :
    (Async.runIn (universalSignTransaction B tx kps onMissingKey) w).1 = .error e := by
  unfold universalSignTransaction
  rw [hkeys]
  exact Async.bind_error h _

end Call

end Signing
end StoaCore
