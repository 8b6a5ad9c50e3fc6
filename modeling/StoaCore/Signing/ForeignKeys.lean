import StoaCore.Signing.FilledSlots
import StoaCore.Signing.GasLimit

/-!
# ForeignKeys — where the private keys of foreign signers are checked

A foreign key comes in through `resolvedForeignKeys` or is asked for while the command is signed.
Only the second way derives its public key before it signs.  The run is cut where the command to be
signed has been built.
-/

namespace StoaCore
namespace Signing

open Library.Js
open Library.Traced

/-! ## Keys that are asked for -/

/-- `publicKeyFromPrivateKey(rawKey) === pubKey` -/
def Derives (B : Backend) (pubKey : Value) (rawKey : JsString) : Prop :=
  ∃ derived, B.publicKeyFromPrivateKey rawKey = .ok derived ∧ pubKey.strictEq (.str derived) = true

/-- The error of the foreign-key flow. -/
def keyMismatch (pubKey : Value) (derived : JsString) : Thrown :=
  .error (js "Key mismatch.\nExpected: " ++ pubKey.template ++ js "\nDerived:  " ++ derived)

section Asked

variable {σ : Type} (B : Backend) (callback : Value → Async σ JsString)

/-- The private keys the callback delivers, each with the signer it was asked for. -/
def askedKeys : List Value → List JsString → σ → List (Value × JsString)
  | [], _, _ => []
  | pubKey :: pubKeys, handled, w =>
      if handled.any fun key => pubKey.strictEq (.str key) then askedKeys pubKeys handled w
      else
        match Async.runIn (callback pubKey) w with
        | (.error _, _) => []
        | (.ok rawKey, w') =>
            (pubKey, rawKey) ::
              match B.publicKeyFromPrivateKey rawKey with
              | .error _ => []
              | .ok derived =>
                  if pubKey.strictEq (.str derived) then askedKeys pubKeys (derived :: handled) w'
                  else []

variable {B callback}

/-- A key that does not derive its signer ends the flow, with the mismatch or with the error of the
derivation. -/
theorem resolveMissingKeys_asked {pubKeys : List Value} {handled : List JsString} {w : σ}
    {a : Value × JsString} (ha : a ∈ askedKeys B callback pubKeys handled w) :
    (∀ derived, B.publicKeyFromPrivateKey a.2 = .ok derived → a.1.strictEq (.str derived) = false →
      (Async.runIn (resolveMissingKeys B callback pubKeys handled) w).1 =
        .error (keyMismatch a.1 derived)) ∧
    ∀ e, B.publicKeyFromPrivateKey a.2 = .error e →
      (Async.runIn (resolveMissingKeys B callback pubKeys handled) w).1 = .error e := by
  induction pubKeys generalizing handled w with
  | nil => cases ha
  | cons pubKey pubKeys ih =>
      by_cases hhandled : (handled.any fun key => pubKey.strictEq (.str key)) = true
      · rw [askedKeys, if_pos hhandled] at ha
        rw [resolveMissingKeys, if_pos hhandled]
        exact ih ha
      · rw [askedKeys, if_neg hhandled] at ha
        rcases hasked : Async.runIn (callback pubKey) w with ⟨r, w'⟩
        rw [hasked] at ha
        cases r with
        | error e => cases ha
        | ok rawKey =>
            dsimp only at ha
            cases hderive : B.publicKeyFromPrivateKey rawKey with
            | error e =>
                rw [hderive] at ha
                rw [List.mem_singleton.1 ha, resolveMissingKeys_throws hhandled hasked hderive]
                dsimp only
                rw [hderive]
                constructor
                · intro derived h
                  cases h
                · exact fun e' h => congrArg Except.error (Except.error.inj h)
            | ok derived =>
                rw [hderive] at ha
                dsimp only at ha
                by_cases hkey : pubKey.strictEq (.str derived) = true
                · rw [if_pos hkey] at ha
                  rw [resolveMissingKeys_matches hhandled hasked hderive hkey]
                  rcases List.mem_cons.1 ha with rfl | ha
                  · dsimp only
                    rw [hderive]
                    constructor
                    · intro d hd hne
                      cases hd
                      exact absurd (hkey.symm.trans hne) (by decide)
                    · intro e he
                      cases he
                  · rcases ih ha with ⟨hmismatch, hthrow⟩
                    constructor
                    · exact fun d hd hne => Async.bind_error (hmismatch d hd hne) _
                    · exact fun e he => Async.bind_error (hthrow e he) _
                · rw [if_neg hkey] at ha
                  rw [List.mem_singleton.1 ha,
                    resolveMissingKeys_mismatch hhandled hasked hderive hkey]
                  dsimp only
                  rw [hderive]
                  constructor
                  · intro d hd _
                    cases hd
                    rfl
                  · intro e he
                    cases he

end Asked

/-! ## The run up to the signatures -/

/-- What is known when the second command has been built. -/
structure Ready where
  simulated : Simulated
  tx : Command

namespace Ready

variable {σ : Type}

/-- The keypairs `sign` hands on. -/
def keypairs (args : ExecuteArgs σ) (r : Ready) : List KadenaKeypair :=
  dedupKeypairs (r.simulated.capsKeypair :: (r.simulated.guardKeypairs ++ args.extraSigners)) []

def universalKeypairs (args : ExecuteArgs σ) (r : Ready) : List UniversalKeypair :=
  (r.keypairs args).map fun kp => fromKeypair kp.toLoose

/-- The private keys asked for while the command is signed in the world `w`. -/
def asked (S : Strategy σ) (args : ExecuteArgs σ) (r : Ready) (w : σ) : List (Value × JsString) :=
  match signerPubKeys r.tx.cmd, S.resolver.requestForeignKey with
  | .ok pubKeys, some callback =>
      askedKeys S.backend callback pubKeys
        ((handledKeypairs pubKeys (r.universalKeypairs args)).map UniversalKeypair.key) w
  | _, _ => []

/-- A private key of `resolvedForeignKeys` fills the slot of a declared signer: its keypair is
among those that sign, and no entry under the signer's key is kept. -/
structure FillsResolved (args : ExecuteArgs σ) (r : Ready) (pub rawKey : JsString) : Prop where
  declared : ∃ pubKeys, signerPubKeys r.tx.cmd = .ok pubKeys ∧ includesKey pubKeys pub = true
  free : keptSlot r.tx.sigs (.str pub) = none
  resolved : args.resolvedForeignKeys.truthyText pub = some rawKey
  signs : ∃ kp ∈ r.keypairs args, kp.publicKey = pub ∧ kp.privateKey = rawKey ∧
    kp.seedType = some .foreign

/-- The conditions of `FillsResolved`, evaluated. -/
def fillsResolved (args : ExecuteArgs σ) (r : Ready) (pub rawKey : JsString) : Bool :=
  ((signerPubKeys r.tx.cmd).toOption.any fun pubKeys => includesKey pubKeys pub) &&
    (keptSlot r.tx.sigs (.str pub)).isNone &&
    decide (args.resolvedForeignKeys.truthyText pub = some rawKey) &&
    (r.keypairs args).any fun kp =>
      decide (kp.publicKey = pub ∧ kp.privateKey = rawKey ∧ kp.seedType = some .foreign)

theorem fillsResolved_of {args : ExecuteArgs σ} {r : Ready} {pub rawKey : JsString}
    (h : r.fillsResolved args pub rawKey = true) : r.FillsResolved args pub rawKey := by
  simp only [fillsResolved, Bool.and_eq_true] at h
  rcases h with ⟨⟨⟨hdeclared, hfree⟩, hresolved⟩, hsigns⟩
  refine ⟨?_, Option.isNone_iff_eq_none.1 hfree, of_decide_eq_true hresolved, ?_⟩
  · cases hkeys : signerPubKeys r.tx.cmd with
    | ok pubKeys =>
        rw [hkeys] at hdeclared
        exact ⟨pubKeys, rfl, hdeclared⟩
    | error e =>
        rw [hkeys] at hdeclared
        cases hdeclared
  · rcases List.any_eq_true.1 hsigns with ⟨kp, hkp, hboth⟩
    exact ⟨kp, hkp, of_decide_eq_true hboth⟩

theorem asked_of_none {S : Strategy σ} (hnone : S.resolver.requestForeignKey = none)
    (args : ExecuteArgs σ) (r : Ready) (w : σ) : r.asked S args w = [] := by
  unfold asked
  rw [hnone]
  cases signerPubKeys r.tx.cmd <;> rfl

end Ready

/-- A foreign private key brought in for a slot, in either way. -/
inductive ForeignUse {σ : Type} (S : Strategy σ) (args : ExecuteArgs σ) (r : Ready) (w : σ) :
    Value → JsString → Prop
  | resolved (pub rawKey : JsString) (h : r.FillsResolved args pub rawKey) :
      ForeignUse S args r w (.str pub) rawKey
  | asked (pubKey : Value) (rawKey : JsString) (h : (pubKey, rawKey) ∈ r.asked S args w) :
      ForeignUse S args r w pubKey rawKey

def NoSubmit (events : List Event) : Prop :=
  ∀ signed, .submit signed ∉ events

namespace Strategy

variable {σ : Type} (S : Strategy σ) (args : ExecuteArgs σ)

def untilReady : Prog ExecuteError σ Event Ready := do
  let s ← S.untilSimulated args
  let gasLimit ← S.calibrate s.simResult
  let tx ← runBuild args (s.context gasLimit)
  pure ⟨s, tx⟩

theorem execute_eq_ready :
    S.execute args = S.untilReady args >>= fun r => S.signAndSubmit args r.simulated r.tx := by
  rw [execute_eq, untilReady]
  simp only [bind_assoc, pure_bind]
  rfl

/-! ## Before the signatures nothing is submitted -/

/-- A step after which the trace has no submission if it had none before. -/
def Unsubmitted {α : Type} (x : Prog ExecuteError σ Event α) : Prop :=
  Triple NoSubmit x (fun _ => NoSubmit) (fun _ => NoSubmit)

section Unsubmitted

variable {S args}

theorem unsubmitted_call {α : Type} (f : σ → Except ExecuteError α × σ) :
    Unsubmitted (call f) :=
  Triple.call (fun _ _ _ _ hl => hl) fun _ _ _ _ hl => hl

theorem unsubmitted_emit {e : Event} (h : ∀ signed, e ≠ .submit signed) :
    Unsubmitted (σ := σ) (emit e) := by
  apply Triple.emit
  intro l hl signed hmem
  rcases List.mem_append.1 hmem with hmem | hmem
  · exact hl signed hmem
  · exact h signed (List.mem_singleton.1 hmem).symm

theorem unsubmitted_foldlM {α β : Type} {f : β → α → Prog ExecuteError σ Event β}
    (h : ∀ b a, Unsubmitted (f b a)) (l : List α) (b : β) : Unsubmitted (l.foldlM f b) := by
  refine Triple.mono (Triple.foldlM (fun _ _ => NoSubmit) l ?_ b) (fun _ hl => hl)
    (fun _ _ hl => hl) fun _ _ hl => hl
  intro _ a _ c _
  exact h c a

theorem unsubmitted_runBuild (ctx : BuildContext) : Unsubmitted (runBuild args ctx) := by
  unfold runBuild
  refine Triple.bind (unsubmitted_emit fun _ h => (nomatch h)) fun _ => ?_
  refine Triple.bind (unsubmitted_call _) fun tx => ?_
  refine Triple.bind (unsubmitted_emit fun _ h => (nomatch h)) fun _ => ?_
  exact Triple.pure fun _ hl => hl

theorem unsubmitted_simulate (sim : Command) : Unsubmitted (S.simulate sim) := by
  unfold simulate
  refine Triple.bind (unsubmitted_emit fun _ h => (nomatch h)) fun _ => ?_
  refine Triple.bind (unsubmitted_call _) fun simResult => ?_
  split
  · exact Triple.throw fun _ hl => hl
  · exact Triple.pure fun _ hl => hl

theorem unsubmitted_untilCollected (codexPubs : StringSet) :
    Unsubmitted (S.untilCollected args codexPubs) := by
  unfold untilCollected
  refine Triple.bind (Q := fun _ => NoSubmit) ?_ fun _ =>
    Triple.bind (Q := fun _ => NoSubmit) ?_ fun _ => ?_
  · unfold detectSmartAccountGuards
    split
    · exact Triple.throw fun _ hl => hl
    · exact Triple.pure fun _ hl => hl
  · unfold preflight
    split
    · exact Triple.throw fun _ hl => hl
    · exact Triple.pure fun _ hl => hl
  · refine unsubmitted_foldlM (fun c guard => ?_) _ _
    refine unsubmitted_foldlM (fun c pub => ?_) _ _
    unfold collectKey
    split
    · exact Triple.pure fun _ hl => hl
    · refine Triple.bind (Q := fun _ => NoSubmit) ?_ fun kp => Triple.pure fun _ hl => hl
      unfold keypairFor
      split
      · exact Triple.pure fun _ hl => hl
      · exact unsubmitted_call _

theorem unsubmitted_untilSelected : Unsubmitted (S.untilSelected args) := by
  unfold untilSelected
  refine Triple.bind (unsubmitted_call _) fun codexPubs => ?_
  refine Triple.bind (unsubmitted_untilCollected codexPubs) fun collected => ?_
  unfold selectCaps
  refine Triple.bind (Q := fun _ => NoSubmit) ?_ fun key =>
    Triple.bind (unsubmitted_call _) fun capsKeypair => Triple.pure fun _ hl => hl
  unfold capsKeyPub
  dsimp only
  split
  · exact Triple.throw fun _ hl => hl
  · split
    · exact Triple.throw fun _ hl => hl
    · exact Triple.pure fun _ hl => hl

theorem unsubmitted_untilReady : Unsubmitted (S.untilReady args) := by
  unfold untilReady untilSimulated simulateFirst
  refine Triple.bind (Q := fun _ => NoSubmit)
    (Triple.bind unsubmitted_untilSelected fun sel => ?_) fun s => ?_
  · refine Triple.bind (unsubmitted_call _) fun gasMeta => ?_
    refine Triple.bind (unsubmitted_runBuild _) fun sim => ?_
    refine Triple.bind (unsubmitted_simulate sim) fun simResult => ?_
    exact Triple.pure fun _ hl => hl
  · have hcalibrate : Unsubmitted (S.calibrate s.simResult) := by
      unfold calibrate
      exact unsubmitted_call _
    refine Triple.bind hcalibrate fun gasLimit => ?_
    refine Triple.bind (unsubmitted_runBuild _) fun tx => ?_
    exact Triple.pure fun _ hl => hl

end Unsubmitted

/-! ## The signatures -/

variable {S args}

/-- The call of `sign` that a run makes. -/
theorem sign_eq {r : Ready} :
    S.sign r.tx r.simulated.capsKeypair (r.simulated.guardKeypairs ++ args.extraSigners) =
      universalSignTransaction S.backend r.tx (r.universalKeypairs args)
        S.resolver.requestForeignKey :=
  rfl

/-- A key that was asked for and does not derive its signer ends `sign`. -/
theorem sign_of_asked {r : Ready} {w : σ} {a : Value × JsString} (ha : a ∈ r.asked S args w) :
    (∀ derived, S.backend.publicKeyFromPrivateKey a.2 = .ok derived →
      a.1.strictEq (.str derived) = false →
        (Async.runIn (S.sign r.tx r.simulated.capsKeypair
          (r.simulated.guardKeypairs ++ args.extraSigners)) w).1 =
            .error (keyMismatch a.1 derived)) ∧
    ∀ e, S.backend.publicKeyFromPrivateKey a.2 = .error e →
      (Async.runIn (S.sign r.tx r.simulated.capsKeypair
        (r.simulated.guardKeypairs ++ args.extraSigners)) w).1 = .error e := by
  unfold Ready.asked at ha
  split at ha
  case h_2 => cases ha
  case h_1 pubKeys callback hkeys hcallback =>
    have hsign : ∀ e, (Async.runIn (resolveMissingKeys S.backend callback pubKeys
        ((handledKeypairs pubKeys (r.universalKeypairs args)).map UniversalKeypair.key)) w).1 =
          .error e →
        (Async.runIn (S.sign r.tx r.simulated.capsKeypair
          (r.simulated.guardKeypairs ++ args.extraSigners)) w).1 = .error e := by
      intro e he
      rw [sign_eq, hcallback]
      exact universalSignTransaction_of_error hkeys he
    rcases resolveMissingKeys_asked ha with ⟨hmismatch, hthrow⟩
    constructor
    · exact fun derived hd hne => hsign _ (hmismatch derived hd hne)
    · exact fun e he => hsign e (hthrow e he)

theorem signAndSubmit_of_error {s : Simulated} {tx : Command} {t : Trace σ Event} {e : Thrown}
    (h : (Async.runIn (S.sign tx s.capsKeypair (s.guardKeypairs ++ args.extraSigners))
      t.world).1 = .error e) :
    (run (S.signAndSubmit args s tx) t).1 = .error (.thrown e) ∧
      (run (S.signAndSubmit args s tx) t).2.events = t.events := by
  unfold signAndSubmit invoke
  rw [run_bind, run_call, h]
  exact ⟨rfl, rfl⟩

/-- Where `sign` returns a command, it is submitted, whatever the node answers. -/
theorem signAndSubmit_of_ok {s : Simulated} {tx signed : Command} {t : Trace σ Event}
    (h : (Async.runIn (S.sign tx s.capsKeypair (s.guardKeypairs ++ args.extraSigners))
      t.world).1 = .ok signed) :
    (run (S.signAndSubmit args s tx) t).2.events = t.events ++ [.submit signed] := by
  unfold signAndSubmit invoke
  rw [run_bind, run_call, h]
  set w := (Async.runIn (S.sign tx s.capsKeypair (s.guardKeypairs ++ args.extraSigners)) t.world).2
  have hemit : run (emit (.submit signed) : Prog ExecuteError σ Event Unit) ⟨w, t.events⟩ =
      (.ok (), ⟨w, t.events ++ [.submit signed]⟩) := rfl
  dsimp only [Except.mapError]
  unfold submit withDeadline
  rw [run_bind, run_bind, hemit]
  dsimp only
  rw [run_call]
  rcases S.client.submit signed w with ⟨settled, w'⟩
  cases settled with
  | value v => rfl
  | threw e => rfl
  | abortError => rfl

end Strategy

/-! ## The slots the keys fill -/

theorem nodup_dedupKeypairs (kps : List KadenaKeypair) (seen : List JsString) :
    ((dedupKeypairs kps seen).map KadenaKeypair.publicKey).Nodup := by
  induction kps generalizing seen with
  | nil => exact List.nodup_nil
  | cons kp kps ih =>
      unfold dedupKeypairs
      split
      · exact ih seen
      · rw [List.map_cons, List.nodup_cons]
        refine ⟨fun hmem => ?_, ih _⟩
        exact (mem_dedupKeypairs.1 hmem).2 List.mem_cons_self

theorem nodup_universalKeypairs {σ : Type} {args : ExecuteArgs σ} {r : Ready} :
    ((r.universalKeypairs args).map UniversalKeypair.key).Nodup := by
  have hkeys : (r.universalKeypairs args).map UniversalKeypair.key =
      (r.keypairs args).map KadenaKeypair.publicKey := by
    rw [Ready.universalKeypairs, List.map_map]
    rfl
  rw [hkeys]
  exact nodup_dedupKeypairs _ _

/-! ## What is checked -/

section Checked

variable {σ : Type} {S : Strategy σ} {args : ExecuteArgs σ}

/-- Every foreign private key derives the public key of its slot, or the run rejects with the
mismatch and has submitted nothing. -/
def KeysChecked (S : Strategy σ) (args : ExecuteArgs σ) (r : Ready) (w : σ)
    (outcome : Except ExecuteError ExecuteResult × Trace σ Event) : Prop :=
  ∀ pubKey rawKey, ForeignUse S args r w pubKey rawKey →
    Derives S.backend pubKey rawKey ∨
      (∃ pub derived, outcome.1 = .error (.thrown (keyMismatch pub derived))) ∧
        NoSubmit outcome.2.events

/-- Every private key of `resolvedForeignKeys` that fills a slot derives its public key. -/
def ResolvedDerive (S : Strategy σ) (args : ExecuteArgs σ) (r : Ready) : Prop :=
  ∀ pub rawKey, r.FillsResolved args pub rawKey → Derives S.backend (.str pub) rawKey

/-- Every private key that is asked for has a public key. -/
def AskedDerivable (S : Strategy σ) (args : ExecuteArgs σ) (r : Ready) (w : σ) : Prop :=
  ∀ a ∈ r.asked S args w, ∃ derived, S.backend.publicKeyFromPrivateKey a.2 = .ok derived

section Run

variable {w : σ} {r : Ready} {t : Trace σ Event}
  (hready : run (S.untilReady args) { world := w, events := [] } = (.ok r, t))

include hready

theorem runExecute_of_ready :
    S.runExecute args w = run (S.signAndSubmit args r.simulated r.tx) t := by
  unfold Strategy.runExecute
  rw [Strategy.execute_eq_ready, run_bind, hready]

theorem noSubmit_of_ready : NoSubmit t.events := by
  have hunsubmitted : Strategy.Unsubmitted (S.untilReady args) := Strategy.unsubmitted_untilReady
  have hspec := hunsubmitted { world := w, events := [] } (fun _ h => nomatch h)
  rw [hready] at hspec
  exact hspec

/-- A key that was asked for and belongs to another signer makes `execute` reject. -/
theorem asked_mismatch {a : Value × JsString} (ha : a ∈ r.asked S args t.world)
    {derived : JsString} (hd : S.backend.publicKeyFromPrivateKey a.2 = .ok derived)
    (hne : a.1.strictEq (.str derived) = false) :
    (S.runExecute args w).1 = .error (.thrown (keyMismatch a.1 derived)) ∧
      NoSubmit (S.runExecute args w).2.events := by
  rw [runExecute_of_ready hready]
  rcases Strategy.signAndSubmit_of_error ((Strategy.sign_of_asked ha).1 derived hd hne) with
    ⟨herror, hevents⟩
  rw [hevents]
  exact ⟨herror, noSubmit_of_ready hready⟩

/-- Where a command is submitted, every key that was asked for has passed the check. -/
theorem asked_derives {signed : Command} (hsubmit : .submit signed ∈ (S.runExecute args w).2.events)
    {a : Value × JsString} (ha : a ∈ r.asked S args t.world) : Derives S.backend a.1 a.2 := by
  cases hd : S.backend.publicKeyFromPrivateKey a.2 with
  | error e =>
      -- The derivation throws: the run ends with its error.
      have hevents := (Strategy.signAndSubmit_of_error ((Strategy.sign_of_asked ha).2 e hd)).2
      rw [runExecute_of_ready hready, hevents] at hsubmit
      exact absurd hsubmit (noSubmit_of_ready hready signed)
  | ok derived =>
      cases hkey : a.1.strictEq (.str derived) with
      | true => exact ⟨derived, hd, hkey⟩
      | false => exact absurd hsubmit ((asked_mismatch hready ha hd hkey).2 signed)

/-- In every run of `execute` that comes to sign a command, the foreign keys are checked if those of
`resolvedForeignKeys` derive their public keys and those that are asked for have one; in a run that
submits a command, they are checked exactly if those of `resolvedForeignKeys` derive theirs. -/
theorem foreign_keys_checked :
    (ResolvedDerive S args r ∧ AskedDerivable S args r t.world →
      KeysChecked S args r t.world (S.runExecute args w)) ∧
    ∀ signed, .submit signed ∈ (S.runExecute args w).2.events →
      (KeysChecked S args r t.world (S.runExecute args w) ↔ ResolvedDerive S args r) := by
  constructor
  · rintro ⟨hresolved, hderivable⟩ pubKey rawKey huse
    cases huse with
    | resolved pub _ h => exact Or.inl (hresolved pub rawKey h)
    | asked _ _ h =>
        rcases hderivable _ h with ⟨derived, hd⟩
        cases hkey : pubKey.strictEq (.str derived) with
        | true => exact Or.inl ⟨derived, hd, hkey⟩
        | false =>
            rcases asked_mismatch hready h hd hkey with ⟨herror, hnone⟩
            exact Or.inr ⟨⟨pubKey, derived, herror⟩, hnone⟩
  · intro signed hsubmit
    constructor
    · intro hchecked pub rawKey huse
      rcases hchecked _ _ (ForeignUse.resolved pub rawKey huse) with hderives | ⟨-, hnone⟩
      · exact hderives
      · exact absurd hsubmit (hnone signed)
    · intro hresolved pubKey rawKey huse
      cases huse with
      | resolved pub _ h => exact Or.inl (hresolved pub rawKey h)
      | asked _ _ h => exact Or.inl (asked_derives hready hsubmit h)

end Run

end Checked

/-! ## A key that was pasted for the wrong signer -/

/-- The libraries on the keys of both parties. -/
def derivingBackend : Backend :=
  { transferBackend with
    publicKeyFromPrivateKey := fun rawKey =>
      if rawKey = secretKeyA then .ok publicKeyA
      else if rawKey = secretKeyB then .ok publicKeyB
      else .error (.error (js "Seed for IKeyPairgeneration has bad size")) }

/-- A codex with the key of B. -/
def partyBStrategy : Strategy Unit :=
  { soleStrategy with
    resolver :=
      { listCodexPubs := pure ⟨[publicKeyB], List.nodup_singleton _⟩
        getKeyPairByPublicKey := fun pub =>
          pure { publicKey := pub, privateKey := secretKeyB, seedType := some .koala } }
    backend := derivingBackend }

/-- A's key guards the account, and the user has pasted `rawKey` for it. -/
def pastedArgs (rawKey : JsString) : ExecuteArgs Unit where
  build := fun _ => pure transferTransaction
  guards := [{ pred := js "keys-all", keys := [publicKeyA] }]
  paymentKey := some publicKeyB
  resolvedForeignKeys := [(publicKeyA, rawKey)]

def isSubmit : Event → Bool
  | .submit _ => true
  | _ => false

theorem not_noSubmit {l : List Event} (h : l.any isSubmit = true) : ¬ NoSubmit l := by
  rcases List.any_eq_true.1 h with ⟨e, hmem, he⟩
  cases e with
  | submit signed => exact fun hnone => hnone signed hmem
  | building ctx => cases he
  | built tx => cases he
  | dirtyRead tx => cases he

theorem foreign_keys_checked_pasted :
    ∃ r t, run (partyBStrategy.untilReady (pastedArgs secretKeyA)) { world := (), events := [] } =
        (.ok r, t) ∧
      KeysChecked partyBStrategy (pastedArgs secretKeyA) r t.world
        (partyBStrategy.runExecute (pastedArgs secretKeyA) ()) := by
  have hforeign : ((run (partyBStrategy.untilReady (pastedArgs secretKeyA))
      { world := (), events := [] }).1.toOption.map fun r =>
        (r.keypairs (pastedArgs secretKeyA)).all fun kp =>
          decide (kp.seedType = some .foreign →
            kp.publicKey = publicKeyA ∧ kp.privateKey = secretKeyA)) = some true := by
    decide +kernel
  rcases hrun : run (partyBStrategy.untilReady (pastedArgs secretKeyA))
    { world := (), events := [] } with ⟨out, t⟩
  rw [hrun] at hforeign
  cases out with
  | error e => cases hforeign
  | ok r =>
      refine ⟨r, t, rfl, (foreign_keys_checked hrun).1 ⟨?_, ?_⟩⟩
      · intro pub rawKey hfills
        rcases hfills.signs with ⟨kp, hkp, rfl, rfl, hseed⟩
        have hall := List.all_eq_true.1 (Option.some.inj hforeign) kp hkp
        rcases of_decide_eq_true hall hseed with ⟨hpub, hraw⟩
        rw [hpub, hraw]
        exact ⟨publicKeyA, by decide +kernel, by decide +kernel⟩
      · intro a ha
        rw [Ready.asked_of_none rfl] at ha
        cases ha

/-- The secret of B was pasted for A: nothing is derived, and the command is submitted. -/
theorem unchecked_key_submitted :
    ¬ ∀ (S : Strategy Unit) (args : ExecuteArgs Unit) (w : Unit) (r : Ready)
      (t : Trace Unit Event),
      run (S.untilReady args) { world := w, events := [] } = (.ok r, t) →
        KeysChecked S args r t.world (S.runExecute args w) := by
  intro h
  have hfills : ((run (partyBStrategy.untilReady (pastedArgs secretKeyB))
      { world := (), events := [] }).1.toOption.map fun r =>
        r.fillsResolved (pastedArgs secretKeyB) publicKeyA secretKeyB) = some true := by
    decide +kernel
  have hsubmit : (partyBStrategy.runExecute (pastedArgs secretKeyB) ()).2.events.any isSubmit =
      true := by
    decide +kernel
  rcases hrun : run (partyBStrategy.untilReady (pastedArgs secretKeyB))
    { world := (), events := [] } with ⟨out, t⟩
  rw [hrun] at hfills
  cases out with
  | error e => cases hfills
  | ok r =>
      have huse := ForeignUse.resolved (S := partyBStrategy) (w := t.world) publicKeyA secretKeyB
        (Ready.fillsResolved_of (Option.some.inj hfills))
      rcases h partyBStrategy (pastedArgs secretKeyB) () r t hrun _ _ huse with
        ⟨derived, hd, hkey⟩ | ⟨-, hnone⟩
      · have hderived : partyBStrategy.backend.publicKeyFromPrivateKey secretKeyB =
            .ok publicKeyB := by decide +kernel
        rw [hderived] at hd
        rw [← Except.ok.inj hd] at hkey
        exact absurd hkey (by decide +kernel)
      · exact not_noSubmit hsubmit hnone

end Signing
end StoaCore
