import StoaCore.Library.Ghost
import StoaCore.Signing.Preflight

/-!
# KeySelection — which keys sign for the guards and which key pays

What the first steps of `execute` select depends on the guards, the codex and the pre-resolved
keys alone: the guards take `selectedPubs` one after the other, and the gas key comes from what is
left of the codex.  The resolver can only fail on the way.
-/

namespace StoaCore
namespace Signing

open Library.Js
open Library.Traced
open Guard

/-! ## The keys the guards take -/

section Selected

variable (fl : Rounding) (codexPubs : StringSet) (resolvedForeignKeys : Record JsString)

/-- The keys a guard takes: the first available ones, codex keys before foreign ones. -/
def takenKeys (guard : Keyset) : List JsString :=
  neededKeys (analyzeGuard fl (some guard) codexPubs resolvedForeignKeys)

/-- All keys the guards take, each once. -/
def selectedPubs (guards : List Keyset) : StringSet :=
  (guards.flatMap (takenKeys fl codexPubs resolvedForeignKeys)).foldl StringSet.add
    StringSet.empty

theorem takenKeys_eq (guard : Keyset) :
    takenKeys fl codexPubs resolvedForeignKeys guard =
      (codexKeysOf guard codexPubs ++
        resolvedForeignKeysOf guard codexPubs resolvedForeignKeys).take
          ((guardThreshold fl guard).getD 0) :=
  neededKeys_analyzeGuard fl codexPubs resolvedForeignKeys guard

theorem mem_selectedPubs {guards : List Keyset} {pub : JsString} :
    pub ∈ (selectedPubs fl codexPubs resolvedForeignKeys guards).elements ↔
      ∃ guard ∈ guards, pub ∈ takenKeys fl codexPubs resolvedForeignKeys guard := by
  unfold selectedPubs
  rw [StringSet.mem_foldl_add, List.mem_flatMap]
  simp [StringSet.empty]

/-- A key that is taken is a key of the guard, in the codex or with an entry that looks
resolved. -/
theorem taken_cases {guard : Keyset} {pub : JsString}
    (h : pub ∈ takenKeys fl codexPubs resolvedForeignKeys guard) :
    pub ∈ guard.keys ∧
      (pub ∈ (analyzeGuard fl (some guard) codexPubs resolvedForeignKeys).codexKeys ∧
          codexPubs.has pub = true ∨
        pub ∈ (analyzeGuard fl (some guard) codexPubs resolvedForeignKeys).resolvedForeignKeys ∧
          codexPubs.has pub = false ∧ (resolvedForeignKeys.truthyText pub).isSome = true) := by
  have havailable := List.mem_of_mem_take h
  rw [analyzeGuard_codexKeys, analyzeGuard_resolvedForeignKeys] at havailable ⊢
  rcases List.mem_append.1 havailable with hcodex | hforeign
  · rcases List.mem_filter.1 hcodex with ⟨hkey, hhas⟩
    exact ⟨hkey, Or.inl ⟨hcodex, hhas⟩⟩
  · rcases List.mem_filter.1 hforeign with ⟨hkey, hresolved⟩
    rcases List.mem_filter.1 hkey with ⟨hmem, hnot⟩
    exact ⟨hmem, Or.inr ⟨hforeign, by simpa using hnot, hresolved⟩⟩

/-- The codex keys and the resolved foreign keys of a guard have nothing in common. -/
theorem resolved_not_codex {guard : Keyset} {pub : JsString}
    (h : pub ∈ (analyzeGuard fl (some guard) codexPubs resolvedForeignKeys).resolvedForeignKeys) :
    codexPubs.has pub = false := by
  rw [analyzeGuard_resolvedForeignKeys] at h
  simpa using (List.mem_filter.1 (List.mem_filter.1 h).1).2

end Selected

/-! ## The key that pays -/

section Caps

variable {paymentKey : Option JsString} {codexPubs pureSigningPubs : StringSet}

theorem truthyKey_eq_some {key : JsString} :
    truthyKey paymentKey = some key ↔ paymentKey = some key ∧ key ≠ [] := by
  unfold truthyKey
  rw [Option.filter_eq_some_iff]
  simp

/-- The key that `selectCapsSigningKey` finds is a codex key that signs for no guard. -/
theorem selectCapsSigningKey_key {key : JsString}
    (h : (selectCapsSigningKey paymentKey codexPubs pureSigningPubs).key = some key) :
    codexPubs.has key = true ∧ pureSigningPubs.has key = false := by
  unfold selectCapsSigningKey at h
  split at h
  case h_1 payment hpayment =>
    cases h
    simpa using (Option.filter_eq_some_iff.1 hpayment).2
  case h_2 =>
    split at h
    case h_1 pub hpub =>
      cases h
      exact ⟨(StringSet.has_iff _ _).2 (List.mem_of_find?_eq_some hpub),
        by simpa using List.find?_some hpub⟩
    case h_2 => cases h

/-- A payment key that is free is chosen. -/
theorem selectCapsSigningKey_payment {key : JsString} (hpayment : paymentKey = some key)
    (hne : key ≠ []) (hcodex : codexPubs.has key = true)
    (hfree : pureSigningPubs.has key = false) :
    (selectCapsSigningKey paymentKey codexPubs pureSigningPubs).key = some key := by
  have hfilter : ((truthyKey paymentKey).filter fun key =>
      codexPubs.has key && !pureSigningPubs.has key) = some key := by
    rw [truthyKey_eq_some.2 ⟨hpayment, hne⟩]
    simp [hcodex, hfree]
  simp [selectCapsSigningKey, hfilter]

/-- Some key can pay: the payment key itself, or the first codex key that signs for no guard,
unless that is the empty text. -/
def CanPay (paymentKey : Option JsString) (codexPubs pureSigningPubs : StringSet) : Prop :=
  ∃ key, key ≠ [] ∧
    (selectCapsSigningKey paymentKey codexPubs pureSigningPubs).key = some key

theorem impossible_no_key
    (h : (selectCapsSigningKey paymentKey codexPubs pureSigningPubs).impossible = true) :
    (selectCapsSigningKey paymentKey codexPubs pureSigningPubs).key = none := by
  unfold selectCapsSigningKey at h ⊢
  split at h
  case h_1 => cases h
  case h_2 =>
    split at h
    case h_1 => cases h
    case h_2 => rfl

/-- A codex key outside the keys of the guards can pay, in a codex without the empty text. -/
theorem canPay_of_free {pub : JsString} (hcodex : codexPubs.has pub = true)
    (hfree : pureSigningPubs.has pub = false) (hne : codexPubs.has [] = false) :
    CanPay paymentKey codexPubs pureSigningPubs := by
  have hsome : (selectCapsSigningKey paymentKey codexPubs pureSigningPubs).key ≠ none := by
    unfold selectCapsSigningKey
    split
    case h_1 => simp
    case h_2 =>
      split
      case h_1 => simp
      case h_2 hnone =>
        -- The search goes through the whole codex and would have found the free key.
        have hused := List.find?_eq_none.1 hnone pub ((StringSet.has_iff _ _).1 hcodex)
        simp [hfree] at hused
  cases hkey : (selectCapsSigningKey paymentKey codexPubs pureSigningPubs).key with
  | none => exact absurd hkey hsome
  | some key =>
      refine ⟨key, ?_, hkey⟩
      rintro rfl
      rw [(selectCapsSigningKey_key hkey).1] at hne
      cases hne

end Caps

/-! ## The run up to the first build -/

/-- The outcome of steps C, D and E. -/
structure Selected where
  collected : Collected
  capsKeypair : KadenaKeypair

namespace Strategy

variable {σ : Type} (S : Strategy σ) (args : ExecuteArgs σ)

def untilCollected (codexPubs : StringSet) : Prog ExecuteError σ Event Collected := do
  S.detectSmartAccountGuards args codexPubs
  S.preflight args codexPubs
  S.collectGuardKeypairs args codexPubs

def selectCaps (codexPubs : StringSet) (collected : Collected) :
    Prog ExecuteError σ Event Selected := do
  let capsKey ← capsKeyPub args codexPubs collected
  let capsKeypair ← invoke (S.resolver.getKeyPairByPublicKey capsKey)
  pure ⟨collected, capsKeypair⟩

def untilSelected : Prog ExecuteError σ Event Selected := do
  let codexPubs ← invoke S.resolver.listCodexPubs
  let collected ← S.untilCollected args codexPubs
  S.selectCaps args codexPubs collected

/-- `execute` selects the keys and goes on with step F. -/
theorem execute_eq_selected :
    S.execute args = S.untilSelected args >>= fun s =>
      S.buildSignSubmit args s.capsKeypair s.collected.guardKeypairs := by
  simp only [execute, collectAndSubmit, untilSelected, untilCollected, selectCaps, bind_assoc,
    pure_bind]

/-- The keys that the guards of this call take. -/
def selected (codexPubs : StringSet) : StringSet :=
  selectedPubs S.environment.arithmetic codexPubs args.resolvedForeignKeys args.guards

variable {S args}

/-! ## What is collected -/

/-- The consumer's code threw; the pipeline itself had no objection. -/
def ExternalError (e : ExecuteError) : Prop :=
  ∃ thrown, e = .thrown thrown

/-- One keypair for each collected key. -/
def OneEach (c : Collected) : Prop :=
  c.guardKeypairs.length = c.pureSigningPubs.elements.length

section Collect

variable (codexPubs : StringSet)

theorem collectKey_pubs (analysis : GuardAnalysis) (c : Collected) (pub : JsString) :
    Triple (Silent (OneEach c)) (S.collectKey args analysis c pub)
      (fun c' => Silent (c'.pureSigningPubs = c.pureSigningPubs.add pub ∧ OneEach c'))
      (fun e => Silent (ExternalError e)) := by
  unfold collectKey
  split
  case isTrue hseen =>
    apply Triple.pure
    intro l hl
    exact ⟨⟨(StringSet.add_of_mem ((StringSet.has_iff _ _).1 hseen)).symm, hl.1⟩, hl.2⟩
  case isFalse hnew =>
    apply Triple.bind (Q := fun _ => Silent (OneEach c))
    · unfold keypairFor
      split
      · exact Triple.pure fun l hl => hl
      · exact triple_invoke (fun _ _ _ l hl => hl) fun e l hl => ⟨⟨e, rfl⟩, hl.2⟩
    · intro kp
      apply Triple.pure
      rintro l ⟨heach, hl⟩
      have hnot : pub ∉ c.pureSigningPubs.elements := fun h => hnew ((StringSet.has_iff _ _).2 h)
      refine ⟨⟨rfl, ?_⟩, hl⟩
      unfold OneEach at heach ⊢
      rw [StringSet.elements_add_of_not_mem hnot, List.length_append, List.length_append, heach]
      rfl

/-- The keys of one guard are added in order. -/
theorem collectGuard_pubs (c : Collected) (guard : Keyset) :
    Triple (Silent (OneEach c)) (S.collectGuard args codexPubs c guard)
      (fun c' => Silent (c'.pureSigningPubs =
        (takenKeys S.environment.arithmetic codexPubs args.resolvedForeignKeys guard).foldl
          StringSet.add c.pureSigningPubs ∧ OneEach c'))
      (fun e => Silent (ExternalError e)) := by
  unfold collectGuard
  refine Triple.mono (Triple.foldlM
    (fun done c' => Silent (c'.pureSigningPubs = done.foldl StringSet.add c.pureSigningPubs ∧
      OneEach c')) _ ?_ c) (fun l hl => ⟨⟨rfl, hl.1⟩, hl.2⟩) (fun _ _ h => h) (fun _ _ h => h)
  intro done pub rest c₁ _
  apply Triple.of_pre
  rintro ⟨hdone, heach⟩
  refine Triple.mono (collectKey_pubs _ c₁ pub) (fun _ hl => ⟨heach, hl⟩) ?_ (fun _ _ h => h)
  rintro c₂ l ⟨⟨hadd, heach'⟩, hl⟩
  rw [hdone] at hadd
  exact ⟨⟨by rw [hadd, List.foldl_append, List.foldl_cons, List.foldl_nil], heach'⟩, hl⟩

/-- The collected keys are those the guards take, whatever the resolver answers. -/
theorem collectGuardKeypairs_pubs :
    Triple (fun l => l = []) (S.collectGuardKeypairs args codexPubs)
      (fun c => Silent (c.pureSigningPubs = S.selected args codexPubs ∧ OneEach c))
      (fun e => Silent (ExternalError e)) := by
  unfold collectGuardKeypairs
  let taken := takenKeys S.environment.arithmetic codexPubs args.resolvedForeignKeys
  refine Triple.mono (Triple.foldlM
    (fun done c => Silent (c.pureSigningPubs =
      (done.flatMap taken).foldl StringSet.add StringSet.empty ∧ OneEach c)) _ ?_ _)
    (fun l hl => ⟨⟨rfl, rfl⟩, hl⟩) (fun _ _ h => h) (fun _ _ h => h)
  intro done guard rest c _
  apply Triple.of_pre
  rintro ⟨hdone, heach⟩
  refine Triple.mono (collectGuard_pubs codexPubs c guard) (fun _ hl => ⟨heach, hl⟩) ?_
    (fun _ _ h => h)
  rintro c' l ⟨⟨htaken, heach'⟩, hl⟩
  refine ⟨⟨?_, heach'⟩, hl⟩
  calc c'.pureSigningPubs
      = (taken guard).foldl StringSet.add c.pureSigningPubs := htaken
    _ = (taken guard).foldl StringSet.add
          ((done.flatMap taken).foldl StringSet.add StringSet.empty) := by rw [hdone]
    _ = ((done ++ [guard]).flatMap taken).foldl StringSet.add StringSet.empty := by
          rw [List.flatMap_append, List.foldl_append]
          simp

/-- The two checks before the collection throw their own errors. -/
theorem untilCollected_spec :
    Triple (fun l => l = []) (S.untilCollected args codexPubs)
      (fun c => Silent (S.Matches c ∧ c.pureSigningPubs = S.selected args codexPubs))
      (fun e => Silent (e ≠ .paymentKeyInGuard ∧ e ≠ .noCapsKey)) := by
  unfold untilCollected
  apply Triple.bind (Q := fun _ l => l = [])
  · unfold detectSmartAccountGuards
    split
    · exact Triple.throw fun l hl => ⟨⟨fun h => (nomatch h), fun h => (nomatch h)⟩, hl⟩
    · exact Triple.pure fun l hl => hl
  intro _
  apply Triple.bind (Q := fun _ l => l = [])
  · unfold preflight
    split
    · exact Triple.throw fun l hl => ⟨⟨fun h => (nomatch h), fun h => (nomatch h)⟩, hl⟩
    · exact Triple.pure fun l hl => hl
  intro _
  apply Triple.mono (Triple.and (collectGuardKeypairs_spec codexPubs)
    (collectGuardKeypairs_pubs codexPubs)) (fun l hl => ⟨hl, hl⟩)
  · rintro c l ⟨⟨hserves, hl⟩, ⟨hpubs, -⟩, -⟩
    exact ⟨⟨hserves.pubs, hpubs⟩, hl⟩
  · rintro e l ⟨-, ⟨thrown, rfl⟩, hl⟩
    exact ⟨⟨fun h => (nomatch h), fun h => (nomatch h)⟩, hl⟩

end Collect

/-! ## Choosing the gas key -/

/-- `execute` rejects because no key can pay for gas. -/
def RejectsGasPayer (S : Strategy σ) (args : ExecuteArgs σ) (w : σ) : Prop :=
  (S.runExecute args w).1 = .error .paymentKeyInGuard ∨
    (S.runExecute args w).1 = .error .noCapsKey

section Caps

variable {codexPubs : StringSet}

/-- Without a key that can pay, the choice rejects with one of its two errors. -/
theorem capsKeyPub_of_not_canPay {c : Collected}
    (h : ¬ CanPay args.paymentKey codexPubs c.pureSigningPubs) (t : Trace σ Event) :
    run (capsKeyPub args codexPubs c) t = (.error .paymentKeyInGuard, t) ∨
      run (capsKeyPub args codexPubs c) t = (.error .noCapsKey, t) := by
  unfold capsKeyPub
  dsimp only
  by_cases himpossible :
      (selectCapsSigningKey args.paymentKey codexPubs c.pureSigningPubs).impossible = true
  · rw [if_pos himpossible]
    exact Or.inl rfl
  · rw [if_neg himpossible]
    cases hkey : truthyKey (selectCapsSigningKey args.paymentKey codexPubs
        c.pureSigningPubs).key with
    | none => exact Or.inr rfl
    | some key =>
        rcases truthyKey_eq_some.1 hkey with ⟨hsome, hne⟩
        exact absurd ⟨key, hne, hsome⟩ h

/-- With such a key, the choice returns it. -/
theorem capsKeyPub_of_canPay {c : Collected}
    (h : CanPay args.paymentKey codexPubs c.pureSigningPubs) :
    ∃ key, key ≠ [] ∧
      (selectCapsSigningKey args.paymentKey codexPubs c.pureSigningPubs).key = some key ∧
      ∀ t : Trace σ Event, run (capsKeyPub args codexPubs c) t = (.ok key, t) := by
  rcases h with ⟨key, hne, hkey⟩
  refine ⟨key, hne, hkey, ?_⟩
  intro t
  have hpossible :
      ¬ (selectCapsSigningKey args.paymentKey codexPubs c.pureSigningPubs).impossible = true := by
    intro himpossible
    rw [impossible_no_key himpossible] at hkey
    cases hkey
  unfold capsKeyPub
  dsimp only
  rw [if_neg hpossible, truthyKey_eq_some.2 ⟨hkey, hne⟩]
  rfl

/-! ## The errors of step F -/

/-- The client or the consumer's code failed, or the simulation reported a failure. -/
def StepFError (e : ExecuteError) : Prop :=
  ExternalError e ∨ (∃ error, e = .timeout error) ∨ ∃ message, e = .simulationFailed message

theorem throws_invoke {α : Type} (x : Async σ α) :
    Throws (invoke x : Prog ExecuteError σ Event α) ExternalError := by
  apply Throws.call
  intro w e he
  cases hx : (Async.runIn x w).1 with
  | ok a =>
      rw [hx] at he
      cases he
  | error thrown =>
      rw [hx] at he
      cases he
      exact ⟨thrown, rfl⟩

theorem throws_readWorld {α : Type} (f : σ → α) (E : ExecuteError → Prop) :
    Throws (readWorld f : Prog ExecuteError σ Event α) E := by
  apply Throws.call
  intro w e he
  cases he

theorem throws_withDeadline (operation : String) (timeoutMs : Nat) (f : σ → Settled × σ) :
    Throws (withDeadline operation timeoutMs f : Prog ExecuteError σ Event Value) StepFError := by
  apply Throws.call
  intro w e he
  rcases hf : f w with ⟨settled, w'⟩
  rw [hf] at he
  cases settled with
  | value v => cases he
  | threw thrown =>
      cases he
      exact Or.inl ⟨thrown, rfl⟩
  | abortError =>
      cases he
      exact Or.inr (Or.inl ⟨_, rfl⟩)

theorem throws_runBuild (ctx : BuildContext) : Throws (runBuild args ctx) StepFError := by
  unfold runBuild
  refine Throws.bind (Throws.emit _) fun _ => ?_
  refine Throws.bind ((throws_invoke _).mono fun e he => Or.inl he) fun tx => ?_
  exact Throws.bind (Throws.emit _) fun _ => Throws.pure tx

theorem throws_simulate (sim : Command) : Throws (S.simulate sim) StepFError := by
  unfold simulate
  refine Throws.bind (Throws.emit _) fun _ => ?_
  refine Throws.bind (throws_withDeadline _ _ _) fun simResult => ?_
  split
  · exact Throws.throw (Or.inr (Or.inr ⟨_, rfl⟩))
  · exact Throws.pure simResult

theorem throws_submit (signed : Command) : Throws (S.submit signed) StepFError := by
  unfold submit
  exact Throws.bind (Throws.emit _) fun _ => throws_withDeadline _ _ _

theorem throws_buildSignSubmit (capsKeypair : KadenaKeypair)
    (guardKeypairs : List KadenaKeypair) :
    Throws (S.buildSignSubmit args capsKeypair guardKeypairs) StepFError := by
  unfold buildSignSubmit
  refine Throws.bind (throws_readWorld _ _) fun gasMeta => ?_
  refine Throws.bind (throws_runBuild _) fun sim => ?_
  refine Throws.bind (throws_simulate sim) fun simResult => ?_
  refine Throws.bind (throws_readWorld _ _) fun gasLimit => ?_
  refine Throws.bind (throws_runBuild _) fun tx => ?_
  refine Throws.bind ((throws_invoke _).mono fun e he => Or.inl he) fun signed => ?_
  exact Throws.bind (throws_submit signed) fun raw => Throws.pure _

/-- After the gas key has been chosen, nothing rejects with the errors of the choice. -/
theorem StepFError.not_gasPayer {e : ExecuteError} (h : StepFError e) :
    e ≠ .paymentKeyInGuard ∧ e ≠ .noCapsKey := by
  rcases h with ⟨thrown, rfl⟩ | ⟨error, rfl⟩ | ⟨message, rfl⟩ <;>
    exact ⟨fun h => (nomatch h), fun h => (nomatch h)⟩

end Caps

/-! ## When no key can pay -/

section GasPayer

variable {w w' : σ} {codexPubs : StringSet}

/-- After the codex has been listed, `execute` collects, chooses and goes on with step F. -/
theorem runExecute_of_selection
    (hlist : Async.runIn S.resolver.listCodexPubs w = (.ok codexPubs, w')) :
    S.runExecute args w =
      run (do
        let collected ← S.untilCollected args codexPubs
        let capsKey ← capsKeyPub args codexPubs collected
        let capsKeypair ← invoke (S.resolver.getKeyPairByPublicKey capsKey)
        S.buildSignSubmit args capsKeypair collected.guardKeypairs)
        { world := w', events := [] } := by
  rw [runExecute_of_list hlist]
  simp only [collectAndSubmit, untilCollected, bind_assoc]

/-- `execute` rejects for want of a gas key exactly when it gets as far as choosing one and none
of the keys that are left can pay. -/
theorem rejectsGasPayer_iff
    (hlist : Async.runIn S.resolver.listCodexPubs w = (.ok codexPubs, w')) :
    S.RejectsGasPayer args w ↔
      (∃ c t, run (S.untilCollected args codexPubs) { world := w', events := [] } = (.ok c, t)) ∧
        ¬ CanPay args.paymentKey codexPubs (S.selected args codexPubs) := by
  unfold RejectsGasPayer
  rw [runExecute_of_selection hlist, run_bind]
  have hcollected : Triple (fun l => l = []) (S.untilCollected args codexPubs)
      (fun c => Silent (S.Matches c ∧ c.pureSigningPubs = S.selected args codexPubs))
      (fun e => Silent (e ≠ .paymentKeyInGuard ∧ e ≠ .noCapsKey)) := untilCollected_spec codexPubs
  have hspec := hcollected { world := w', events := [] } rfl
  rcases hrun : run (S.untilCollected args codexPubs) { world := w', events := [] } with ⟨r, t⟩
  rw [hrun] at hspec
  cases r with
  | error e =>
      -- The checks and the resolver reject with errors of their own.
      constructor
      · rintro (h | h)
        · exact absurd (Except.error.inj h) hspec.1.1
        · exact absurd (Except.error.inj h) hspec.1.2
      · rintro ⟨⟨c, u, h⟩, -⟩
        cases h
  | ok c =>
      have hpubs : c.pureSigningPubs = S.selected args codexPubs := hspec.1.2
      dsimp only
      rw [run_bind]
      by_cases hpay : CanPay args.paymentKey codexPubs (S.selected args codexPubs)
      · rcases capsKeyPub_of_canPay (hpubs ▸ hpay) with ⟨key, -, -, hcaps⟩
        rw [hcaps t]
        -- A key has been chosen, and what follows fails for other reasons.
        have hlater : Throws (do
            let capsKeypair ← invoke (S.resolver.getKeyPairByPublicKey key)
            S.buildSignSubmit args capsKeypair c.guardKeypairs) StepFError :=
          Throws.bind ((throws_invoke _).mono fun e he => Or.inl he) fun capsKeypair =>
            throws_buildSignSubmit capsKeypair c.guardKeypairs
        refine iff_of_false ?_ fun h => h.2 hpay
        rintro (h | h)
        · exact (hlater t _ _ (Prod.ext h rfl)).not_gasPayer.1 rfl
        · exact (hlater t _ _ (Prod.ext h rfl)).not_gasPayer.2 rfl
      · refine iff_of_true ?_ ⟨⟨c, t, rfl⟩, hpay⟩
        rcases capsKeyPub_of_not_canPay (hpubs ▸ hpay) t with hcaps | hcaps
        · rw [hcaps]
          exact Or.inl rfl
        · rw [hcaps]
          exact Or.inr rfl

end GasPayer

/-! ## What is selected -/

/-- The selection belongs to the keys the guards take, and the keypairs to the selection. -/
structure Selects (S : Strategy σ) (args : ExecuteArgs σ) (codexPubs : StringSet)
    (sel : Selected) : Prop where
  pubs : sel.collected.pureSigningPubs = S.selected args codexPubs
  guards : S.Matches sel.collected
  caps : ∃ key, (selectCapsSigningKey args.paymentKey codexPubs
    (S.selected args codexPubs)).key = some key ∧
      (S.resolver.Faithful → sel.capsKeypair.publicKey = key)

section Selects

variable {w w' : σ} {codexPubs : StringSet}

theorem run_untilSelected (hlist : Async.runIn S.resolver.listCodexPubs w = (.ok codexPubs, w')) :
    run (S.untilSelected args) { world := w, events := [] } =
      run (do
        let collected ← S.untilCollected args codexPubs
        S.selectCaps args codexPubs collected) { world := w', events := [] } := by
  have hinvoke : run (invoke S.resolver.listCodexPubs)
      { world := w, events := ([] : List Event) } =
        (.ok codexPubs, { world := w', events := [] }) := by
    rw [invoke, run_call, hlist]
    rfl
  unfold untilSelected
  rw [run_bind, hinvoke]

theorem selectCaps_spec (c : Collected) :
    Triple (Silent (S.Matches c ∧ c.pureSigningPubs = S.selected args codexPubs))
      (S.selectCaps args codexPubs c) (fun sel => Silent (S.Selects args codexPubs sel))
      (fun _ l => l = []) := by
  unfold selectCaps
  refine Triple.bind (Triple.mono (capsKeyPub_spec codexPubs c _) (fun _ h => h)
    (fun _ _ h => h) fun e l h => h.2) fun key => ?_
  refine Triple.bind (triple_invoke
    (Q := fun kp => Silent ((S.Matches c ∧ c.pureSigningPubs = S.selected args codexPubs) ∧
      (selectCapsSigningKey args.paymentKey codexPubs c.pureSigningPubs).key = some key ∧
      (S.resolver.Faithful → kp.publicKey = key)))
    (fun w kp hkp l hl => ⟨⟨hl.1.1, hl.1.2, fun hfaithful => hfaithful key w kp hkp⟩, hl.2⟩)
    fun e l hl => hl.2) fun kp => ?_
  apply Triple.pure
  rintro l ⟨⟨⟨hmatches, hpubs⟩, hkey, hkp⟩, hl⟩
  exact ⟨⟨hpubs, hmatches, key, hpubs ▸ hkey, hkp⟩, hl⟩

/-- The steps up to the first build leave no trace, and a selection is what `Selects` says. -/
theorem untilSelected_spec :
    Triple (fun l => l = [])
      (do
        let collected ← S.untilCollected args codexPubs
        S.selectCaps args codexPubs collected)
      (fun sel => Silent (S.Selects args codexPubs sel)) (fun _ l => l = []) := by
  refine Triple.bind (Triple.mono (untilCollected_spec codexPubs) (fun _ h => h)
    (fun _ _ h => h) fun e l h => h.2) fun c => ?_
  exact selectCaps_spec c

/-- A closure that has been called was called for a selection. -/
theorem selected_of_building
    (hlist : Async.runIn S.resolver.listCodexPubs w = (.ok codexPubs, w')) {ctx : BuildContext}
    (hctx : .building ctx ∈ (S.runExecute args w).2.events) :
    ∃ sel t, run (S.untilSelected args) { world := w, events := [] } = (.ok sel, t) ∧
      S.Selects args codexPubs sel ∧
      IsContext sel.capsKeypair sel.collected.guardKeypairs ctx := by
  have hselected : Triple (fun l => l = [])
      (do
        let collected ← S.untilCollected args codexPubs
        S.selectCaps args codexPubs collected)
      (fun sel => Silent (S.Selects args codexPubs sel)) (fun _ l => l = []) :=
    untilSelected_spec
  have hspec := hselected { world := w', events := [] } rfl
  rw [← run_untilSelected hlist] at hspec
  unfold runExecute at hctx
  rw [execute_eq_selected, run_bind] at hctx
  rcases hrun : run (S.untilSelected args) { world := w, events := [] } with ⟨r, t⟩
  rw [hrun] at hspec hctx
  cases r with
  | error e =>
      have hnil : t.events = [] := hspec
      rw [hnil] at hctx
      cases hctx
  | ok sel =>
      have hstages : Triple (fun l => l = [])
          (S.buildSignSubmit args sel.capsKeypair sel.collected.guardKeypairs)
          (fun _ => Stages S args sel.capsKeypair sel.collected.guardKeypairs)
          (fun _ => Stages S args sel.capsKeypair sel.collected.guardKeypairs) :=
        Triple.mono (buildSignSubmit_spec sel.capsKeypair sel.collected.guardKeypairs)
          (fun _ h => h) (fun _ _ h => h) fun _ _ h => h.2
      exact ⟨sel, t, rfl, hspec.1, (hstages.events (t := t) hspec.2).isContext hctx⟩

end Selects

end Strategy

end Signing
end StoaCore
