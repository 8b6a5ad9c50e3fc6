import StoaCore.Signing.CodexStrategy

/-!
# StrategyRuns — what a call of execute can have done

One specification for each stage of the pipeline: `Collected.Serves` says what the collected
keypairs are good for, and `Stages` lists the traces that building, signing and submitting can
leave, each with the facts known at its end.
-/

namespace StoaCore
namespace Signing

open Library.Js
open Library.Traced
open Guard
open Gas

/-- The key that is asked for is the key of the answer. -/
def KeyResolver.Faithful {σ : Type} (R : KeyResolver σ) : Prop :=
  ∀ pub w kp, (Async.runIn (R.getKeyPairByPublicKey pub) w).1 = .ok kp → kp.publicKey = pub

/-- Every stage after the pre-flight rejects for another reason. -/
def ExecuteError.PastPreflight (e : ExecuteError) : Prop :=
  ∀ pub, e ≠ .foreignKeyPreflight pub

namespace Strategy

variable {σ : Type} {S : Strategy σ} {args : ExecuteArgs σ} {P : List Event → Prop}

/-! ## The consumer's code -/

theorem triple_invoke {α : Type} {x : Async σ α} {Q : α → List Event → Prop}
    {E : ExecuteError → List Event → Prop}
    (hok : ∀ w a, (Async.runIn x w).1 = .ok a → ∀ l, P l → Q a l)
    (herror : ∀ e l, P l → E (.thrown e) l) : Triple P (invoke x) Q E := by
  refine Triple.call ?_ ?_
  · intro w a ha
    cases hx : (Async.runIn x w).1 with
    | ok b =>
        rw [hx] at ha
        cases ha
        exact hok w _ hx
    | error e =>
        rw [hx] at ha
        cases ha
  · intro w e he
    cases hx : (Async.runIn x w).1 with
    | ok b =>
        rw [hx] at he
        cases he
    | error e =>
        rw [hx] at he
        cases he
        exact herror e

theorem triple_readWorld {α : Type} {f : σ → α} {Q : α → List Event → Prop}
    {E : ExecuteError → List Event → Prop} (h : ∀ a l, P l → Q a l) :
    Triple P (readWorld f) Q E := by
  refine Triple.call ?_ ?_
  · intro w a _
    exact h a
  · intro w e he
    cases he

/-- A raced call gives any value, or rejects with an error of its own or a timeout. -/
theorem triple_withDeadline {operation : String} {timeoutMs : Nat} {f : σ → Settled × σ}
    {Q : Value → List Event → Prop} {E : ExecuteError → List Event → Prop}
    (hok : ∀ v l, P l → Q v l) (herror : ∀ e, e.PastPreflight → ∀ l, P l → E e l) :
    Triple P (withDeadline operation timeoutMs f) Q E := by
  refine Triple.call ?_ ?_
  · intro w v _
    exact hok v
  · intro w e he
    apply herror e
    intro pub
    rcases hf : f w with ⟨settled, w'⟩
    rw [hf] at he
    cases settled with
    | value v => cases he
    | threw t =>
        cases he
        exact fun h => nomatch h
    | abortError =>
        cases he
        exact fun h => nomatch h

theorem pastPreflight_thrown (e : Thrown) : (ExecuteError.thrown e).PastPreflight :=
  fun _ h => nomatch h

/-! ## Collecting the keypairs of the guards -/

/-- The collected keypairs stand one by one for the collected keys, if the resolver is faithful. -/
def Matches (S : Strategy σ) (c : Collected) : Prop :=
  S.resolver.Faithful → c.guardKeypairs.map KadenaKeypair.publicKey = c.pureSigningPubs.elements

/-- The collected keypairs serve the guards: every key a guard takes is among them. -/
structure Serves (S : Strategy σ) (args : ExecuteArgs σ) (codexPubs : StringSet)
    (guards : List Keyset) (c : Collected) : Prop where
  pubs : S.Matches c
  taken : ∀ guard ∈ guards, ∀ pub ∈ neededKeys (S.analysisOf args codexPubs guard),
    pub ∈ c.pureSigningPubs.elements

/-- No stage before the first build leaves a trace. -/
def Silent (φ : Prop) (l : List Event) : Prop :=
  φ ∧ l = []

section Collect

variable (codexPubs : StringSet)

theorem keypairFor_spec (analysis : GuardAnalysis) (pub : JsString) (φ : Prop) :
    Triple (Silent φ) (S.keypairFor args analysis pub)
      (fun kp => Silent (φ ∧ (S.resolver.Faithful → kp.publicKey = pub)))
      (fun e => Silent e.PastPreflight) := by
  unfold keypairFor
  split
  · exact Triple.pure fun l hl => ⟨⟨hl.1, fun _ => rfl⟩, hl.2⟩
  · refine triple_invoke ?_ ?_
    · intro w kp hkp l hl
      exact ⟨⟨hl.1, fun hfaithful => hfaithful pub w kp hkp⟩, hl.2⟩
    · intro e l hl
      exact ⟨pastPreflight_thrown e, hl.2⟩

/-- One key: it is collected afterwards, and nothing is lost. -/
theorem collectKey_spec (analysis : GuardAnalysis) (c : Collected) (pub : JsString) :
    Triple (Silent (S.Matches c)) (S.collectKey args analysis c pub)
      (fun c' => Silent (S.Matches c' ∧ pub ∈ c'.pureSigningPubs.elements ∧
        ∀ k ∈ c.pureSigningPubs.elements, k ∈ c'.pureSigningPubs.elements))
      (fun e => Silent e.PastPreflight) := by
  unfold collectKey
  split
  case isTrue hseen =>
    apply Triple.pure
    intro l hl
    exact ⟨⟨hl.1, (StringSet.has_iff _ _).1 hseen, fun k hk => hk⟩, hl.2⟩
  case isFalse hnew =>
    apply Triple.bind (keypairFor_spec analysis pub (S.Matches c))
    intro kp
    apply Triple.pure
    rintro l ⟨⟨hmatches, hkp⟩, hl⟩
    have hnot : pub ∉ c.pureSigningPubs.elements := fun h => hnew ((StringSet.has_iff _ _).2 h)
    refine ⟨⟨?_, by simp, fun k hk => by simp [hk]⟩, hl⟩
    intro hfaithful
    -- A faithful resolver answers with the key asked for, so both lists grow by the same key.
    rw [List.map_append, hmatches hfaithful, List.map_singleton, hkp hfaithful]
    simp [StringSet.add, hnot]

/-- One guard: all the keys it takes are collected afterwards. -/
theorem collectGuard_spec (c : Collected) (guard : Keyset) :
    Triple (Silent (S.Matches c)) (S.collectGuard args codexPubs c guard)
      (fun c' => Silent (S.Matches c' ∧
        (∀ pub ∈ neededKeys (S.analysisOf args codexPubs guard),
          pub ∈ c'.pureSigningPubs.elements) ∧
        ∀ k ∈ c.pureSigningPubs.elements, k ∈ c'.pureSigningPubs.elements))
      (fun e => Silent e.PastPreflight) := by
  unfold collectGuard
  refine Triple.mono (Triple.foldlM
    (fun done c' => Silent (S.Matches c' ∧ (∀ pub ∈ done, pub ∈ c'.pureSigningPubs.elements) ∧
      ∀ k ∈ c.pureSigningPubs.elements, k ∈ c'.pureSigningPubs.elements)) _ ?_ c) ?_
      (fun _ _ h => h) (fun _ _ h => h)
  -- The keys of the loop so far are collected, and those collected before it are not lost.
  · intro done pub rest c₁ _ t ht
    refine Triple.mono (collectKey_spec _ c₁ pub) (fun _ h => ⟨h.1.1, h.2⟩) ?_
      (fun _ _ h => h) t ht
    rintro c₂ l ⟨⟨hmatches, hpub, hkeep⟩, hl⟩
    refine ⟨⟨hmatches, ?_, fun k hk => hkeep k (ht.1.2.2 k hk)⟩, hl⟩
    intro k hk
    rcases List.mem_append.1 hk with hk | hk
    · exact hkeep k (ht.1.2.1 k hk)
    · rw [List.mem_singleton.1 hk]
      exact hpub
  · intro l hl
    exact ⟨⟨hl.1, fun pub hpub => absurd hpub List.not_mem_nil, fun k hk => hk⟩, hl.2⟩

theorem collectGuardKeypairs_spec :
    Triple (fun l => l = []) (S.collectGuardKeypairs args codexPubs)
      (fun c => Silent (S.Serves args codexPubs args.guards c))
      (fun e => Silent e.PastPreflight) := by
  unfold collectGuardKeypairs
  refine Triple.mono (Triple.foldlM
    (fun done c => Silent (S.Serves args codexPubs done c)) _ ?_ _) ?_
      (fun _ _ h => h) (fun _ _ h => h)
  -- A later guard only adds keys, so what earlier guards take stays collected.
  · intro done guard rest c _ t ht
    refine Triple.mono (collectGuard_spec codexPubs c guard) (fun _ h => ⟨h.1.pubs, h.2⟩) ?_
      (fun _ _ h => h) t ht
    rintro c' l ⟨⟨hmatches, htaken, hkeep⟩, hl⟩
    refine ⟨⟨hmatches, ?_⟩, hl⟩
    intro g hg pub hpub
    rcases List.mem_append.1 hg with hg | hg
    · exact hkeep pub (ht.1.taken g hg pub hpub)
    · rw [List.mem_singleton.1 hg] at hpub
      exact htaken pub hpub
  · intro l hl
    exact ⟨⟨fun _ => rfl, fun g hg => absurd hg List.not_mem_nil⟩, hl⟩

/-- The gas key is what `selectCapsSigningKey` chose. -/
theorem capsKeyPub_spec (c : Collected) (φ : Prop) :
    Triple (Silent φ) (capsKeyPub args codexPubs c)
      (fun key => Silent (φ ∧
        (selectCapsSigningKey args.paymentKey codexPubs c.pureSigningPubs).key = some key))
      (fun e => Silent e.PastPreflight) := by
  unfold capsKeyPub
  dsimp only
  split
  · exact Triple.throw fun l hl => ⟨fun _ h => (nomatch h), hl.2⟩
  · split
    case h_1 => exact Triple.throw fun l hl => ⟨fun _ h => (nomatch h), hl.2⟩
    case h_2 key hkey =>
      exact Triple.pure fun l hl => ⟨⟨hl.1, (Option.filter_eq_some_iff.1 hkey).1⟩, hl.2⟩

end Collect

/-! ## Building, signing and submitting -/

/-- The closure is handed the keys of these keypairs. -/
def IsContext (capsKeypair : KadenaKeypair) (guardKeypairs : List KadenaKeypair)
    (ctx : BuildContext) : Prop :=
  ∃ gasMeta gasLimit, ctx = buildContext capsKeypair guardKeypairs gasMeta gasLimit

/-- How far step F has come, read off its trace.  A command that is submitted has been signed. -/
inductive Stages (S : Strategy σ) (args : ExecuteArgs σ) (capsKeypair : KadenaKeypair)
    (guardKeypairs : List KadenaKeypair) : List Event → Prop
  | idle : Stages S args capsKeypair guardKeypairs []
  | building {ctx : BuildContext} (hctx : IsContext capsKeypair guardKeypairs ctx) :
      Stages S args capsKeypair guardKeypairs [.building ctx]
  | simulating {ctx : BuildContext} (hctx : IsContext capsKeypair guardKeypairs ctx)
      (sim : Command) :
      Stages S args capsKeypair guardKeypairs [.building ctx, .built sim, .dirtyRead sim]
  | rebuilding {ctx ctx' : BuildContext} (hctx : IsContext capsKeypair guardKeypairs ctx)
      (sim : Command) (hctx' : IsContext capsKeypair guardKeypairs ctx') :
      Stages S args capsKeypair guardKeypairs
        [.building ctx, .built sim, .dirtyRead sim, .building ctx']
  | rebuilt {ctx ctx' : BuildContext} (hctx : IsContext capsKeypair guardKeypairs ctx)
      (sim : Command) (hctx' : IsContext capsKeypair guardKeypairs ctx') (tx : Command) :
      Stages S args capsKeypair guardKeypairs
        [.building ctx, .built sim, .dirtyRead sim, .building ctx', .built tx]
  | submitting {ctx ctx' : BuildContext} (hctx : IsContext capsKeypair guardKeypairs ctx)
      (sim : Command) (hctx' : IsContext capsKeypair guardKeypairs ctx') (tx signed : Command)
      (hsigned : ∃ w, (Async.runIn (S.sign tx capsKeypair (guardKeypairs ++ args.extraSigners))
        w).1 = .ok signed) :
      Stages S args capsKeypair guardKeypairs
        [.building ctx, .built sim, .dirtyRead sim, .building ctx', .built tx, .submit signed]

/-- Every context is made from these keypairs. -/
theorem Stages.isContext {capsKeypair : KadenaKeypair} {guardKeypairs : List KadenaKeypair}
    {l : List Event} (h : Stages S args capsKeypair guardKeypairs l) {c : BuildContext}
    (hc : .building c ∈ l) : IsContext capsKeypair guardKeypairs c := by
  -- A trace holds at most two contexts, that of the simulated and that of the final command.
  cases h <;> simp only [List.mem_cons, Event.building.injEq, reduceCtorEq, List.not_mem_nil,
    false_or, or_false] at hc
  case building hctx => exact hc ▸ hctx
  case simulating hctx sim => exact hc ▸ hctx
  case rebuilding hctx sim hctx' =>
    rcases hc with rfl | rfl
    · exact hctx
    · exact hctx'
  case rebuilt hctx sim hctx' tx =>
    rcases hc with rfl | rfl
    · exact hctx
    · exact hctx'
  case submitting hctx sim hctx' tx signed hsigned =>
    rcases hc with rfl | rfl
    · exact hctx
    · exact hctx'

theorem Stages.guardPubs {capsKeypair : KadenaKeypair} {guardKeypairs : List KadenaKeypair}
    {l : List Event} (h : Stages S args capsKeypair guardKeypairs l) {c : BuildContext}
    (hc : .building c ∈ l) : c.guardPubs = guardKeypairs.map KadenaKeypair.publicKey := by
  rcases h.isContext hc with ⟨gasMeta, gasLimit, rfl⟩
  rfl

/-- What is submitted was built last, and signed. -/
theorem Stages.submitted {capsKeypair : KadenaKeypair} {guardKeypairs : List KadenaKeypair}
    {l : List Event} (h : Stages S args capsKeypair guardKeypairs l) {signed : Command}
    (hsubmit : .submit signed ∈ l) :
    ∃ ctx tx, [.building ctx, .built tx, .submit signed] <:+ l := by
  -- Only the last stage submits.
  cases h <;> simp only [List.mem_cons, Event.submit.injEq, reduceCtorEq, List.not_mem_nil,
    or_false, or_self, false_or] at hsubmit
  case submitting ctx ctx' hctx sim hctx' tx signed hsigned =>
    subst hsubmit
    exact ⟨ctx', tx, List.suffix_append [_, _, _] _⟩

theorem Stages.signed_of_suffix {capsKeypair : KadenaKeypair}
    {guardKeypairs : List KadenaKeypair} {l : List Event}
    (h : Stages S args capsKeypair guardKeypairs l) {ctx : BuildContext} {tx signed : Command}
    (hsuffix : [.building ctx, .built tx, .submit signed] <:+ l) :
    IsContext capsKeypair guardKeypairs ctx ∧
      ∃ w, (Async.runIn (S.sign tx capsKeypair (guardKeypairs ++ args.extraSigners)) w).1 =
        .ok signed := by
  cases h <;> simp [List.suffix_cons_iff] at hsuffix
  case submitting hctx sim hctx' tx signed hsigned =>
    rcases hsuffix with ⟨rfl, rfl, rfl⟩
    exact ⟨hctx', hsigned⟩

/-- A failed stage: the reason and the stages so far. -/
def Failed (S : Strategy σ) (args : ExecuteArgs σ) (capsKeypair : KadenaKeypair)
    (guardKeypairs : List KadenaKeypair) (e : ExecuteError) (l : List Event) : Prop :=
  e.PastPreflight ∧ Stages S args capsKeypair guardKeypairs l

section Submit

variable (capsKeypair : KadenaKeypair) (guardKeypairs : List KadenaKeypair)

/-- One build adds two events, or one if the closure throws. -/
theorem runBuild_spec {l₀ : List Event} {ctx : BuildContext}
    (hthrow : Stages S args capsKeypair guardKeypairs (l₀ ++ [.building ctx])) :
    Triple (fun l => l = l₀) (runBuild args ctx)
      (fun tx l => l = l₀ ++ [.building ctx, .built tx])
      (Failed S args capsKeypair guardKeypairs) := by
  unfold runBuild
  refine Triple.bind (Triple.emit (Q := fun _ l => l = l₀ ++ [.building ctx])
    fun l hl => by rw [hl]) fun _ => ?_
  refine Triple.bind (triple_invoke (Q := fun _ l => l = l₀ ++ [.building ctx])
    (fun _ _ _ l hl => hl) fun e l hl => ⟨pastPreflight_thrown e, hl ▸ hthrow⟩) fun tx => ?_
  refine Triple.bind (Triple.emit (Q := fun _ l => l = l₀ ++ [.building ctx, .built tx])
    fun l hl => by rw [hl, List.append_assoc]; rfl) fun _ => ?_
  exact Triple.pure fun l hl => hl

theorem simulate_spec {l₀ : List Event} {sim : Command}
    (hthrow : Stages S args capsKeypair guardKeypairs (l₀ ++ [.dirtyRead sim])) :
    Triple (fun l => l = l₀) (S.simulate sim) (fun _ l => l = l₀ ++ [.dirtyRead sim])
      (Failed S args capsKeypair guardKeypairs) := by
  unfold simulate
  refine Triple.bind (Triple.emit (Q := fun _ l => l = l₀ ++ [.dirtyRead sim])
    fun l hl => by rw [hl]) fun _ => ?_
  refine Triple.bind (triple_withDeadline (Q := fun _ l => l = l₀ ++ [.dirtyRead sim])
    (fun _ l hl => hl) fun e he l hl => ⟨he, hl ▸ hthrow⟩) fun v => ?_
  split
  · exact Triple.throw fun l hl => ⟨fun _ h => (nomatch h), hl ▸ hthrow⟩
  · exact Triple.pure fun l hl => hl

theorem submit_spec {l₀ : List Event} {signed : Command}
    (hthrow : Stages S args capsKeypair guardKeypairs (l₀ ++ [.submit signed])) :
    Triple (fun l => l = l₀) (S.submit signed) (fun _ l => l = l₀ ++ [.submit signed])
      (Failed S args capsKeypair guardKeypairs) := by
  unfold submit
  refine Triple.bind (Triple.emit (Q := fun _ l => l = l₀ ++ [.submit signed])
    fun l hl => by rw [hl]) fun _ => ?_
  exact triple_withDeadline (fun _ l hl => hl) fun e he l hl => ⟨he, hl ▸ hthrow⟩

/-- Step F leaves one of the traces of `Stages`, whether it succeeds or not. -/
theorem buildSignSubmit_spec :
    Triple (fun l => l = []) (S.buildSignSubmit args capsKeypair guardKeypairs)
      (fun _ => Stages S args capsKeypair guardKeypairs)
      (Failed S args capsKeypair guardKeypairs) := by
  unfold buildSignSubmit
  refine Triple.bind (triple_readWorld (Q := fun _ l => l = []) fun _ l hl => hl) fun gasMeta => ?_
  -- Both contexts come from the same keypairs and differ in the gas limit alone.
  have hctx : ∀ gasLimit, IsContext capsKeypair guardKeypairs
      (buildContext capsKeypair guardKeypairs gasMeta gasLimit) :=
    fun gasLimit => ⟨gasMeta, gasLimit, rfl⟩
  refine Triple.bind (runBuild_spec capsKeypair guardKeypairs (.building (hctx _))) fun sim => ?_
  refine Triple.bind (simulate_spec capsKeypair guardKeypairs (.simulating (hctx _) sim))
    fun simResult => ?_
  refine Triple.bind (triple_readWorld (Q := fun _ l => l = _) fun _ l hl => hl) fun gasLimit => ?_
  refine Triple.bind (runBuild_spec capsKeypair guardKeypairs
    (.rebuilding (hctx _) sim (hctx gasLimit))) fun tx => ?_
  refine Triple.bind (triple_invoke
    (Q := fun signed l => (∃ w, (Async.runIn (S.sign tx capsKeypair
      (guardKeypairs ++ args.extraSigners)) w).1 = .ok signed) ∧ l = _)
    (fun w signed hsigned l hl => ⟨⟨w, hsigned⟩, hl⟩) fun e l hl =>
      ⟨pastPreflight_thrown e, hl ▸ .rebuilt (hctx _) sim (hctx gasLimit) tx⟩) fun signed => ?_
  refine Triple.of_pre fun hsigned => ?_
  have hstages : Stages S args capsKeypair guardKeypairs _ :=
    .submitting (hctx 500000) sim (hctx gasLimit) tx signed hsigned
  refine Triple.bind (submit_spec capsKeypair guardKeypairs hstages) fun raw => ?_
  exact Triple.pure fun l hl => hl ▸ hstages

end Submit

/-! ## The whole pipeline -/

/-- The keypair for gas: the resolver's answer for the chosen key. -/
def CapsFor (S : Strategy σ) (args : ExecuteArgs σ) (codexPubs : StringSet) (c : Collected)
    (capsKeypair : KadenaKeypair) : Prop :=
  ∃ key w, (selectCapsSigningKey args.paymentKey codexPubs c.pureSigningPubs).key = some key ∧
    (Async.runIn (S.resolver.getKeyPairByPublicKey key) w).1 = .ok capsKeypair

/-- Steps C, D and E succeeded, and step F left this trace. -/
def Reached (S : Strategy σ) (args : ExecuteArgs σ) (codexPubs : StringSet) (l : List Event) :
    Prop :=
  ∃ c capsKeypair, S.Serves args codexPubs args.guards c ∧ S.CapsFor args codexPubs c capsKeypair ∧
    Stages S args capsKeypair c.guardKeypairs l

theorem collectAndSubmit_spec (codexPubs : StringSet) :
    Triple (fun l => l = []) (S.collectAndSubmit args codexPubs)
      (fun _ => S.Reached args codexPubs)
      (fun e l => e.PastPreflight ∧ (l = [] ∨ S.Reached args codexPubs l)) := by
  unfold collectAndSubmit
  apply Triple.bind (Triple.mono (collectGuardKeypairs_spec codexPubs) (fun _ h => h)
    (fun _ _ h => h) fun e l h => ⟨h.1, Or.inl h.2⟩)
  intro c
  apply Triple.bind (Triple.mono (capsKeyPub_spec codexPubs c _) (fun _ h => h)
    (fun _ _ h => h) fun e l h => ⟨h.1, Or.inl h.2⟩)
  intro key
  apply Triple.bind (triple_invoke
    (Q := fun capsKeypair => Silent (S.Serves args codexPubs args.guards c ∧
      S.CapsFor args codexPubs c capsKeypair)) ?_ ?_)
  · intro capsKeypair
    apply Triple.of_pre
    rintro ⟨hserves, hcaps⟩
    exact Triple.mono (buildSignSubmit_spec capsKeypair c.guardKeypairs) (fun _ h => h)
      (fun _ l h => ⟨c, capsKeypair, hserves, hcaps, h⟩)
      fun e l h => ⟨h.1, Or.inr ⟨c, capsKeypair, hserves, hcaps, h.2⟩⟩
  · rintro w capsKeypair hcaps l ⟨⟨hserves, hkey⟩, hl⟩
    exact ⟨⟨hserves, key, w, hkey, hcaps⟩, hl⟩
  · intro e l h
    exact ⟨pastPreflight_thrown e, Or.inl h.2⟩

section Execute

variable {w w' : σ} {codexPubs : StringSet}

/-- After the codex has been listed, `execute` goes on with the checks. -/
theorem runExecute_of_list (hlist : Async.runIn S.resolver.listCodexPubs w = (.ok codexPubs, w')) :
    S.runExecute args w =
      run (do
        S.detectSmartAccountGuards args codexPubs
        S.preflight args codexPubs
        S.collectAndSubmit args codexPubs) { world := w', events := [] } := by
  unfold runExecute execute
  rw [run_bind]
  have hinvoke : run (invoke S.resolver.listCodexPubs)
      { world := w, events := ([] : List Event) } =
        (.ok codexPubs, { world := w', events := [] }) := by
    rw [invoke, run_call, hlist]
    rfl
  rw [hinvoke]

/-- With no Σ-prefix error, the pre-flight decides alone. -/
theorem runExecute_of_checks
    (hlist : Async.runIn S.resolver.listCodexPubs w = (.ok codexPubs, w'))
    (hsigma : args.guards.findSome? (smartAccountSurface S.environment.arithmetic codexPubs) = none)
    (hforeign : S.resolver.requestForeignKey = none) :
    S.runExecute args w =
      match firstForeignKey args.guards codexPubs args.resolvedForeignKeys with
      | some pub => (.error (.foreignKeyPreflight pub), { world := w', events := [] })
      | none => run (S.collectAndSubmit args codexPubs) { world := w', events := [] } := by
  rw [runExecute_of_list hlist, run_bind]
  simp only [detectSmartAccountGuards, hsigma, run_pure]
  rw [run_bind]
  cases hfirst : firstForeignKey args.guards codexPubs args.resolvedForeignKeys <;>
    simp only [preflight, hforeign, hfirst, run_pure, run_throw]

/-- Whatever happens, the trace is empty or one of step F. -/
theorem runExecute_events (w : σ) :
    (S.runExecute args w).2.events = [] ∨
      ∃ codexPubs, S.Reached args codexPubs (S.runExecute args w).2.events := by
  -- Results and errors satisfy one condition, so it holds of the trace either way.
  have hspec : Triple (fun l => l = []) (S.execute args)
      (fun _ l => l = [] ∨ ∃ codexPubs, S.Reached args codexPubs l)
      (fun _ l => l = [] ∨ ∃ codexPubs, S.Reached args codexPubs l) := by
    unfold execute
    apply Triple.bind (triple_invoke (Q := fun _ l => l = []) (fun _ _ _ l hl => hl)
      fun _ l hl => Or.inl hl)
    intro codexPubs
    apply Triple.bind (Q := fun _ l => l = [])
    · unfold detectSmartAccountGuards
      split
      · exact Triple.throw fun l hl => Or.inl hl
      · exact Triple.pure fun l hl => hl
    intro _
    apply Triple.bind (Q := fun _ l => l = [])
    · unfold preflight
      split
      · exact Triple.throw fun l hl => Or.inl hl
      · exact Triple.pure fun l hl => hl
    intro _
    refine Triple.mono (collectAndSubmit_spec codexPubs) (fun _ h => h) ?_ ?_
    · exact fun _ l h => Or.inr ⟨codexPubs, h⟩
    · exact fun e l h => h.2.imp_right fun h => ⟨codexPubs, h⟩
  exact hspec.events (t := { world := w, events := [] }) rfl

end Execute

end Strategy
end Signing
end StoaCore
