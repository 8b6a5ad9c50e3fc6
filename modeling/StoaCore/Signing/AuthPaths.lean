import StoaCore.Guard.SmartAccountAuth
import StoaCore.Signing.KeySelection

/-!
# AuthPaths — what `execute` makes of a branch that the analyzer calls satisfied

The analyzer asks whether the codex and the manual keys reach the threshold of a guard.  `execute`
decides twice more on its own: a guard that shows the Σ pattern has to have a codex key, and
without `requestForeignKey` every key of the guard has to be at hand.  A satisfied branch that
passes both is signed for with as many keys as its threshold.
-/

namespace StoaCore
namespace Signing

open Library.Js
open Library.Traced
open Guard

/-! ## The two decisions of the strategy -/

section Sigma

variable (fl : Rounding) (codexPubs : StringSet) (guard : Keyset)

/-- The Σ pattern stands in the keyset reference or in a key. -/
def ShowsSigma : Prop :=
  guard.keysetRef.any includesSigma = true ∨ guard.keys.any includesSigma = true

/-- No key of the guard is in the codex, and the guard is empty or needs more than that. -/
def NoCodexPath : Prop :=
  (∀ key ∈ guard.keys, codexPubs.has key = false) ∧
    (guard.keys = [] ∨ (analyzeGuard fl (some guard) codexPubs []).satisfied = false)

theorem codexKeys_isEmpty_iff :
    (analyzeGuard fl (some guard) codexPubs []).codexKeys.isEmpty = true ↔
      ∀ key ∈ guard.keys, codexPubs.has key = false := by
  rw [analyzeGuard_codexKeys]
  simp [codexKeysOf, StringSet.has]

theorem smartAccountSurface_isSome_iff :
    (smartAccountSurface fl codexPubs guard).isSome = true ↔
      ShowsSigma guard ∧ NoCodexPath fl codexPubs guard := by
  unfold smartAccountSurface ShowsSigma NoCodexPath
  rw [← codexKeys_isEmpty_iff fl codexPubs guard]
  dsimp only
  split
  case isTrue h =>
    refine iff_of_true rfl ?_
    simpa [Bool.and_eq_true, Bool.or_eq_true] using h
  case isFalse h =>
    refine iff_of_false (by simp) ?_
    simpa [Bool.and_eq_true, Bool.or_eq_true] using h

end Sigma

namespace Strategy

variable {σ : Type} {S : Strategy σ} {args : ExecuteArgs σ} {w w' : σ} {codexPubs : StringSet}

/-- `execute` rejects because a smart account's guard cannot be signed for. -/
def RejectsSmartAccount (S : Strategy σ) (args : ExecuteArgs σ) (w : σ) : Prop :=
  ∃ surface, (S.runExecute args w).1 = .error (.smartAccountAuth surface)

/-! ## Errors after the checks -/

/-- The errors that are left when the two checks have passed. -/
def PastChecks (e : ExecuteError) : Prop :=
  StepFError e ∨ e = .paymentKeyInGuard ∨ e = .noCapsKey

theorem throws_collectGuardKeypairs :
    Throws (S.collectGuardKeypairs args codexPubs) ExternalError := by
  unfold collectGuardKeypairs
  apply Throws.foldlM
  intro c guard
  apply Throws.foldlM
  intro c pub
  unfold collectKey
  split
  · exact Throws.pure c
  · refine Throws.bind ?_ fun kp => Throws.pure _
    unfold keypairFor
    split
    · exact Throws.pure _
    · exact throws_invoke _

theorem throws_capsKeyPub (c : Collected) :
    Throws (capsKeyPub args codexPubs c : Prog ExecuteError σ Event JsString) PastChecks := by
  unfold capsKeyPub
  dsimp only
  split
  · exact Throws.throw (Or.inr (Or.inl rfl))
  · split
    · exact Throws.throw (Or.inr (Or.inr rfl))
    · exact Throws.pure _

theorem throws_collectAndSubmit : Throws (S.collectAndSubmit args codexPubs) PastChecks := by
  unfold collectAndSubmit
  have hexternal : ∀ e, ExternalError e → PastChecks e := fun e he => Or.inl (Or.inl he)
  refine Throws.bind (throws_collectGuardKeypairs.mono hexternal) fun c => ?_
  refine Throws.bind (throws_capsKeyPub c) fun key => ?_
  refine Throws.bind ((throws_invoke _).mono hexternal) fun kp => ?_
  exact (throws_buildSignSubmit kp c.guardKeypairs).mono fun e he => Or.inl he

theorem PastChecks.not_smartAccountAuth {e : ExecuteError} (h : PastChecks e)
    (surface : String) : e ≠ .smartAccountAuth surface := by
  rcases h with (⟨thrown, rfl⟩ | ⟨error, rfl⟩ | ⟨message, rfl⟩) | rfl | rfl <;>
    exact fun h => nomatch h

theorem PastChecks.not_foreignKeyPreflight {e : ExecuteError} (h : PastChecks e)
    (pub : JsString) : e ≠ .foreignKeyPreflight pub := by
  rcases h with (⟨thrown, rfl⟩ | ⟨error, rfl⟩ | ⟨message, rfl⟩) | rfl | rfl <;>
    exact fun h => nomatch h

/-! ## The checks decide -/

/-- The pre-flight has nothing to object to. -/
def PassesPreflight (S : Strategy σ) (args : ExecuteArgs σ) (codexPubs : StringSet) : Prop :=
  S.resolver.requestForeignKey = none →
    firstForeignKey args.guards codexPubs args.resolvedForeignKeys = none

theorem run_preflight_of_passes (h : S.PassesPreflight args codexPubs) (t : Trace σ Event) :
    run (S.preflight args codexPubs) t = (.ok (), t) := by
  unfold preflight
  cases hrequest : S.resolver.requestForeignKey with
  | some request => rfl
  | none =>
      rw [h hrequest]
      rfl

theorem run_preflight_of_fails (h : ¬ S.PassesPreflight args codexPubs) (t : Trace σ Event) :
    ∃ pub, run (S.preflight args codexPubs) t = (.error (.foreignKeyPreflight pub), t) := by
  rcases Classical.not_imp.1 h with ⟨hrequest, hfirst⟩
  rcases Option.ne_none_iff_exists'.1 hfirst with ⟨pub, hpub⟩
  refine ⟨pub, ?_⟩
  unfold preflight
  rw [hrequest, hpub]
  rfl

theorem run_detect_of_none (h : args.guards.findSome?
    (smartAccountSurface S.environment.arithmetic codexPubs) = none) (t : Trace σ Event) :
    run (S.detectSmartAccountGuards args codexPubs) t = (.ok (), t) := by
  unfold detectSmartAccountGuards
  rw [h]
  rfl

theorem run_detect_of_some {surface : String} (h : args.guards.findSome?
    (smartAccountSurface S.environment.arithmetic codexPubs) = some surface)
    (t : Trace σ Event) :
    run (S.detectSmartAccountGuards args codexPubs) t =
      (.error (.smartAccountAuth surface), t) := by
  unfold detectSmartAccountGuards
  rw [h]
  rfl

section Checks

variable (hlist : Async.runIn S.resolver.listCodexPubs w = (.ok codexPubs, w'))
include hlist

theorem rejectsSmartAccount_iff :
    S.RejectsSmartAccount args w ↔ (args.guards.findSome?
      (smartAccountSurface S.environment.arithmetic codexPubs)).isSome = true := by
  unfold RejectsSmartAccount
  rw [runExecute_of_list hlist, run_bind]
  cases hsigma : args.guards.findSome?
      (smartAccountSurface S.environment.arithmetic codexPubs) with
  | some surface =>
      rw [run_detect_of_some hsigma]
      exact iff_of_true ⟨surface, rfl⟩ rfl
  | none =>
      refine iff_of_false ?_ (by simp)
      rw [run_detect_of_none hsigma]
      dsimp only
      rw [run_bind]
      rintro ⟨surface, h⟩
      by_cases hpass : S.PassesPreflight args codexPubs
      · rw [run_preflight_of_passes hpass] at h
        exact (throws_collectAndSubmit _ _ _ (Prod.ext h rfl)).not_smartAccountAuth surface rfl
      · rcases run_preflight_of_fails hpass { world := w', events := [] } with ⟨pub, hpub⟩
        rw [hpub] at h
        cases h

theorem rejectsForeignKey_iff_checks :
    RejectsForeignKey S args w ↔
      ¬ S.RejectsSmartAccount args w ∧ ¬ S.PassesPreflight args codexPubs := by
  rw [rejectsSmartAccount_iff hlist]
  unfold RejectsForeignKey
  rw [runExecute_of_list hlist, run_bind]
  cases hsigma : args.guards.findSome?
      (smartAccountSurface S.environment.arithmetic codexPubs) with
  | some surface =>
      rw [run_detect_of_some hsigma]
      refine iff_of_false ?_ fun h => h.1 rfl
      rintro ⟨pub, h⟩
      cases h
  | none =>
      rw [run_detect_of_none hsigma]
      dsimp only
      rw [run_bind]
      by_cases hpass : S.PassesPreflight args codexPubs
      · rw [run_preflight_of_passes hpass]
        refine iff_of_false ?_ fun h => h.2 hpass
        rintro ⟨pub, h⟩
        exact (throws_collectAndSubmit _ _ _ (Prod.ext h rfl)).not_foreignKeyPreflight pub rfl
      · rcases run_preflight_of_fails hpass { world := w', events := [] } with ⟨pub, hpub⟩
        rw [hpub]
        exact iff_of_true ⟨pub, rfl⟩ ⟨by simp, hpass⟩

/-- When both checks pass, the keys of the guards are collected, or the resolver throws and with
it `execute`. -/
theorem collected_of_checks (hsmart : ¬ S.RejectsSmartAccount args w)
    (hforeign : ¬ RejectsForeignKey S args w) :
    (∃ thrown, (S.runExecute args w).1 = .error (.thrown thrown)) ∨
      ∃ c t, run (S.untilCollected args codexPubs) { world := w', events := [] } = (.ok c, t) ∧
        c.pureSigningPubs = S.selected args codexPubs ∧ OneEach c := by
  have hpass : S.PassesPreflight args codexPubs := by
    by_contra hfails
    exact hforeign ((rejectsForeignKey_iff_checks hlist).2 ⟨hsmart, hfails⟩)
  have hsigma : args.guards.findSome?
      (smartAccountSurface S.environment.arithmetic codexPubs) = none := by
    rw [rejectsSmartAccount_iff hlist, Bool.not_eq_true, Option.isSome_eq_false_iff] at hsmart
    exact Option.isNone_iff_eq_none.1 hsmart
  have huntil : run (S.untilCollected args codexPubs) { world := w', events := [] } =
      run (S.collectGuardKeypairs args codexPubs) { world := w', events := [] } := by
    unfold untilCollected
    rw [run_bind, run_detect_of_none hsigma]
    dsimp only
    rw [run_bind, run_preflight_of_passes hpass]
  have hcollect : Triple (fun l => l = []) (S.collectGuardKeypairs args codexPubs)
      (fun c => Silent (c.pureSigningPubs = S.selected args codexPubs ∧ OneEach c))
      (fun e => Silent (ExternalError e)) := collectGuardKeypairs_pubs codexPubs
  have hspec := hcollect { world := w', events := [] } rfl
  rcases hrun : run (S.collectGuardKeypairs args codexPubs) { world := w', events := [] }
    with ⟨r, t⟩
  rw [hrun] at hspec huntil
  cases r with
  | ok c => exact Or.inr ⟨c, t, huntil, hspec.1⟩
  | error e =>
      rcases hspec.1 with ⟨thrown, rfl⟩
      refine Or.inl ⟨thrown, ?_⟩
      rw [runExecute_of_selection hlist, run_bind, huntil]

end Checks

end Strategy

/-! ## A satisfied guard gets its threshold -/

section Satisfied

variable (fl : Rounding) (codexPubs : StringSet) (resolvedForeignKeys : Record JsString)
  {guard : Keyset}

/-- The available keys of a guard with distinct keys are distinct. -/
theorem available_nodup (hnodup : guard.keys.Nodup) :
    (codexKeysOf guard codexPubs ++
      resolvedForeignKeysOf guard codexPubs resolvedForeignKeys).Nodup := by
  rw [List.nodup_append]
  refine ⟨hnodup.filter _, (hnodup.filter _).filter _, ?_⟩
  rintro a ha b hb rfl
  -- A key is in the codex or it is foreign.
  have hcodex := (List.mem_filter.1 ha).2
  have hforeign := (List.mem_filter.1 (List.mem_filter.1 hb).1).2
  rw [hcodex] at hforeign
  cases hforeign

theorem takenKeys_nodup (hnodup : guard.keys.Nodup) :
    (takenKeys fl codexPubs resolvedForeignKeys guard).Nodup := by
  rw [takenKeys_eq]
  exact (available_nodup codexPubs resolvedForeignKeys hnodup).sublist (List.take_sublist _ _)

/-- A satisfied guard has a threshold, and it takes as many keys. -/
theorem length_takenKeys_of_satisfied
    (h : (analyzeGuard fl (some guard) codexPubs resolvedForeignKeys).satisfied = true) :
    ∃ t, (analyzeGuard fl (some guard) codexPubs resolvedForeignKeys).threshold = some t ∧
      (takenKeys fl codexPubs resolvedForeignKeys guard).length = t := by
  rw [analyzeGuard_satisfied, analyzeGuard_signable_eq] at h
  rcases (Option.any_eq_true _ _).1 h with ⟨t, ht, hle⟩
  refine ⟨t, (analyzeGuard_threshold ..).trans ht, ?_⟩
  rw [takenKeys_eq, ht, Option.getD_some, List.length_take, List.length_append]
  exact min_eq_left (of_decide_eq_true hle)

end Satisfied

/-! ## The analyzer and the strategy -/

section Exact

variable {σ : Type} {S : Strategy σ} {args : ExecuteArgs σ} {w w' : σ} {codexPubs : StringSet}
  {ks : Keyset}

/-- With the keyset of a satisfied branch, the collection ends with as many keypairs as the
threshold asks for. -/
theorem threshold_collected (hguards : args.guards = [ks]) (hnodup : ks.keys.Nodup) {t : Nat}
    (ht : (takenKeys S.environment.arithmetic codexPubs args.resolvedForeignKeys ks).length = t)
    {c : Collected} (hpubs : c.pureSigningPubs = S.selected args codexPubs)
    (heach : Strategy.OneEach c) : t ≤ c.guardKeypairs.length := by
  have hsub : takenKeys S.environment.arithmetic codexPubs args.resolvedForeignKeys ks ⊆
      c.pureSigningPubs.elements := by
    intro pub hpub
    rw [hpubs]
    exact (mem_selectedPubs _ _ _).2 ⟨ks, by simp [hguards], hpub⟩
  calc t
      = (takenKeys S.environment.arithmetic codexPubs args.resolvedForeignKeys ks).length :=
        ht.symm
    _ ≤ c.pureSigningPubs.elements.length :=
        ((takenKeys_nodup _ _ _ hnodup).subperm hsub).length_le
    _ = c.guardKeypairs.length := heach.symm

/-- `execute` with the keyset of the first satisfied branch rejects for a smart account exactly
when the keyset shows the Σ pattern and has no codex path, and otherwise in the pre-flight exactly
when the resolver cannot ask for a key that is not at hand.  Else it collects as many keypairs as
the threshold of the branch, if its keys are distinct and the resolver does not throw. -/
theorem auth_paths_agree {guards : SmartAccountGuards} {i : Nat} {branch : AuthBranch}
    {raw : RawKeyset}
    (hfirst : (analyzeSmartAccountAuthPaths S.environment.arithmetic guards codexPubs
      args.resolvedForeignKeys).firstSatisfied = i)
    (hbranch : (analyzeSmartAccountAuthPaths S.environment.arithmetic guards codexPubs
      args.resolvedForeignKeys).branches[i]? = some branch)
    (hextract : extractKeysetFromGuard branch.rawGuard = some raw)
    (hks : raw.toKeyset = some ks) (hguards : args.guards = [ks])
    (hlist : Async.runIn S.resolver.listCodexPubs w = (.ok codexPubs, w')) :
    (S.RejectsSmartAccount args w ↔
      ShowsSigma ks ∧ NoCodexPath S.environment.arithmetic codexPubs ks) ∧
    (RejectsForeignKey S args w ↔
      ¬ (ShowsSigma ks ∧ NoCodexPath S.environment.arithmetic codexPubs ks) ∧
        S.resolver.requestForeignKey = none ∧
        ListsForeignKey [ks] codexPubs args.resolvedForeignKeys) ∧
    (¬ S.RejectsSmartAccount args w → ¬ RejectsForeignKey S args w →
      (∃ thrown, (S.runExecute args w).1 = .error (.thrown thrown)) ∨
      ∃ analysis t c u, branch.analysis = some analysis ∧ analysis.threshold = some t ∧
        run (S.untilCollected args codexPubs) { world := w', events := [] } = (.ok c, u) ∧
        (ks.keys.Nodup → t ≤ c.guardKeypairs.length)) := by
  have hsmart : S.RejectsSmartAccount args w ↔
      ShowsSigma ks ∧ NoCodexPath S.environment.arithmetic codexPubs ks := by
    rw [Strategy.rejectsSmartAccount_iff hlist, hguards, ← smartAccountSurface_isSome_iff,
      List.findSome?_cons, List.findSome?_nil]
    cases smartAccountSurface S.environment.arithmetic codexPubs ks <;> rfl
  refine ⟨hsmart, ?_, ?_⟩
  · rw [Strategy.rejectsForeignKey_iff_checks hlist, hsmart, ← firstForeignKey_isSome_iff]
    apply and_congr_right
    intro _
    rw [Strategy.PassesPreflight, hguards, Classical.not_imp, Option.isSome_iff_ne_none]
  · intro hnotSmart hnotForeign
    rcases Strategy.collected_of_checks hlist hnotSmart hnotForeign with
      hthrown | ⟨c, u, hrun, hpubs, heach⟩
    · exact Or.inl hthrown
    · rcases firstSatisfied_inv _ hfirst hbranch with ⟨raw', hextract', hanalysis, hsatisfied⟩
      rw [hextract] at hextract'
      cases hextract'
      rw [analyzeRawKeyset_eq _ hks] at hanalysis hsatisfied
      rcases length_takenKeys_of_satisfied _ _ _ hsatisfied with ⟨t, ht, hlength⟩
      exact Or.inr ⟨_, t, c, u, hanalysis, ht, hrun,
        fun hnodup => threshold_collected hguards hnodup hlength hpubs heach⟩

end Exact

/-! ## Satisfied branches that are rejected -/

def rawKeyset (pred : JsString) (keys : List JsString) : Value :=
  .obj [(js "pred", .str pred), (js "keys", .arr (keys.map .str))]

/-- The smart account's own guard, with no other branch known. -/
def ownGuard (guard : Value) : SmartAccountGuards where
  accountGuard := guard
  sovereignGuard := .null
  governor := .null

theorem auth_paths_agree_bothOfTwo :
    let guard := rawKeyset (js "keys-2") [codexKey, foreignKey]
    let branch := buildBranch serverStrategy.environment.arithmetic smallCodex
      bothOfTwo.resolvedForeignKeys .guard guard
    let ks : Keyset := { pred := js "keys-2", keys := [codexKey, foreignKey] }
    (serverStrategy.RejectsSmartAccount bothOfTwo () ↔
      ShowsSigma ks ∧ NoCodexPath serverStrategy.environment.arithmetic smallCodex ks) ∧
    (RejectsForeignKey serverStrategy bothOfTwo () ↔
      ¬ (ShowsSigma ks ∧ NoCodexPath serverStrategy.environment.arithmetic smallCodex ks) ∧
        serverStrategy.resolver.requestForeignKey = none ∧
        ListsForeignKey [ks] smallCodex bothOfTwo.resolvedForeignKeys) ∧
    (¬ serverStrategy.RejectsSmartAccount bothOfTwo () →
      ¬ RejectsForeignKey serverStrategy bothOfTwo () →
      (∃ thrown, (serverStrategy.runExecute bothOfTwo ()).1 = .error (.thrown thrown)) ∨
      ∃ analysis t c u, branch.analysis = some analysis ∧ analysis.threshold = some t ∧
        run (serverStrategy.untilCollected bothOfTwo smallCodex) { world := (), events := [] } =
          (.ok c, u) ∧
        (ks.keys.Nodup → t ≤ c.guardKeypairs.length)) := by
  intro guard branch ks
  have hfirst : (analyzeSmartAccountAuthPaths serverStrategy.environment.arithmetic
      (ownGuard guard) smallCodex bothOfTwo.resolvedForeignKeys).firstSatisfied = (0 : Nat) := by
    decide +kernel
  exact auth_paths_agree hfirst rfl rfl rfl rfl rfl

/-- One codex key would satisfy the branch, but the pre-flight wants every key at hand; and a guard
without keys that is called like a smart account's is satisfied and rejected. -/
theorem satisfied_branch_rejected :
    (let fl := serverStrategy.environment.arithmetic
     let guard := rawKeyset (js "keys-any") [codexKey, foreignKey]
     (analyzeSmartAccountAuthPaths fl (ownGuard guard) smallCodex
        anyOfTwo.resolvedForeignKeys).firstSatisfied = 0 ∧
      (extractKeysetFromGuard guard).bind RawKeyset.toKeyset = anyOfTwo.guards.head? ∧
      RejectsForeignKey serverStrategy anyOfTwo ()) ∧
    (let fl := serverStrategy.environment.arithmetic
     let guard := Value.obj [(js "pred", .str (js "keys-all")), (js "keys", .arr []),
        (js "keysetRef", .str (js "ouronet-ns.Σ.account"))]
     let args : ExecuteArgs Unit :=
       { build := anyOfTwo.build
         guards := [{ pred := js "keys-all", keys := [],
                      keysetRef := some (js "ouronet-ns.Σ.account") }] }
     (analyzeSmartAccountAuthPaths fl (ownGuard guard) smallCodex
        args.resolvedForeignKeys).firstSatisfied = 0 ∧
      (extractKeysetFromGuard guard).bind RawKeyset.toKeyset = args.guards.head? ∧
      serverStrategy.RejectsSmartAccount args ()) := by
  refine ⟨⟨by decide +kernel, rfl, ?_⟩, by decide +kernel, rfl, ?_⟩
  · refine (rejectsForeignKey_iff rfl (by decide +kernel) rfl).2 ?_
    exact ⟨_, List.mem_singleton_self _, foreignKey, by decide, by decide, by decide⟩
  · exact (Strategy.rejectsSmartAccount_iff rfl).2 (by decide +kernel)

end Signing
end StoaCore
