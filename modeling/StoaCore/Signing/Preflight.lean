import StoaCore.Signing.StrategyRuns
import Mathlib.Data.List.Dedup
import Mathlib.Data.List.Perm.Subperm

/-!
# Preflight — foreign keys the resolver cannot supply

Without `requestForeignKey`, `execute` rejects as soon as some guard lists a key that is neither
in the codex nor pre-resolved, even where the guard could do without that key.  Guards that pass
get their threshold: the build closure is handed enough of their keys.
-/

namespace StoaCore
namespace Signing

open Library.Js
open Library.Traced
open Guard

/-! ## What a guard lacks and what it gets -/

/-- Some guard lists a key that is neither in the codex nor pre-resolved. -/
def ListsForeignKey (guards : List Keyset) (codexPubs : StringSet)
    (resolvedForeignKeys : Record JsString) : Prop :=
  ∃ guard ∈ guards, ∃ pub ∈ guard.keys,
    codexPubs.has pub = false ∧ resolvedForeignKeys.hasOwn pub = false

/-- The distinct keys of the guard among `pubs`. -/
def distinctKeysIn (guard : Keyset) (pubs : List JsString) : List JsString :=
  guard.keys.dedup.filter fun key => decide (key ∈ pubs)

/-- The key can sign: it is in the codex, or pre-resolved with a usable entry. -/
def Usable (codexPubs : StringSet) (resolvedForeignKeys : Record JsString) (pub : JsString) :
    Prop :=
  codexPubs.has pub = true ∨ ∃ text, resolvedForeignKeys.lookup pub = some text ∧ text ≠ []

instance (codexPubs : StringSet) (resolvedForeignKeys : Record JsString) (pub : JsString) :
    Decidable (Usable codexPubs resolvedForeignKeys pub) :=
  match h : resolvedForeignKeys.lookup pub with
  | none =>
      decidable_of_iff (codexPubs.has pub = true) (by simp [Usable, h])
  | some text =>
      decidable_of_iff (codexPubs.has pub = true ∨ text ≠ []) (by simp [Usable, h])

/-- The guard reaches its threshold with distinct keys that can sign. -/
def ReachesThreshold (fl : Rounding) (codexPubs : StringSet) (resolvedForeignKeys : Record JsString)
    (guard : Keyset) : Prop :=
  ∃ t, guardThreshold fl guard = some t ∧
    t ≤ (guard.keys.dedup.filter fun key =>
      decide (Usable codexPubs resolvedForeignKeys key)).length

theorem firstForeignKey_isSome_iff (guards : List Keyset) (codexPubs : StringSet)
    (resolvedForeignKeys : Record JsString) :
    (firstForeignKey guards codexPubs resolvedForeignKeys).isSome = true ↔
      ListsForeignKey guards codexPubs resolvedForeignKeys := by
  unfold firstForeignKey ListsForeignKey
  rw [List.find?_isSome]
  constructor
  · rintro ⟨pub, hpub, hforeign⟩
    rcases List.mem_flatMap.1 hpub with ⟨guard, hguard, hkey⟩
    rw [Bool.and_eq_true, Bool.not_eq_true', Bool.not_eq_true'] at hforeign
    exact ⟨guard, hguard, pub, hkey, hforeign⟩
  · rintro ⟨guard, hguard, pub, hkey, hcodex, hresolved⟩
    exact ⟨pub, List.mem_flatMap.2 ⟨guard, hguard, hkey⟩, by rw [hcodex, hresolved]; rfl⟩

/-! ## The keys a guard takes -/

section Needed

variable (fl : Rounding) (codexPubs : StringSet) (resolvedForeignKeys : Record JsString)
  (guard : Keyset)

/-- If every key can sign, the available keys are the keys of the guard. -/
theorem available_perm
    (husable : ∀ pub ∈ guard.keys, Usable codexPubs resolvedForeignKeys pub) :
    (codexKeysOf guard codexPubs ++
      resolvedForeignKeysOf guard codexPubs resolvedForeignKeys).Perm guard.keys := by
  have hresolved : resolvedForeignKeysOf guard codexPubs resolvedForeignKeys =
      foreignKeysOf guard codexPubs := by
    unfold resolvedForeignKeysOf
    rw [List.filter_eq_self]
    intro pub hpub
    rcases List.mem_filter.1 hpub with ⟨hkey, hforeign⟩
    -- A foreign key is not in the codex, so it has to be pre-resolved.
    rcases husable pub hkey with hcodex | ⟨text, hlookup, hne⟩
    · rw [hcodex] at hforeign
      cases hforeign
    · rw [Record.truthyText_of_lookup hlookup hne]
      rfl
  rw [hresolved]
  exact List.filter_append_perm _ _

/-- A guard takes the first of its available keys. -/
theorem neededKeys_analyzeGuard :
    neededKeys (analyzeGuard fl (some guard) codexPubs resolvedForeignKeys) =
      (codexKeysOf guard codexPubs ++
        resolvedForeignKeysOf guard codexPubs resolvedForeignKeys).take
          ((guardThreshold fl guard).getD 0) := by
  rw [neededKeys, analyzeGuard_codexKeys, analyzeGuard_resolvedForeignKeys, analyzeGuard_threshold]

/-- A guard whose keys are distinct and can all sign takes as many of them as its threshold. -/
theorem neededKeys_spec (hnodup : guard.keys.Nodup)
    (husable : ∀ pub ∈ guard.keys, Usable codexPubs resolvedForeignKeys pub) {t : Nat}
    (ht : guardThreshold fl guard = some t) {pubs : List JsString}
    (htaken : ∀ pub ∈ neededKeys (analyzeGuard fl (some guard) codexPubs resolvedForeignKeys),
      pub ∈ pubs) :
    t ≤ (distinctKeysIn guard pubs).length := by
  rw [neededKeys_analyzeGuard, ht, Option.getD_some] at htaken
  have hperm := available_perm codexPubs resolvedForeignKeys guard husable
  -- The keys taken are distinct keys of the guard, and there are `t` of them.
  have hsub : (codexKeysOf guard codexPubs ++
      resolvedForeignKeysOf guard codexPubs resolvedForeignKeys).take t ⊆
      distinctKeysIn guard pubs := by
    intro pub hpub
    have hkey : pub ∈ guard.keys := hperm.mem_iff.1 (List.mem_of_mem_take hpub)
    exact List.mem_filter.2 ⟨List.mem_dedup.2 hkey, decide_eq_true (htaken pub hpub)⟩
  have hdistinct : ((codexKeysOf guard codexPubs ++
      resolvedForeignKeysOf guard codexPubs resolvedForeignKeys).take t).Nodup :=
    (hperm.nodup_iff.2 hnodup).sublist (List.take_sublist t _)
  calc t
      = ((codexKeysOf guard codexPubs ++
          resolvedForeignKeysOf guard codexPubs resolvedForeignKeys).take t).length := by
        rw [List.length_take, hperm.length_eq, min_eq_left (guardThreshold_le fl ht)]
    _ ≤ (distinctKeysIn guard pubs).length := (hdistinct.subperm hsub).length_le

end Needed

/-! ## The pre-flight -/

section Exact

variable {σ : Type} (S : Strategy σ) (args : ExecuteArgs σ) (w : σ)

def RejectsForeignKey : Prop :=
  ∃ pub, (S.runExecute args w).1 = .error (.foreignKeyPreflight pub)

variable {S args w} {w' : σ} {codexPubs : StringSet}

theorem rejectsForeignKey_iff
    (hlist : Async.runIn S.resolver.listCodexPubs w = (.ok codexPubs, w'))
    (hsigma : args.guards.findSome? (smartAccountSurface S.environment.arithmetic codexPubs) = none)
    (hforeign : S.resolver.requestForeignKey = none) :
    RejectsForeignKey S args w ↔
      ListsForeignKey args.guards codexPubs args.resolvedForeignKeys := by
  unfold RejectsForeignKey
  rw [← firstForeignKey_isSome_iff, Strategy.runExecute_of_checks hlist hsigma hforeign]
  cases hfirst : firstForeignKey args.guards codexPubs args.resolvedForeignKeys with
  | some pub => simp
  | none =>
      simp only [Option.isSome_none, Bool.false_eq_true, iff_false, not_exists]
      intro pub hpub
      -- Past the pre-flight no stage rejects with its error.
      have hspec : Triple (fun l => l = []) (S.collectAndSubmit args codexPubs)
          (fun _ => S.Reached args codexPubs)
          (fun e l => e.PastPreflight ∧ (l = [] ∨ S.Reached args codexPubs l)) :=
        Strategy.collectAndSubmit_spec codexPubs
      have hpost := hspec { world := w', events := [] } rfl
      rcases hrun : run (S.collectAndSubmit args codexPubs) { world := w', events := [] }
        with ⟨r, t⟩
      rw [hrun] at hpost hpub
      rw [show r = .error (.foreignKeyPreflight pub) from hpub] at hpost
      exact hpost.1 pub rfl

/-- Guards that pass can be signed for with every key, unless a foreign one has an empty entry. -/
theorem usable_of_passes {guards : List Keyset} {resolvedForeignKeys : Record JsString}
    (hpass : firstForeignKey guards codexPubs resolvedForeignKeys = none) {guard : Keyset}
    (hguard : guard ∈ guards) {pub : JsString} (hpub : pub ∈ guard.keys)
    (hentry : codexPubs.has pub = false → resolvedForeignKeys.lookup pub ≠ some []) :
    Usable codexPubs resolvedForeignKeys pub := by
  by_cases hcodex : codexPubs.has pub = true
  · exact Or.inl hcodex
  · cases hlookup : resolvedForeignKeys.lookup pub with
    | some text =>
        exact Or.inr ⟨text, hlookup, fun h => hentry (eq_false_of_ne_true hcodex) (h ▸ hlookup)⟩
    | none =>
        have hlists : ListsForeignKey guards codexPubs resolvedForeignKeys :=
          ⟨guard, hguard, pub, hpub, eq_false_of_ne_true hcodex, by simp [Record.hasOwn, hlookup]⟩
        have hsome := (firstForeignKey_isSome_iff guards codexPubs resolvedForeignKeys).2 hlists
        rw [hpass] at hsome
        cases hsome

theorem threshold_of_build
    (hlist : Async.runIn S.resolver.listCodexPubs w = (.ok codexPubs, w'))
    (hsigma : args.guards.findSome? (smartAccountSurface S.environment.arithmetic codexPubs) = none)
    (hforeign : S.resolver.requestForeignKey = none) (hfaithful : S.resolver.Faithful)
    {ctx : BuildContext} (hctx : .building ctx ∈ (S.runExecute args w).2.events) {guard : Keyset}
    (hguard : guard ∈ args.guards) (hnodup : guard.keys.Nodup)
    (hentries : ∀ pub ∈ guard.keys, codexPubs.has pub = false →
      args.resolvedForeignKeys.lookup pub ≠ some []) {t : Nat}
    (ht : guardThreshold S.environment.arithmetic guard = some t) :
    t ≤ (distinctKeysIn guard ctx.guardPubs).length := by
  rw [Strategy.runExecute_of_checks hlist hsigma hforeign] at hctx
  cases hfirst : firstForeignKey args.guards codexPubs args.resolvedForeignKeys with
  | some pub =>
      rw [hfirst] at hctx
      cases hctx
  | none =>
      rw [hfirst] at hctx
      have hspec : Triple (fun l => l = []) (S.collectAndSubmit args codexPubs)
          (fun _ l => l = [] ∨ S.Reached args codexPubs l)
          (fun _ l => l = [] ∨ S.Reached args codexPubs l) :=
        Triple.mono (Strategy.collectAndSubmit_spec codexPubs) (fun _ h => h)
          (fun _ _ h => Or.inr h) fun _ _ h => h.2
      -- The closure has been called, so the keypairs of the guards have been collected before.
      rcases hspec.events (t := { world := w', events := [] }) rfl with hnil | hreached
      · rw [hnil] at hctx
        cases hctx
      · rcases hreached with ⟨c, capsKeypair, hserves, -, hstages⟩
        rw [hstages.guardPubs hctx, hserves.pubs hfaithful]
        exact neededKeys_spec S.environment.arithmetic codexPubs args.resolvedForeignKeys guard
          hnodup (fun pub hpub => usable_of_passes hfirst hguard hpub (hentries pub hpub)) ht
          (hserves.taken guard hguard)

/-- Without `requestForeignKey`, `execute` rejects for a foreign key exactly when some guard lists
one, whatever the thresholds; and a build closure that is called has, for every guard with
distinct keys and no empty entry for a foreign one, as many keys of that guard as its threshold asks
for. -/
theorem foreign_key_preflight
    (hlist : Async.runIn S.resolver.listCodexPubs w = (.ok codexPubs, w'))
    (hsigma : args.guards.findSome? (smartAccountSurface S.environment.arithmetic codexPubs) = none)
    (hforeign : S.resolver.requestForeignKey = none) (hfaithful : S.resolver.Faithful) :
    (RejectsForeignKey S args w ↔
      ListsForeignKey args.guards codexPubs args.resolvedForeignKeys) ∧
    ∀ ctx, .building ctx ∈ (S.runExecute args w).2.events →
      ∀ guard ∈ args.guards, guard.keys.Nodup →
        (∀ pub ∈ guard.keys, codexPubs.has pub = false →
          args.resolvedForeignKeys.lookup pub ≠ some []) →
          ∀ t, guardThreshold S.environment.arithmetic guard = some t →
            t ≤ (distinctKeysIn guard ctx.guardPubs).length := by
  refine ⟨rejectsForeignKey_iff hlist hsigma hforeign, ?_⟩
  intro ctx hctx guard hguard hnodup hentries t ht
  exact threshold_of_build hlist hsigma hforeign hfaithful hctx hguard hnodup hentries ht

end Exact

/-! ## A resolver without requestForeignKey -/

def codexKey : JsString := js "a"

def spareKey : JsString := js "b"

def foreignKey : JsString := js "c"

def smallCodex : StringSet := ⟨[codexKey, spareKey], by decide⟩

/-- A server's resolver: it knows the codex keys and cannot ask for others. -/
def serverResolver : KeyResolver Unit where
  listCodexPubs := pure smallCodex
  getKeyPairByPublicKey := fun pub => pure { publicKey := pub, privateKey := js "00" }

def serverStrategy : Strategy Unit where
  resolver := serverResolver
  client :=
    { dirtyRead := fun _ w => (.value (.obj []), w)
      submit := fun _ w => (.value (.obj []), w) }
  backend :=
    { signHash := fun _ _ => .ok (js "5a")
      kadenaSign := fun _ _ _ => .ok (js "5a")
      publicKeyFromPrivateKey := fun key => .ok key
      hash := id }
  environment :=
    { dateNow := fun _ => 1772000000000
      failover := fun _ => {}
      arithmetic := Rounding.binary64 }

/-- One key of the guard is enough, and the codex has one. -/
def anyOfTwo : ExecuteArgs Unit where
  build := fun _ => pure { cmd := js "\x7b\x7d", hash := [], sigs := [] }
  guards := [{ pred := js "keys-any", keys := [codexKey, foreignKey] }]

theorem serverResolver_faithful : serverResolver.Faithful := by
  intro pub w kp hkp
  cases hkp
  rfl

/-- The pre-flight rejects although every guard reaches its threshold. -/
theorem preflight_ignores_thresholds :
    serverStrategy.resolver.requestForeignKey = none ∧
      Async.runIn serverStrategy.resolver.listCodexPubs () = (.ok smallCodex, ()) ∧
      anyOfTwo.guards.findSome?
        (smartAccountSurface serverStrategy.environment.arithmetic smallCodex) = none ∧
      ¬ (RejectsForeignKey serverStrategy anyOfTwo () ↔
        ∃ guard ∈ anyOfTwo.guards, ¬ ReachesThreshold serverStrategy.environment.arithmetic
          smallCodex anyOfTwo.resolvedForeignKeys guard) := by
  refine ⟨rfl, rfl, by decide +kernel, ?_⟩
  intro hiff
  have hpreflight : RejectsForeignKey serverStrategy anyOfTwo () ↔
      ListsForeignKey anyOfTwo.guards smallCodex anyOfTwo.resolvedForeignKeys :=
    rejectsForeignKey_iff rfl (by decide +kernel) rfl
  have hrejects : RejectsForeignKey serverStrategy anyOfTwo () :=
    hpreflight.2 ⟨_, List.mem_singleton_self _, foreignKey, by decide, by decide, by decide⟩
  rcases hiff.1 hrejects with ⟨guard, hguard, hnot⟩
  rw [List.mem_singleton.1 hguard] at hnot
  exact hnot ⟨1, by decide +kernel, by decide +kernel⟩

/-- A codex key and a pre-resolved foreign key, both needed. -/
def bothOfTwo : ExecuteArgs Unit where
  build := fun _ => pure { cmd := js "\x7b\x7d", hash := [], sigs := [] }
  guards := [{ pred := js "keys-2", keys := [codexKey, foreignKey] }]
  resolvedForeignKeys := [(foreignKey, js "5b")]

theorem foreign_key_preflight_bothOfTwo :
    (RejectsForeignKey serverStrategy bothOfTwo () ↔
      ListsForeignKey bothOfTwo.guards smallCodex bothOfTwo.resolvedForeignKeys) ∧
    ∀ ctx, .building ctx ∈ (serverStrategy.runExecute bothOfTwo ()).2.events →
      ∀ guard ∈ bothOfTwo.guards, guard.keys.Nodup →
        (∀ pub ∈ guard.keys, smallCodex.has pub = false →
          bothOfTwo.resolvedForeignKeys.lookup pub ≠ some []) →
          ∀ t, guardThreshold serverStrategy.environment.arithmetic guard = some t →
            t ≤ (distinctKeysIn guard ctx.guardPubs).length :=
  foreign_key_preflight rfl (by decide +kernel) rfl serverResolver_faithful

end Signing
end StoaCore
