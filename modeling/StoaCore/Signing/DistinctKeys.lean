import StoaCore.Guard.Progressive
import StoaCore.Signing.KeySelection

/-!
# DistinctKeys — how many keys of a guard can sign

The analyzer counts the keys of a guard as they stand there, and the strategy takes as many of them
as the threshold says and skips the ones it has already.  A guard that lists a key twice is
therefore satisfied by fewer keys than it asks for.
-/

namespace StoaCore
namespace Signing

open Library.Js
open Library.Traced
open Guard

/-! ## Keys that can sign -/

/-- The key is in the codex, or a private key has been entered for it. -/
def canSign (codexPubs : StringSet) (resolvedManualKeys : Record JsString)
    (key : JsString) : Bool :=
  codexPubs.has key || (resolvedManualKeys.lookup key).any fun privateKey => privateKey != []

/-- The keys of the guard that can sign, each once. -/
def signingKeysOf (guard : Keyset) (codexPubs : StringSet) (resolvedManualKeys : Record JsString) :
    Finset JsString :=
  (guard.keys.filter (canSign codexPubs resolvedManualKeys)).toFinset

/-- No key that can sign is listed twice, and the map has a member of its own for every foreign key
whose name is inherited. -/
structure DistinctSigners (guard : Keyset) (codexPubs : StringSet)
    (resolvedManualKeys : Record JsString) : Prop where
  nodup : (guard.keys.filter (canSign codexPubs resolvedManualKeys)).Nodup
  own : ∀ key ∈ guard.keys, codexPubs.has key = false →
    (objectPrototype.lookup key).isSome = true → resolvedManualKeys.hasOwn key = true

theorem countsAsSigner_of_canSign {codexPubs : StringSet} {resolvedManualKeys : Record JsString}
    {key : JsString} (h : canSign codexPubs resolvedManualKeys key = true) :
    countsAsSigner codexPubs resolvedManualKeys key = true := by
  unfold canSign at h
  unfold countsAsSigner
  rw [Bool.or_eq_true] at h ⊢
  rcases h with hcodex | hmanual
  · exact Or.inl hcodex
  · rcases (Option.any_eq_true _ _).1 hmanual with ⟨privateKey, hlookup, hne⟩
    rw [Record.truthyText_of_lookup hlookup (by simpa using hne)]
    exact Or.inr rfl

/-- What counts besides is a foreign key whose name is inherited. -/
theorem canSign_of_countsAsSigner {codexPubs : StringSet} {resolvedManualKeys : Record JsString}
    {key : JsString} (hown : codexPubs.has key = false →
      (objectPrototype.lookup key).isSome = true → resolvedManualKeys.hasOwn key = true)
    (h : countsAsSigner codexPubs resolvedManualKeys key = true) :
    canSign codexPubs resolvedManualKeys key = true := by
  unfold countsAsSigner at h
  unfold canSign
  cases hhas : codexPubs.has key with
  | true => rfl
  | false =>
      rw [hhas, Bool.false_or] at h
      rw [Bool.false_or]
      unfold Record.truthyText Record.property at h
      cases hlookup : resolvedManualKeys.lookup key with
      | some privateKey =>
          rw [hlookup] at h
          cases privateKey with
          | nil => cases h
          | cons c rest => rfl
      | none =>
          rw [hlookup] at h
          cases hinherited : objectPrototype.lookup key with
          | none =>
              rw [hinherited] at h
              cases h
          | some text =>
              have hmember := hown hhas (by rw [hinherited]; rfl)
              rw [Record.hasOwn, hlookup] at hmember
              cases hmember

/-! ## The analysis -/

/-- The analyzer counts every key once. -/
structure CountsDistinct (fl : Rounding) (guard : Keyset) (codexPubs : StringSet)
    (resolvedManualKeys : Record JsString) : Prop where
  codexKeys : (analyzeGuard fl (some guard) codexPubs resolvedManualKeys).codexKeys.Nodup
  resolvedForeignKeys :
    (analyzeGuard fl (some guard) codexPubs resolvedManualKeys).resolvedForeignKeys.Nodup
  signable : (analyzeGuard fl (some guard) codexPubs resolvedManualKeys).signable =
    (signingKeysOf guard codexPubs resolvedManualKeys).card
  satisfied : (analyzeGuard fl (some guard) codexPubs resolvedManualKeys).satisfied = true →
    ∃ t, (analyzeGuard fl (some guard) codexPubs resolvedManualKeys).threshold = some t ∧
      t ≤ (signingKeysOf guard codexPubs resolvedManualKeys).card

section Analysis

variable {fl : Rounding} {guard : Keyset} {codexPubs : StringSet}
  {resolvedManualKeys : Record JsString}

/-- The available keys, in the order in which the strategy takes them, are those that count. -/
theorem perm_available :
    (codexKeysOf guard codexPubs ++
      resolvedForeignKeysOf guard codexPubs resolvedManualKeys).Perm
    (guard.keys.filter (countsAsSigner codexPubs resolvedManualKeys)) := by
  have hsplit := List.filter_append_perm (fun key => codexPubs.has key)
    (guard.keys.filter (countsAsSigner codexPubs resolvedManualKeys))
  rw [List.filter_filter, List.filter_filter] at hsplit
  have hcodex : (guard.keys.filter fun key => codexPubs.has key &&
      countsAsSigner codexPubs resolvedManualKeys key) = codexKeysOf guard codexPubs := by
    refine List.filter_congr fun key _ => ?_
    cases hhas : codexPubs.has key <;> simp [countsAsSigner, hhas]
  have hforeign : (guard.keys.filter fun key => !codexPubs.has key &&
      countsAsSigner codexPubs resolvedManualKeys key) =
        resolvedForeignKeysOf guard codexPubs resolvedManualKeys := by
    rw [resolvedForeignKeysOf, foreignKeysOf, List.filter_filter]
    refine List.filter_congr fun key _ => ?_
    cases hhas : codexPubs.has key <;> simp [countsAsSigner, hhas]
  rwa [hcodex, hforeign] at hsplit

theorem nodup_counting_iff :
    (guard.keys.filter (countsAsSigner codexPubs resolvedManualKeys)).Nodup ↔
      (codexKeysOf guard codexPubs).Nodup ∧
        (resolvedForeignKeysOf guard codexPubs resolvedManualKeys).Nodup := by
  rw [← perm_available.nodup_iff, List.nodup_append]
  constructor
  · rintro ⟨hcodex, hforeign, -⟩
    exact ⟨hcodex, hforeign⟩
  · rintro ⟨hcodex, hforeign⟩
    refine ⟨hcodex, hforeign, ?_⟩
    rintro key hkey _ hkey' rfl
    have hhas := (List.mem_filter.1 hkey).2
    have hnot := (List.mem_filter.1 (List.mem_filter.1 hkey').1).2
    simp [hhas] at hnot

/-- Where the condition holds, what counts can sign. -/
theorem filter_countsAsSigner (h : DistinctSigners guard codexPubs resolvedManualKeys) :
    guard.keys.filter (countsAsSigner codexPubs resolvedManualKeys) =
      guard.keys.filter (canSign codexPubs resolvedManualKeys) := by
  refine List.filter_congr fun key hkey => Bool.eq_iff_iff.2 ⟨?_, countsAsSigner_of_canSign⟩
  exact canSign_of_countsAsSigner (h.own key hkey)

theorem countsDistinct_of_distinctSigners
    (h : DistinctSigners guard codexPubs resolvedManualKeys) :
    CountsDistinct fl guard codexPubs resolvedManualKeys := by
  have hfilter := filter_countsAsSigner h
  have hnodup := nodup_counting_iff.1 (hfilter ▸ h.nodup)
  have hsignable : (analyzeGuard fl (some guard) codexPubs resolvedManualKeys).signable =
      (signingKeysOf guard codexPubs resolvedManualKeys).card := by
    rw [analyzeGuard_signable, hfilter, signingKeysOf, List.toFinset_card_of_nodup h.nodup]
  refine ⟨?_, ?_, hsignable, ?_⟩
  · rw [analyzeGuard_codexKeys]
    exact hnodup.1
  · rw [analyzeGuard_resolvedForeignKeys]
    exact hnodup.2
  · intro hsatisfied
    rw [analyzeGuard_satisfied, Option.any_eq_true] at hsatisfied
    rcases hsatisfied with ⟨t, ht, hle⟩
    exact ⟨t, by rw [analyzeGuard_threshold, ht], hsignable ▸ of_decide_eq_true hle⟩

/-- If the analyzer counts every key once, more keys count than can sign only where the number
of them differs. -/
theorem distinctSigners_of_countsDistinct
    (h : CountsDistinct fl guard codexPubs resolvedManualKeys) :
    DistinctSigners guard codexPubs resolvedManualKeys := by
  have hcodex := h.codexKeys
  have hforeign := h.resolvedForeignKeys
  have hcard := h.signable
  rw [analyzeGuard_codexKeys] at hcodex
  rw [analyzeGuard_resolvedForeignKeys] at hforeign
  have hnodup := nodup_counting_iff.2 ⟨hcodex, hforeign⟩
  rw [analyzeGuard_signable, ← List.toFinset_card_of_nodup hnodup, signingKeysOf] at hcard
  have hsubset : (guard.keys.filter (canSign codexPubs resolvedManualKeys)).toFinset ⊆
      (guard.keys.filter (countsAsSigner codexPubs resolvedManualKeys)).toFinset := by
    intro key hkey
    rw [List.mem_toFinset, List.mem_filter] at hkey ⊢
    exact ⟨hkey.1, countsAsSigner_of_canSign hkey.2⟩
  have hsame := Finset.eq_of_subset_of_card_le hsubset hcard.le
  refine ⟨?_, ?_⟩
  · refine hnodup.sublist (List.monotone_filter_right _ fun key => ?_)
    exact countsAsSigner_of_canSign
  · intro key hkey hhas hinherited
    by_contra hown
    have hlookup : resolvedManualKeys.lookup key = none := Option.not_isSome_iff_eq_none.1 hown
    rcases Option.isSome_iff_exists.1 hinherited with ⟨text, htext⟩
    have hcounts : countsAsSigner codexPubs resolvedManualKeys key = true := by
      simp [countsAsSigner, Record.truthyText, Record.property, hlookup, htext]
    have hmem : key ∈ (guard.keys.filter (canSign codexPubs resolvedManualKeys)).toFinset := by
      rw [hsame, List.mem_toFinset]
      exact List.mem_filter.2 ⟨hkey, hcounts⟩
    rw [List.mem_toFinset, List.mem_filter] at hmem
    simp [canSign, hhas, hlookup] at hmem

end Analysis

/-! ## What a guard adds to the signers -/

namespace Strategy

variable {σ : Type} {S : Strategy σ} {args : ExecuteArgs σ}

theorem collectKey_signers (analysis : GuardAnalysis) (c : Collected) (pub : JsString) :
    Leads (fun _ => True) (S.collectKey args analysis c pub)
      (fun c' _ => c'.pureSigningPubs = c.pureSigningPubs.add pub) := by
  unfold collectKey
  split
  case isTrue hseen =>
    exact Leads.pure fun _ _ => (StringSet.add_of_mem ((StringSet.has_iff _ _).1 hseen)).symm
  case isFalse hnew =>
    refine Leads.bind (Q := fun _ _ => True) (fun _ _ _ _ _ => trivial) fun kp => ?_
    exact Leads.pure fun _ _ => rfl

/-- The keys that are gone through are all among the signers afterwards. -/
theorem foldlM_collectKey_signers (analysis : GuardAnalysis) (pubs : List JsString)
    (c : Collected) :
    Leads (fun _ => True) (pubs.foldlM (S.collectKey args analysis) c)
      (fun c' _ => ∀ pub, pub ∈ pubs ∨ pub ∈ c.pureSigningPubs.elements →
        pub ∈ c'.pureSigningPubs.elements) := by
  induction pubs generalizing c with
  | nil => exact Leads.pure fun _ _ pub hpub => hpub.resolve_left List.not_mem_nil
  | cons first pubs ih =>
      rw [List.foldlM_cons]
      refine Leads.bind (collectKey_signers analysis c first) fun c₁ t hadd => ?_
      intro c' u hrun pub hpub
      refine ih c₁ t trivial c' u hrun pub ?_
      rw [hadd, StringSet.mem_add]
      rcases hpub with hpub | hpub
      · rcases List.mem_cons.1 hpub with rfl | hpub
        · exact Or.inr (Or.inr rfl)
        · exact Or.inl hpub
      · exact Or.inr (Or.inl hpub)

/-- When a satisfied guard has been processed, at least as many of its keys as it asks for are among
the signers, those that earlier guards have put there included. -/
def TakesEnough (S : Strategy σ) (args : ExecuteArgs σ) (codexPubs : StringSet)
    (guard : Keyset) : Prop :=
  ∀ c t c' u, run (S.collectGuard args codexPubs c guard) t = (.ok c', u) →
    (S.analysisOf args codexPubs guard).satisfied = true →
    ∃ needed, (S.analysisOf args codexPubs guard).threshold = some needed ∧
      needed ≤ (guard.keys.filter fun key => c'.pureSigningPubs.has key).toFinset.card

theorem takesEnough_of_distinctSigners {codexPubs : StringSet} {guard : Keyset}
    (h : DistinctSigners guard codexPubs args.resolvedForeignKeys) :
    S.TakesEnough args codexPubs guard := by
  intro c t c' u hrun hsatisfied
  unfold analysisOf at hsatisfied ⊢
  rw [analyzeGuard_satisfied, Option.any_eq_true] at hsatisfied
  rcases hsatisfied with ⟨needed, hthreshold, hle⟩
  refine ⟨needed, by rw [analyzeGuard_threshold, hthreshold], ?_⟩
  have havailable : (codexKeysOf guard codexPubs ++
      resolvedForeignKeysOf guard codexPubs args.resolvedForeignKeys).Perm
      (guard.keys.filter (countsAsSigner codexPubs args.resolvedForeignKeys)) := perm_available
  -- The keys taken are the first available ones, as many as are asked for.
  let taken := (codexKeysOf guard codexPubs ++
    resolvedForeignKeysOf guard codexPubs args.resolvedForeignKeys).take needed
  have hlength : taken.length = needed := by
    have hsignable := of_decide_eq_true hle
    rw [analyzeGuard_signable, ← havailable.length_eq] at hsignable
    exact List.length_take_of_le hsignable
  have hnodup : taken.Nodup := by
    refine List.Nodup.sublist (List.take_sublist _ _) (havailable.nodup_iff.2 ?_)
    rw [filter_countsAsSigner h]
    exact h.nodup
  have hsigners : ∀ pub ∈ taken, pub ∈ c'.pureSigningPubs.elements := by
    intro pub hpub
    refine foldlM_collectKey_signers _ _ c t trivial c' u hrun pub (Or.inl ?_)
    simpa [neededKeys, analysisOf, hthreshold] using hpub
  rw [← hlength, ← List.toFinset_card_of_nodup hnodup]
  refine Finset.card_le_card fun pub hpub => ?_
  rw [List.mem_toFinset] at hpub ⊢
  have hkey := havailable.subset (List.mem_of_mem_take hpub)
  exact List.mem_filter.2 ⟨List.mem_of_mem_filter hkey,
    (StringSet.has_iff _ _).2 (hsigners pub hpub)⟩

end Strategy

/-- The keys are counted once each, and a satisfied guard gets as many signers as it asks for,
exactly where no key that can sign is repeated and no inherited name passes for one. -/
theorem analyzeGuard_distinct_iff (fl : Rounding) (guard : Keyset) (codexPubs : StringSet)
    (resolvedManualKeys : Record JsString) :
    (CountsDistinct fl guard codexPubs resolvedManualKeys ∧
      ∀ (σ : Type) (S : Strategy σ) (args : ExecuteArgs σ), S.environment.arithmetic = fl →
        args.resolvedForeignKeys = resolvedManualKeys → S.TakesEnough args codexPubs guard) ↔
      DistinctSigners guard codexPubs resolvedManualKeys := by
  constructor
  · rintro ⟨hcounts, -⟩
    exact distinctSigners_of_countsDistinct hcounts
  · intro h
    refine ⟨countsDistinct_of_distinctSigners h, ?_⟩
    rintro σ S args - rfl
    exact Strategy.takesEnough_of_distinctSigners h

/-- One codex key that the guard lists twice counts for two, and satisfies a guard that asks for
two. -/
theorem repeated_key_satisfies :
    let guard : Keyset := { pred := js "keys-all", keys := [js "k1", js "k1"] }
    let codexPubs : StringSet := ⟨[js "k1"], by decide⟩
    let analysis := analyzeGuard Rounding.exact (some guard) codexPubs []
    analysis.codexKeys = [js "k1", js "k1"] ∧ ¬analysis.codexKeys.Nodup ∧
    analysis.threshold = some 2 ∧ analysis.satisfied = true ∧
    analysis.signable = 2 ∧ (signingKeysOf guard codexPubs []).card = 1 := by
  refine ⟨rfl, by decide, rfl, rfl, rfl, by decide⟩

end Signing
end StoaCore
