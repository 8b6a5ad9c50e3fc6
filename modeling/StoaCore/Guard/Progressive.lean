import StoaCore.Guard.Thresholds
import StoaCore.Library.Quorum

/-!
# Progressive — resolving foreign keys one by one

A guard without repeated keys is a quorum of its keys, and the analyzer computes what is missing of
it.  A resolved key lowers that by one, so that resolving what is missing satisfies the guard.  What
the analyzer takes for resolved, though, includes the names that the map of resolved keys inherits.
-/

namespace StoaCore
namespace Guard

open Library
open Library.Js

/-! ## The fields of the analysis -/

/-- What the analyzer takes for a key that can sign. -/
def countsAsSigner (codexPubs : StringSet) (resolvedManualKeys : Record JsString)
    (key : JsString) : Bool :=
  codexPubs.has key || (resolvedManualKeys.truthyText key).isSome

section Fields

variable (fl : Rounding) (guard : Keyset) (codexPubs : StringSet)
  (resolvedManualKeys : Record JsString)

/-- The signable keys are those that count, repeated ones as often as they stand there. -/
@[simp] theorem analyzeGuard_signable :
    (analyzeGuard fl (some guard) codexPubs resolvedManualKeys).signable =
      (guard.keys.filter (countsAsSigner codexPubs resolvedManualKeys)).length := by
  rw [analyzeGuard_signable_eq, codexKeysOf, resolvedForeignKeysOf, foreignKeysOf,
    List.filter_filter]
  induction guard.keys with
  | nil => rfl
  | cons key keys ih =>
      cases hhas : codexPubs.has key with
      | true =>
          have hcounts : countsAsSigner codexPubs resolvedManualKeys key = true := by
            simp [countsAsSigner, hhas]
          simp only [List.filter_cons, hhas, hcounts, Bool.not_true, Bool.and_false, if_true,
            Bool.false_eq_true, if_false, List.length_cons]
          omega
      | false =>
          have hcounts : countsAsSigner codexPubs resolvedManualKeys key =
              (resolvedManualKeys.truthyText key).isSome := by
            simp [countsAsSigner, hhas]
          cases hmanual : (resolvedManualKeys.truthyText key).isSome with
          | true =>
              simp only [List.filter_cons, hhas, hcounts, hmanual, Bool.not_false, Bool.and_true,
                if_true, Bool.false_eq_true, if_false, List.length_cons]
              omega
          | false =>
              simpa only [List.filter_cons, hhas, hcounts, hmanual, Bool.not_false, Bool.and_true,
                Bool.false_eq_true, if_false] using ih

end Fields

/-! ## The guard as a quorum -/

/-- The predicate is listed, or it is refused. -/
def KnownOrRefused (fl : Rounding) (pred : JsString) : Prop :=
  (∃ p, predicates.lookup pred = some p) ∨
    ∀ n, 1 ≤ n → computeThreshold fl pred n = .error (unknownPredicate pred)

theorem not_inherited_of_known {fl : Rounding} {pred : JsString} (h : KnownOrRefused fl pred) :
    objectPrototype.lookup pred = none := by
  rcases h with ⟨p, hp⟩ | hrefused
  · exact predicates_not_inherited hp
  · cases hinherited : objectPrototype.lookup pred with
    | none => rfl
    | some text =>
        have hnumber := computeThreshold_inherited fl (le_refl 1) hinherited
        rw [hrefused 1 le_rfl] at hnumber
        cases hnumber

section Quorum

variable {fl : Rounding} {guard : Keyset} (hkeys : guard.keys.Nodup)
  (hpred : KnownOrRefused fl guard.pred)

include hkeys hpred

/-- The keys of the guard as the members of a quorum, with the threshold of its predicate. -/
theorem exists_quorum : ∃ Q : Quorum JsString, Q.members = guard.keys.toFinset ∧
    guardThreshold fl guard = some Q.threshold ∧ (guard.keys ≠ [] → 1 ≤ Q.threshold) := by
  rcases guardThreshold_pos fl (not_inherited_of_known hpred) with ⟨t, ht, hle, hpos⟩
  refine ⟨⟨guard.keys.toFinset, t, ?_⟩, rfl, ht, hpos⟩
  rw [List.toFinset_card_of_nodup hkeys]
  exact hle

omit hpred in
theorem signable_eq_card {Q : Quorum JsString} (hmembers : Q.members = guard.keys.toFinset)
    (codexPubs : StringSet) (resolvedManualKeys : Record JsString) :
    (analyzeGuard fl (some guard) codexPubs resolvedManualKeys).signable =
      (Q.present (countsAsSigner codexPubs resolvedManualKeys)).card := by
  rw [analyzeGuard_signable, Quorum.present, hmembers,
    ← List.toFinset_card_of_nodup (hkeys.filter _), List.toFinset_filter]

/-- The analyzer says whether the quorum is reached, and how many keys are missing. -/
theorem analyzeGuard_refines : ∃ Q : Quorum JsString, Q.members = guard.keys.toFinset ∧
    (guard.keys ≠ [] → 1 ≤ Q.threshold) ∧
    ∀ codexPubs resolvedManualKeys,
      ((analyzeGuard fl (some guard) codexPubs resolvedManualKeys).satisfied = true ↔
        Q.Satisfied (countsAsSigner codexPubs resolvedManualKeys)) ∧
      (analyzeGuard fl (some guard) codexPubs resolvedManualKeys).neededMore =
        some (Q.missing (countsAsSigner codexPubs resolvedManualKeys)) := by
  rcases exists_quorum hkeys hpred with ⟨Q, hmembers, hthreshold, hpos⟩
  refine ⟨Q, hmembers, hpos, fun codexPubs resolvedManualKeys => ?_⟩
  have hcard : (analyzeGuard fl (some guard) codexPubs resolvedManualKeys).signable =
      (Q.present (countsAsSigner codexPubs resolvedManualKeys)).card :=
    signable_eq_card hkeys hmembers codexPubs resolvedManualKeys
  rw [analyzeGuard_satisfied, analyzeGuard_neededMore, hcard, hthreshold]
  simp [Quorum.Satisfied, Quorum.missing]

end Quorum

/-! ## Resolving keys -/

/-- The foreign keys that are still to be resolved. -/
def unresolvedKeys (guard : Keyset) (codexPubs : StringSet)
    (resolvedManualKeys : Record JsString) : List JsString :=
  (foreignKeysOf guard codexPubs).filter fun key =>
    !(resolvedManualKeys.truthyText key).isSome

theorem mem_unresolvedKeys {guard : Keyset} {codexPubs : StringSet}
    {resolvedManualKeys : Record JsString} {key : JsString} :
    key ∈ unresolvedKeys guard codexPubs resolvedManualKeys ↔
      key ∈ guard.keys ∧ countsAsSigner codexPubs resolvedManualKeys key = false := by
  simp [unresolvedKeys, foreignKeysOf, countsAsSigner, and_comm]

theorem truthyText_congr {object object' : Record JsString} {key : JsString}
    (h : object.lookup key = object'.lookup key) :
    object.truthyText key = object'.truthyText key := by
  unfold Record.truthyText Record.property
  rw [h]

/-- Entries are added to the map; the texts are private keys, so none is empty. -/
theorem countsAsSigner_append {codexPubs : StringSet} {resolvedManualKeys entries : Record JsString}
    (hentries : ∀ entry ∈ entries, entry.2 ≠ []) (key : JsString) :
    countsAsSigner codexPubs (entries ++ resolvedManualKeys) key = true ↔
      key ∈ (entries.map Prod.fst).toFinset ∨
        countsAsSigner codexPubs resolvedManualKeys key = true := by
  have hlookup : (entries ++ resolvedManualKeys).lookup key =
      (entries.lookup key).or (resolvedManualKeys.lookup key) := List.lookup_append
  unfold countsAsSigner
  cases hentry : entries.lookup key with
  | some text =>
      rw [hentry, Option.some_or] at hlookup
      have hmem := mem_of_lookup hentry
      have hname : key ∈ entries.map Prod.fst := lookup_mem_names hentry
      rw [Record.truthyText_of_lookup hlookup (hentries _ hmem)]
      simp only [Option.isSome_some, Bool.or_true, true_iff]
      exact Or.inl (List.mem_toFinset.2 hname)
  | none =>
      rw [hentry, Option.none_or] at hlookup
      have hname : key ∉ entries.map Prod.fst := by
        intro hmem
        rcases List.mem_map.1 hmem with ⟨entry, hentry', rfl⟩
        exact absurd (List.lookup_eq_none_iff.1 hentry entry hentry') (by simp)
      rw [truthyText_congr hlookup, List.mem_toFinset]
      simp [hname]

/-- What resolving the keys of a guard one after the other comes to. -/
structure Resolvable (fl : Rounding) (guard : Keyset) (codexPubs : StringSet)
    (resolvedManualKeys : Record JsString) : Prop where
  codex_sublist : (analyzeGuard fl (some guard) codexPubs resolvedManualKeys).codexKeys.Sublist
    guard.keys
  foreign_sublist : (analyzeGuard fl (some guard) codexPubs resolvedManualKeys).foreignKeys.Sublist
    guard.keys
  partition : ∀ key ∈ guard.keys,
    (key ∈ (analyzeGuard fl (some guard) codexPubs resolvedManualKeys).codexKeys ↔
      key ∉ (analyzeGuard fl (some guard) codexPubs resolvedManualKeys).foreignKeys)
  satisfied_iff : (analyzeGuard fl (some guard) codexPubs resolvedManualKeys).satisfied = true ↔
    (analyzeGuard fl (some guard) codexPubs resolvedManualKeys).neededMore = some 0
  one_less : ∀ key ∈ unresolvedKeys guard codexPubs resolvedManualKeys,
    ∀ privateKey, privateKey ≠ [] →
    ∀ needed, (analyzeGuard fl (some guard) codexPubs resolvedManualKeys).neededMore =
        some (needed + 1) →
      (analyzeGuard fl (some guard) codexPubs
        ((key, privateKey) :: resolvedManualKeys)).neededMore = some needed
  enough : ∃ needed, (analyzeGuard fl (some guard) codexPubs resolvedManualKeys).neededMore =
      some needed ∧
    needed ≤ (unresolvedKeys guard codexPubs resolvedManualKeys).length ∧
    ∀ entries : Record JsString, (∀ entry ∈ entries, entry.2 ≠ []) →
      (entries.map Prod.fst).Nodup →
      (∀ key ∈ entries.map Prod.fst, key ∈ unresolvedKeys guard codexPubs resolvedManualKeys) →
      entries.length = needed →
      (analyzeGuard fl (some guard) codexPubs (entries ++ resolvedManualKeys)).satisfied = true

theorem resolvable {fl : Rounding} {guard : Keyset} (hkeys : guard.keys.Nodup)
    (hpred : KnownOrRefused fl guard.pred) (codexPubs : StringSet)
    (resolvedManualKeys : Record JsString) :
    Resolvable fl guard codexPubs resolvedManualKeys := by
  rcases analyzeGuard_refines hkeys hpred with ⟨Q, hmembers, -, hrefines⟩
  have habsent : ∀ keys : List JsString,
      (∀ key ∈ keys, key ∈ unresolvedKeys guard codexPubs resolvedManualKeys) →
      keys.toFinset ⊆ Q.absent (countsAsSigner codexPubs resolvedManualKeys) := by
    intro keys h key hkey
    rcases mem_unresolvedKeys.1 (h key (List.mem_toFinset.1 hkey)) with ⟨hmem, hcounts⟩
    simp [Quorum.absent, hmembers, hmem, hcounts]
  have hlength : (Q.absent (countsAsSigner codexPubs resolvedManualKeys)).card =
      (unresolvedKeys guard codexPubs resolvedManualKeys).length := by
    have hnodup : (unresolvedKeys guard codexPubs resolvedManualKeys).Nodup :=
      (hkeys.filter _).filter _
    rw [← List.toFinset_card_of_nodup hnodup]
    congr 1
    ext key
    simp [Quorum.absent, hmembers, mem_unresolvedKeys]
  refine ⟨?_, ?_, ?_, ?_, ?_, ?_⟩
  · rw [analyzeGuard_codexKeys]
    exact List.filter_sublist
  · rw [analyzeGuard_foreignKeys]
    exact List.filter_sublist
  · intro key hkey
    simp [codexKeysOf, foreignKeysOf, hkey]
  · rw [(hrefines _ _).1, (hrefines _ _).2, Q.satisfied_iff, Option.some.injEq]
  · intro key hkey privateKey hne needed hneeded
    have hentries : ∀ entry ∈ [(key, privateKey)], entry.2 ≠ [] := by simpa using hne
    have hextra : ({key} : Finset JsString) ⊆
        Q.absent (countsAsSigner codexPubs resolvedManualKeys) := by
      simpa using habsent [key] (by simpa using hkey)
    rw [(hrefines _ _).2, Option.some.injEq] at hneeded ⊢
    have hmore : ∀ j ∈ Q.members,
        countsAsSigner codexPubs ((key, privateKey) :: resolvedManualKeys) j = true ↔
          j ∈ ({key} : Finset JsString) ∨ countsAsSigner codexPubs resolvedManualKeys j = true :=
      fun j _ => by simpa using countsAsSigner_append hentries j
    rw [Q.missing_of_extra hextra hmore, hneeded, Finset.card_singleton, Nat.add_sub_cancel]
  · refine ⟨_, (hrefines _ _).2, hlength ▸ Q.missing_le _, ?_⟩
    intro entries hentries hnodup hunresolved hcount
    have hcard : (entries.map Prod.fst).toFinset.card = entries.length := by
      rw [List.toFinset_card_of_nodup hnodup, List.length_map]
    rw [(hrefines _ _).1]
    exact Q.satisfied_of_extra (habsent _ hunresolved) (by rw [hcard, hcount])
      fun j _ => countsAsSigner_append hentries j

/-! ## Enlarging the codex and the map -/

/-- The codex has more keys, and the map more members. -/
def Enlarges (codexPubs codexPubs' : StringSet)
    (resolvedManualKeys resolvedManualKeys' : Record JsString) : Prop :=
  (∀ key, codexPubs.has key = true → codexPubs'.has key = true) ∧
    ∀ key text, resolvedManualKeys.lookup key = some text →
      resolvedManualKeys'.lookup key = some text

/-- An enlargement neither unsatisfies the guard nor asks for more keys. -/
def NeverUndone (fl : Rounding) (guard : Keyset) : Prop :=
  ∀ codexPubs codexPubs' resolvedManualKeys resolvedManualKeys',
    Enlarges codexPubs codexPubs' resolvedManualKeys resolvedManualKeys' →
    ((analyzeGuard fl (some guard) codexPubs resolvedManualKeys).satisfied = true →
      (analyzeGuard fl (some guard) codexPubs' resolvedManualKeys').satisfied = true) ∧
    ∀ needed needed',
      (analyzeGuard fl (some guard) codexPubs resolvedManualKeys).neededMore = some needed →
      (analyzeGuard fl (some guard) codexPubs' resolvedManualKeys').neededMore = some needed' →
      needed' ≤ needed

/-- A key that is no inherited name keeps counting. -/
theorem countsAsSigner_mono {codexPubs codexPubs' : StringSet}
    {resolvedManualKeys resolvedManualKeys' : Record JsString}
    (h : Enlarges codexPubs codexPubs' resolvedManualKeys resolvedManualKeys') {key : JsString}
    (hinherited : objectPrototype.lookup key = none)
    (hcounts : countsAsSigner codexPubs resolvedManualKeys key = true) :
    countsAsSigner codexPubs' resolvedManualKeys' key = true := by
  unfold countsAsSigner at hcounts ⊢
  rw [Bool.or_eq_true] at hcounts ⊢
  rcases hcounts with hcodex | hmanual
  · exact Or.inl (h.1 key hcodex)
  · refine Or.inr ?_
    cases hlookup : resolvedManualKeys.lookup key with
    | some text =>
        have hlookup' : resolvedManualKeys'.lookup key = resolvedManualKeys.lookup key := by
          rw [hlookup]
          exact h.2 key text hlookup
        rw [truthyText_congr hlookup']
        exact hmanual
    | none => simp [Record.truthyText, Record.property, hlookup, hinherited] at hmanual

theorem neverUndone_of_not_inherited {fl : Rounding} {guard : Keyset} (hkeys : guard.keys.Nodup)
    (hpred : KnownOrRefused fl guard.pred)
    (h : ∀ key ∈ guard.keys, objectPrototype.lookup key = none) : NeverUndone fl guard := by
  rcases analyzeGuard_refines hkeys hpred with ⟨Q, hmembers, -, hrefines⟩
  intro codexPubs codexPubs' resolvedManualKeys resolvedManualKeys' henlarges
  have hmono : ∀ key ∈ Q.members, countsAsSigner codexPubs resolvedManualKeys key = true →
      countsAsSigner codexPubs' resolvedManualKeys' key = true := by
    intro key hkey
    rw [hmembers, List.mem_toFinset] at hkey
    exact countsAsSigner_mono henlarges (h key hkey)
  refine ⟨?_, ?_⟩
  · rw [(hrefines _ _).1, (hrefines _ _).1]
    exact Q.satisfied_mono hmono
  · intro needed needed' hneeded hneeded'
    rw [(hrefines _ _).2, Option.some.injEq] at hneeded hneeded'
    rw [← hneeded, ← hneeded']
    exact Q.missing_anti hmono

/-- A map with an empty member for each of the keys. -/
def emptyEntries (keys : List JsString) : Record JsString :=
  keys.map fun key => (key, [])

theorem truthyText_emptyEntries {keys : List JsString} {key : JsString} (h : key ∈ keys) :
    (emptyEntries keys).truthyText key = none := by
  have hlookup : (emptyEntries keys).lookup key = some [] := by
    induction keys with
    | nil => cases h
    | cons first keys ih =>
        by_cases heq : key = first
        · subst heq
          exact List.lookup_cons_self
        · have hbeq : (key == first) = false := beq_eq_false_iff_ne.2 heq
          rw [emptyEntries, List.map_cons, List.lookup_cons, hbeq]
          exact ih ((List.mem_cons.1 h).resolve_left heq)
  simp [Record.truthyText, Record.property, hlookup]

theorem lookup_emptyEntries {keys : List JsString} {key : JsString} (h : key ∉ keys) :
    (emptyEntries keys).lookup key = none := by
  refine lookup_of_not_mem_names ?_
  simpa [emptyEntries] using h

/-- An inherited name counts until the map gets a member of that name that is empty.  The codex
holds the other keys that are needed, and the map an empty member for each of those that are not. -/
theorem not_neverUndone_of_inherited {fl : Rounding} {guard : Keyset} (hkeys : guard.keys.Nodup)
    (hpred : KnownOrRefused fl guard.pred) {key text : JsString} (hkey : key ∈ guard.keys)
    (hinherited : objectPrototype.lookup key = some text) : ¬NeverUndone fl guard := by
  intro hnever
  rcases analyzeGuard_refines hkeys hpred with ⟨Q, hmembers, hpos, hrefines⟩
  have hmem : key ∈ Q.members := by rw [hmembers, List.mem_toFinset]; exact hkey
  rcases Q.exists_decisive hmem (hpos (List.ne_nil_of_mem hkey)) with ⟨others, hsubset, hcard⟩
  have hnot : key ∉ others := fun h => (Finset.mem_erase.1 (hsubset h)).1 rfl
  have hothers : others ⊆ Q.members := hsubset.trans (Finset.erase_subset _ _)
  let codexPubs : StringSet := ⟨others.toList, others.nodup_toList⟩
  have hhas : ∀ k, codexPubs.has k = true ↔ k ∈ others := by
    intro k
    rw [StringSet.has_iff]
    exact Finset.mem_toList
  let before := emptyEntries (guard.keys.erase key)
  let after := emptyEntries (key :: guard.keys.erase key)
  have hbefore : before.lookup key = none := lookup_emptyEntries hkeys.not_mem_erase
  have henlarges : Enlarges codexPubs codexPubs before after := by
    refine ⟨fun k hk => hk, fun k v hk => ?_⟩
    have hne : (k == key) = false := by
      rw [beq_eq_false_iff_ne]
      rintro rfl
      rw [hbefore] at hk
      cases hk
    change List.lookup k ((key, []) :: before) = some v
    rw [List.lookup_cons, hne]
    exact hk
  have hpresent : Q.present (countsAsSigner codexPubs before) = insert key others := by
    refine Q.present_eq (Finset.insert_subset hmem hothers) fun k hk => ?_
    rw [hmembers, List.mem_toFinset] at hk
    rw [countsAsSigner, Bool.or_eq_true, hhas, Finset.mem_insert, or_comm]
    by_cases heq : k = key
    · subst heq
      simp [Record.truthyText, Record.property, hbefore, hinherited]
    · rw [truthyText_emptyEntries ((List.mem_erase_of_ne heq).2 hk)]
      simp [heq]
  have hpresent' : Q.present (countsAsSigner codexPubs after) = others := by
    refine Q.present_eq hothers fun k hk => ?_
    rw [hmembers, List.mem_toFinset] at hk
    have hmem' : k ∈ key :: guard.keys.erase key := by
      by_cases heq : k = key
      · exact List.mem_cons.2 (Or.inl heq)
      · exact List.mem_cons_of_mem _ ((List.mem_erase_of_ne heq).2 hk)
    rw [countsAsSigner, Bool.or_eq_true, hhas, truthyText_emptyEntries hmem']
    simp
  have hkeep := (hnever codexPubs codexPubs before after henlarges).1
  rw [(hrefines _ _).1, (hrefines _ _).1, Quorum.Satisfied, Quorum.Satisfied, hpresent, hpresent',
    Finset.card_insert_of_notMem hnot] at hkeep
  have hlost := hkeep (by omega)
  omega

/-- Resolving keys satisfies every guard without repeated keys, and enlarging the codex or the map
never undoes it exactly when no key is the name of an inherited member. -/
theorem analyzeGuard_progressive_iff {fl : Rounding} {guard : Keyset} (hkeys : guard.keys.Nodup)
    (hpred : KnownOrRefused fl guard.pred) :
    (∀ codexPubs resolvedManualKeys, Resolvable fl guard codexPubs resolvedManualKeys) ∧
      (NeverUndone fl guard ↔ ∀ key ∈ guard.keys, objectPrototype.lookup key = none) := by
  refine ⟨resolvable hkeys hpred, ?_, neverUndone_of_not_inherited hkeys hpred⟩
  intro hnever key hkey
  cases hinherited : objectPrototype.lookup key with
  | none => rfl
  | some text => exact absurd hnever (not_neverUndone_of_inherited hkeys hpred hkey hinherited)

/-- Two keys, one of which has to sign. -/
def eitherKeyGuard : Keyset where
  pred := js "keys-any"
  keys := [js "k1", js "k2"]

theorem analyzeGuard_progressive_iff_eitherKey :
    eitherKeyGuard.keys.Nodup ∧ KnownOrRefused Rounding.exact eitherKeyGuard.pred ∧
    (∀ codexPubs resolvedManualKeys,
      Resolvable Rounding.exact eitherKeyGuard codexPubs resolvedManualKeys) ∧
    (NeverUndone Rounding.exact eitherKeyGuard ↔
      ∀ key ∈ eitherKeyGuard.keys, objectPrototype.lookup key = none) :=
  have hkeys : eitherKeyGuard.keys.Nodup := by decide
  have hpred : KnownOrRefused Rounding.exact eitherKeyGuard.pred := Or.inl ⟨.any, rfl⟩
  ⟨hkeys, hpred, analyzeGuard_progressive_iff hkeys hpred⟩

/-- The only key of the guard is called `toString`: it counts as resolved while the map is empty,
and no longer when the map has an empty text for it. -/
theorem enlarging_unsatisfies :
    let guard : Keyset := { pred := js "keys-all", keys := [js "toString"] }
    guard.keys.Nodup ∧ KnownOrRefused Rounding.exact guard.pred ∧
    Enlarges StringSet.empty StringSet.empty [] [(js "toString", [])] ∧
    (analyzeGuard Rounding.exact (some guard) StringSet.empty []).satisfied = true ∧
    (analyzeGuard Rounding.exact (some guard) StringSet.empty
      [(js "toString", [])]).satisfied = false := by
  refine ⟨by decide, Or.inl ⟨.all, rfl⟩, ⟨fun _ h => h, fun _ _ h => nomatch h⟩, ?_, ?_⟩
  · rfl
  · rfl

end Guard
end StoaCore
