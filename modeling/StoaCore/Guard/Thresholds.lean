import StoaCore.Guard.GuardUtils

/-!
# Thresholds — what the predicates ask for

A listed predicate has a rule: how many of `n` keys have to sign.  `computeThreshold` follows the
rules of the listed predicates and refuses every other text, except for the names that each plain
object inherits: its tables find those too.
-/

namespace StoaCore
namespace Guard

open Library.Js

/-! ## Predicates and their rules -/

/-- The kinds of predicates; their numbers ask for at least one key and for no more than all. -/
inductive Predicate
  | any
  | all
  | atMost (m : Nat) (hm : 1 ≤ m)
  | percent (pct : Rat) (hpos : 0 < pct) (hone : pct ≤ 1)
  | allBut (m : Nat)

/-- How many of `n` keys have to sign. -/
def Predicate.rule (n : Nat) : Predicate → Nat
  | .any => 1
  | .all => n
  | .atMost m _ => min m n
  | .percent pct _ _ => ⌈n * pct⌉₊
  | .allBut m => max 1 (n - m)

/-- The predicates of Pact and those of the stoic family. -/
def predicates : List (JsString × Predicate) :=
  [(js "keys-any", .any), (js "keys-all", .all), (js "keys-2", .atMost 2 (by decide)),
    (js "stoa-ns.stoic-predicates.keys-1", .atMost 1 (by decide)),
    (js "stoa-ns.stoic-predicates.keys-3", .atMost 3 (by decide)),
    (js "stoa-ns.stoic-predicates.keys-4", .atMost 4 (by decide)),
    (js "stoa-ns.stoic-predicates.keys-2-of-3", .atMost 2 (by decide)),
    (js "stoa-ns.stoic-predicates.keys-3-of-5", .atMost 3 (by decide)),
    (js "stoa-ns.stoic-predicates.keys-4-of-7", .atMost 4 (by decide)),
    (js "stoa-ns.stoic-predicates.keys-5-of-9", .atMost 5 (by decide)),
    (js "stoa-ns.stoic-predicates.at-least-51pct", .percent (51 / 100) (by norm_num) (by norm_num)),
    (js "stoa-ns.stoic-predicates.at-least-60pct", .percent (60 / 100) (by norm_num) (by norm_num)),
    (js "stoa-ns.stoic-predicates.at-least-66pct", .percent (66 / 100) (by norm_num) (by norm_num)),
    (js "stoa-ns.stoic-predicates.at-least-75pct", .percent (75 / 100) (by norm_num) (by norm_num)),
    (js "stoa-ns.stoic-predicates.at-least-90pct", .percent (90 / 100) (by norm_num) (by norm_num)),
    (js "stoa-ns.stoic-predicates.all-but-one", .allBut 1),
    (js "stoa-ns.stoic-predicates.all-but-two", .allBut 2)]

/-- No rule asks for nothing, and none for more keys than there are. -/
theorem Predicate.rule_bounds (p : Predicate) {n : Nat} (hn : 1 ≤ n) :
    1 ≤ p.rule n ∧ p.rule n ≤ n := by
  have hone : (1 : Rat) ≤ n := by exact_mod_cast hn
  cases p with
  | any => exact ⟨le_rfl, hn⟩
  | all => exact ⟨hn, le_rfl⟩
  | atMost m hm => exact ⟨le_min hm hn, min_le_right m n⟩
  | percent pct hpos hle =>
      have hprod : 0 < n * pct := mul_pos (by linarith) hpos
      refine ⟨Nat.ceil_pos.2 hprod, Nat.ceil_le.2 ?_⟩
      exact mul_le_of_le_one_right (by linarith) hle
  | allBut m => exact ⟨le_max_left 1 _, max_le hn (Nat.sub_le n m)⟩

/-- With more keys, no rule asks for fewer. -/
theorem Predicate.rule_mono (p : Predicate) {n n' : Nat} (hle : n ≤ n') :
    p.rule n ≤ p.rule n' := by
  cases p with
  | any => exact le_rfl
  | all => exact hle
  | atMost m hm => exact min_le_min_left m hle
  | percent pct hpos hone =>
      have hcast : (n : Rat) ≤ n' := by exact_mod_cast hle
      exact Nat.ceil_mono (mul_le_mul_of_nonneg_right hcast hpos.le)
  | allBut m => exact max_le_max_left 1 (Nat.sub_le_sub_right hle m)

/-! ## The tables -/

theorem lookup_mem_names {ν : Type} {table : List (JsString × ν)} {pred : JsString} {v : ν}
    (h : table.lookup pred = some v) : pred ∈ table.map Prod.fst :=
  List.mem_map.2 ⟨(pred, v), mem_of_lookup h, rfl⟩

theorem lookup_of_not_mem_names {ν : Type} {table : List (JsString × ν)} {pred : JsString}
    (h : pred ∉ table.map Prod.fst) : table.lookup pred = none := by
  rw [List.lookup_eq_none_iff]
  intro entry hentry
  simpa using fun heq : pred = entry.1 => h (List.mem_map.2 ⟨entry, hentry, heq.symm⟩)

/-- The text is none of Pact's own predicates. -/
def NotStandard (pred : JsString) : Prop :=
  pred ≠ js "keys-any" ∧ pred ≠ js "keys-all" ∧ pred ≠ js "keys-2"

instance (pred : JsString) : Decidable (NotStandard pred) :=
  inferInstanceAs (Decidable (_ ∧ _))

/-- Each stoic name stands in one table, and no name is a standard one or inherited.  The texts are
read once for all of this. -/
theorem names_apart :
    (∀ name ∈ predicates.map Prod.fst, objectPrototype.lookup name = none) ∧
    (∀ entry ∈ stoicFixed, NotStandard entry.1 ∧ stoicFixed.lookup entry.1 = some entry.2) ∧
    (∀ entry ∈ stoicMOfN, NotStandard entry.1 ∧ stoicFixed.lookup entry.1 = none ∧
      stoicMOfN.lookup entry.1 = some entry.2) ∧
    (∀ entry ∈ stoicPct, NotStandard entry.1 ∧ stoicFixed.lookup entry.1 = none ∧
      stoicMOfN.lookup entry.1 = none ∧ stoicPct.lookup entry.1 = some entry.2) ∧
    ∀ pred ∈ [js "stoa-ns.stoic-predicates.all-but-one",
        js "stoa-ns.stoic-predicates.all-but-two"],
      NotStandard pred ∧ stoicFixed.lookup pred = none ∧ stoicMOfN.lookup pred = none ∧
        stoicPct.lookup pred = none := by
  decide +kernel

/-- No listed predicate has the name of an inherited member. -/
theorem predicates_not_inherited {pred : JsString} {p : Predicate}
    (h : predicates.lookup pred = some p) : objectPrototype.lookup pred = none :=
  names_apart.1 pred (lookup_mem_names h)

section Arithmetic

variable (fl : Rounding)

/-- Behind the three standard predicates come the tables. -/
theorem computeThreshold_of_table {pred : JsString} {n : Nat} (hn : 1 ≤ n)
    (hstandard : NotStandard pred) :
    computeThreshold fl pred n =
      match stoicThreshold fl pred n with
      | some threshold => .ok threshold
      | none =>
          match toleranceThreshold pred n with
          | some threshold => .ok (some threshold)
          | none => .error (unknownPredicate pred) := by
  have hzero : ¬n = 0 := by omega
  unfold computeThreshold
  refine (if_neg hzero).trans ((if_neg hstandard.1).trans ?_)
  exact (if_neg hstandard.2.1).trans (if_neg hstandard.2.2)

/-- The names in the tables of the source are listed. -/
theorem not_in_tables {pred : JsString} (h : predicates.lookup pred = none) :
    NotStandard pred ∧ stoicFixed.lookup pred = none ∧
      stoicMOfN.lookup pred = none ∧ stoicPct.lookup pred = none ∧
      ∀ n, toleranceThreshold pred n = none := by
  have hne : ∀ entry ∈ predicates, pred ≠ entry.1 := by
    intro entry hentry
    simpa using List.lookup_eq_none_iff.1 h entry hentry
  have hnames : ∀ name ∈ stoicFixed.map Prod.fst ++ (stoicMOfN.map Prod.fst ++
      stoicPct.map Prod.fst), name ∈ predicates.map Prod.fst := by
    simp [predicates, stoicFixed, stoicMOfN, stoicPct]
  have hnot : ∀ name ∈ predicates.map Prod.fst, pred ≠ name := by
    intro name hname
    rcases List.mem_map.1 hname with ⟨entry, hentry, rfl⟩
    exact hne entry hentry
  refine ⟨⟨hnot _ (by simp [predicates]), hnot _ (by simp [predicates]),
      hnot _ (by simp [predicates])⟩,
    lookup_of_not_mem_names fun hmem => ?_, lookup_of_not_mem_names fun hmem => ?_,
    lookup_of_not_mem_names fun hmem => ?_, fun n => ?_⟩
  · exact hnot pred (hnames pred (List.mem_append_left _ hmem)) rfl
  · exact hnot pred (hnames pred (List.mem_append_right _ (List.mem_append_left _ hmem))) rfl
  · exact hnot pred (hnames pred (List.mem_append_right _ (List.mem_append_right _ hmem))) rfl
  · unfold toleranceThreshold
    rw [if_neg (hnot _ (by simp [predicates])), if_neg (hnot _ (by simp [predicates]))]

/-- A text that is neither listed nor inherited is refused. -/
theorem computeThreshold_unknown {pred : JsString} {n : Nat} (hn : 1 ≤ n)
    (hlisted : predicates.lookup pred = none) (hinherited : objectPrototype.lookup pred = none) :
    computeThreshold fl pred n = .error (unknownPredicate pred) := by
  rcases not_in_tables hlisted with ⟨hstandard, hfixed, hmOfN, hpct, htolerance⟩
  have hstoic : stoicThreshold fl pred n = none := by
    simp [stoicThreshold, Record.property, hfixed, hmOfN, hpct, hinherited]
  rw [computeThreshold_of_table fl hn hstandard, hstoic]
  dsimp only
  rw [htolerance]

/-- A text that is inherited is found in the first table, and its threshold is no number. -/
theorem computeThreshold_inherited {pred text : JsString} {n : Nat} (hn : 1 ≤ n)
    (hinherited : objectPrototype.lookup pred = some text) :
    computeThreshold fl pred n = .ok none := by
  have hlisted : predicates.lookup pred = none := by
    cases h : predicates.lookup pred with
    | none => rfl
    | some p => exact absurd ((predicates_not_inherited h).symm.trans hinherited) (by simp)
  rcases not_in_tables hlisted with ⟨hstandard, hfixed, -⟩
  have hstoic : stoicThreshold fl pred n = some none := by
    simp [stoicThreshold, Record.property, hfixed, hinherited, minThreshold]
  rw [computeThreshold_of_table fl hn hstandard, hstoic]

/-- Rounding does not bring a percentage of the keys down to no key. -/
theorem one_le_ceil_pct {pct : Rat} (hlow : 1 / 2 ≤ pct) {n : Nat} (hn : 1 ≤ n) :
    1 ≤ ⌈fl.round (n * fl.round pct)⌉₊ := by
  have hpct : 49 / 100 ≤ fl.round pct := by
    have hround := fl.le_round (q := pct) (by linarith)
    linarith
  have hone : (1 : Rat) ≤ n := by exact_mod_cast hn
  have hprod : 49 / 100 ≤ (n : Rat) * fl.round pct := by
    calc (49 / 100 : Rat)
        ≤ fl.round pct := hpct
      _ ≤ n * fl.round pct := le_mul_of_one_le_left (by linarith) hone
  have hround := fl.le_round (q := (n : Rat) * fl.round pct) (by linarith)
  refine Nat.ceil_pos.2 ?_
  linarith

/-- What the tables hold of their own asks for a key at least. -/
theorem stoicThreshold_pos {pred : JsString} {n : Nat} {threshold : Option Nat} (hn : 1 ≤ n)
    (hinherited : objectPrototype.lookup pred = none)
    (h : stoicThreshold fl pred n = some threshold) : ∃ t, threshold = some t ∧ 1 ≤ t := by
  have hfixed : ∀ entry ∈ stoicFixed, 1 ≤ entry.2 := by decide
  have hmOfN : ∀ entry ∈ stoicMOfN, 1 ≤ entry.2 := by decide
  have hown : ∀ {ν : Type} {table : Record ν} {entry : Property ν},
      table.property pred = some entry → ∃ v, entry = .own v ∧ (pred, v) ∈ table := by
    intro ν table entry hentry
    cases entry with
    | own v => exact ⟨v, rfl, mem_of_property hentry⟩
    | inherited text =>
        -- An inherited member would be in the prototype.
        unfold Record.property at hentry
        rw [hinherited] at hentry
        split at hentry
        · cases hentry
        · cases hentry
  unfold stoicThreshold at h
  rcases Option.or_eq_some_iff.1 h with htable | ⟨-, h⟩
  · rcases Option.map_eq_some_iff.1 htable with ⟨entry, hentry, rfl⟩
    rcases hown hentry with ⟨m, rfl, hmem⟩
    exact ⟨_, rfl, le_min (hfixed _ hmem) hn⟩
  rcases Option.or_eq_some_iff.1 h with htable | ⟨-, h⟩
  · rcases Option.map_eq_some_iff.1 htable with ⟨entry, hentry, rfl⟩
    rcases hown hentry with ⟨m, rfl, hmem⟩
    exact ⟨_, rfl, le_min (hmOfN _ hmem) hn⟩
  · rcases Option.map_eq_some_iff.1 h with ⟨entry, hentry, rfl⟩
    rcases hown hentry with ⟨pct, rfl, hmem⟩
    exact ⟨_, rfl, one_le_ceil_pct fl (stoicPct_bounds _ hmem).1 hn⟩

/-- A threshold that is returned is a number of keys, unless the predicate is inherited. -/
theorem computeThreshold_pos {pred : JsString} {n : Nat} {threshold : Option Nat} (hn : 1 ≤ n)
    (hinherited : objectPrototype.lookup pred = none)
    (h : computeThreshold fl pred n = .ok threshold) : ∃ t, threshold = some t ∧ 1 ≤ t := by
  unfold computeThreshold at h
  split_ifs at h with hzero
  · omega
  · cases h
    exact ⟨1, rfl, le_rfl⟩
  · cases h
    exact ⟨n, rfl, hn⟩
  · cases h
    exact ⟨_, rfl, le_min (by decide) hn⟩
  · split at h
    case h_1 found hstoic =>
      cases h
      exact stoicThreshold_pos fl hn hinherited hstoic
    case h_2 =>
      split at h
      case h_1 t htolerance =>
        cases h
        refine ⟨t, rfl, ?_⟩
        unfold toleranceThreshold at htolerance
        split_ifs at htolerance <;> cases htolerance <;> exact le_max_left 1 _
      case h_2 => cases h

/-- A guard with such a predicate has a threshold from one to the number of its keys. -/
theorem guardThreshold_pos {guard : Keyset}
    (hinherited : objectPrototype.lookup guard.pred = none) :
    ∃ t, guardThreshold fl guard = some t ∧ t ≤ guard.keys.length ∧
      (guard.keys ≠ [] → 1 ≤ t) := by
  have hbound : ∀ t, guardThreshold fl guard = some t → t ≤ guard.keys.length :=
    fun t => guardThreshold_le fl
  by_cases hempty : guard.keys = []
  · refine ⟨0, ?_, Nat.zero_le _, fun hne => absurd hempty hne⟩
    simp [guardThreshold, computeThreshold, hempty]
  · have hn : 1 ≤ guard.keys.length := List.length_pos_iff.2 hempty
    unfold guardThreshold at hbound ⊢
    cases hthreshold : computeThreshold fl guard.pred guard.keys.length with
    | error e => exact ⟨_, rfl, le_rfl, fun _ => hn⟩
    | ok threshold =>
        rcases computeThreshold_pos fl hn hinherited hthreshold with ⟨t, rfl, hpos⟩
        rw [hthreshold] at hbound
        exact ⟨t, rfl, hbound t rfl, fun _ => hpos⟩

end Arithmetic

/-! ## The rules of the listed predicates -/

section Listed

variable {pred : JsString} {n : Nat} (hn : 1 ≤ n) (hstandard : NotStandard pred)

include hn hstandard

theorem computeThreshold_of_fixed {m : Nat} (h : stoicFixed.lookup pred = some m) :
    computeThreshold Rounding.exact pred n = .ok (some (min m n)) := by
  have hstoic : stoicThreshold Rounding.exact pred n = some (some (min m n)) := by
    simp [stoicThreshold, Record.property, h, minThreshold]
  rw [computeThreshold_of_table _ hn hstandard, hstoic]

variable (hinherited : objectPrototype.lookup pred = none)
  (hfixed : stoicFixed.lookup pred = none)

include hinherited hfixed

theorem computeThreshold_of_mOfN {m : Nat} (h : stoicMOfN.lookup pred = some m) :
    computeThreshold Rounding.exact pred n = .ok (some (min m n)) := by
  have hstoic : stoicThreshold Rounding.exact pred n = some (some (min m n)) := by
    simp [stoicThreshold, Record.property, hfixed, hinherited, h, minThreshold]
  rw [computeThreshold_of_table _ hn hstandard, hstoic]

variable (hmOfN : stoicMOfN.lookup pred = none)

include hmOfN

theorem computeThreshold_of_pct {pct : Rat} (h : stoicPct.lookup pred = some pct) :
    computeThreshold Rounding.exact pred n = .ok (some ⌈n * pct⌉₊) := by
  have hstoic : stoicThreshold Rounding.exact pred n = some (some ⌈n * pct⌉₊) := by
    simp [stoicThreshold, Record.property, hfixed, hmOfN, hinherited, h, ceilThreshold,
      Rounding.exact]
  rw [computeThreshold_of_table _ hn hstandard, hstoic]

theorem computeThreshold_of_tolerance {t : Nat} (hpct : stoicPct.lookup pred = none)
    (h : toleranceThreshold pred n = some t) :
    computeThreshold Rounding.exact pred n = .ok (some t) := by
  have hstoic : stoicThreshold Rounding.exact pred n = none := by
    simp [stoicThreshold, Record.property, hfixed, hmOfN, hpct, hinherited]
  rw [computeThreshold_of_table _ hn hstandard, hstoic]
  dsimp only
  rw [h]

end Listed

/-- A listed predicate is given its rule. -/
theorem computeThreshold_listed {pred : JsString} {p : Predicate} {n : Nat} (hn : 1 ≤ n)
    (h : predicates.lookup pred = some p) :
    computeThreshold Rounding.exact pred n = .ok (some (p.rule n)) := by
  have hzero : ¬n = 0 := by omega
  have hinherited := predicates_not_inherited h
  rcases names_apart with ⟨-, hfixedTable, hmOfNTable, hpctTable, htolerance⟩
  have hfixed : ∀ m, (pred, m) ∈ stoicFixed →
      computeThreshold Rounding.exact pred n = .ok (some (min m n)) := fun m hm =>
    have hlookup := hfixedTable _ hm
    computeThreshold_of_fixed hn hlookup.1 hlookup.2
  have hmOfN : ∀ m, (pred, m) ∈ stoicMOfN →
      computeThreshold Rounding.exact pred n = .ok (some (min m n)) := fun m hm =>
    have hlookup := hmOfNTable _ hm
    computeThreshold_of_mOfN hn hlookup.1 hinherited hlookup.2.1 hlookup.2.2
  have hpct : ∀ pct, (pred, pct) ∈ stoicPct →
      computeThreshold Rounding.exact pred n = .ok (some ⌈n * pct⌉₊) := fun pct hmem =>
    have hlookup := hpctTable _ hmem
    computeThreshold_of_pct hn hlookup.1 hinherited hlookup.2.1 hlookup.2.2.1 hlookup.2.2.2
  have hmem := mem_of_lookup h
  simp only [predicates, List.mem_cons, List.not_mem_nil, or_false, Prod.mk.injEq] at hmem
  rcases hmem with ⟨rfl, rfl⟩ | ⟨rfl, rfl⟩ | ⟨rfl, rfl⟩ | hmem
  · rw [computeThreshold, if_neg hzero, if_pos rfl]
    rfl
  · rw [computeThreshold, if_neg hzero, if_neg (by decide +kernel), if_pos rfl]
    rfl
  · rw [computeThreshold, if_neg hzero, if_neg (by decide +kernel), if_neg (by decide +kernel),
      if_pos rfl]
    rfl
  rcases hmem with ⟨rfl, rfl⟩ | ⟨rfl, rfl⟩ | ⟨rfl, rfl⟩ | hmem
  · exact hfixed 1 (.head _)
  · exact hfixed 3 (.tail _ (.head _))
  · exact hfixed 4 (.tail _ (.tail _ (.head _)))
  rcases hmem with ⟨rfl, rfl⟩ | ⟨rfl, rfl⟩ | ⟨rfl, rfl⟩ | ⟨rfl, rfl⟩ | hmem
  · exact hmOfN 2 (.head _)
  · exact hmOfN 3 (.tail _ (.head _))
  · exact hmOfN 4 (.tail _ (.tail _ (.head _)))
  · exact hmOfN 5 (.tail _ (.tail _ (.tail _ (.head _))))
  rcases hmem with ⟨rfl, rfl⟩ | ⟨rfl, rfl⟩ | ⟨rfl, rfl⟩ | ⟨rfl, rfl⟩ | ⟨rfl, rfl⟩ | hmem
  · exact hpct _ (.head _)
  · exact hpct _ (.tail _ (.head _))
  · exact hpct _ (.tail _ (.tail _ (.head _)))
  · exact hpct _ (.tail _ (.tail _ (.tail _ (.head _))))
  · exact hpct _ (.tail _ (.tail _ (.tail _ (.tail _ (.head _)))))
  rcases hmem with ⟨rfl, rfl⟩ | ⟨rfl, rfl⟩
  · have hlookup := htolerance _ (.head _)
    exact computeThreshold_of_tolerance hn hlookup.1 hinherited hlookup.2.1 hlookup.2.2.1
      hlookup.2.2.2 (if_pos rfl)
  · have hlookup := htolerance _ (.tail _ (.head _))
    refine computeThreshold_of_tolerance hn hlookup.1 hinherited hlookup.2.1 hlookup.2.2.1
      hlookup.2.2.2 ?_
    rw [toleranceThreshold, if_neg (by decide +kernel), if_pos rfl]
    rfl

/-! ## Every predicate text -/

/-- A listed predicate has the threshold of its rule, which is a number from one to the number of
keys and grows with it; every other text is refused, and a guard with it falls back to all keys. -/
def ThresholdCorrect (pred : JsString) (n : Nat) : Prop :=
  match predicates.lookup pred with
  | some p =>
      computeThreshold Rounding.exact pred n = .ok (some (p.rule n)) ∧
        1 ≤ p.rule n ∧ p.rule n ≤ n ∧ ∀ n', n ≤ n' → p.rule n ≤ p.rule n'
  | none =>
      computeThreshold Rounding.exact pred n = .error (unknownPredicate pred) ∧
        ∀ (guard : Keyset) (codexPubs : StringSet) (resolvedManualKeys : Record JsString),
          guard.pred = pred → guard.keys.length = n →
          let analysis := analyzeGuard Rounding.exact (some guard) codexPubs resolvedManualKeys
          analysis.predicateRecognized = false ∧ analysis.threshold = some n

/-- An unknown predicate falls back to all keys. -/
theorem analyzeGuard_of_unknown (fl : Rounding) {guard : Keyset}
    {error : UnknownPredicateError} (hne : guard.keys.length ≠ 0)
    (h : computeThreshold fl guard.pred guard.keys.length = .error error)
    (codexPubs : StringSet) (resolvedManualKeys : Record JsString) :
    (analyzeGuard fl (some guard) codexPubs resolvedManualKeys).predicateRecognized = false ∧
      (analyzeGuard fl (some guard) codexPubs resolvedManualKeys).threshold =
        some guard.keys.length := by
  have hempty : ¬guard.keys.isEmpty = true := by
    simpa [List.isEmpty_iff] using fun heq : guard.keys = [] => hne (by rw [heq]; rfl)
  simp [analyzeGuard, hempty, predicateRecognized, guardThreshold, h]

/-- The threshold is right for every text but the names that plain objects inherit. -/
theorem computeThreshold_correct_iff (pred : JsString) {n : Nat} (hn : 1 ≤ n) :
    ThresholdCorrect pred n ↔ objectPrototype.lookup pred = none := by
  unfold ThresholdCorrect
  cases hlisted : predicates.lookup pred with
  | some p =>
      have hbounds := p.rule_bounds hn
      refine iff_of_true ?_ (predicates_not_inherited hlisted)
      exact ⟨computeThreshold_listed hn hlisted, hbounds.1, hbounds.2, fun n' => p.rule_mono⟩
  | none =>
      cases hinherited : objectPrototype.lookup pred with
      | none =>
          have herror := computeThreshold_unknown Rounding.exact hn hlisted hinherited
          refine iff_of_true ⟨herror, ?_⟩ rfl
          rintro guard codexPubs resolvedManualKeys rfl rfl
          exact analyzeGuard_of_unknown _ (by omega) herror codexPubs resolvedManualKeys
      | some text =>
          -- The threshold is `NaN`, and nothing is thrown.
          have hnumber := computeThreshold_inherited Rounding.exact hn hinherited
          refine iff_of_false ?_ (by simp)
          rintro ⟨herror, -⟩
          rw [hnumber] at herror
          cases herror

theorem computeThreshold_correct_iff_keysTwo :
    1 ≤ 3 ∧ (ThresholdCorrect (js "keys-2") 3 ↔ objectPrototype.lookup (js "keys-2") = none) :=
  ⟨by decide, computeThreshold_correct_iff (js "keys-2") (by decide)⟩

/-- `toString` is found in the first table: no error is thrown, and the threshold is no number. -/
theorem toString_recognized :
    ¬ThresholdCorrect (js "toString") 2 ∧
    computeThreshold Rounding.exact (js "toString") 2 = .ok none ∧
    predicates.lookup (js "toString") = none := by
  have hinherited : objectPrototype.lookup (js "toString") =
      some (js "function toString() \x7b [native code] \x7d") := by
    decide +kernel
  have hnumber : computeThreshold Rounding.exact (js "toString") 2 = .ok none :=
    computeThreshold_inherited Rounding.exact (by decide) hinherited
  have hlisted : predicates.lookup (js "toString") = none :=
    lookup_of_not_mem_names (by decide +kernel)
  refine ⟨?_, hnumber, hlisted⟩
  unfold ThresholdCorrect
  rw [hlisted]
  rintro ⟨herror, -⟩
  rw [hnumber] at herror
  cases herror

end Guard
end StoaCore
