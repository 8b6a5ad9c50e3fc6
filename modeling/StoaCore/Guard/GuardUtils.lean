import StoaCore.Library.Js.Record
import StoaCore.Library.Js.Rounding

/-!
# GuardUtils — what a keyset guard needs and who can give it

`computeThreshold` reads how many keys a predicate asks for, `analyzeGuard` splits the keys of a
guard into those of the codex and foreign ones, and `selectCapsSigningKey` picks the key that
pays for gas.  A threshold is `none` where the source computes `NaN`.
-/

namespace StoaCore
namespace Guard

open Library.Js

/-- `IKeyset` -/
structure Keyset where
  pred : JsString
  keys : List JsString
  keysetRef : Option JsString := none
  deriving DecidableEq

/-- `UnknownPredicateError` with its message. -/
structure UnknownPredicateError where
  message : JsString
  deriving DecidableEq

/-! ## Predicate tables -/

def stoicFixed : Record Nat :=
  [(js "stoa-ns.stoic-predicates.keys-1", 1),
    (js "stoa-ns.stoic-predicates.keys-3", 3),
    (js "stoa-ns.stoic-predicates.keys-4", 4)]

def stoicMOfN : Record Nat :=
  [(js "stoa-ns.stoic-predicates.keys-2-of-3", 2),
    (js "stoa-ns.stoic-predicates.keys-3-of-5", 3),
    (js "stoa-ns.stoic-predicates.keys-4-of-7", 4),
    (js "stoa-ns.stoic-predicates.keys-5-of-9", 5)]

/-- The decimal literals, before they are rounded. -/
def stoicPct : Record Rat :=
  [(js "stoa-ns.stoic-predicates.at-least-51pct", 51 / 100),
    (js "stoa-ns.stoic-predicates.at-least-60pct", 60 / 100),
    (js "stoa-ns.stoic-predicates.at-least-66pct", 66 / 100),
    (js "stoa-ns.stoic-predicates.at-least-75pct", 75 / 100),
    (js "stoa-ns.stoic-predicates.at-least-90pct", 90 / 100)]

/-! ## computeThreshold -/

/-- `Math.min(table[pred], keyCount)`; what `Object.prototype` has is not a number. -/
def minThreshold (keyCount : Nat) : Property Nat → Option Nat
  | .own m => some (min m keyCount)
  | .inherited _ => none

section Arithmetic

variable (fl : Rounding)

/-- `Math.ceil(keyCount * table[pred])` -/
def ceilThreshold (keyCount : Nat) : Property Rat → Option Nat
  | .own pct => some ⌈fl.round (keyCount * fl.round pct)⌉₊
  | .inherited _ => none

/-- The three stoic tables, in the order of the source; `none` where `pred` is in none of them. -/
def stoicThreshold (pred : JsString) (keyCount : Nat) : Option (Option Nat) :=
  ((stoicFixed.property pred).map (minThreshold keyCount)).or
    (((stoicMOfN.property pred).map (minThreshold keyCount)).or
      ((stoicPct.property pred).map (ceilThreshold fl keyCount)))

def toleranceThreshold (pred : JsString) (keyCount : Nat) : Option Nat :=
  if pred = js "stoa-ns.stoic-predicates.all-but-one" then some (max 1 (keyCount - 1))
  else if pred = js "stoa-ns.stoic-predicates.all-but-two" then some (max 1 (keyCount - 2))
  else none

def unknownPredicate (pred : JsString) : UnknownPredicateError :=
  { message := js "computeThreshold: unrecognized predicate \"" ++ pred ++ js "\"" }

def computeThreshold (pred : JsString) (keyCount : Nat) :
    Except UnknownPredicateError (Option Nat) :=
  if keyCount = 0 then .ok (some 0)
  else if pred = js "keys-any" then .ok (some 1)
  else if pred = js "keys-all" then .ok (some keyCount)
  else if pred = js "keys-2" then .ok (some (min 2 keyCount))
  else
    match stoicThreshold fl pred keyCount with
    | some threshold => .ok threshold
    | none =>
        match toleranceThreshold pred keyCount with
        | some threshold => .ok (some threshold)
        | none => .error (unknownPredicate pred)

/-! ## analyzeGuard -/

structure GuardAnalysis where
  keys : List JsString
  pred : JsString
  threshold : Option Nat
  predicateRecognized : Bool
  codexKeys : List JsString
  foreignKeys : List JsString
  resolvedForeignKeys : List JsString
  signable : Nat
  satisfied : Bool
  neededMore : Option Nat
  predLabel : JsString

/-- The text of a number. -/
def thresholdText : Option Nat → JsString
  | none => js "NaN"
  | some n => js (toString n)

/-- `pred.split(".").pop()` -/
def shortName (pred : JsString) : JsString :=
  (pred.reverse.takeWhile fun c => c != unit '.').reverse

def predicateLabel (pred : JsString) (keyCount : Nat) : JsString :=
  match computeThreshold fl pred keyCount with
  | .error _ =>
      shortName pred ++ js " (unknown predicate, of " ++ js (toString keyCount) ++ js ")"
  | .ok threshold =>
      if pred = js "keys-any" then js "keys-any (1 of " ++ js (toString keyCount) ++ js ")"
      else if pred = js "keys-all" then
        js "keys-all (" ++ js (toString keyCount) ++ js " of " ++ js (toString keyCount) ++ js ")"
      else
        shortName pred ++ js " (" ++ thresholdText threshold ++ js " of " ++
          js (toString keyCount) ++ js ")"

/-- What `analyzeGuard` returns for a missing guard and for a guard without keys. -/
def trivialAnalysis : GuardAnalysis where
  keys := []
  pred := js "keys-all"
  threshold := some 0
  predicateRecognized := true
  codexKeys := []
  foreignKeys := []
  resolvedForeignKeys := []
  signable := 0
  satisfied := true
  neededMore := some 0
  predLabel := js "—"

/-- The threshold of a guard: all keys where the predicate is unknown. -/
def guardThreshold (guard : Keyset) : Option Nat :=
  match computeThreshold fl guard.pred guard.keys.length with
  | .ok threshold => threshold
  | .error _ => some guard.keys.length

def predicateRecognized (guard : Keyset) : Bool :=
  match computeThreshold fl guard.pred guard.keys.length with
  | .ok _ => true
  | .error _ => false

def codexKeysOf (guard : Keyset) (codexPubs : StringSet) : List JsString :=
  guard.keys.filter fun key => codexPubs.has key

def foreignKeysOf (guard : Keyset) (codexPubs : StringSet) : List JsString :=
  guard.keys.filter fun key => !codexPubs.has key

/-- `foreignKeys.filter(k => !!resolvedManualKeys[k])` -/
def resolvedForeignKeysOf (guard : Keyset) (codexPubs : StringSet)
    (resolvedManualKeys : Record JsString) : List JsString :=
  (foreignKeysOf guard codexPubs).filter fun key => (resolvedManualKeys.truthyText key).isSome

def analyzeGuard (guard : Option Keyset) (codexPubs : StringSet)
    (resolvedManualKeys : Record JsString) : GuardAnalysis :=
  match guard with
  | none => trivialAnalysis
  | some guard =>
      if guard.keys.isEmpty then trivialAnalysis
      else
        let threshold := guardThreshold fl guard
        let codexKeys := codexKeysOf guard codexPubs
        let resolvedForeignKeys := resolvedForeignKeysOf guard codexPubs resolvedManualKeys
        let signable := codexKeys.length + resolvedForeignKeys.length
        { keys := guard.keys
          pred := guard.pred
          threshold := threshold
          predicateRecognized := predicateRecognized fl guard
          codexKeys := codexKeys
          foreignKeys := foreignKeysOf guard codexPubs
          resolvedForeignKeys := resolvedForeignKeys
          signable := signable
          satisfied := threshold.any fun t => decide (t ≤ signable)
          neededMore := threshold.map fun t => t - signable
          predLabel := predicateLabel fl guard.pred guard.keys.length }

section Fields

variable (guard : Keyset) (codexPubs : StringSet) (resolvedManualKeys : Record JsString)

/-- A guard without keys has the analysis that its empty lists would give. -/
theorem analyzeGuard_cases :
    (guard.keys = [] ∧
      analyzeGuard fl (some guard) codexPubs resolvedManualKeys = trivialAnalysis) ∨
    (guard.keys ≠ [] ∧ ¬guard.keys.isEmpty = true) := by
  cases hkeys : guard.keys with
  | nil => exact Or.inl ⟨rfl, by simp [analyzeGuard, hkeys]⟩
  | cons key keys => exact Or.inr ⟨List.cons_ne_nil key keys, by simp⟩

@[simp] theorem analyzeGuard_codexKeys :
    (analyzeGuard fl (some guard) codexPubs resolvedManualKeys).codexKeys =
      codexKeysOf guard codexPubs := by
  rcases analyzeGuard_cases fl guard codexPubs resolvedManualKeys with ⟨hkeys, h⟩ | ⟨-, hempty⟩
  · rw [h, codexKeysOf, hkeys]
    rfl
  · simp [analyzeGuard, hempty]

@[simp] theorem analyzeGuard_foreignKeys :
    (analyzeGuard fl (some guard) codexPubs resolvedManualKeys).foreignKeys =
      foreignKeysOf guard codexPubs := by
  rcases analyzeGuard_cases fl guard codexPubs resolvedManualKeys with ⟨hkeys, h⟩ | ⟨-, hempty⟩
  · rw [h, foreignKeysOf, hkeys]
    rfl
  · simp [analyzeGuard, hempty]

@[simp] theorem analyzeGuard_resolvedForeignKeys :
    (analyzeGuard fl (some guard) codexPubs resolvedManualKeys).resolvedForeignKeys =
      resolvedForeignKeysOf guard codexPubs resolvedManualKeys := by
  rcases analyzeGuard_cases fl guard codexPubs resolvedManualKeys with ⟨hkeys, h⟩ | ⟨-, hempty⟩
  · rw [h, resolvedForeignKeysOf, foreignKeysOf, hkeys]
    rfl
  · simp [analyzeGuard, hempty]

@[simp] theorem analyzeGuard_threshold :
    (analyzeGuard fl (some guard) codexPubs resolvedManualKeys).threshold =
      guardThreshold fl guard := by
  rcases analyzeGuard_cases fl guard codexPubs resolvedManualKeys with ⟨hkeys, h⟩ | ⟨-, hempty⟩
  · rw [h, guardThreshold, hkeys]
    rfl
  · simp [analyzeGuard, hempty]

theorem analyzeGuard_signable_eq :
    (analyzeGuard fl (some guard) codexPubs resolvedManualKeys).signable =
      (codexKeysOf guard codexPubs).length +
        (resolvedForeignKeysOf guard codexPubs resolvedManualKeys).length := by
  rcases analyzeGuard_cases fl guard codexPubs resolvedManualKeys with ⟨hkeys, h⟩ | ⟨-, hempty⟩
  · rw [h, codexKeysOf, resolvedForeignKeysOf, foreignKeysOf, hkeys]
    rfl
  · simp [analyzeGuard, hempty]

@[simp] theorem analyzeGuard_satisfied :
    (analyzeGuard fl (some guard) codexPubs resolvedManualKeys).satisfied =
      (guardThreshold fl guard).any fun t =>
        decide (t ≤ (analyzeGuard fl (some guard) codexPubs resolvedManualKeys).signable) := by
  rcases analyzeGuard_cases fl guard codexPubs resolvedManualKeys with ⟨hkeys, h⟩ | ⟨-, hempty⟩
  · rw [h, guardThreshold, hkeys]
    rfl
  · simp [analyzeGuard, hempty]

@[simp] theorem analyzeGuard_neededMore :
    (analyzeGuard fl (some guard) codexPubs resolvedManualKeys).neededMore =
      (guardThreshold fl guard).map fun t =>
        t - (analyzeGuard fl (some guard) codexPubs resolvedManualKeys).signable := by
  rcases analyzeGuard_cases fl guard codexPubs resolvedManualKeys with ⟨hkeys, h⟩ | ⟨-, hempty⟩
  · rw [h, guardThreshold, hkeys]
    rfl
  · simp [analyzeGuard, hempty]

end Fields

end Arithmetic

/-! ## selectCapsSigningKey -/

structure CapsSelection where
  key : Option JsString
  isPaymentKey : Bool
  impossible : Bool
  deriving DecidableEq

/-- `paymentKeyPub && …`: the payment key, if it is not empty. -/
def truthyKey (paymentKeyPub : Option JsString) : Option JsString :=
  paymentKeyPub.filter fun key => key != []

def selectCapsSigningKey (paymentKeyPub : Option JsString) (codexPubs pureSigningPubs : StringSet) :
    CapsSelection :=
  match (truthyKey paymentKeyPub).filter fun key =>
      codexPubs.has key && !pureSigningPubs.has key with
  | some key => { key := some key, isPaymentKey := true, impossible := false }
  | none =>
      -- A set is iterated in the order of insertion.
      match codexPubs.elements.find? fun pub => !pureSigningPubs.has pub with
      | some pub => { key := some pub, isPaymentKey := false, impossible := false }
      | none =>
          let impossible := (truthyKey paymentKeyPub).any fun key => pureSigningPubs.has key
          { key := none, isPaymentKey := impossible, impossible := impossible }

/-! ## Bounds -/

section Bounds

variable (fl : Rounding)

theorem stoicPct_bounds : ∀ entry ∈ stoicPct, 1 / 2 ≤ entry.2 ∧ entry.2 ≤ 9 / 10 := by
  intro entry hentry
  simp only [stoicPct, List.mem_cons, List.not_mem_nil, or_false] at hentry
  rcases hentry with rfl | rfl | rfl | rfl | rfl <;> norm_num

/-- Rounding does not lift a percentage of the keys over all keys. -/
theorem ceil_pct_le {pct : Rat} (hlow : 1 / 2 ≤ pct) (hhigh : pct ≤ 9 / 10) {n : Nat}
    (hn : n ≠ 0) : ⌈fl.round (n * fl.round pct)⌉₊ ≤ n := by
  -- Two roundings: the literal is rounded, and so is its product with the number of keys.
  have hpct : fl.round pct ≤ 95 / 100 := by
    have hround := fl.round_le (q := pct) (by linarith)
    linarith
  have hpos : 0 ≤ fl.round pct := by
    have hround := fl.le_round (q := pct) (by linarith)
    linarith
  have hone : (1 : Rat) ≤ n := by exact_mod_cast Nat.one_le_iff_ne_zero.2 hn
  have hprod : (n : Rat) * fl.round pct ≤ n * (95 / 100) := by gcongr
  have hround := fl.round_le (q := (n : Rat) * fl.round pct) (by positivity)
  rw [Nat.ceil_le]
  linarith

theorem mem_of_lookup {ν : Type} {object : Record ν} {key : JsString} {v : ν}
    (h : object.lookup key = some v) : (key, v) ∈ object := by
  induction object with
  | nil => cases h
  | cons entry object ih =>
      rcases entry with ⟨k, u⟩
      by_cases hk : key = k
      · subst hk
        rw [List.lookup_cons_self] at h
        cases h
        exact List.mem_cons_self
      · have hbeq : (key == k) = false := beq_eq_false_iff_ne.2 hk
        rw [List.lookup_cons, hbeq] at h
        exact List.mem_cons_of_mem _ (ih h)

theorem mem_of_property {ν : Type} {object : Record ν} {key : JsString} {v : ν}
    (h : object.property key = some (.own v)) : (key, v) ∈ object := by
  unfold Record.property at h
  cases hlookup : object.lookup key with
  | some w =>
      rw [hlookup] at h
      cases h
      exact mem_of_lookup hlookup
  | none =>
      rw [hlookup] at h
      rcases Option.map_eq_some_iff.1 h with ⟨text, -, htext⟩
      cases htext

theorem minThreshold_le {n t : Nat} {entry : Property Nat} (h : minThreshold n entry = some t) :
    t ≤ n := by
  cases entry with
  | own m =>
      cases h
      exact min_le_right m n
  | inherited text => cases h

/-- The tables ask for no more keys than there are. -/
theorem stoicThreshold_le {pred : JsString} {n t : Nat} (hn : n ≠ 0)
    (h : stoicThreshold fl pred n = some (some t)) : t ≤ n := by
  unfold stoicThreshold at h
  rcases Option.or_eq_some_iff.1 h with hfixed | ⟨-, h⟩
  · rcases Option.map_eq_some_iff.1 hfixed with ⟨entry, -, hentry⟩
    exact minThreshold_le hentry
  · rcases Option.or_eq_some_iff.1 h with hm | ⟨-, h⟩
    · rcases Option.map_eq_some_iff.1 hm with ⟨entry, -, hentry⟩
      exact minThreshold_le hentry
    · rcases Option.map_eq_some_iff.1 h with ⟨entry, hentry, hceil⟩
      cases entry with
      | own pct =>
          have hbounds := stoicPct_bounds _ (mem_of_property hentry)
          cases hceil
          exact ceil_pct_le fl hbounds.1 hbounds.2 hn
      | inherited text => cases hceil

theorem toleranceThreshold_le {pred : JsString} {n t : Nat} (hn : n ≠ 0)
    (h : toleranceThreshold pred n = some t) : t ≤ n := by
  have hone : 1 ≤ n := Nat.one_le_iff_ne_zero.2 hn
  unfold toleranceThreshold at h
  split_ifs at h
  · cases h
    exact max_le hone (Nat.sub_le n 1)
  · cases h
    exact max_le hone (Nat.sub_le n 2)

/-- No predicate asks for more keys than there are. -/
theorem computeThreshold_le {pred : JsString} {n t : Nat}
    (h : computeThreshold fl pred n = .ok (some t)) : t ≤ n := by
  unfold computeThreshold at h
  split_ifs at h with hn
  · cases h
    exact Nat.zero_le n
  · cases h
    exact Nat.one_le_iff_ne_zero.2 hn
  · cases h
    exact le_refl n
  · cases h
    exact min_le_right 2 n
  · split at h
    case h_1 threshold hstoic =>
      cases h
      exact stoicThreshold_le fl hn hstoic
    case h_2 =>
      split at h
      case h_1 threshold htolerance =>
        cases h
        exact toleranceThreshold_le hn htolerance
      case h_2 => cases h

theorem guardThreshold_le {guard : Keyset} {t : Nat} (h : guardThreshold fl guard = some t) :
    t ≤ guard.keys.length := by
  unfold guardThreshold at h
  split at h
  case h_1 threshold hthreshold =>
    subst h
    exact computeThreshold_le fl hthreshold
  case h_2 => exact (Option.some.inj h).ge

end Bounds

end Guard
end StoaCore
