import StoaCore.Guard.GuardUtils
import StoaCore.Library.Js.Value

/-!
# SmartAccountAuth — the three ways into a smart account

The chain accepts any one of three guards.  The analyzer classifies the raw guards by their shape,
takes the keysets out of those that have keys, and reports which of them the codex can satisfy.
Raw guards come from the chain and may hold anything, so their keys need not be texts.
-/

namespace StoaCore
namespace Guard

open Library.Js

/-! ## classifyGuardKind -/

inductive GuardKind
  | keyset
  | keysetRef
  | capability
  | user
  | unknown
  deriving DecidableEq

/-- `name in o`, and the member satisfies `test`. -/
def memberIs (o : List (JsString × Value)) (name : String) (test : Value → Bool) : Bool :=
  (o.lookup (js name)).any test

def isString : Value → Bool
  | .str _ => true
  | _ => false

/-- `typeof v === "object" && v !== null`, which arrays pass too. -/
def isObject : Value → Bool
  | .obj _ => true
  | .arr _ => true
  | _ => false

def isArray : Value → Bool
  | .arr _ => true
  | _ => false

def isDefined (v : Value) : Bool :=
  !v.isUndefined

def classifyGuardKind (g : Value) : GuardKind :=
  match g with
  | .obj o =>
      if memberIs o "cgName" isString && memberIs o "cgArgs" isDefined &&
          memberIs o "cgPactId" (fun _ => true) then .capability
      else if memberIs o "fun" isString && memberIs o "args" isDefined then .user
      -- Either casing of the reference is accepted.
      else if memberIs o "keysetref" isObject || memberIs o "keysetRef" isObject then .keysetRef
      else if memberIs o "pred" isString && memberIs o "keys" isArray then .keyset
      else .unknown
  | _ => .unknown

/-! ## normalizeKeysetRef -/

/-- The chain's `keysetref` is copied to `keysetRef`, unless a field of that name is there. -/
def normalizeKeysetRef (g : Value) : Value :=
  match g with
  | .obj o =>
      if (o.lookup (js "keysetRef")).isSome then g
      else
        match o.lookup (js "keysetref") with
        | none => g
        | some ref => .obj (setField o (js "keysetRef") ref)
  | _ => g

/-! ## extractKeysetFromGuard -/

/-- What `extractKeysetFromGuard` returns: declared as an `IKeyset`, but copied unchecked. -/
structure RawKeyset where
  pred : JsString
  keys : List Value
  /-- `undefined` where the guard has no truthy one. -/
  keysetRef : Value

def extractKeysetFromGuard (g : Value) : Option RawKeyset :=
  if classifyGuardKind g = .keyset then
    match g with
    | .obj o =>
        match o.lookup (js "pred"), o.lookup (js "keys") with
        | some (.str pred), some (.arr keys) =>
            let keysetRef := (o.lookup (js "keysetRef")).getD .undefined
            some
              { pred := pred
                keys := keys
                keysetRef := if keysetRef.truthy then keysetRef else .undefined }
        | _, _ => none
    | _ => none
  else none

/-- The texts of a list of texts. -/
def textsOf : List Value → Option (List JsString)
  | [] => some []
  | .str s :: items => (textsOf items).map (s :: ·)
  | _ :: _ => none

/-- The keyset as the type `IKeyset` has it, where the copy keeps to that type. -/
def RawKeyset.toKeyset (raw : RawKeyset) : Option Keyset :=
  match textsOf raw.keys, raw.keysetRef with
  | some keys, .undefined => some { pred := raw.pred, keys := keys }
  | some keys, .str ref => some { pred := raw.pred, keys := keys, keysetRef := some ref }
  | _, _ => none

/-! ## analyzeGuard on what was extracted -/

/-- `GuardAnalysis` of keys that may be anything. -/
structure RawAnalysis where
  keys : List Value
  pred : JsString
  threshold : Option Nat
  predicateRecognized : Bool
  codexKeys : List Value
  foreignKeys : List Value
  resolvedForeignKeys : List Value
  signable : Nat
  satisfied : Bool
  neededMore : Option Nat
  predLabel : JsString

def GuardAnalysis.toRaw (a : GuardAnalysis) : RawAnalysis where
  keys := a.keys.map .str
  pred := a.pred
  threshold := a.threshold
  predicateRecognized := a.predicateRecognized
  codexKeys := a.codexKeys.map .str
  foreignKeys := a.foreignKeys.map .str
  resolvedForeignKeys := a.resolvedForeignKeys.map .str
  signable := a.signable
  satisfied := a.satisfied
  neededMore := a.neededMore
  predLabel := a.predLabel

/-- `codexPubs.has(key)` -/
def hasKey (codexPubs : StringSet) : Value → Bool
  | .str s => codexPubs.has s
  | _ => false

section Arithmetic

variable (fl : Rounding)

/-- `analyzeGuard` on an extracted keyset; a key that is no text is looked up under its text. -/
def analyzeRawKeyset (guard : RawKeyset) (codexPubs : StringSet)
    (resolvedManualKeys : Record JsString) : RawAnalysis :=
  if guard.keys.isEmpty then trivialAnalysis.toRaw
  else
    let keyCount := guard.keys.length
    let threshold :=
      match computeThreshold fl guard.pred keyCount with
      | .ok threshold => threshold
      | .error _ => some keyCount
    let codexKeys := guard.keys.filter fun key => hasKey codexPubs key
    let foreignKeys := guard.keys.filter fun key => !hasKey codexPubs key
    let resolvedForeignKeys := foreignKeys.filter fun key =>
      (resolvedManualKeys.truthyText key.template).isSome
    let signable := codexKeys.length + resolvedForeignKeys.length
    { keys := guard.keys
      pred := guard.pred
      threshold := threshold
      predicateRecognized := (computeThreshold fl guard.pred keyCount).toBool
      codexKeys := codexKeys
      foreignKeys := foreignKeys
      resolvedForeignKeys := resolvedForeignKeys
      signable := signable
      satisfied := threshold.any fun t => decide (t ≤ signable)
      neededMore := threshold.map fun t => t - signable
      predLabel := predicateLabel fl guard.pred keyCount }

/-! ## analyzeSmartAccountAuthPaths -/

inductive BranchName
  | guard
  | sovereign
  | governor
  deriving DecidableEq

/-- `SmartAccountAuthBranch` -/
structure AuthBranch where
  which : BranchName
  kind : GuardKind
  keyBased : Bool
  analysis : Option RawAnalysis
  rawGuard : Value

/-- `SmartAccountAuthPaths`: the branches stand in canonical order. -/
structure AuthPaths where
  branches : List AuthBranch
  anyKeyBased : Bool
  firstSatisfied : Int
  firstSignableButUnsatisfied : Int
  canonical : branches.map AuthBranch.which = [.guard, .sovereign, .governor]

structure SmartAccountGuards where
  accountGuard : Value
  sovereignGuard : Value
  governor : Value

def buildBranch (codexPubs : StringSet) (resolvedManualKeys : Record JsString)
    (which : BranchName) (rawGuard : Value) : AuthBranch :=
  let kind := classifyGuardKind rawGuard
  let keyBased := kind == .keyset
  let ks := if keyBased then extractKeysetFromGuard rawGuard else none
  { which := which
    kind := kind
    keyBased := keyBased
    analysis := ks.map fun ks => analyzeRawKeyset fl ks codexPubs resolvedManualKeys
    rawGuard := rawGuard }

/-- The index of the first branch that satisfies `test`, or `-1`. -/
def firstIndex (test : AuthBranch → Bool) (branches : List AuthBranch) : Int :=
  match branches.findIdx? test with
  | some i => i
  | none => -1

def AuthBranch.isSatisfied (b : AuthBranch) : Bool :=
  b.analysis.any fun analysis => analysis.satisfied

def analyzeSmartAccountAuthPaths (guards : SmartAccountGuards) (codexPubs : StringSet)
    (resolvedManualKeys : Record JsString) : AuthPaths :=
  let branches :=
    [buildBranch fl codexPubs resolvedManualKeys .guard guards.accountGuard,
      buildBranch fl codexPubs resolvedManualKeys .sovereign guards.sovereignGuard,
      buildBranch fl codexPubs resolvedManualKeys .governor guards.governor]
  { branches := branches
    anyKeyBased := branches.any AuthBranch.keyBased
    firstSatisfied := firstIndex AuthBranch.isSatisfied branches
    firstSignableButUnsatisfied := firstIndex
      (fun b => b.keyBased && b.analysis.any fun analysis => !analysis.satisfied) branches
    canonical := rfl }

/-! ## The analysis of a keyset that keeps to its type -/

theorem map_str_of_textsOf {items : List Value} {texts : List JsString}
    (h : textsOf items = some texts) : items = texts.map .str := by
  induction items generalizing texts with
  | nil =>
      cases h
      rfl
  | cons item items ih =>
      cases item with
      | str s =>
          rcases Option.map_eq_some_iff.1 h with ⟨rest, hrest, rfl⟩
          rw [ih hrest, List.map_cons]
      | _ => cases h

theorem toKeyset_inv {raw : RawKeyset} {ks : Keyset} (h : raw.toKeyset = some ks) :
    raw.pred = ks.pred ∧ raw.keys = ks.keys.map .str := by
  unfold RawKeyset.toKeyset at h
  split at h
  case h_1 keys hkeys _ =>
    cases h
    exact ⟨rfl, map_str_of_textsOf hkeys⟩
  case h_2 keys ref hkeys _ =>
    cases h
    exact ⟨rfl, map_str_of_textsOf hkeys⟩
  case h_3 => cases h

theorem filter_map_str (test : Value → Bool) (keys : List JsString) :
    (keys.map Value.str).filter test = (keys.filter fun key => test (.str key)).map .str := by
  rw [List.filter_map]
  rfl

/-- On keys that are texts, the analyzer's analysis is `analyzeGuard`'s. -/
theorem analyzeRawKeyset_eq {raw : RawKeyset} {ks : Keyset} (h : raw.toKeyset = some ks)
    (codexPubs : StringSet) (resolvedManualKeys : Record JsString) :
    analyzeRawKeyset fl raw codexPubs resolvedManualKeys =
      (analyzeGuard fl (some ks) codexPubs resolvedManualKeys).toRaw := by
  rcases toKeyset_inv h with ⟨hpred, hkeys⟩
  unfold analyzeRawKeyset analyzeGuard
  rw [hpred, hkeys]
  by_cases hempty : ks.keys.isEmpty = true
  · simp [hempty]
  · have hraw : ¬ (ks.keys.map Value.str).isEmpty = true := by simpa using hempty
    rw [if_neg hraw]
    dsimp only
    rw [if_neg hempty]
    -- Both sides filter the same keys, before or after they are wrapped.
    have hrecognized : (computeThreshold fl ks.pred ks.keys.length).toBool =
        predicateRecognized fl ks := by
      unfold predicateRecognized
      cases computeThreshold fl ks.pred ks.keys.length <;> rfl
    simp only [filter_map_str, List.length_map, hrecognized]
    rfl

/-! ## The first branch that can be satisfied -/

/-- A branch that is reported as satisfied has a keyset, and its analysis says so. -/
theorem firstSatisfied_inv {guards : SmartAccountGuards} {codexPubs : StringSet}
    {resolvedManualKeys : Record JsString} {i : Nat} {branch : AuthBranch}
    (hfirst : (analyzeSmartAccountAuthPaths fl guards codexPubs
      resolvedManualKeys).firstSatisfied = i)
    (hbranch : (analyzeSmartAccountAuthPaths fl guards codexPubs
      resolvedManualKeys).branches[i]? = some branch) :
    ∃ raw, extractKeysetFromGuard branch.rawGuard = some raw ∧
      branch.analysis = some (analyzeRawKeyset fl raw codexPubs resolvedManualKeys) ∧
      (analyzeRawKeyset fl raw codexPubs resolvedManualKeys).satisfied = true := by
  set branches := (analyzeSmartAccountAuthPaths fl guards codexPubs resolvedManualKeys).branches
    with hbranches
  have hindex : firstIndex AuthBranch.isSatisfied branches = i := hfirst
  have hsatisfied : branch.isSatisfied = true := by
    unfold firstIndex at hindex
    cases hfind : branches.findIdx? AuthBranch.isSatisfied with
    | none =>
        rw [hfind] at hindex
        dsimp only at hindex
        omega
    | some j =>
        rw [hfind] at hindex
        obtain rfl : j = i := Int.ofNat.inj hindex
        rcases List.findIdx?_eq_some_iff_getElem.1 hfind with ⟨hlt, htest, -⟩
        rw [List.getElem?_eq_getElem hlt] at hbranch
        cases hbranch
        exact htest
  have hmem : branch ∈ branches := List.mem_of_getElem? hbranch
  have hbuilt : ∃ which rawGuard,
      branch = buildBranch fl codexPubs resolvedManualKeys which rawGuard := by
    rw [hbranches] at hmem
    simp only [analyzeSmartAccountAuthPaths, List.mem_cons, List.not_mem_nil, or_false] at hmem
    rcases hmem with rfl | rfl | rfl
    · exact ⟨_, _, rfl⟩
    · exact ⟨_, _, rfl⟩
    · exact ⟨_, _, rfl⟩
  rcases hbuilt with ⟨which, rawGuard, rfl⟩
  by_cases hkind : classifyGuardKind rawGuard = .keyset
  · cases hextract : extractKeysetFromGuard rawGuard with
    | none => simp [AuthBranch.isSatisfied, buildBranch, hkind, hextract] at hsatisfied
    | some raw =>
        have hanalysis : (buildBranch fl codexPubs resolvedManualKeys which rawGuard).analysis =
            some (analyzeRawKeyset fl raw codexPubs resolvedManualKeys) := by
          simp [buildBranch, hkind, hextract]
        refine ⟨raw, hextract, hanalysis, ?_⟩
        rw [AuthBranch.isSatisfied, hanalysis] at hsatisfied
        exact hsatisfied
  · simp [AuthBranch.isSatisfied, buildBranch, hkind] at hsatisfied

end Arithmetic

end Guard
end StoaCore
