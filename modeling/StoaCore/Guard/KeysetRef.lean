import StoaCore.Guard.SmartAccountAuth
import StoaCore.Library.Js.JsonSame

/-!
# KeysetRef — one casing for keyset references

The chain writes `keysetref`, the guard module reads `keysetRef`.  The classifier asks whether
either holds an object, the normaliser only whether the second is there: a `keysetRef` that is no
object keeps the reference under the other name.
-/

namespace StoaCore
namespace Guard

open Library.Js

/-- The member of that name, where the value is an object that has one. -/
def ownField (g : Value) (name : JsString) : Option Value :=
  match g with
  | .obj o => o.lookup name
  | _ => none

/-! ## Guards by their fields -/

def capabilityShape (o : List (JsString × Value)) : Bool :=
  memberIs o "cgName" isString && memberIs o "cgArgs" isDefined &&
    memberIs o "cgPactId" (fun _ => true)

def userShape (o : List (JsString × Value)) : Bool :=
  memberIs o "fun" isString && memberIs o "args" isDefined

def refShape (o : List (JsString × Value)) : Bool :=
  memberIs o "keysetref" isObject || memberIs o "keysetRef" isObject

theorem classify_eq_keysetRef_iff (o : List (JsString × Value)) :
    classifyGuardKind (.obj o) = .keysetRef ↔
      capabilityShape o = false ∧ userShape o = false ∧ refShape o = true := by
  unfold classifyGuardKind capabilityShape userShape refShape
  dsimp only
  split_ifs with hcapability huser href <;> simp_all

/-- The kind depends on the shapes alone. -/
theorem classify_congr {o o' : List (JsString × Value)}
    (hother : ∀ name, name ≠ js "keysetRef" → o'.lookup name = o.lookup name)
    (href : refShape o' = refShape o) :
    classifyGuardKind (.obj o') = classifyGuardKind (.obj o) := by
  have hmember : ∀ name test, js name ≠ js "keysetRef" →
      memberIs o' name test = memberIs o name test := by
    intro name test hne
    rw [memberIs, memberIs, hother _ hne]
  unfold refShape at href
  unfold classifyGuardKind
  dsimp only
  rw [href, hmember "cgName" _ (by decide), hmember "cgArgs" _ (by decide),
    hmember "cgPactId" _ (by decide), hmember "fun" _ (by decide), hmember "args" _ (by decide),
    hmember "pred" _ (by decide), hmember "keys" _ (by decide)]

/-! ## What the normaliser does -/

/-- Either nothing, or it adds the field that was missing. -/
theorem normalizeKeysetRef_cases (g : Value) :
    normalizeKeysetRef g = g ∨
      ∃ o ref, g = .obj o ∧ o.lookup (js "keysetRef") = none ∧
        o.lookup (js "keysetref") = some ref ∧
        normalizeKeysetRef g = .obj (setField o (js "keysetRef") ref) := by
  cases g with
  | obj o =>
      cases hcamel : o.lookup (js "keysetRef") with
      | some v => exact Or.inl (by simp [normalizeKeysetRef, hcamel])
      | none =>
          cases hlower : o.lookup (js "keysetref") with
          | none => exact Or.inl (by simp [normalizeKeysetRef, hcamel, hlower])
          | some ref =>
              exact Or.inr ⟨o, ref, rfl, hcamel, hlower,
                by simp [normalizeKeysetRef, hcamel, hlower]⟩
  | _ => exact Or.inl rfl

theorem normalizeKeysetRef_of_present {o : List (JsString × Value)} {v : Value}
    (h : o.lookup (js "keysetRef") = some v) : normalizeKeysetRef (.obj o) = .obj o := by
  simp [normalizeKeysetRef, h]

theorem normalizeKeysetRef_idempotent (g : Value) :
    normalizeKeysetRef (normalizeKeysetRef g) = normalizeKeysetRef g := by
  rcases normalizeKeysetRef_cases g with hsame | ⟨o, ref, rfl, -, -, hadded⟩
  · rw [hsame, hsame]
  · rw [hadded]
    exact normalizeKeysetRef_of_present (v := ref) (by simp [lookup_setField])

theorem refShape_setField {o : List (JsString × Value)} {ref : Value}
    (hcamel : o.lookup (js "keysetRef") = none) (hlower : o.lookup (js "keysetref") = some ref) :
    refShape (setField o (js "keysetRef") ref) = refShape o := by
  have hne : js "keysetref" ≠ js "keysetRef" := by decide
  simp [refShape, memberIs, lookup_setField, hne, hcamel, hlower]

theorem classify_normalizeKeysetRef (g : Value) :
    classifyGuardKind (normalizeKeysetRef g) = classifyGuardKind g := by
  rcases normalizeKeysetRef_cases g with hsame | ⟨o, ref, rfl, hcamel, hlower, hadded⟩
  · rw [hsame]
  · rw [hadded]
    refine classify_congr (fun name hne => ?_) (refShape_setField hcamel hlower)
    rw [lookup_setField, if_neg hne]

theorem ownField_normalizeKeysetRef {g : Value} {name : JsString} {v : Value}
    (h : ownField g name = some v) : ownField (normalizeKeysetRef g) name = some v := by
  rcases normalizeKeysetRef_cases g with hsame | ⟨o, ref, rfl, hcamel, -, hadded⟩
  · rwa [hsame]
  · rw [hadded]
    have hne : name ≠ js "keysetRef" := by
      rintro rfl
      exact absurd (hcamel.symm.trans h) (by simp)
    exact (lookup_setField o _ name ref).trans ((if_neg hne).trans h)

/-! ## The reference under its camelCase name -/

/-- A keyset reference that stands under `keysetref` while `keysetRef` holds something else. -/
def hidesReference : Value → Bool
  | .obj o =>
      !capabilityShape o && !userShape o && memberIs o "keysetref" isObject &&
        memberIs o "keysetRef" (fun v => !isObject v)
  | _ => false

/-- The camelCase field of a keyset reference is an object. -/
def ReadsCamelCase (g : Value) : Prop :=
  classifyGuardKind g = .keysetRef →
    ∃ ref, ownField g (js "keysetRef") = some ref ∧ isObject ref = true

theorem readsCamelCase_iff_of_present {o : List (JsString × Value)} {v : Value}
    (h : o.lookup (js "keysetRef") = some v) :
    ReadsCamelCase (.obj o) ↔ hidesReference (.obj o) = false := by
  unfold ReadsCamelCase
  rw [classify_eq_keysetRef_iff]
  cases hcapability : capabilityShape o with
  | true => simp [hidesReference, hcapability]
  | false =>
      cases huser : userShape o with
      | true => simp [hidesReference, huser]
      | false =>
          cases hobject : isObject v with
          | true => simp [hidesReference, ownField, memberIs, h, hobject]
          | false =>
              simp [hidesReference, ownField, refShape, memberIs, h, hobject, hcapability, huser]

theorem readsCamelCase_normalizeKeysetRef_iff (g : Value) :
    ReadsCamelCase (normalizeKeysetRef g) ↔ hidesReference g = false := by
  cases g with
  | obj o =>
      cases hcamel : o.lookup (js "keysetRef") with
      | some v =>
          rw [normalizeKeysetRef_of_present hcamel]
          exact readsCamelCase_iff_of_present hcamel
      | none =>
          have hhides : hidesReference (.obj o) = false := by
            simp [hidesReference, memberIs, hcamel]
          refine iff_of_true ?_ hhides
          intro hkind
          rw [classify_normalizeKeysetRef, classify_eq_keysetRef_iff] at hkind
          have hlower : memberIs o "keysetref" isObject = true := by
            simpa [refShape, memberIs, hcamel] using hkind.2.2
          rcases hfield : o.lookup (js "keysetref") with _ | ref
          · simp [memberIs, hfield] at hlower
          · refine ⟨ref, ?_, by simpa [memberIs, hfield] using hlower⟩
            simp [normalizeKeysetRef, hcamel, hfield, ownField, lookup_setField]
  | _ => exact iff_of_true (fun hkind => by cases hkind) rfl

/-- What the normaliser is for, on one guard. -/
structure Normalises (g : Value) : Prop where
  idempotent : normalizeKeysetRef (normalizeKeysetRef g) = normalizeKeysetRef g
  kind : classifyGuardKind (normalizeKeysetRef g) = classifyGuardKind g
  fields : ∀ name v, ownField g name = some v → ownField (normalizeKeysetRef g) name = some v
  camelCase : ReadsCamelCase (normalizeKeysetRef g)

theorem normalizeKeysetRef_correct_iff (g : Value) :
    Normalises g ↔ hidesReference g = false := by
  constructor
  · intro h
    exact (readsCamelCase_normalizeKeysetRef_iff g).1 h.camelCase
  · intro h
    exact
      { idempotent := normalizeKeysetRef_idempotent g
        kind := classify_normalizeKeysetRef g
        fields := fun _ _ => ownField_normalizeKeysetRef
        camelCase := (readsCamelCase_normalizeKeysetRef_iff g).2 h }

/-- `{ keysetRef: null, keysetref: { ns: "ouronet-ns", ksn: "foo" } }` -/
def nullAndReference : Value :=
  .obj [(js "keysetRef", .null),
    (js "keysetref", .obj [(js "ns", .str (js "ouronet-ns")), (js "ksn", .str (js "foo"))])]

/-- The reference is recognised under the one name and left `null` under the other. -/
theorem nullAndReference_not_normalised :
    ¬Normalises nullAndReference ∧
      classifyGuardKind (normalizeKeysetRef nullAndReference) = .keysetRef ∧
      normalizeKeysetRef nullAndReference = nullAndReference := by
  refine ⟨?_, by decide, rfl⟩
  rw [normalizeKeysetRef_correct_iff]
  decide

end Guard
end StoaCore
