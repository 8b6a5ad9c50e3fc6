import StoaCore.Library.Js.Number

/-!
# Value — the JavaScript values that JSON texts denote

Objects are lists of members with distinct keys in the order of their creation.
-/

namespace Library
namespace Js

inductive Value
  | undefined
  | null
  | bool (b : Bool)
  | num (n : NumberLiteral)
  | str (s : JsString)
  | arr (items : List Value)
  | obj (fields : List (JsString × Value))

/-- Induction over the elements of arrays and the members of objects. -/
@[elab_as_elim]
theorem Value.induct {P : Value → Prop} (undefined : P .undefined) (null : P .null)
    (bool : ∀ b, P (.bool b)) (num : ∀ n, P (.num n)) (str : ∀ s, P (.str s))
    (arr : ∀ items, (∀ v ∈ items, P v) → P (.arr items))
    (obj : ∀ fields, (∀ m ∈ fields, P m.2) → P (.obj fields)) (v : Value) : P v := by
  refine @Value.rec P (fun items => ∀ v ∈ items, P v) (fun fields => ∀ m ∈ fields, P m.2)
    (fun m => P m.2)
    undefined null bool num str arr obj ?_ ?_ ?_ ?_ ?_ v
  · intro v hv
    cases hv
  · intro head tail hhead htail v hv
    rcases List.mem_cons.1 hv with rfl | hv
    · exact hhead
    · exact htail v hv
  · intro m hm
    cases hm
  · intro head tail hhead htail m hm
    rcases List.mem_cons.1 hm with rfl | hm
    · exact hhead
    · exact htail m hm
  · intro key v hv
    exact hv

/-- Assigning a member: an existing key keeps its place. -/
def setField (fields : List (JsString × Value)) (key : JsString) (v : Value) :
    List (JsString × Value) :=
  match fields with
  | [] => [(key, v)]
  | (k, w) :: rest => if k = key then (k, v) :: rest else (k, w) :: setField rest key v

namespace Value

def isUndefined : Value → Bool
  | .undefined => true
  | _ => false

/-- `v == null` -/
def isNullish : Value → Bool
  | .undefined => true
  | .null => true
  | _ => false

/-- `v?.name`, for a name that no prototype has. -/
def optionalGet (v : Value) (name : JsString) : Value :=
  match v with
  | .obj fields => (fields.lookup name).getD .undefined
  | _ => .undefined

/-- JavaScript truthiness. -/
def truthy : Value → Bool
  | .undefined => false
  | .null => false
  | .bool b => b
  | .num n => n.toNumber ≠ .finite 0
  | .str s => s ≠ []
  | .arr _ => true
  | .obj _ => true

/-- `v.name`, for a name that no prototype has: `none` where the access throws a `TypeError`. -/
def get (v : Value) (name : JsString) : Option Value :=
  match v with
  | .undefined => none
  | .null => none
  | v => some (v.optionalGet name)

/-- `v === w`, for values that were created separately: no two arrays or objects are equal. -/
def strictEq : Value → Value → Bool
  | .undefined, .undefined => true
  | .null, .null => true
  | .bool a, .bool b => decide (a = b)
  | .num m, .num n => decide (m.toNumber = n.toNumber)
  | .str s, .str t => decide (s = t)
  | _, _ => false

@[simp] theorem strictEq_str (s t : JsString) : strictEq (.str s) (.str t) = decide (s = t) :=
  rfl

theorem strictEq_comm (v w : Value) : v.strictEq w = w.strictEq v := by
  cases v <;> cases w <;> simp [strictEq, eq_comm]

/-- Values that are `===` compare alike with every other value. -/
theorem strictEq_congr {v w : Value} (h : v.strictEq w = true) (x : Value) :
    x.strictEq v = x.strictEq w := by
  cases v <;> cases w <;> cases x <;> simp_all [strictEq]

theorem eq_of_strictEq_str {v : Value} {s : JsString} (h : v.strictEq (.str s) = true) :
    v = .str s := by
  cases v <;> simp_all [strictEq]

mutual

/-- The text a value has inside a template literal. -/
def template : Value → JsString
  | .undefined => js "undefined"
  | .null => js "null"
  | .bool true => js "true"
  | .bool false => js "false"
  | .num n => n.toNumber.text
  | .str s => s
  | .arr items => joinItems items
  | .obj _ => js "[object Object]"

/-- The elements of an array between commas; `null` and `undefined` are empty. -/
def joinItems : List Value → JsString
  | [] => []
  | v :: items =>
      (if v.isNullish then [] else template v) ++
        (if items.isEmpty then [] else unit ',' :: joinItems items)

end

@[simp] theorem template_str (s : JsString) : template (.str s) = s := rfl

end Value

end Js
end Library
