import StoaCore.Library.Js.Text

/-!
# Record — plain objects used as maps, and sets of strings

A lookup in a plain object finds its own members and also what every object inherits from
`Object.prototype`; only `hasOwnProperty` tells the two apart.
-/

namespace Library
namespace Js

/-! ## Plain objects -/

/-- The members of `Object.prototype`, each with the text it has inside a template literal. -/
def objectPrototype : List (JsString × JsString) :=
  [(js "constructor", js "function Object() \x7b [native code] \x7d"),
    (js "__defineGetter__", js "function __defineGetter__() \x7b [native code] \x7d"),
    (js "__defineSetter__", js "function __defineSetter__() \x7b [native code] \x7d"),
    (js "hasOwnProperty", js "function hasOwnProperty() \x7b [native code] \x7d"),
    (js "__lookupGetter__", js "function __lookupGetter__() \x7b [native code] \x7d"),
    (js "__lookupSetter__", js "function __lookupSetter__() \x7b [native code] \x7d"),
    (js "isPrototypeOf", js "function isPrototypeOf() \x7b [native code] \x7d"),
    (js "propertyIsEnumerable", js "function propertyIsEnumerable() \x7b [native code] \x7d"),
    (js "toString", js "function toString() \x7b [native code] \x7d"),
    (js "valueOf", js "function valueOf() \x7b [native code] \x7d"),
    (js "__proto__", js "[object Object]"),
    (js "toLocaleString", js "function toLocaleString() \x7b [native code] \x7d")]

/-- What `object[key]` finds. -/
inductive Property (ν : Type)
  | own (v : ν)
  | inherited (text : JsString)

/-- A plain object with members of one type. -/
abbrev Record (ν : Type) := List (JsString × ν)

namespace Record

variable {ν : Type}

/-- `Object.prototype.hasOwnProperty.call(object, key)` -/
def hasOwn (object : Record ν) (key : JsString) : Bool :=
  (object.lookup key).isSome

/-- `object[key]`; `none` is `undefined`, and then `key in object` is false. -/
def property (object : Record ν) (key : JsString) : Option (Property ν) :=
  match object.lookup key with
  | some v => some (.own v)
  -- Only where the object has no member of its own under that name.
  | none => (objectPrototype.lookup key).map .inherited

/-- A record of strings: the text of `object[key]`, if the member is truthy. -/
def truthyText (object : Record JsString) (key : JsString) : Option JsString :=
  match object.property key with
  | some (.own []) => none
  | some (.own text) => some text
  | some (.inherited text) => some text
  | none => none

/-- A member that is an own one and not empty is found. -/
theorem truthyText_of_lookup {object : Record JsString} {key text : JsString}
    (h : object.lookup key = some text) (hne : text ≠ []) :
    object.truthyText key = some text := by
  cases text with
  | nil => exact absurd rfl hne
  | cons c text => simp [truthyText, property, h]

end Record

/-! ## Sets of strings -/

/-- `Set<string>`: the elements in the order of their insertion. -/
structure StringSet where
  elements : List JsString
  nodup : elements.Nodup

namespace StringSet

def empty : StringSet := ⟨[], List.nodup_nil⟩

def has (s : StringSet) (k : JsString) : Bool :=
  decide (k ∈ s.elements)

/-- An element that is there keeps its place. -/
def add (s : StringSet) (k : JsString) : StringSet :=
  -- Adding an element again does not move it to the end.
  if h : k ∈ s.elements then s
  else
    ⟨s.elements ++ [k], by
      rw [List.nodup_append]
      refine ⟨s.nodup, by simp, ?_⟩
      intro a ha b hb heq
      rw [List.mem_singleton.1 hb] at heq
      exact h (heq ▸ ha)⟩

@[simp] theorem has_iff (s : StringSet) (k : JsString) : s.has k = true ↔ k ∈ s.elements :=
  decide_eq_true_iff

@[simp] theorem mem_add (s : StringSet) (k j : JsString) :
    j ∈ (s.add k).elements ↔ j ∈ s.elements ∨ j = k := by
  unfold add
  split
  case isTrue h =>
    constructor
    · exact Or.inl
    · rintro (hj | rfl)
      · exact hj
      · exact h
  case isFalse h => simp

/-- Adding an element that is there changes nothing. -/
theorem add_of_mem {s : StringSet} {k : JsString} (h : k ∈ s.elements) : s.add k = s :=
  dif_pos h

theorem elements_add_of_not_mem {s : StringSet} {k : JsString} (h : k ∉ s.elements) :
    (s.add k).elements = s.elements ++ [k] := by
  simp [add, h]

theorem mem_foldl_add (l : List JsString) (s : StringSet) (j : JsString) :
    j ∈ (l.foldl add s).elements ↔ j ∈ s.elements ∨ j ∈ l := by
  induction l generalizing s with
  | nil => simp
  | cons k l ih =>
      rw [List.foldl_cons, ih, mem_add, List.mem_cons, or_assoc]

end StringSet

end Js
end Library
