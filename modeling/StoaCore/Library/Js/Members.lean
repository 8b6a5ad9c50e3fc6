import Mathlib.Data.List.Induction
import StoaCore.Library.Js.JsonSame
import StoaCore.Library.Js.Record

/-!
# Members — assigning and spreading the members of plain objects

JavaScript lists the members whose names are array indices first and in ascending order, then the
others in the order of their creation.  A list of members is kept in that order.
-/

namespace Library
namespace Js

/-- The index a name denotes: the decimal text of a number below `2 ^ 32 - 1`. -/
def arrayIndex (key : JsString) : Option Nat :=
  if key = decimalText (decimalDigits key) ∧ decimalDigits key < 2 ^ 32 - 1 then
    some (decimalDigits key)
  else none

/-- `key` is listed before `other`, although it is created later. -/
def overtakes (key other : JsString) : Bool :=
  match arrayIndex key, arrayIndex other with
  | some i, some j => decide (i < j)
  | some _, none => true
  | none, _ => false

namespace Record

variable {ν : Type}

/-- A new member. -/
def insertMember (key : JsString) (v : ν) : Record ν → Record ν
  | [] => [(key, v)]
  | (k, w) :: rest =>
      if overtakes key k then (key, v) :: (k, w) :: rest else (k, w) :: insertMember key v rest

/-- A new value for a member that is there, which keeps its place. -/
def overwrite (key : JsString) (v : ν) (object : Record ν) : Record ν :=
  object.map fun m => if m.1 = key then (key, v) else m

/-- `object[key] = v` -/
def assign (object : Record ν) (key : JsString) (v : ν) : Record ν :=
  if key ∈ object.map Prod.fst then object.overwrite key v else object.insertMember key v

/-- `{ ...target, ...source }` -/
def spread (target source : Record ν) : Record ν :=
  source.foldl (fun object m => object.assign m.1 m.2) target

section Lemmas

variable {object target source : Record ν} {key name : JsString} {v : ν}

theorem lookup_eq_none_iff : object.lookup name = none ↔ name ∉ object.map Prod.fst := by
  rw [List.lookup_eq_none_iff, List.mem_map]
  constructor
  · rintro h ⟨m, hm, rfl⟩
    simpa using h m hm
  · intro h m hm
    simpa using fun heq : name = m.1 => h ⟨m, hm, heq.symm⟩

theorem mem_keys_of_lookup (h : object.lookup name = some v) : name ∈ object.map Prod.fst := by
  by_contra hnot
  rw [lookup_eq_none_iff.2 hnot] at h
  cases h

/-- A new value for every member. -/
theorem lookup_mapValues {μ : Type} (f : ν → μ) :
    (object.map fun m => (m.1, f m.2)).lookup name = (object.lookup name).map f := by
  induction object with
  | nil => rfl
  | cons m rest ih =>
      rcases m with ⟨k, w⟩
      rw [List.map_cons, List.lookup_cons, List.lookup_cons]
      cases name == k with
      | true => rfl
      | false => exact ih

theorem lookup_overwrite :
    (object.overwrite key v).lookup name =
      if name = key then (object.lookup name).map fun _ => v else object.lookup name := by
  induction object with
  | nil => simp [overwrite]
  | cons m rest ih =>
      rcases m with ⟨k, w⟩
      have hcons : overwrite key v ((k, w) :: rest) =
          (if k = key then (key, v) else (k, w)) :: overwrite key v rest := rfl
      rw [hcons]
      by_cases hk : k = key
      · subst hk
        by_cases hname : name = k
        · simp [hname]
        · have hbeq : (name == k) = false := by simpa using hname
          simp [List.lookup_cons, hbeq, ih, hname]
      · by_cases hname : name = k
        · subst hname
          simp [hk]
        · have hbeq : (name == k) = false := by simpa using hname
          simp [hk, List.lookup_cons, hbeq, ih]

theorem lookup_insertMember (h : key ∉ object.map Prod.fst) :
    (object.insertMember key v).lookup name =
      if name = key then some v else object.lookup name := by
  induction object with
  | nil =>
      by_cases hname : name = key
      · simp [insertMember, hname]
      · have hbeq : (name == key) = false := by simpa using hname
        simp [insertMember, hname, List.lookup_cons, hbeq]
  | cons m rest ih =>
      rcases m with ⟨k, w⟩
      rw [List.map_cons, List.mem_cons, not_or] at h
      rw [insertMember]
      split
      case isTrue =>
        by_cases hname : name = key
        · simp [hname]
        · have hbeq : (name == key) = false := by simpa using hname
          rw [List.lookup_cons, hbeq, if_neg hname]
      case isFalse =>
        by_cases hname : name = k
        · subst hname
          simp [Ne.symm h.1]
        · have hbeq : (name == k) = false := by simpa using hname
          simp [List.lookup_cons, hbeq, ih h.2]

/-- Reading after an assignment. -/
@[simp] theorem lookup_assign :
    (object.assign key v).lookup name = if name = key then some v else object.lookup name := by
  unfold assign
  split
  case isTrue h =>
    rw [lookup_overwrite]
    by_cases hname : name = key
    · have hsome : object.lookup name ≠ none := by
        rw [Ne, lookup_eq_none_iff, not_not, hname]
        exact h
      rcases Option.ne_none_iff_exists'.1 hsome with ⟨w, hw⟩
      simp [hname, hname ▸ hw]
    · rw [if_neg hname, if_neg hname]
  case isFalse h => exact lookup_insertMember h

theorem keys_overwrite : (object.overwrite key v).map Prod.fst = object.map Prod.fst := by
  rw [overwrite, List.map_map]
  refine List.map_congr_left fun m _ => ?_
  by_cases h : m.1 = key
  · simp [h]
  · simp [h]

theorem perm_insertMember : (object.insertMember key v).Perm ((key, v) :: object) := by
  induction object with
  | nil => exact List.Perm.refl _
  | cons m rest ih =>
      rcases m with ⟨k, w⟩
      rw [insertMember]
      split
      · exact List.Perm.refl _
      · exact (ih.cons _).trans (List.Perm.swap _ _ _)

/-- The names after an assignment are the names before and the assigned one. -/
theorem mem_keys_assign :
    name ∈ (object.assign key v).map Prod.fst ↔ name ∈ object.map Prod.fst ∨ name = key := by
  rw [← not_iff_not, not_or, ← lookup_eq_none_iff, ← lookup_eq_none_iff, lookup_assign]
  by_cases hname : name = key
  · simp [hname]
  · simp [hname]

theorem nodup_assign (h : (object.map Prod.fst).Nodup) :
    ((object.assign key v).map Prod.fst).Nodup := by
  unfold assign
  split
  case isTrue => rwa [keys_overwrite]
  case isFalse hmem =>
    rw [(perm_insertMember.map Prod.fst).nodup_iff, List.map_cons, List.nodup_cons]
    exact ⟨hmem, h⟩

/-- Assigning the value that is there. -/
theorem assign_of_lookup (hnodup : (object.map Prod.fst).Nodup)
    (h : object.lookup key = some v) : object.assign key v = object := by
  rw [assign, if_pos (mem_keys_of_lookup h), overwrite]
  induction object with
  | nil => rfl
  | cons m rest ih =>
      rcases m with ⟨k, w⟩
      rw [List.map_cons, List.nodup_cons] at hnodup
      by_cases hk : k = key
      · subst hk
        have hw : w = v := by simpa using h
        have hrest : ∀ m ∈ rest, (if m.1 = k then (k, v) else m) = m := by
          intro m hm
          have hmem : m.1 ∈ rest.map Prod.fst := List.mem_map_of_mem hm
          have hne : m.1 ≠ k := fun heq => hnodup.1 (heq ▸ hmem)
          exact if_neg hne
        rw [List.map_cons, if_pos rfl, hw, List.map_congr_left hrest, List.map_id']
      · have hbeq : (key == k) = false := by simpa using Ne.symm hk
        rw [List.lookup_cons, hbeq] at h
        rw [List.map_cons, if_neg hk, ih hnodup.2 h]

theorem spread_append (target front back : Record ν) :
    target.spread (front ++ back) = (target.spread front).spread back :=
  List.foldl_append

theorem nodup_spread (h : (target.map Prod.fst).Nodup) :
    ((target.spread source).map Prod.fst).Nodup := by
  induction source generalizing target with
  | nil => exact h
  | cons m source ih => exact ih (nodup_assign h)

/-- Reading after a spread: the last of the spread members that has the name, or else what was
there. -/
theorem lookup_spread :
    (target.spread source).lookup name = (source.reverse.lookup name).or (target.lookup name) := by
  induction source using List.reverseRecOn with
  | nil => rfl
  | append_singleton source m ih =>
      rcases m with ⟨k, w⟩
      rw [spread_append, List.reverse_append]
      change ((target.spread source).assign k w).lookup name = _
      rw [lookup_assign, ih]
      by_cases hname : name = k
      · simp [hname]
      · have hbeq : (name == k) = false := by simpa using hname
        simp [hname, List.lookup_cons, hbeq]

/-- An object has no name twice, so it does not matter from which end it is read. -/
theorem lookup_reverse (h : (source.map Prod.fst).Nodup) :
    source.reverse.lookup name = source.lookup name := by
  induction source with
  | nil => rfl
  | cons m source ih =>
      rcases m with ⟨k, w⟩
      rw [List.map_cons, List.nodup_cons] at h
      rw [List.reverse_cons, List.lookup_append, ih h.2]
      by_cases hname : name = k
      · have hnone : source.lookup name = none := by
          rw [lookup_eq_none_iff, hname]
          exact h.1
        simp [hname, hname ▸ hnone]
      · have hbeq : (name == k) = false := by simpa using hname
        simp [List.lookup_cons, hbeq]

/-- A member is found under its name. -/
theorem lookup_of_mem (hnodup : (object.map Prod.fst).Nodup) (h : (name, v) ∈ object) :
    object.lookup name = some v := by
  induction object with
  | nil => cases h
  | cons m rest ih =>
      rcases m with ⟨k, w⟩
      rw [List.map_cons, List.nodup_cons] at hnodup
      rcases List.mem_cons.1 h with heq | hrest
      · cases heq
        simp
      · have hne : name ≠ k := by
          rintro rfl
          exact hnodup.1 (List.mem_map.2 ⟨_, hrest, rfl⟩)
        have hbeq : (name == k) = false := by simpa using hne
        rw [List.lookup_cons, hbeq]
        exact ih hnodup.2 hrest

theorem mem_keys_spread :
    name ∈ (target.spread source).map Prod.fst ↔
      name ∈ target.map Prod.fst ∨ name ∈ source.map Prod.fst := by
  induction source generalizing target with
  | nil => simp [spread]
  | cons m source ih =>
      have hcons : target.spread (m :: source) = (target.assign m.1 m.2).spread source := rfl
      rw [hcons, ih, mem_keys_assign, List.map_cons, List.mem_cons, or_assoc]

end Lemmas

end Record

/-! ## Members in a JSON text -/

/-- A member that is not `undefined` is read from the image of its object. -/
theorem get_normalizeValue_obj {fields : List (JsString × Value)} {name : JsString} {v : Value}
    (hnodup : (fields.map Prod.fst).Nodup) (h : fields.lookup name = some v)
    (hdefined : v.isUndefined = false) :
    (normalizeValue (.obj fields)).get name = some (normalizeValue v) := by
  have hlookup := lookup_normalizeMembers [] fields name hnodup
  rw [h] at hlookup
  simp only [hdefined, Bool.false_eq_true, if_false] at hlookup
  simp [normalizeValue, Value.get, Value.optionalGet, hlookup]

end Js
end Library
