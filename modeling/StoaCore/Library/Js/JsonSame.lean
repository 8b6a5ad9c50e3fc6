import StoaCore.Library.Js.JsonRoundTrip

/-!
# JsonSame — what a value and its JSON image have in common

Reading a member of the image gives the image of the member; what was `undefined` is `null` in an
array and absent from an object.
-/

namespace Library
namespace Js

namespace Value

/-- No object in the value has a key twice, as no JavaScript object has. -/
inductive KeysDistinct : Value → Prop
  | undefined : KeysDistinct .undefined
  | null : KeysDistinct .null
  | bool (b : Bool) : KeysDistinct (.bool b)
  | num (n : NumberLiteral) : KeysDistinct (.num n)
  | str (s : JsString) : KeysDistinct (.str s)
  | arr (items : List Value) (h : ∀ v ∈ items, KeysDistinct v) : KeysDistinct (.arr items)
  | obj (fields : List (JsString × Value)) (hkeys : (fields.map Prod.fst).Nodup)
      (h : ∀ m ∈ fields, KeysDistinct m.2) : KeysDistinct (.obj fields)

/-- The second value is the first one, except that `undefined` has become `null`, and members that
were `undefined` are gone. -/
inductive SameUpToUndefined : Value → Value → Prop
  | undefined : SameUpToUndefined .undefined .null
  | null : SameUpToUndefined .null .null
  | bool (b : Bool) : SameUpToUndefined (.bool b) (.bool b)
  | num (n : NumberLiteral) : SameUpToUndefined (.num n) (.num n)
  | str (s : JsString) : SameUpToUndefined (.str s) (.str s)
  | arr (items items' : List Value) (hlength : items.length = items'.length)
      (h : ∀ (i : Nat) (v w : Value), items[i]? = some v → items'[i]? = some w →
        SameUpToUndefined v w) :
      SameUpToUndefined (.arr items) (.arr items')
  | obj (fields fields' : List (JsString × Value)) (image : Value → Value)
      (habsent : ∀ name, (fields.lookup name).getD .undefined = .undefined →
        fields'.lookup name = none)
      (hmember : ∀ name v, fields.lookup name = some v → v ≠ .undefined →
        fields'.lookup name = some (image v))
      (h : ∀ name v, fields.lookup name = some v → SameUpToUndefined v (image v)) :
      SameUpToUndefined (.obj fields) (.obj fields')

end Value

/-! ## Members -/

theorem lookup_setField (fields : List (JsString × Value)) (key name : JsString) (v : Value) :
    (setField fields key v).lookup name = if name = key then some v else fields.lookup name := by
  induction fields with
  | nil =>
      by_cases h : name = key
      · simp [setField, h]
      · simp [setField, h]
  | cons m fields ih =>
      rcases m with ⟨k, w⟩
      rw [setField]
      split
      case isTrue hk =>
        subst hk
        by_cases h : name = k
        · simp [h]
        · have hbeq : (name == k) = false := by simpa using h
          simp [h, List.lookup_cons, hbeq]
      case isFalse hk =>
        by_cases h : name = k
        · subst h
          simp [hk]
        · have hbeq : (name == k) = false := by simpa using h
          simp [List.lookup_cons, hbeq, ih]

theorem lookup_eq_none {fields : List (JsString × Value)} {name : JsString}
    (h : name ∉ fields.map Prod.fst) : fields.lookup name = none := by
  rw [List.lookup_eq_none_iff]
  intro m hm
  simpa using fun heq : name = m.1 => h (heq ▸ List.mem_map_of_mem hm)

theorem isUndefined_iff {v : Value} : v.isUndefined = true ↔ v = .undefined := by
  cases v <;> simp [Value.isUndefined]

theorem lookup_normalizeMembers (read fields : List (JsString × Value)) (name : JsString)
    (hkeys : (fields.map Prod.fst).Nodup) :
    (normalizeMembers read fields).lookup name =
      match fields.lookup name with
      | none => read.lookup name
      | some v => if v.isUndefined then read.lookup name else some (normalizeValue v) := by
  induction fields generalizing read with
  | nil => rfl
  | cons m fields ih =>
      rcases m with ⟨key, v⟩
      rw [List.map_cons, List.nodup_cons] at hkeys
      rw [normalizeMembers]
      by_cases hname : name = key
      · subst hname
        have hrest := lookup_eq_none hkeys.1
        by_cases hundefined : v.isUndefined = true
        · simp [hundefined, ih read hkeys.2, hrest]
        · simp [hundefined, ih _ hkeys.2, hrest, lookup_setField]
      · have hbeq : (name == key) = false := by simpa using hname
        by_cases hundefined : v.isUndefined = true
        · simp [hundefined, ih read hkeys.2, List.lookup_cons, hbeq]
        · simp [hundefined, ih _ hkeys.2, List.lookup_cons, hbeq, lookup_setField, hname]

theorem normalizeItems_eq_map (items : List Value) :
    normalizeItems items = items.map normalizeValue := by
  induction items with
  | nil => rfl
  | cons v items ih => rw [normalizeItems, ih, List.map_cons]

/-- A member of the image is the image of the member. -/
theorem optionalGet_normalizeValue {v : Value} (h : v.KeysDistinct) (name : JsString) :
    (normalizeValue v).optionalGet name =
      if (v.optionalGet name).isUndefined then .undefined
      else normalizeValue (v.optionalGet name) := by
  cases h with
  | obj fields hkeys hfields =>
      rw [normalizeValue, Value.optionalGet, Value.optionalGet, lookup_normalizeMembers _ _ _ hkeys]
      cases hlookup : fields.lookup name with
      | none => simp [Value.isUndefined]
      | some w =>
          by_cases hundefined : w.isUndefined = true
          · simp [hundefined]
          · simp [hundefined]
  | _ => rfl

theorem mem_of_lookup {fields : List (JsString × Value)} {name : JsString} {v : Value}
    (h : fields.lookup name = some v) : ∃ m ∈ fields, m.2 = v := by
  induction fields with
  | nil => cases h
  | cons m fields ih =>
      rw [List.lookup_cons] at h
      split at h
      · exact ⟨m, List.mem_cons_self, Option.some.inj h⟩
      · rcases ih h with ⟨n, hn, hv⟩
        exact ⟨n, List.mem_cons_of_mem _ hn, hv⟩

/-- The image of a value is the same value up to `undefined`. -/
theorem sameUpToUndefined_normalizeValue {v : Value} (h : v.KeysDistinct) :
    v.SameUpToUndefined (normalizeValue v) := by
  induction h with
  | undefined => exact .undefined
  | null => exact .null
  | bool b => exact .bool b
  | num n => exact .num n
  | str s => exact .str s
  | arr items hitems ih =>
      rw [normalizeValue, normalizeItems_eq_map]
      refine .arr _ _ (List.length_map _).symm fun i v w hv hw => ?_
      rw [List.getElem?_map, hv, Option.map_some, Option.some.injEq] at hw
      exact hw ▸ ih v (List.mem_of_getElem? hv)
  | obj fields hkeys hfields ih =>
      rw [normalizeValue]
      refine .obj _ _ normalizeValue (fun name hname => ?_) (fun name v hv hdefined => ?_)
        fun name v hv => ?_
      · rw [lookup_normalizeMembers _ _ _ hkeys]
        cases hlookup : fields.lookup name with
        | none => rfl
        | some w =>
            rw [hlookup, Option.getD_some] at hname
            rw [hname]
            rfl
      · have hnot : v.isUndefined = false := by
          rw [Bool.eq_false_iff]
          exact fun h => hdefined (isUndefined_iff.1 h)
        rw [lookup_normalizeMembers _ _ _ hkeys, hv]
        simp [hnot]
      · rcases mem_of_lookup hv with ⟨m, hm, rfl⟩
        exact ih m hm

end Js
end Library
