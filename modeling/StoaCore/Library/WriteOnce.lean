import Mathlib.Data.List.Perm.Basic
import Mathlib.Logic.Function.Basic

/-!
# WriteOnce — stores whose entries are written at most once

An offer writes a key that has no value yet and is ignored otherwise.  A sequence of offers never
changes a value that is there, fills exactly the offered keys, and its result does not depend on
the order of the offers as soon as offers for the same key agree.
-/

namespace Library
namespace WriteOnce

variable {κ ν : Type*} [DecidableEq κ]

abbrev Store (κ ν : Type*) := κ → Option ν

/-- Writes the offered value unless the key has one. -/
def offer (m : Store κ ν) (o : κ × ν) : Store κ ν :=
  Function.update m o.1 ((m o.1).or (some o.2))

def offers (m : Store κ ν) (l : List (κ × ν)) : Store κ ν :=
  l.foldl offer m

@[simp] theorem offers_nil (m : Store κ ν) : offers m [] = m := rfl

theorem offers_cons (m : Store κ ν) (o : κ × ν) (l : List (κ × ν)) :
    offers m (o :: l) = offers (offer m o) l := rfl

theorem offers_append (m : Store κ ν) (l l' : List (κ × ν)) :
    offers m (l ++ l') = offers (offers m l) l' :=
  List.foldl_append

theorem offer_self (m : Store κ ν) (k : κ) (v : ν) : offer m (k, v) k = (m k).or (some v) := by
  simp [offer]

theorem offer_of_ne (m : Store κ ν) {k k' : κ} (h : k' ≠ k) (v : ν) : offer m (k, v) k' = m k' := by
  simp [offer, h]

/-- A key ends with the value it had, else with the first one offered for it. -/
theorem offers_apply (m : Store κ ν) (l : List (κ × ν)) (k : κ) :
    offers m l k = (m k).or ((l.find? (fun o => decide (o.1 = k))).map Prod.snd) := by
  induction l generalizing m with
  | nil => simp
  | cons o l ih =>
      rcases o with ⟨k', v⟩
      rw [offers_cons, ih]
      -- Only the first offer for the key can write it.
      by_cases hk : k' = k
      · subst hk
        rw [offer_self]
        cases m k' <;> simp
      · rw [offer_of_ne m (Ne.symm hk)]
        simp [hk]

/-- A value that is there stays. -/
theorem offers_of_some {m : Store κ ν} {k : κ} {v : ν} (h : m k = some v) (l : List (κ × ν)) :
    offers m l k = some v := by
  rw [offers_apply, h]
  rfl

theorem isSome_offers (m : Store κ ν) (l : List (κ × ν)) (k : κ) :
    (offers m l k).isSome = true ↔ (m k).isSome = true ∨ ∃ v, (k, v) ∈ l := by
  rw [offers_apply]
  cases hm : m k with
  | some v => simp
  | none => simp [List.find?_isSome]

/-! ## Order of the offers -/

/-- Offers for the same key offer the same value. -/
def Consistent (l : List (κ × ν)) : Prop :=
  ∀ k v w, (k, v) ∈ l → (k, w) ∈ l → v = w

/-- What a key without a value gets is the one value offered for it. -/
theorem offers_eq_some {m : Store κ ν} {l : List (κ × ν)} (hl : Consistent l) {k : κ} {v : ν}
    (hm : m k = none) (hv : (k, v) ∈ l) : offers m l k = some v := by
  have hsome : (offers m l k).isSome = true := (isSome_offers m l k).2 (Or.inr ⟨v, hv⟩)
  rcases Option.isSome_iff_exists.1 hsome with ⟨w, hw⟩
  have hfind : (l.find? (fun o => decide (o.1 = k))).map Prod.snd = some w := by
    rw [offers_apply, hm] at hw
    simpa using hw
  rcases Option.map_eq_some_iff.1 hfind with ⟨⟨k', w'⟩, hfound, hsnd⟩
  have hk : k' = k := by simpa using List.find?_some hfound
  have hmem := List.mem_of_find?_eq_some hfound
  subst hk hsnd
  rw [hw, hl _ _ _ hv hmem]

/-- Consistent offers can come in any order. -/
theorem offers_perm (m : Store κ ν) {l l' : List (κ × ν)} (hperm : l.Perm l')
    (hl : Consistent l) : offers m l = offers m l' := by
  have hl' : Consistent l' := fun k v w hv hw => hl k v w (hperm.mem_iff.2 hv) (hperm.mem_iff.2 hw)
  funext k
  cases hm : m k with
  | some v => rw [offers_of_some hm, offers_of_some hm]
  | none =>
      -- A key without a value gets the offered one in either order, or none in both.
      by_cases hmem : ∃ v, (k, v) ∈ l
      · rcases hmem with ⟨v, hv⟩
        rw [offers_eq_some hl hm hv, offers_eq_some hl' hm (hperm.mem_iff.1 hv)]
      · have hnone : ∀ l₀ : List (κ × ν), (¬ ∃ v, (k, v) ∈ l₀) → offers m l₀ k = none := by
          intro l₀ hnot
          rw [← Option.not_isSome_iff_eq_none, isSome_offers, hm]
          simpa using hnot
        rw [hnone l hmem, hnone l' fun ⟨v, hv⟩ => hmem ⟨v, hperm.mem_iff.2 hv⟩]

end WriteOnce
end Library
