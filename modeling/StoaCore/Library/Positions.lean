import Mathlib.Data.List.Basic
import Mathlib.Data.List.Nodup
import Mathlib.Data.List.ReduceOption

/-!
# Positions — lists with gaps

In a list with gaps some positions hold nothing.  `pick` takes the elements whose own positions have
a property; once the gaps are taken out of the list the elements have other positions, unless all
gaps are at the end.
-/

namespace Library
namespace Positions

variable {α : Type*}

/-- The element at position `i`. -/
def at? (l : List (Option α)) (i : Nat) : Option α :=
  l[i]?.join

@[simp] theorem at?_nil (i : Nat) : at? ([] : List (Option α)) i = none := rfl

@[simp] theorem at?_cons_zero (x : Option α) (l : List (Option α)) : at? (x :: l) 0 = x := by
  simp [at?]

@[simp] theorem at?_cons_succ (x : Option α) (l : List (Option α)) (i : Nat) :
    at? (x :: l) (i + 1) = at? l i := by
  simp [at?]

theorem at?_map_some (l : List α) (i : Nat) : at? (l.map some) i = l[i]? := by
  cases h : l[i]? with
  | none => simp [at?, h]
  | some a => simp [at?, h]

/-! ## Picking -/

/-- The elements at the positions with the property `p`. -/
def pick : (Nat → Bool) → List (Option α) → List α
  | _, [] => []
  | p, x :: rest => (if p 0 then x.toList else []) ++ pick (fun i => p (i + 1)) rest

variable {p : Nat → Bool} {l l' : List (Option α)}

/-- Nothing is picked where there is nothing. -/
theorem pick_eq_nil (h : ∀ i, p i = true → at? l i = none) : pick p l = [] := by
  induction l generalizing p with
  | nil => rfl
  | cons x l ih =>
      have hrest := ih fun i hi => by simpa using h (i + 1) hi
      have hfirst : p 0 = true → x = none := fun hp => by simpa using h 0 hp
      rw [pick, hrest]
      split
      case isTrue hp => simp [hfirst hp]
      case isFalse => rfl

/-- What is picked depends on the elements at the positions with the property only. -/
theorem pick_congr (h : ∀ i, p i = true → at? l i = at? l' i) : pick p l = pick p l' := by
  induction l generalizing p l' with
  | nil => exact (pick_eq_nil fun i hi => (h i hi).symm).symm
  | cons x l ih =>
      cases l' with
      | nil => exact pick_eq_nil h
      | cons y l' =>
          have hrest : pick (fun i => p (i + 1)) l = pick (fun i => p (i + 1)) l' :=
            ih fun i hi => by simpa using h (i + 1) hi
          have hfirst : p 0 = true → x = y := fun hp => by simpa using h 0 hp
          rw [pick, pick, hrest]
          split
          case isTrue hp => rw [hfirst hp]
          case isFalse => rfl

/-- At one position there is at most one element. -/
theorem pick_single (i : Nat) (l : List (Option α)) :
    pick (fun n => decide (n = i)) l = (at? l i).toList := by
  induction l generalizing i with
  | nil => rfl
  | cons x l ih =>
      cases i with
      | zero =>
          have hrest : pick (fun _ => false) l = [] := pick_eq_nil fun n hn => absurd hn (by simp)
          simp [pick, hrest]
      | succ i => simpa [pick] using ih i

/-- In a list without gaps it is a filter on the positions. -/
theorem pick_map_some (q : Nat → Bool) (keys : List α) (n : Nat) :
    ((keys.zipIdx n).filter fun entry => q entry.2).map Prod.fst =
      pick (fun i => q (n + i)) (keys.map some) := by
  induction keys generalizing n with
  | nil => rfl
  | cons k keys ih =>
      have hrest := ih (n + 1)
      simp only [Nat.add_assoc, Nat.add_comm 1] at hrest
      by_cases hq : q n = true
      · simp [pick, hq, hrest]
      · simp [pick, hq, hrest]

theorem mem_pick {a : α} : a ∈ pick p l ↔ ∃ i, p i = true ∧ at? l i = some a := by
  induction l generalizing p with
  | nil => simp [pick]
  | cons x l ih =>
      rw [pick, List.mem_append, ih]
      constructor
      · rintro (hfirst | ⟨i, hp, hi⟩)
        · by_cases hp : p 0 = true
          · exact ⟨0, hp, by simpa [hp] using hfirst⟩
          · simp [hp] at hfirst
        · exact ⟨i + 1, hp, by simpa using hi⟩
      · rintro ⟨i, hp, hi⟩
        cases i with
        | zero => exact Or.inl (by simpa [hp] using hi)
        | succ i => exact Or.inr ⟨i, hp, by simpa using hi⟩

theorem mem_of_mem_pick {a : α} (h : a ∈ pick p l) : a ∈ l.reduceOption := by
  rcases mem_pick.1 h with ⟨i, -, hi⟩
  rw [List.reduceOption_mem_iff]
  exact List.mem_of_getElem? (Option.join_eq_some_iff.1 hi)

/-- When no element occurs twice, those at the other positions are those that are not picked. -/
theorem pick_not [DecidableEq α] (hnodup : l.reduceOption.Nodup) :
    pick (fun i => !p i) l = l.reduceOption.filter (· ∉ pick p l) := by
  induction l generalizing p with
  | nil => rfl
  | cons x l ih =>
      cases x with
      | none => simpa [pick] using ih (by simpa using hnodup)
      | some a =>
          rw [List.reduceOption_cons_of_some, List.nodup_cons] at hnodup
          have hrest := ih (p := fun i => p (i + 1)) hnodup.2
          have hnot : a ∉ pick (fun i => p (i + 1)) l := fun h => hnodup.1 (mem_of_mem_pick h)
          have hother : ∀ b ∈ l.reduceOption, b ≠ a := fun b hb heq => hnodup.1 (heq ▸ hb)
          by_cases hp : p 0 = true
          · have hpick : pick p (some a :: l) = a :: pick (fun i => p (i + 1)) l := by
              simp [pick, hp]
            calc pick (fun i => !p i) (some a :: l)
                = l.reduceOption.filter (· ∉ pick (fun i => p (i + 1)) l) := by
                  simpa [pick, hp] using hrest
              _ = l.reduceOption.filter (· ∉ a :: pick (fun i => p (i + 1)) l) :=
                  List.filter_congr fun b hb => by simp [hother b hb]
              _ = (some a :: l).reduceOption.filter (· ∉ pick p (some a :: l)) := by
                  rw [hpick, List.reduceOption_cons_of_some, List.filter_cons_of_neg (by simp)]
          · simp [pick, hp, hrest, hnot]

/-! ## Gaps -/

/-- Every gap is at the end. -/
def Contiguous (l : List (Option α)) : Prop :=
  ∀ i j, i < j → (at? l j).isSome = true → (at? l i).isSome = true

theorem reduceOption_eq_nil (h : ∀ i, at? l i = none) : l.reduceOption = [] := by
  rw [List.eq_nil_iff_forall_not_mem]
  intro a ha
  rcases List.mem_iff_getElem?.1 (List.reduceOption_mem_iff.1 ha) with ⟨i, hi⟩
  have hat := h i
  simp [at?, hi] at hat

/-- The elements keep their positions exactly when there is no gap in front of them. -/
theorem contiguous_iff : Contiguous l ↔ ∀ i, l.reduceOption[i]? = at? l i := by
  constructor
  · intro h
    induction l with
    | nil => intro i; rfl
    | cons x l ih =>
        cases x with
        | none =>
            have hnone : ∀ i, at? (none :: l) i = none := by
              intro i
              by_contra hsome
              have hpos : i ≠ 0 := by rintro rfl; simp at hsome
              have hfirst := h 0 i (Nat.pos_of_ne_zero hpos) (Option.isSome_iff_ne_none.2 hsome)
              simp at hfirst
            intro i
            rw [reduceOption_eq_nil hnone, hnone]
            rfl
        | some a =>
            have hrest : Contiguous l := fun i j hij hj => by
              simpa using h (i + 1) (j + 1) (Nat.succ_lt_succ hij) (by simpa using hj)
            intro i
            cases i with
            | zero => simp
            | succ i => simpa using ih hrest i
  · intro h i j hij hj
    rw [← h] at hj ⊢
    have hlt : j < l.reduceOption.length := by simpa using hj
    simpa using Nat.lt_trans hij hlt

end Positions
end Library
