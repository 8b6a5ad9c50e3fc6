import Mathlib.Data.Finset.Card

/-!
# Quorum — so many members out of a set

A quorum is reached when at least `threshold` members are ready.  The threshold is never larger than
the number of members, so a quorum can be reached by making members ready, one after the other.
-/

namespace Library

structure Quorum (α : Type*) where
  members : Finset α
  threshold : Nat
  threshold_le : threshold ≤ members.card

namespace Quorum

variable {α : Type*} (Q : Quorum α) (ready ready' : α → Bool)

/-- The members that are ready, and those that are not. -/
def present : Finset α :=
  Q.members.filter fun a => ready a = true

def absent : Finset α :=
  Q.members.filter fun a => ¬ready a = true

def Satisfied : Prop :=
  Q.threshold ≤ (Q.present ready).card

/-- How many more have to be ready. -/
def missing : Nat :=
  Q.threshold - (Q.present ready).card

theorem card_present_add_card_absent :
    (Q.present ready).card + (Q.absent ready).card = Q.members.card :=
  Finset.card_filter_add_card_filter_not _

theorem satisfied_iff : Q.Satisfied ready ↔ Q.missing ready = 0 :=
  Nat.sub_eq_zero_iff_le.symm

/-- There are always members left to be made ready. -/
theorem missing_le : Q.missing ready ≤ (Q.absent ready).card := by
  have hsum := Q.card_present_add_card_absent ready
  have hle := Q.threshold_le
  unfold missing
  omega

variable {ready ready'}

/-- The members that are ready, when it is known which. -/
theorem present_eq {chosen : Finset α} (hsubset : chosen ⊆ Q.members)
    (h : ∀ a ∈ Q.members, ready a = true ↔ a ∈ chosen) : Q.present ready = chosen := by
  ext a
  simp only [present, Finset.mem_filter]
  constructor
  · rintro ⟨hmem, hready⟩
    exact (h a hmem).1 hready
  · intro ha
    exact ⟨hsubset ha, (h a (hsubset ha)).2 ha⟩

/-! ## More members ready -/

theorem present_subset (h : ∀ a ∈ Q.members, ready a = true → ready' a = true) :
    Q.present ready ⊆ Q.present ready' := by
  intro a ha
  rcases Finset.mem_filter.1 ha with ⟨hmem, hready⟩
  exact Finset.mem_filter.2 ⟨hmem, h a hmem hready⟩

theorem satisfied_mono (h : ∀ a ∈ Q.members, ready a = true → ready' a = true)
    (hsatisfied : Q.Satisfied ready) : Q.Satisfied ready' :=
  le_trans hsatisfied (Finset.card_le_card (Q.present_subset h))

theorem missing_anti (h : ∀ a ∈ Q.members, ready a = true → ready' a = true) :
    Q.missing ready' ≤ Q.missing ready :=
  Nat.sub_le_sub_left (Finset.card_le_card (Q.present_subset h)) _

section Extra

variable [DecidableEq α] {extra : Finset α}

/-- Members that were absent and are ready now. -/
theorem card_present_of_extra (hextra : extra ⊆ Q.absent ready)
    (h : ∀ a ∈ Q.members, ready' a = true ↔ a ∈ extra ∨ ready a = true) :
    (Q.present ready').card = (Q.present ready).card + extra.card := by
  have hunion : Q.present ready' = Q.present ready ∪ extra := by
    ext a
    simp only [present, Finset.mem_union, Finset.mem_filter]
    constructor
    · rintro ⟨hmem, hready⟩
      rcases (h a hmem).1 hready with hnew | hold
      · exact Or.inr hnew
      · exact Or.inl ⟨hmem, hold⟩
    · rintro (⟨hmem, hold⟩ | hnew)
      · exact ⟨hmem, (h a hmem).2 (Or.inr hold)⟩
      · have hmem := (Finset.mem_filter.1 (hextra hnew)).1
        exact ⟨hmem, (h a hmem).2 (Or.inl hnew)⟩
  have hdisjoint : Disjoint (Q.present ready) extra := by
    rw [Finset.disjoint_left]
    intro a hpresent hnew
    exact (Finset.mem_filter.1 (hextra hnew)).2 (Finset.mem_filter.1 hpresent).2
  rw [hunion, Finset.card_union_of_disjoint hdisjoint]

/-- Each of them is one less that is missing. -/
theorem missing_of_extra (hextra : extra ⊆ Q.absent ready)
    (h : ∀ a ∈ Q.members, ready' a = true ↔ a ∈ extra ∨ ready a = true) :
    Q.missing ready' = Q.missing ready - extra.card := by
  unfold missing
  rw [Q.card_present_of_extra hextra h, Nat.sub_add_eq]

/-- Making as many ready as are missing is enough, whichever they are. -/
theorem satisfied_of_extra (hextra : extra ⊆ Q.absent ready)
    (hcard : Q.missing ready ≤ extra.card)
    (h : ∀ a ∈ Q.members, ready' a = true ↔ a ∈ extra ∨ ready a = true) :
    Q.Satisfied ready' := by
  rw [satisfied_iff, Q.missing_of_extra hextra h]
  omega

end Extra

/-- Every member can be the one that decides. -/
theorem exists_decisive [DecidableEq α] {a : α} (ha : a ∈ Q.members) (hpos : 1 ≤ Q.threshold) :
    ∃ others ⊆ Q.members.erase a, others.card + 1 = Q.threshold := by
  have hle : Q.threshold - 1 ≤ (Q.members.erase a).card := by
    have := Q.threshold_le
    rw [Finset.card_erase_of_mem ha]
    omega
  rcases Finset.exists_subset_card_eq hle with ⟨others, hsubset, hcard⟩
  exact ⟨others, hsubset, by omega⟩

end Quorum

end Library
