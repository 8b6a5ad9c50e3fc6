import Mathlib.Data.List.Forall2

/-!
# Fallible — computations that answer or throw

A sequence succeeds step by step, and so does a pass over a list.  Of several attempts the first one
that succeeds counts.
-/

namespace Library
namespace Fallible

variable {ε α β γ : Type}

theorem ok_bind (a : α) (f : α → Except ε β) : (Except.ok a >>= f) = f a := rfl

theorem error_bind (e : ε) (f : α → Except ε β) : (Except.error e >>= f) = .error e := rfl

theorem bind_eq_ok {x : Except ε α} {f : α → Except ε β} {b : β} :
    (x >>= f) = .ok b ↔ ∃ a, x = .ok a ∧ f a = .ok b := by
  cases x with
  | ok a => simp [ok_bind]
  | error e => simp [error_bind]

theorem bind_pure_eq_map (x : Except ε α) (f : α → β) :
    (x >>= fun a => pure (f a)) = x.map f := by
  cases x with
  | ok a => rfl
  | error e => rfl

theorem map_eq_ok {x : Except ε α} {f : α → β} (hf : Function.Injective f) {a : α} :
    x.map f = .ok (f a) ↔ x = .ok a := by
  cases x with
  | ok b => exact ⟨fun h => congrArg Except.ok (hf (Except.ok.inj h)), fun h => h ▸ rfl⟩
  | error e => exact ⟨fun h => (nomatch h), fun h => nomatch h⟩

theorem mapError_eq_ok {ε' : Type} {x : Except ε α} {f : ε → ε'} {a : α} :
    x.mapError f = .ok a ↔ x = .ok a := by
  cases x with
  | ok b => exact ⟨fun h => congrArg _ (Except.ok.inj h), fun h => congrArg _ (Except.ok.inj h)⟩
  | error e => exact ⟨fun h => (nomatch h), fun h => (nomatch h)⟩

theorem exists_ok {x : Except ε α} (h : x.toBool = true) : ∃ a, x = .ok a := by
  cases x with
  | ok a => exact ⟨a, rfl⟩
  | error e => cases h

theorem exists_error {x : Except ε α} (h : x.toBool = false) : ∃ e, x = .error e := by
  cases x with
  | ok a => cases h
  | error e => exact ⟨e, rfl⟩

/-! ## A pass over a list -/

/-- A pass succeeds with what it makes of each element. -/
theorem mapM_eq_ok {f : α → Except ε β} {as : List α} {bs : List β} :
    as.mapM f = .ok bs ↔ List.Forall₂ (fun a b => f a = .ok b) as bs := by
  induction as generalizing bs with
  | nil =>
      rw [List.forall₂_nil_left_iff]
      exact ⟨fun h => (Except.ok.inj h).symm, fun h => congrArg Except.ok h.symm⟩
  | cons a as ih =>
      rw [List.mapM_cons, List.forall₂_cons_left_iff, bind_eq_ok]
      constructor
      · rintro ⟨b, hfirst, hrest⟩
        rcases bind_eq_ok.1 hrest with ⟨rest, hrest, hbs⟩
        exact ⟨b, rest, hfirst, ih.1 hrest, (Except.ok.inj hbs).symm⟩
      · rintro ⟨b, rest, hfirst, hrest, rfl⟩
        exact ⟨b, hfirst, bind_eq_ok.2 ⟨rest, ih.2 hrest, rfl⟩⟩

/-! ## The first attempt that succeeds -/

/-- Attempts that succeed alike, with related results, end with related results. -/
theorem findSome?_related {f : α → Option β} {g : α → Option γ} {R : β → γ → Prop}
    (hnone : ∀ a, f a = none → g a = none)
    (hsome : ∀ a b, f a = some b → ∃ c, g a = some c ∧ R b c) {as : List α} {b : β}
    (h : as.findSome? f = some b) : ∃ c, as.findSome? g = some c ∧ R b c := by
  induction as with
  | nil => cases h
  | cons a as ih =>
      rw [List.findSome?_cons] at h ⊢
      cases hfirst : f a with
      | none =>
          rw [hfirst] at h
          rw [hnone a hfirst]
          exact ih h
      | some b' =>
          rw [hfirst] at h
          cases h
          rcases hsome a b hfirst with ⟨c, hc, hrel⟩
          rw [hc]
          exact ⟨c, rfl, hrel⟩

end Fallible
end Library
