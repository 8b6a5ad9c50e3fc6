import StoaCore.Library.Traced

/-!
# Ghost — programs whose world carries a record that they cannot see

A program over `σ × γ` erases to a program over `σ` when its runs, with the second component
forgotten, are the runs of the other.  `Leads P x Q` speaks of successful runs and of the whole
state, so that it can say what the record holds.
-/

namespace Library
namespace Traced

variable {ε σ γ ev α β : Type}

/-! ## Erasure -/

/-- Forgets the record. -/
def Trace.erase (t : Trace (σ × γ) ev) : Trace σ ev where
  world := t.world.1
  events := t.events

/-- Apart from the record, every run of `x` is the run of `y`. -/
def Erases (x : Prog ε (σ × γ) ev α) (y : Prog ε σ ev α) : Prop :=
  ∀ t, ((run x t).1, (run x t).2.erase) = run y t.erase

namespace Erases

variable {x : Prog ε (σ × γ) ev α} {y : Prog ε σ ev α}

theorem pure (a : α) : Erases (pure a : Prog ε (σ × γ) ev α) (pure a) := by
  intro t
  rfl

theorem throw (e : ε) : Erases (throw e : Prog ε (σ × γ) ev α) (throw e) := by
  intro t
  rfl

/-- Code that acts on the world alone may add to the record whatever it likes. -/
theorem call {f : σ × γ → Except ε α × (σ × γ)} {g : σ → Except ε α × σ}
    (h : ∀ w r, ((f (w, r)).1, (f (w, r)).2.1) = g w) :
    Erases (call f : Prog ε (σ × γ) ev α) (call g) := by
  intro t
  have hw : ((f t.world).1, (f t.world).2.1) = g t.world.1 := h t.world.1 t.world.2
  rw [run_call, run_call]
  change ((f t.world).1, Trace.mk (f t.world).2.1 t.events) =
    ((g t.world.1).1, Trace.mk (g t.world.1).2 t.events)
  rw [← hw]

theorem bind {f : α → Prog ε (σ × γ) ev β} {g : α → Prog ε σ ev β} (h : Erases x y)
    (hf : ∀ a, Erases (f a) (g a)) : Erases (x >>= f) (y >>= g) := by
  intro t
  have hx := h t
  rw [run_bind, run_bind, ← hx]
  rcases hrun : run x t with ⟨r, t'⟩
  -- The second part starts from the erased state in which the first has ended.
  cases r with
  | ok a => exact hf a t'
  | error e => rfl

theorem foldlM {f : β → α → Prog ε (σ × γ) ev β} {g : β → α → Prog ε σ ev β}
    (h : ∀ b a, Erases (f b a) (g b a)) (l : List α) (b : β) :
    Erases (l.foldlM f b) (l.foldlM g b) := by
  induction l generalizing b with
  | nil => exact pure b
  | cons a l ih =>
      rw [List.foldlM_cons, List.foldlM_cons]
      exact bind (h b a) ih

/-- A successful run without the record is the shadow of a successful run with it. -/
theorem ok_of_run (h : Erases x y) {t : Trace (σ × γ) ev} {t' : Trace σ ev} {a : α}
    (hrun : run y t.erase = (.ok a, t')) :
    ∃ u, run x t = (.ok a, u) ∧ u.erase = t' := by
  have hx := h t
  rw [hrun] at hx
  rcases hresult : run x t with ⟨r, u⟩
  rw [hresult] at hx
  cases hx
  exact ⟨u, rfl, rfl⟩

end Erases

/-! ## Successful runs -/

/-- Whenever `x` succeeds from a state in `P`, its result and the state satisfy `Q`. -/
def Leads (P : Trace σ ev → Prop) (x : Prog ε σ ev α) (Q : α → Trace σ ev → Prop) : Prop :=
  ∀ t, P t → ∀ a u, run x t = (.ok a, u) → Q a u

namespace Leads

variable {P : Trace σ ev → Prop} {Q : α → Trace σ ev → Prop} {x : Prog ε σ ev α}

theorem mono {P' : Trace σ ev → Prop} {Q' : α → Trace σ ev → Prop} (h : Leads P x Q)
    (hP : ∀ t, P' t → P t) (hQ : ∀ a t, Q a t → Q' a t) : Leads P' x Q' := by
  intro t ht a u hrun
  exact hQ a u (h t (hP t ht) a u hrun)

theorem pure {a : α} (h : ∀ t, P t → Q a t) : Leads P (pure a : Prog ε σ ev α) Q := by
  intro t ht b u hrun
  cases hrun
  exact h t ht

theorem throw (e : ε) : Leads P (throw e : Prog ε σ ev α) Q := by
  intro t _ a u hrun
  cases hrun

theorem call {f : σ → Except ε α × σ}
    (h : ∀ t, P t → ∀ a, (f t.world).1 = .ok a → Q a { t with world := (f t.world).2 }) :
    Leads P (call f) Q := by
  intro t ht a u hrun
  rw [run_call, Prod.mk.injEq] at hrun
  rw [← hrun.2]
  exact h t ht a hrun.1

theorem bind {R : β → Trace σ ev → Prop} {f : α → Prog ε σ ev β} (h : Leads P x Q)
    (hf : ∀ a, Leads (Q a) (f a) R) : Leads P (x >>= f) R := by
  intro t ht b u hrun
  rw [run_bind] at hrun
  rcases hx : run x t with ⟨r, t'⟩
  rw [hx] at hrun
  cases r with
  | ok a => exact hf a t' (h t ht a t' hx) b u hrun
  | error e => cases hrun

theorem foldlM {f : β → α → Prog ε σ ev β} (I : β → Trace σ ev → Prop) (l : List α)
    (h : ∀ b, ∀ a ∈ l, Leads (I b) (f b a) I) (b : β) : Leads (I b) (l.foldlM f b) I := by
  induction l generalizing b with
  | nil => exact pure fun _ hI => hI
  | cons a l ih =>
      rw [List.foldlM_cons]
      refine bind (h b a List.mem_cons_self) fun b' => ?_
      exact ih (fun c d hd => h c d (List.mem_cons_of_mem _ hd)) b'

end Leads

end Traced
end Library
