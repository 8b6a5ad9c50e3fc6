import Mathlib.Data.List.Basic

/-!
# Traced — programs that act on a world and leave a trace

A program runs in a world that its callbacks may change, emits events, and ends with a result or
an error.  `Triple P x Q E` says: from a trace that satisfies `P`, the program `x` ends with a
result and a trace that satisfy `Q`, or with an error and a trace that satisfy `E`.  Every
construct has one rule.
-/

namespace Library
namespace Traced

variable {ε σ ev α β : Type}

/-- The world, and the events so far, oldest first. -/
structure Trace (σ ev : Type) where
  world : σ
  events : List ev

abbrev Prog (ε σ ev α : Type) := ExceptT ε (StateM (Trace σ ev)) α

def run (x : Prog ε σ ev α) (t : Trace σ ev) : Except ε α × Trace σ ev :=
  StateT.run (ExceptT.run x) t

def emit (e : ev) : Prog ε σ ev Unit :=
  ExceptT.mk fun t => (.ok (), { t with events := t.events ++ [e] })

/-- Code that sees the world and not the trace. -/
def call (f : σ → Except ε α × σ) : Prog ε σ ev α :=
  ExceptT.mk fun t => ((f t.world).1, { t with world := (f t.world).2 })

/-! ## How programs run -/

section State

variable {τ : Type} {x : ExceptT ε (StateM τ) α} {s s' : τ}

/-- Over any state, the second part of a sequence starts where the first has ended. -/
theorem stateRun_bind_of_ok {a : α} (h : StateT.run (ExceptT.run x) s = (.ok a, s'))
    (f : α → ExceptT ε (StateM τ) β) :
    StateT.run (ExceptT.run (x >>= f)) s = StateT.run (ExceptT.run (f a)) s' := by
  change (match StateT.run (ExceptT.run x) s with
    | (r, s') => StateT.run (ExceptT.bindCont f r) s') = _
  rw [h]
  rfl

theorem stateRun_bind_of_error {e : ε} (h : StateT.run (ExceptT.run x) s = (.error e, s'))
    (f : α → ExceptT ε (StateM τ) β) :
    StateT.run (ExceptT.run (x >>= f)) s = (.error e, s') := by
  change (match StateT.run (ExceptT.run x) s with
    | (r, s') => StateT.run (ExceptT.bindCont f r) s') = _
  rw [h]
  rfl

end State

@[simp] theorem run_pure (a : α) (t : Trace σ ev) :
    run (pure a : Prog ε σ ev α) t = (.ok a, t) := rfl

@[simp] theorem run_throw (e : ε) (t : Trace σ ev) :
    run (throw e : Prog ε σ ev α) t = (.error e, t) := rfl

@[simp] theorem run_call (f : σ → Except ε α × σ) (t : Trace σ ev) :
    run (call f) t = ((f t.world).1, { t with world := (f t.world).2 }) := rfl

theorem run_bind (x : Prog ε σ ev α) (f : α → Prog ε σ ev β) (t : Trace σ ev) :
    run (x >>= f) t =
      match run x t with
      | (.ok a, t') => run (f a) t'
      | (.error e, t') => (.error e, t') := by
  rcases hrun : run x t with ⟨r, t'⟩
  cases r with
  | ok a => exact stateRun_bind_of_ok hrun f
  | error e => exact stateRun_bind_of_error hrun f

theorem run_tryCatch (x : Prog ε σ ev α) (c : ε → Prog ε σ ev α) (t : Trace σ ev) :
    run (tryCatch x c) t =
      match run x t with
      | (.ok a, t') => (.ok a, t')
      | (.error e, t') => run (c e) t' := by
  change (match run x t with
    | (r, t') => StateT.run (match r with
      | .ok a => Pure.pure (Except.ok a)
      | .error e => ExceptT.run (c e)) t') = _
  rcases run x t with ⟨r, t'⟩
  cases r <;> rfl

/-! ## Triples -/

/-- The postcondition that belongs to an outcome. -/
def Post (Q : α → List ev → Prop) (E : ε → List ev → Prop) :
    Except ε α × Trace σ ev → Prop
  | (.ok a, t) => Q a t.events
  | (.error e, t) => E e t.events

def Triple (P : List ev → Prop) (x : Prog ε σ ev α) (Q : α → List ev → Prop)
    (E : ε → List ev → Prop) : Prop :=
  ∀ t, P t.events → Post Q E (run x t)

namespace Triple

variable {P P' : List ev → Prop} {x : Prog ε σ ev α} {Q Q' : α → List ev → Prop}
  {E E' : ε → List ev → Prop}

theorem mono (h : Triple P x Q E) (hP : ∀ l, P' l → P l) (hQ : ∀ a l, Q a l → Q' a l)
    (hE : ∀ e l, E e l → E' e l) : Triple P' x Q' E' := by
  intro t ht
  have hpost := h t (hP _ ht)
  rcases hrun : run x t with ⟨r, t'⟩
  rw [hrun] at hpost
  cases r with
  | ok a => exact hQ a _ hpost
  | error e => exact hE e _ hpost

/-- Two specifications of one program hold together. -/
theorem and {P' : List ev → Prop} {Q' : α → List ev → Prop} {E' : ε → List ev → Prop}
    (h : Triple P x Q E) (h' : Triple P' x Q' E') :
    Triple (fun l => P l ∧ P' l) x (fun a l => Q a l ∧ Q' a l) (fun e l => E e l ∧ E' e l) := by
  intro t ht
  have hpost := h t ht.1
  have hpost' := h' t ht.2
  rcases hrun : run x t with ⟨r, t'⟩
  rw [hrun] at hpost hpost'
  cases r with
  | ok a => exact ⟨hpost, hpost'⟩
  | error e => exact ⟨hpost, hpost'⟩

/-- What holds of the trace in either outcome holds of the trace. -/
theorem events {I : List ev → Prop} (h : Triple P x (fun _ => I) (fun _ => I)) {t : Trace σ ev}
    (ht : P t.events) : I (run x t).2.events := by
  have hpost := h t ht
  rcases hrun : run x t with ⟨r, t'⟩
  rw [hrun] at hpost
  cases r with
  | ok a => exact hpost
  | error e => exact hpost

theorem pure {a : α} (h : ∀ l, P l → Q a l) : Triple P (pure a : Prog ε σ ev α) Q E := by
  intro t ht
  exact h _ ht

theorem throw {e : ε} (h : ∀ l, P l → E e l) : Triple P (throw e : Prog ε σ ev α) Q E := by
  intro t ht
  exact h _ ht

theorem emit {e : ev} {Q : Unit → List ev → Prop} (h : ∀ l, P l → Q () (l ++ [e])) :
    Triple P (emit e : Prog ε σ ev Unit) Q E := by
  intro t ht
  exact h _ ht

theorem call {f : σ → Except ε α × σ} (hok : ∀ w a, (f w).1 = .ok a → ∀ l, P l → Q a l)
    (herror : ∀ w e, (f w).1 = .error e → ∀ l, P l → E e l) : Triple P (call f) Q E := by
  intro t ht
  rw [run_call]
  cases hf : (f t.world).1 with
  | ok a => exact hok _ a hf _ ht
  | error e => exact herror _ e hf _ ht

theorem bind {R : β → List ev → Prop} {f : α → Prog ε σ ev β} (h : Triple P x Q E)
    (hf : ∀ a, Triple (Q a) (f a) R E) : Triple P (x >>= f) R E := by
  intro t ht
  have hpost := h t ht
  rw [run_bind]
  rcases hrun : run x t with ⟨r, t'⟩
  rw [hrun] at hpost
  cases r with
  | ok a => exact hf a t' hpost
  | error e => exact hpost

/-- A precondition that does not depend on the trace can be moved into the context. -/
theorem of_pre {p : Prop} (h : p → Triple P x Q E) : Triple (fun l => p ∧ P l) x Q E := by
  intro t ht
  exact h ht.1 t ht.2

/-- A loop: what holds of the processed part of the list is kept by one more element. -/
theorem foldlM {f : β → α → Prog ε σ ev β} (I : List α → β → List ev → Prop) (l : List α)
    (h : ∀ done a rest b, l = done ++ a :: rest →
      Triple (I done b) (f b a) (I (done ++ [a])) E) (b : β) :
    Triple (I [] b) (l.foldlM f b) (I l) E := by
  -- The invariant speaks of the processed part, so the induction is on the rest of the list.
  have hloop : ∀ rest done b, l = done ++ rest →
      Triple (I done b) (rest.foldlM f b) (I l) E := by
    intro rest
    induction rest with
    | nil =>
        intro done b hl
        rw [List.append_nil] at hl
        subst hl
        exact pure fun _ hI => hI
    | cons a rest ih =>
        intro done b hl
        rw [List.foldlM_cons]
        apply bind (h done a rest b hl)
        intro b'
        apply ih (done ++ [a]) b'
        rw [hl, List.append_assoc, List.singleton_append]
  exact hloop l [] b rfl

end Triple

/-! ## Programs that succeed -/

/-- From every trace the program ends with a result, and the result satisfies `P`. -/
def Returns (x : Prog ε σ ev α) (P : α → Prop) : Prop :=
  ∀ t, ∃ a, (run x t).1 = .ok a ∧ P a

namespace Returns

variable {x : Prog ε σ ev α} {P Q : α → Prop}

theorem pure {a : α} (h : P a) : Returns (pure a : Prog ε σ ev α) P :=
  fun _ => ⟨a, rfl, h⟩

theorem emit (e : ev) : Returns (emit e : Prog ε σ ev Unit) fun _ => True :=
  fun _ => ⟨(), rfl, trivial⟩

theorem mono (h : Returns x P) (hPQ : ∀ a, P a → Q a) : Returns x Q := by
  intro t
  rcases h t with ⟨a, ha, hP⟩
  exact ⟨a, ha, hPQ a hP⟩

theorem bind {R : β → Prop} {f : α → Prog ε σ ev β} (h : Returns x P)
    (hf : ∀ a, P a → Returns (f a) R) : Returns (x >>= f) R := by
  intro t
  rcases h t with ⟨a, ha, hP⟩
  rw [run_bind]
  rcases hrun : run x t with ⟨r, t'⟩
  rw [hrun] at ha
  cases ha
  exact hf a hP t'

theorem tryCatch {c : ε → Prog ε σ ev α} (h : Returns x P) : Returns (tryCatch x c) P := by
  intro t
  rcases h t with ⟨a, ha, hP⟩
  rw [run_tryCatch]
  rcases hrun : run x t with ⟨r, t'⟩
  rw [hrun] at ha
  cases ha
  exact ⟨a, rfl, hP⟩

/-- Where the result is known to satisfy `P`, what `Q` says of it can be read off. -/
theorem iff_of {p : Prop} (t : Trace σ ev) (h : Returns x P) (hQ : ∀ a, P a → (Q a ↔ p)) :
    Returns x Q ↔ p := by
  constructor
  -- Both speak of the one result of the run from `t`.
  · intro hxQ
    rcases h t with ⟨a, ha, hP⟩
    rcases hxQ t with ⟨b, hb, hQb⟩
    obtain rfl : a = b := by simpa [ha] using hb
    exact (hQ a hP).1 hQb
  · intro hp
    exact h.mono fun a hP => (hQ a hP).2 hp

end Returns

/-! ## The errors a program can end with -/

/-- Every error the program ends with satisfies `E`. -/
def Throws (x : Prog ε σ ev α) (E : ε → Prop) : Prop :=
  ∀ t e u, run x t = (.error e, u) → E e

namespace Throws

variable {x : Prog ε σ ev α} {E : ε → Prop}

theorem pure (a : α) : Throws (pure a : Prog ε σ ev α) E := by
  intro t e u h
  cases h

theorem throw {e : ε} (h : E e) : Throws (throw e : Prog ε σ ev α) E := by
  intro t e' u hrun
  cases hrun
  exact h

theorem mono {E' : ε → Prop} (h : Throws x E) (hE : ∀ e, E e → E' e) : Throws x E' := by
  intro t e u hrun
  exact hE e (h t e u hrun)

theorem emit (e : ev) : Throws (emit e : Prog ε σ ev Unit) E := by
  intro t e' u h
  cases h

theorem call {f : σ → Except ε α × σ} (h : ∀ w e, (f w).1 = .error e → E e) :
    Throws (call f : Prog ε σ ev α) E := by
  intro t e u hrun
  rw [run_call, Prod.mk.injEq] at hrun
  exact h t.world e hrun.1

theorem bind {f : α → Prog ε σ ev β} (h : Throws x E) (hf : ∀ a, Throws (f a) E) :
    Throws (x >>= f) E := by
  intro t e u hrun
  rw [run_bind] at hrun
  rcases hx : run x t with ⟨r, t'⟩
  rw [hx] at hrun
  cases r with
  | ok a => exact hf a t' e u hrun
  | error e' =>
      cases hrun
      exact h t e _ hx

theorem foldlM {f : β → α → Prog ε σ ev β} (h : ∀ b a, Throws (f b a) E) (l : List α) (b : β) :
    Throws (l.foldlM f b) E := by
  induction l generalizing b with
  | nil => exact pure b
  | cons a l ih =>
      rw [List.foldlM_cons]
      exact bind (h b a) ih

end Throws

/-! ## Programs that fail -/

/-- From every trace the program ends with an error. -/
def Fails (x : Prog ε σ ev α) : Prop :=
  ∀ t, ∃ e, (run x t).1 = .error e

namespace Fails

variable {x : Prog ε σ ev α} {f : α → Prog ε σ ev β}

theorem bind_left (h : Fails x) : Fails (x >>= f) := by
  intro t
  rcases h t with ⟨e, he⟩
  rw [run_bind]
  rcases hrun : run x t with ⟨r, t'⟩
  rw [hrun] at he
  cases he
  exact ⟨e, rfl⟩

theorem bind_right (h : ∀ a, Fails (f a)) : Fails (x >>= f) := by
  intro t
  rw [run_bind]
  rcases run x t with ⟨r, t'⟩
  cases r with
  | error e => exact ⟨e, rfl⟩
  | ok a => exact h a t'

theorem not_returns {P : α → Prop} (t : Trace σ ev) (h : Fails x) : ¬ Returns x P := by
  intro hreturns
  rcases h t with ⟨e, he⟩
  rcases hreturns t with ⟨a, ha, -⟩
  rw [he] at ha
  cases ha

end Fails

end Traced
end Library
