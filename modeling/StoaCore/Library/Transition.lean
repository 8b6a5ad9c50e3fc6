import Mathlib.Data.List.Basic

/-!
# Transition — labelled transition systems and their runs

A system is a partial deterministic step function over labelled events; every step also emits an
output.  A run records, for each step, the state before, the event, the output and the state
after, so that a property "of every step of every run" is a property of the records of its trace.

* `Run` : finite runs together with their trace;
* `Run.invariant` : an invariant kept by every (allowed) step holds all along a run;
* `Run.project` : what a component of a composed system does is a run of its own;
* `Run.exists_crossing` : a run that ends in `P` but started outside it has a step that enters `P`.
-/

namespace Library
namespace Transition

variable {σ ε ω : Type*}

/-- `step s e = none` means that the event `e` is not enabled in the state `s`. -/
structure System (σ ε ω : Type*) where
  init : σ
  step : σ → ε → Option (σ × ω)

/-- One executed step. -/
structure Record (σ ε ω : Type*) where
  pre : σ
  event : ε
  out : ω
  post : σ

variable {sys : System σ ε ω}

/-- The record `r` is a step the system can make. -/
def Record.Valid (sys : System σ ε ω) (r : Record σ ε ω) : Prop :=
  sys.step r.pre r.event = some (r.post, r.out)

/-- `Run sys s trace t`: the system goes from `s` to `t` by the steps of `trace`. -/
inductive Run (sys : System σ ε ω) : σ → List (Record σ ε ω) → σ → Prop where
  | nil (s : σ) : Run sys s [] s
  | cons {r : Record σ ε ω} {trace : List (Record σ ε ω)} {t : σ} :
      r.Valid sys → Run sys r.post trace t → Run sys r.pre (r :: trace) t

namespace Run

theorem valid_of_mem {s t : σ} {trace : List (Record σ ε ω)} (h : Run sys s trace t) :
    ∀ r ∈ trace, r.Valid sys := by
  induction h with
  | nil s =>
      intro r hr
      cases hr
  | cons hvalid _ ih =>
      intro r hr
      rcases List.mem_cons.1 hr with rfl | hr
      · exact hvalid
      · exact ih r hr

/-- A run of a concatenated trace splits at the border. -/
theorem split {s u : σ} {front back : List (Record σ ε ω)} (h : Run sys s (front ++ back) u) :
    ∃ t, Run sys s front t ∧ Run sys t back u := by
  induction front generalizing s with
  | nil =>
      exact ⟨s, Run.nil s, h⟩
  | cons r front ih =>
      cases h with
      | cons hvalid hrest =>
          rcases ih hrest with ⟨t, hfront, hback⟩
          exact ⟨t, Run.cons hvalid hfront, hback⟩

theorem append {s t u : σ} {front back : List (Record σ ε ω)} (h : Run sys s front t)
    (hback : Run sys t back u) : Run sys s (front ++ back) u := by
  induction h with
  | nil s =>
      exact hback
  | cons hvalid _ ih =>
      exact Run.cons hvalid (ih hback)

/-- The part of a run before one of its steps is a run to where that step begins. -/
theorem before {s u : σ} {r : Record σ ε ω} {trace front back : List (Record σ ε ω)}
    (h : Run sys s trace u) (htrace : trace = front ++ r :: back) : Run sys s front r.pre := by
  subst htrace
  rcases h.split with ⟨t, hfront, hback⟩
  cases hback
  exact hfront

theorem tail {s t : σ} {r : Record σ ε ω} {trace : List (Record σ ε ω)}
    (h : Run sys s (r :: trace) t) : Run sys r.post trace t := by
  cases h with
  | cons _ hrest => exact hrest

/-- An invariant that every allowed step keeps holds before and after every step of a run of
allowed steps, and at its end. -/
theorem invariant (Inv : σ → Prop) (Allowed : Record σ ε ω → Prop)
    (hstep : ∀ r : Record σ ε ω, r.Valid sys → Allowed r → Inv r.pre → Inv r.post)
    {s t : σ} {trace : List (Record σ ε ω)} (h : Run sys s trace t)
    (hallowed : ∀ r ∈ trace, Allowed r) (hinit : Inv s) :
    Inv t ∧ ∀ r ∈ trace, Inv r.pre ∧ Inv r.post := by
  induction h with
  | nil s =>
      exact ⟨hinit, fun r hr => by cases hr⟩
  | @cons r trace t hvalid _ ih =>
      have hpost : Inv r.post := hstep r hvalid (hallowed r (by simp)) hinit
      -- The rest of the run starts where this step ends.
      have hrest := ih (fun r' hr' => hallowed r' (by simp [hr'])) hpost
      refine ⟨hrest.1, ?_⟩
      intro r' hr'
      rcases List.mem_cons.1 hr' with rfl | hr'
      · exact ⟨hinit, hpost⟩
      · exact hrest.2 r' hr'

/-- The same for an invariant that every step keeps. -/
theorem invariant_of_forall (Inv : σ → Prop)
    (hstep : ∀ r : Record σ ε ω, r.Valid sys → Inv r.pre → Inv r.post)
    {s t : σ} {trace : List (Record σ ε ω)} (h : Run sys s trace t) (hinit : Inv s) :
    Inv t ∧ ∀ r ∈ trace, Inv r.pre ∧ Inv r.post :=
  h.invariant Inv (fun _ => True) (fun r hr _ => hstep r hr) (fun _ _ => trivial) hinit

/-- What one step of a run establishes and every step keeps holds at the end. -/
theorem persists (Inv : σ → Prop)
    (hstep : ∀ r : Record σ ε ω, r.Valid sys → Inv r.pre → Inv r.post)
    {s t : σ} {trace : List (Record σ ε ω)} (h : Run sys s trace t)
    {r : Record σ ε ω} (hr : r ∈ trace) (hpost : Inv r.post) : Inv t := by
  -- The run is cut behind the step; the invariant then holds along what is left.
  rcases List.append_of_mem hr with ⟨front, back, rfl⟩
  rcases h.split with ⟨_, -, hback⟩
  exact (hback.tail.invariant_of_forall Inv hstep hpost).1

/-- A component that takes steps of a system of its own, or none, runs through that system in every
run of the whole. -/
theorem project {σ' ε' ω' : Type*} {sys' : System σ' ε' ω'} (f : σ → σ')
    (Allowed : Record σ ε ω → Prop) (Allowed' : Record σ' ε' ω' → Prop)
    (hstep : ∀ r : Record σ ε ω, r.Valid sys → Allowed r → f r.post = f r.pre ∨
      ∃ r' : Record σ' ε' ω', r'.Valid sys' ∧ Allowed' r' ∧ r'.pre = f r.pre ∧ r'.post = f r.post)
    {s t : σ} {trace : List (Record σ ε ω)} (h : Run sys s trace t)
    (hallowed : ∀ r ∈ trace, Allowed r) :
    ∃ trace', Run sys' (f s) trace' (f t) ∧ ∀ r' ∈ trace', Allowed' r' := by
  induction h with
  | nil s =>
      exact ⟨[], Run.nil _, fun r' hr' => by cases hr'⟩
  | @cons r trace t hvalid _ ih =>
      rcases ih (fun r' hr' => hallowed r' (by simp [hr'])) with ⟨rest, hrest, hall⟩
      rcases hstep r hvalid (hallowed r (by simp)) with hsame | ⟨r', hvalid', hr', hpre, hpost⟩
      · exact ⟨rest, hsame ▸ hrest, hall⟩
      · refine ⟨r' :: rest, hpre ▸ Run.cons hvalid' (hpost ▸ hrest), ?_⟩
        intro r'' hr''
        rcases List.mem_cons.1 hr'' with rfl | hr''
        · exact hr'
        · exact hall r'' hr''

/-- A run that starts outside `P` and ends inside has a step that enters `P`. -/
theorem exists_crossing (P : σ → Prop) {s t : σ} {trace : List (Record σ ε ω)}
    (h : Run sys s trace t) (hs : ¬ P s) (ht : P t) :
    ∃ r ∈ trace, ¬ P r.pre ∧ P r.post := by
  induction h with
  | nil s =>
      exact absurd ht hs
  | @cons r trace t hvalid _ ih =>
      -- The first step either enters `P` or leaves the crossing to the rest.
      by_cases hpost : P r.post
      · exact ⟨r, by simp, hs, hpost⟩
      · rcases ih hpost ht with ⟨r', hr', hcross⟩
        exact ⟨r', by simp [hr'], hcross⟩

end Run

/-! ## Tables

A state keeps what runs beside one another in a table that grows at its end. -/

/-- An entry of the grown table is the new one or was there. -/
theorem getElem?_concat_cases {α : Type*} {l : List α} {new : α} (k : Nat) (a : α)
    (h : (l ++ [new])[k]? = some a) :
    (k = l.length ∧ a = new) ∨ (k ≠ l.length ∧ l[k]? = some a) := by
  rcases Nat.lt_or_ge k l.length with hlt | hge
  · rw [List.getElem?_append_left hlt] at h
    exact Or.inr ⟨Nat.ne_of_lt hlt, h⟩
  · rw [List.getElem?_append_right hge, List.getElem?_singleton] at h
    split at h
    case isTrue hk => exact Or.inl ⟨by omega, (Option.some.inj h).symm⟩
    case isFalse => cases h

/-- An entry of the table is the one written or was there. -/
theorem getElem?_set_cases {α : Type*} {l : List α} {n : Nat} {new : α} (k : Nat) (a : α)
    (h : (l.set n new)[k]? = some a) :
    (k = n ∧ a = new) ∨ (k ≠ n ∧ l[k]? = some a) := by
  by_cases hk : k = n
  · subst hk
    have hlt := (List.getElem?_eq_some_iff.1 h).1
    rw [List.length_set] at hlt
    rw [List.getElem?_set_self hlt, Option.some.injEq] at h
    exact Or.inl ⟨rfl, h.symm⟩
  · rw [List.getElem?_set_ne (Ne.symm hk)] at h
    exact Or.inr ⟨hk, h⟩

/-! ## Executing a list of events -/

/-- Executes the events in order; `none` as soon as one is not enabled. -/
def System.exec (sys : System σ ε ω) : σ → List ε → Option (List (Record σ ε ω) × σ)
  | s, [] => some ([], s)
  | s, e :: es =>
      match sys.step s e with
      | none => none
      | some (t, o) =>
          match sys.exec t es with
          | none => none
          | some (trace, u) => some (⟨s, e, o, t⟩ :: trace, u)

theorem run_of_exec {s : σ} {events : List ε} {result : List (Record σ ε ω) × σ}
    (h : sys.exec s events = some result) : Run sys s result.1 result.2 := by
  induction events generalizing s result with
  | nil =>
      cases h
      exact Run.nil s
  | cons e es ih =>
      simp only [System.exec] at h
      split at h
      · cases h
      · rename_i t o hstep
        split at h
        · cases h
        · rename_i trace u hrest
          cases h
          exact Run.cons (r := ⟨s, e, o, t⟩) hstep (ih hrest)

/-- An execution records its events. -/
theorem events_of_exec {s : σ} {events : List ε} {result : List (Record σ ε ω) × σ}
    (h : sys.exec s events = some result) : result.1.map Record.event = events := by
  induction events generalizing s result with
  | nil =>
      cases h
      rfl
  | cons e es ih =>
      simp only [System.exec] at h
      split at h
      · cases h
      · split at h
        · cases h
        · rename_i trace u hrest
          cases h
          exact congrArg (e :: ·) (ih hrest)

/-- The trace and the final state of an execution, for events that are all enabled in turn. -/
def System.trace (sys : System σ ε ω) (s : σ) (events : List ε) : List (Record σ ε ω) :=
  ((sys.exec s events).getD ([], s)).1

def System.final (sys : System σ ε ω) (s : σ) (events : List ε) : σ :=
  ((sys.exec s events).getD ([], s)).2

theorem run_of_events {s : σ} (events : List ε) (h : (sys.exec s events).isSome = true) :
    Run sys s (sys.trace s events) (sys.final s events) := by
  cases hexec : sys.exec s events with
  | none => simp [hexec] at h
  | some result => simpa [System.trace, System.final, hexec] using run_of_exec hexec

theorem events_of_trace {s : σ} {events : List ε} (h : (sys.exec s events).isSome = true) :
    (sys.trace s events).map Record.event = events := by
  cases hexec : sys.exec s events with
  | none =>
      rw [hexec] at h
      cases h
  | some result =>
      unfold System.trace
      rw [hexec]
      exact events_of_exec hexec

end Transition
end Library
