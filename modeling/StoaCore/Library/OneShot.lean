import StoaCore.Library.Tasks

/-!
# OneShot — a notice that is given once

Calls that run interleaved share a flag.  `announce` gives the notice where the flag is not set yet,
and sets it.  Some calls never announce, some announce when they are about to succeed, and some,
the eager ones, as the first thing they do.
-/

namespace Library
namespace Tasks

open Transition

/-- The flag of the world, and the event that is the notice. -/
structure OneShot (σ ev : Type) where
  isSet : σ → Bool
  set : σ → σ
  note : ev
  isSet_set : ∀ s, isSet (set s) = true

namespace OneShot

variable {ε σ ev α β κ : Type} (N : OneShot σ ev)

def announce : Task ε σ ev Unit :=
  .act N.set fun s => if N.isSet s then pure () else .emit N.note (pure ())

/-! ## Tasks -/

/-- The task neither changes the world nor gives the notice, and `Q` holds of its outcome. -/
def Silent (Q : Except ε α → Prop) : Task ε σ ev α → Prop
  | .settled outcome => Q outcome
  | .act _ _ => False
  | .emit e next => e ≠ N.note ∧ Silent Q next
  | .await next => Silent Q next

/-- The task fails, or it announces and `Q` holds of its outcome. -/
def Announces (Q : Except ε α → Prop) : Task ε σ ev α → Prop
  | .settled outcome => ∃ e, outcome = .error e
  | .act f next => f = N.set ∧ ∀ s, ∃ rest,
      next s = (if N.isSet s then rest else .emit N.note rest) ∧ Silent N Q rest
  | .emit e next => e ≠ N.note ∧ Announces Q next
  | .await next => Announces Q next

section Rules

variable {N} {Q : Except ε α → Prop} {Q' : Except ε β → Prop} {x : Task ε σ ev α}
  {k : α → Task ε σ ev β}

theorem silent_bind (h : N.Silent Q x) (hok : ∀ a, Q (.ok a) → N.Silent Q' (k a))
    (herror : ∀ e, Q (.error e) → Q' (.error e)) : N.Silent Q' (x >>= k) := by
  rw [Task.bind_eq]
  induction x with
  | settled outcome =>
      cases outcome with
      | ok a => exact hok a h
      | error e => exact herror e h
  | act f next ih => exact h.elim
  | emit e next ih => exact ⟨h.1, ih h.2⟩
  | await next ih => exact ih h

/-- Before it announces, the first part can only fail. -/
theorem announces_bind (h : N.Announces Q x) (hok : ∀ a, Q (.ok a) → N.Silent Q' (k a))
    (herror : ∀ e, Q (.error e) → Q' (.error e)) : N.Announces Q' (x >>= k) := by
  rw [Task.bind_eq]
  induction x with
  | settled outcome =>
      rcases h with ⟨e, rfl⟩
      exact ⟨e, rfl⟩
  | act f next ih =>
      refine ⟨h.1, fun s => ?_⟩
      rcases h.2 s with ⟨rest, hnext, hsilent⟩
      refine ⟨rest >>= k, ?_, silent_bind hsilent hok herror⟩
      change Task.bind k (next s) = _
      rw [hnext, Task.bind_eq]
      split
      · rfl
      · rfl
  | emit e next ih => exact ⟨h.1, ih h.2⟩
  | await next ih => exact ih h

/-- The first part is silent, and the second one announces. -/
theorem announces_bind_of_silent (h : N.Silent Q x)
    (hok : ∀ a, Q (.ok a) → N.Announces Q' (k a)) : N.Announces Q' (x >>= k) := by
  rw [Task.bind_eq]
  induction x with
  | settled outcome =>
      cases outcome with
      | ok a => exact hok a h
      | error e => exact ⟨e, rfl⟩
  | act f next ih => exact h.elim
  | emit e next ih => exact ⟨h.1, ih h.2⟩
  | await next ih => exact ih h

theorem announces_announce :
    N.Announces (fun outcome => outcome = .ok ()) (N.announce : Task ε σ ev Unit) :=
  ⟨rfl, fun _ => ⟨pure (), rfl, rfl⟩⟩

theorem Silent.imp {Q₁ Q₂ : Except ε α → Prop} (hQ : ∀ r, Q₁ r → Q₂ r) (h : N.Silent Q₁ x) :
    N.Silent Q₂ x := by
  induction x with
  | settled outcome => exact hQ outcome h
  | act f next ih => exact h.elim
  | emit e next ih => exact ⟨h.1, ih h.2⟩
  | await next ih => exact ih h

theorem Announces.imp {Q₁ Q₂ : Except ε α → Prop} (hQ : ∀ r, Q₁ r → Q₂ r)
    (h : N.Announces Q₁ x) : N.Announces Q₂ x := by
  induction x with
  | settled outcome => exact h
  | act f next ih =>
      refine ⟨h.1, fun s => ?_⟩
      rcases h.2 s with ⟨rest, hnext, hsilent⟩
      exact ⟨rest, hnext, hsilent.imp hQ⟩
  | emit e next ih => exact ⟨h.1, ih h.2⟩
  | await next ih => exact ih h

/-- A silent task ends as its program does, whatever runs beside it. -/
theorem silent_outcome (h : N.Silent Q x) (t : Traced.Trace σ ev) :
    N.Silent (fun outcome => outcome = (Traced.run x.toProg t).1) x := by
  induction x generalizing t with
  | settled outcome =>
      cases outcome with
      | ok a => exact rfl
      | error e => exact rfl
  | act f next ih => exact h.elim
  | emit e next ih =>
      have hrun : Traced.run (Task.emit e next).toProg t =
          Traced.run next.toProg { t with events := t.events ++ [e] } := by
        rw [Task.toProg, Traced.run_bind]
        rfl
      rw [hrun]
      exact ⟨h.1, ih h.2 _⟩
  | await next ih => exact ih h t

end Rules

/-! ## Turns -/

section Turns

variable {N} [DecidableEq ev] {Q : Except ε α → Prop} {x : Task ε σ ev α}

theorem silent_advance (h : N.Silent Q x) (t : Traced.Trace σ ev) :
    N.Silent Q (x.advance t).1 ∧ (x.advance t).2.world = t.world ∧
      (x.advance t).2.events.count N.note = t.events.count N.note := by
  induction x generalizing t with
  | settled outcome => exact ⟨h, rfl, rfl⟩
  | act f next ih => exact h.elim
  | emit e next ih =>
      have hcount : (t.events ++ [e]).count N.note = t.events.count N.note := by
        rw [List.count_append, List.count_singleton, if_neg (by simpa using h.1), Nat.add_zero]
      rcases ih h.2 { t with events := t.events ++ [e] } with ⟨hsilent, hworld, hevents⟩
      exact ⟨hsilent, hworld, hevents.trans hcount⟩
  | await next ih => exact ⟨h, rfl, rfl⟩

/-- The task has announced: the flag is set, and the notice has been given if it was not before. -/
def Announced (N : OneShot σ ev) (Q : Except ε α → Prop) (x : Task ε σ ev α)
    (t : Traced.Trace σ ev) : Prop :=
  N.Silent Q (x.advance t).1 ∧ (x.advance t).2.world = N.set t.world ∧
    (x.advance t).2.events.count N.note =
      t.events.count N.note + if N.isSet t.world then 0 else 1

/-- A task whose turn begins with the announcement. -/
theorem announced_act {f : σ → σ} {next : σ → Task ε σ ev α} (h : N.Announces Q (.act f next))
    (t : Traced.Trace σ ev) : N.Announced Q (.act f next) t := by
  rcases h with ⟨rfl, hnext⟩
  rcases hnext t.world with ⟨rest, hrest, hsilent⟩
  unfold Announced
  rw [Task.advance, hrest]
  cases hset : N.isSet t.world with
  | true =>
      rcases silent_advance hsilent { t with world := N.set t.world } with
        ⟨hafter, hworld, hevents⟩
      exact ⟨hafter, hworld, hevents⟩
  | false =>
      rcases silent_advance hsilent
        { world := N.set t.world, events := t.events ++ [N.note] } with ⟨hafter, hworld, hevents⟩
      refine ⟨hafter, hworld, hevents.trans ?_⟩
      rw [List.count_append, List.count_singleton_self]
      rfl

theorem announces_advance (h : N.Announces Q x) (t : Traced.Trace σ ev) :
    (N.Announces Q (x.advance t).1 ∧ (x.advance t).2.world = t.world ∧
      (x.advance t).2.events.count N.note = t.events.count N.note) ∨ N.Announced Q x t := by
  induction x generalizing t with
  | settled outcome => exact Or.inl ⟨h, rfl, rfl⟩
  | act f next ih => exact Or.inr (announced_act h t)
  | emit e next ih =>
      have hcount : (t.events ++ [e]).count N.note = t.events.count N.note := by
        rw [List.count_append, List.count_singleton, if_neg (by simpa using h.1), Nat.add_zero]
      rcases ih h.2 { t with events := t.events ++ [e] } with
        ⟨hafter, hworld, hevents⟩ | ⟨hafter, hworld, hevents⟩
      · exact Or.inl ⟨hafter, hworld, hevents.trans hcount⟩
      · rw [hcount] at hevents
        exact Or.inr ⟨hafter, hworld, hevents⟩
  | await next ih => exact Or.inl ⟨h, rfl, rfl⟩

end Turns

/-! ## Pools -/

section Pools

variable [DecidableEq ev]

/-- The calls that have given the notice, oldest first. -/
def noters (log : List (Nat × ev)) : List Nat :=
  (log.filter fun entry => entry.2 = N.note).map Prod.fst

/-- What is known about the code of the calls: a silent call never announces, and an eager one does
so before it awaits anything. -/
structure Advises (code : κ → Task ε σ ev α) (silent eager : κ → Prop)
    (Q : κ → Except ε α → Prop) : Prop where
  of_silent : ∀ c, silent c → N.Silent (fun _ => True) (code c)
  of_late : ∀ c, ¬ silent c → N.Announces (Q c) (code c)
  of_eager : ∀ c, eager c → ¬ silent c → ∃ f next, code c = .act f next

/-- Where a call stands: it is silent, it has not announced yet, or it has. -/
inductive Standing (N : OneShot σ ev) (silent eager : κ → Prop) (Q : κ → Except ε α → Prop)
    (p : Pool κ ε σ ev α) (i : Nat) (c : κ) (task : Task ε σ ev α) : Prop
  | silent (hsilent : silent c) (htask : N.Silent (fun _ => True) task)
      (hnot : i ∉ N.noters p.log)
  | waiting (hlate : ¬ silent c) (heager : ¬ eager c) (htask : N.Announces (Q c) task)
      (hnot : i ∉ N.noters p.log)
  | announced (hlate : ¬ silent c) (htask : N.Silent (Q c) task) (hset : N.isSet p.world = true)

/-- The notice has been given once if the flag is set, and not at all otherwise; every call stands
somewhere. -/
structure Held (N : OneShot σ ev) (silent eager : κ → Prop) (Q : κ → Except ε α → Prop)
    (p : Pool κ ε σ ev α) : Prop where
  unset : N.isSet p.world = false → N.noters p.log = []
  set : N.isSet p.world = true → ∃ i < p.calls.length, N.noters p.log = [i]
  standing : ∀ i c task, p.calls[i]? = some (c, task) → Standing N silent eager Q p i c task

/-- A turn in which call `i` does not announce: its task is `task'` afterwards. -/
structure Quiet (N : OneShot σ ev) (silent eager : κ → Prop) (Q : κ → Except ε α → Prop)
    (p : Pool κ ε σ ev α) (i : Nat) (c : κ) (out : Task ε σ ev α × Traced.Trace σ ev) : Prop where
  world : out.2.world = p.world
  count : out.2.events.count N.note = 0
  standing : Standing N silent eager Q p i c out.1

/-- A turn in which call `i` announces. -/
structure Announcing (N : OneShot σ ev) (silent : κ → Prop) (Q : κ → Except ε α → Prop)
    (p : Pool κ ε σ ev α) (c : κ) (out : Task ε σ ev α × Traced.Trace σ ev) : Prop where
  late : ¬ silent c
  world : out.2.world = N.set p.world
  count : out.2.events.count N.note = if N.isSet p.world then 0 else 1
  task : N.Silent (Q c) out.1

variable {N} {code : κ → Task ε σ ev α} {silent eager : κ → Prop} {Q : κ → Except ε α → Prop}
  {p p' : Pool κ ε σ ev α}

theorem noters_turn (i : Nat) (c : κ) (task : Task ε σ ev α) :
    N.noters (p.turn i c task).log = N.noters p.log ++ List.replicate
      ((task.advance { world := p.world, events := [] }).2.events.count N.note) i := by
  have hevents : ∀ events : List ev,
      ((events.map fun e => (i, e)).filter fun entry => entry.2 = N.note).map Prod.fst =
        List.replicate (events.count N.note) i := by
    intro events
    induction events with
    | nil => rfl
    | cons e events ih =>
        by_cases he : e = N.note
        · simp [he, List.replicate_succ, ih]
        · simp [he, ih]
  change ((p.log ++ _).filter _).map _ = _
  rw [List.filter_append, List.map_append, hevents]
  rfl

/-- The calls that are not running keep their standing. -/
theorem Standing.keep {i : Nat} {c : κ} {task : Task ε σ ev α}
    (h : Standing N silent eager Q p i c task)
    (hnot : i ∉ N.noters p.log → i ∉ N.noters p'.log)
    (hset : N.isSet p.world = true → N.isSet p'.world = true) :
    Standing N silent eager Q p' i c task := by
  cases h with
  | silent hsilent htask hold => exact .silent hsilent htask (hnot hold)
  | waiting hlate heager htask hold => exact .waiting hlate heager htask (hnot hold)
  | announced hlate htask hold => exact .announced hlate htask (hset hold)

/-- A turn of either kind keeps what holds of the pool. -/
theorem held_turn (h : Held N silent eager Q p) {i : Nat} (hi : i ≤ p.calls.length) {c : κ}
    {task : Task ε σ ev α}
    (hturn : Quiet N silent eager Q p i c (task.advance { world := p.world, events := [] }) ∨
      Announcing N silent Q p c (task.advance { world := p.world, events := [] })) :
    Held N silent eager Q (p.turn i c task) := by
  have hnoters : N.noters (p.turn i c task).log = _ := noters_turn i c task
  rcases Pool.length_turn hi c task with ⟨hlength, hlt⟩
  rcases hturn with hquiet | hannouncing
  · rw [hquiet.count, List.replicate_zero, List.append_nil] at hnoters
    have hworld : (p.turn i c task).world = p.world := hquiet.world
    refine ⟨fun hset => ?_, fun hset => ?_, fun j d task' hcall => ?_⟩
    · rw [hworld] at hset
      rw [hnoters, h.unset hset]
    · rw [hworld] at hset
      rcases h.set hset with ⟨k, hk, hone⟩
      exact ⟨k, Nat.lt_of_lt_of_le hk hlength, hnoters.trans hone⟩
    · have hkeep : ∀ {j d task'}, Standing N silent eager Q p j d task' →
          Standing N silent eager Q (p.turn i c task) j d task' :=
        fun hstanding => hstanding.keep (fun hnot => hnoters ▸ hnot) fun hset => hworld ▸ hset
      rw [Pool.getElem?_turn hi] at hcall
      split at hcall
      case isTrue heq =>
        cases hcall
        exact heq ▸ hkeep hquiet.standing
      case isFalse => exact hkeep (h.standing j d task' hcall)
  · rw [hannouncing.count] at hnoters
    have hworld : N.isSet (p.turn i c task).world = true := by
      have heq : (p.turn i c task).world = N.set p.world := hannouncing.world
      rw [heq, N.isSet_set]
    refine ⟨fun hset => ?_, fun _ => ?_, fun j d task' hcall => ?_⟩
    · rw [hworld] at hset
      cases hset
    · cases hset : N.isSet p.world with
      | true =>
          rcases h.set hset with ⟨k, hk, hone⟩
          rw [if_pos hset, List.replicate_zero, List.append_nil] at hnoters
          exact ⟨k, Nat.lt_of_lt_of_le hk hlength, hnoters.trans hone⟩
      | false =>
          rw [hset, h.unset hset] at hnoters
          exact ⟨i, hlt, hnoters⟩
    · rw [Pool.getElem?_turn hi] at hcall
      split at hcall
      case isTrue heq =>
        cases hcall
        exact .announced hannouncing.late hannouncing.task hworld
      case isFalse hne =>
        refine (h.standing j d task' hcall).keep (fun hnot hmem => ?_) fun _ => hworld
        rw [hnoters] at hmem
        rcases List.mem_append.1 hmem with hmem | hmem
        · exact hnot hmem
        · exact hne (List.eq_of_mem_replicate hmem)

/-- Every step is a turn of one of the two kinds.  An eager call announces when it is started, and
only then. -/
theorem turn_of_step (hcode : N.Advises code silent eager Q) (h : Held N silent eager Q p)
    {a : Action κ} {o : Unit} (hstep : p.step code a = some (p', o)) :
    ∃ (i : Nat) (c : κ) (task : Task ε σ ev α), p' = p.turn i c task ∧ i ≤ p.calls.length ∧
      (a = .start c ∧ i = p.calls.length ∨
        a = .resume i ∧ ∃ before, p.calls[i]? = some (c, before)) ∧
      (Quiet N silent eager Q p i c (task.advance { world := p.world, events := [] }) ∧
          (a = .start c → eager c → silent c) ∨
        Announcing N silent Q p c (task.advance { world := p.world, events := [] }) ∧
          (eager c → a = .start c)) := by
  rcases Pool.step_cases hstep with ⟨i, c, task, heq, ⟨rfl, hi, rfl⟩ | ⟨rfl, hcall⟩⟩
  · -- A call that starts is in no log yet.
    have hnot : i ∉ N.noters p.log := by
      intro hmem
      cases hset : N.isSet p.world with
      | false =>
          rw [h.unset hset] at hmem
          cases hmem
      | true =>
          rcases h.set hset with ⟨k, hk, hone⟩
          rw [hone, List.mem_singleton] at hmem
          omega
    refine ⟨i, c, code c, heq, Nat.le_of_eq hi, Or.inl ⟨rfl, hi⟩, ?_⟩
    by_cases hsilent : silent c
    · rcases silent_advance (hcode.of_silent c hsilent) { world := p.world, events := [] } with
        ⟨htask, hworld, hcount⟩
      exact Or.inl ⟨⟨hworld, hcount, .silent hsilent htask hnot⟩, fun _ _ => hsilent⟩
    · have hannounces := hcode.of_late c hsilent
      by_cases heager : eager c
      · rcases hcode.of_eager c heager hsilent with ⟨f, next, hact⟩
        rw [hact] at hannounces ⊢
        rcases announced_act hannounces { world := p.world, events := [] } with
          ⟨htask, hworld, hcount⟩
        refine Or.inr ⟨⟨hsilent, hworld, hcount.trans ?_, htask⟩, fun _ => rfl⟩
        rw [List.count_nil, Nat.zero_add]
      · rcases announces_advance hannounces { world := p.world, events := [] } with
          ⟨htask, hworld, hcount⟩ | ⟨htask, hworld, hcount⟩
        · exact Or.inl ⟨⟨hworld, hcount, .waiting hsilent heager htask hnot⟩,
            fun _ h => absurd h heager⟩
        · refine Or.inr ⟨⟨hsilent, hworld, hcount.trans ?_, htask⟩, fun h => absurd h heager⟩
          rw [List.count_nil, Nat.zero_add]
  · have hi : i < p.calls.length := (List.getElem?_eq_some_iff.1 hcall).1
    refine ⟨i, c, task, heq, Nat.le_of_lt hi, Or.inr ⟨rfl, _, hcall⟩, ?_⟩
    cases h.standing i c _ hcall with
    | silent hsilent htask hnot =>
        rcases silent_advance (N := N) (x := task) htask { world := p.world, events := [] } with
          ⟨htask, hworld, hcount⟩
        exact Or.inl ⟨⟨hworld, hcount, .silent hsilent htask hnot⟩, fun h => nomatch h⟩
    | waiting hlate heager htask hnot =>
        rcases announces_advance (N := N) (x := task) htask { world := p.world, events := [] } with
          ⟨htask, hworld, hcount⟩ | ⟨htask, hworld, hcount⟩
        · exact Or.inl ⟨⟨hworld, hcount, .waiting hlate heager htask hnot⟩, fun h => nomatch h⟩
        · refine Or.inr ⟨⟨hlate, hworld, hcount.trans ?_, htask⟩, fun h => absurd h heager⟩
          rw [List.count_nil, Nat.zero_add]
    | announced hlate htask hset =>
        rcases silent_advance (N := N) (x := task) htask { world := p.world, events := [] } with
          ⟨htask, hworld, hcount⟩
        exact Or.inl ⟨⟨hworld, hcount, .announced hlate htask hset⟩, fun h => nomatch h⟩

/-! ## Runs -/

/-- Where the step starts an eager call before the notice has been given, the call is good. -/
def StartsGood (N : OneShot σ ev) (silent eager good : κ → Prop)
    (r : Record (Pool κ ε σ ev α) (Action κ) Unit) : Prop :=
  ∀ c, r.event = .start c → eager c → ¬ silent c → N.isSet r.pre.world = false → good c

/-- An eager call that has given the notice is good. -/
def NoterGood (N : OneShot σ ev) (silent eager good : κ → Prop) (p : Pool κ ε σ ev α) : Prop :=
  ∀ i c task, p.calls[i]? = some (c, task) → eager c → ¬ silent c → i ∈ N.noters p.log → good c

section Runs

variable {world : σ} {trace : List (Record (Pool κ ε σ ev α) (Action κ) Unit)} {good : κ → Prop}

theorem held_init (hworld : N.isSet world = false) :
    Held N silent eager Q (pool code world).init where
  unset := fun _ => rfl
  set := fun hset => absurd (hworld.symm.trans hset) Bool.false_ne_true
  standing := by
    intro i c task hcall
    cases hcall

theorem held_step (hcode : N.Advises code silent eager Q)
    {r : Record (Pool κ ε σ ev α) (Action κ) Unit} (hr : r.Valid (pool code world))
    (h : Held N silent eager Q r.pre) : Held N silent eager Q r.post := by
  rcases turn_of_step hcode h hr with ⟨i, c, task, heq, hi, -, hturn⟩
  rw [heq]
  exact held_turn h hi (hturn.imp And.left And.left)

/-- In every run the notice is given at most once, and every call stands somewhere. -/
theorem held_run (hcode : N.Advises code silent eager Q) (hworld : N.isSet world = false)
    (hrun : Run (pool code world) (pool code world).init trace p) :
    Held N silent eager Q p ∧ ∀ r ∈ trace, Held N silent eager Q r.pre := by
  rcases hrun.invariant_of_forall (Held N silent eager Q) (fun r hr => held_step hcode hr)
    (held_init hworld) with ⟨hend, hall⟩
  exact ⟨hend, fun r hr => (hall r hr).1⟩

/-- A call that has given the notice stays in the log. -/
theorem noter_step (hcode : N.Advises code silent eager Q)
    {r : Record (Pool κ ε σ ev α) (Action κ) Unit} (hr : r.Valid (pool code world))
    (hheld : Held N silent eager Q r.pre) {c : κ}
    (h : ∃ i task, r.pre.calls[i]? = some (c, task) ∧ i ∈ N.noters r.pre.log) :
    ∃ i task, r.post.calls[i]? = some (c, task) ∧ i ∈ N.noters r.post.log := by
  rcases turn_of_step hcode hheld hr with ⟨i, d, task, heq, hi, hkind, -⟩
  rcases h with ⟨j, task', hcall, hmem⟩
  have hlog : j ∈ N.noters r.post.log := by
    rw [heq, noters_turn]
    exact List.mem_append_left _ hmem
  by_cases hj : j = i
  · -- The running call keeps its label.
    have hlabel : d = c := by
      rcases hkind with ⟨-, hlength⟩ | ⟨-, before, hbefore⟩
      · have hlt := (List.getElem?_eq_some_iff.1 hcall).1
        omega
      · rw [hj, hbefore] at hcall
        cases hcall
        rfl
    refine ⟨j, (task.advance { world := r.pre.world, events := [] }).1, ?_, hlog⟩
    rw [heq, Pool.getElem?_turn hi, if_pos hj, hlabel]
  · refine ⟨j, task', ?_, hlog⟩
    rw [heq, Pool.getElem?_turn hi, if_neg hj]
    exact hcall

/-- A step that starts only good calls before the notice keeps `NoterGood`. -/
theorem noterGood_step (hcode : N.Advises code silent eager Q)
    {r : Record (Pool κ ε σ ev α) (Action κ) Unit} (hr : r.Valid (pool code world))
    (hheld : Held N silent eager Q r.pre) (hstarts : StartsGood N silent eager good r)
    (h : NoterGood N silent eager good r.pre) : NoterGood N silent eager good r.post := by
  rcases turn_of_step hcode hheld hr with ⟨i, c, task, heq, hi, hkind, hturn⟩
  intro j d task' hcall heager hlate hmem
  rw [heq, Pool.getElem?_turn hi] at hcall
  rw [heq, noters_turn] at hmem
  split at hcall
  case isFalse hne =>
    rcases List.mem_append.1 hmem with hmem | hmem
    · exact h j d task' hcall heager hlate hmem
    · exact absurd (List.eq_of_mem_replicate hmem) hne
  case isTrue hj =>
    cases hcall
    have hold : i ∈ N.noters r.pre.log → good c := by
      intro hmem
      rcases hkind with ⟨-, hlength⟩ | ⟨-, before, hbefore⟩
      · cases hset : N.isSet r.pre.world with
        | false =>
            rw [hheld.unset hset] at hmem
            cases hmem
        | true =>
            rcases hheld.set hset with ⟨k, hk, hone⟩
            rw [hone, List.mem_singleton] at hmem
            omega
      · exact h i c before hbefore heager hlate hmem
    rcases hturn with ⟨hquiet, -⟩ | ⟨hannouncing, hstart⟩
    · rw [hquiet.count, List.replicate_zero, List.append_nil, hj] at hmem
      exact hold hmem
    · rw [hannouncing.count, hj] at hmem
      cases hset : N.isSet r.pre.world with
      | false => exact hstarts c (hstart heager) heager hlate hset
      | true =>
          rw [if_pos hset, List.replicate_zero, List.append_nil] at hmem
          exact hold hmem

/-- The eager calls that were started before the notice are good exactly if one that has given it
is. -/
theorem startsGood_iff (hcode : N.Advises code silent eager Q) (hworld : N.isSet world = false)
    (hrun : Run (pool code world) (pool code world).init trace p) :
    (∀ r ∈ trace, StartsGood N silent eager good r) ↔ NoterGood N silent eager good p := by
  constructor
  · intro hstarts
    have hinit : NoterGood N silent eager good (pool code world).init := by
      intro i c task hcall
      cases hcall
    exact (hrun.invariant
      (fun p => Held N silent eager Q p ∧ NoterGood N silent eager good p)
      (StartsGood N silent eager good)
      (fun r hr hstarts h =>
        ⟨held_step hcode hr h.1, noterGood_step hcode hr h.1 hstarts h.2⟩)
      hstarts ⟨held_init hworld, hinit⟩).1.2
  · intro hgood r hr c hevent heager hlate hset
    have hvalid := hrun.valid_of_mem r hr
    have hheld := (held_run hcode hworld hrun).2 r hr
    -- The call gives the notice in this step, and it stays in the log to the end.
    have hpost : ∃ i task, r.post.calls[i]? = some (c, task) ∧ i ∈ N.noters r.post.log := by
      rcases turn_of_step hcode hheld hvalid with ⟨i, d, task, heq, hi, hkind, hturn⟩
      have hstart : r.event = .start d := by
        rcases hkind with ⟨hstart, -⟩ | ⟨hresume, -⟩
        · exact hstart
        · rw [hevent] at hresume
          cases hresume
      rw [hevent] at hstart
      cases hstart
      rcases hturn with ⟨-, hsilent⟩ | ⟨hannouncing, -⟩
      · exact absurd (hsilent hevent heager) hlate
      · refine ⟨i, (task.advance { world := r.pre.world, events := [] }).1, ?_, ?_⟩
        · rw [heq, Pool.getElem?_turn hi, if_pos rfl]
        · rw [heq, noters_turn, hannouncing.count, hset]
          exact List.mem_append_right _ List.mem_cons_self
    have hend := hrun.persists
      (fun p => Held N silent eager Q p ∧
        ∃ i task, p.calls[i]? = some (c, task) ∧ i ∈ N.noters p.log)
      (fun r hr h => ⟨held_step hcode hr h.1, noter_step hcode hr h.1 h.2⟩) hr
      ⟨held_step hcode hvalid hheld, hpost⟩
    rcases hend.2 with ⟨i, task, hcall, hmem⟩
    exact hgood i c task hcall heager hlate hmem

end Runs

end Pools

end OneShot

end Tasks
end Library
