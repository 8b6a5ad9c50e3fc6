import StoaCore.Library.Traced
import StoaCore.Library.Transition

/-!
# Tasks — asynchronous code that runs interleaved

A task settles, acts on the world, emits an event, or awaits.  Between two awaits it runs without
interruption.  A pool holds the calls of a process: at any time a call is started, or one that
awaits is resumed, so its runs are all interleavings of the calls.

* `Task.toProg` : the program a task is when nothing runs beside it;
* `Task.advance` : one turn, up to the next await;
* `pool` : the transition system; the log says which call has emitted an event.
-/

namespace Library
namespace Tasks

open Traced

variable {ε σ ev α β κ : Type}

/-- `act f next` changes the world with `f` and goes on with what the world was before. -/
inductive Task (ε σ ev α : Type)
  | settled (outcome : Except ε α)
  | act (f : σ → σ) (next : σ → Task ε σ ev α)
  | emit (e : ev) (next : Task ε σ ev α)
  | await (next : Task ε σ ev α)

namespace Task

/-! ## Sequencing -/

def bind (k : α → Task ε σ ev β) : Task ε σ ev α → Task ε σ ev β
  | settled (.ok a) => k a
  | settled (.error e) => settled (.error e)
  | act f next => act f fun s => bind k (next s)
  | emit e next => emit e (bind k next)
  | await next => await (bind k next)

instance : Monad (Task ε σ ev) where
  pure a := settled (.ok a)
  bind x k := bind k x

theorem bind_eq (x : Task ε σ ev α) (k : α → Task ε σ ev β) : x >>= k = bind k x := rfl

/-- A sequence begins with what its first part begins with. -/
theorem exists_act_bind {x : Task ε σ ev α} (h : ∃ f next, x = act f next)
    (k : α → Task ε σ ev β) : ∃ f next, x >>= k = act f next := by
  rcases h with ⟨f, next, rfl⟩
  exact ⟨f, fun s => bind k (next s), rfl⟩

/-! ## Without interruption -/

/-- The program a task is where no other call runs. -/
def toProg : Task ε σ ev α → Prog ε σ ev α
  | settled (.ok a) => pure a
  | settled (.error e) => throw e
  | act f next => call (fun s => (.ok s, f s)) >>= fun s => toProg (next s)
  | emit e next => Traced.emit e >>= fun _ => toProg next
  | await next => toProg next

/-- Sequences of tasks are sequences of programs. -/
theorem toProg_bind (x : Task ε σ ev α) (k : α → Task ε σ ev β) :
    toProg (x >>= k) = toProg x >>= fun a => toProg (k a) := by
  rw [bind_eq]
  induction x with
  | settled outcome =>
      cases outcome with
      | ok a =>
          rw [bind, toProg, pure_bind]
      | error e => rfl
  | act f next ih =>
      rw [bind, toProg, toProg, bind_assoc]
      congr 1
      funext s
      exact ih s
  | emit e next ih =>
      rw [bind, toProg, toProg, bind_assoc]
      congr 1
      funext _
      exact ih
  | await next ih =>
      rw [bind, toProg, toProg]
      exact ih

/-! ## Turns -/

/-- What a task does before it awaits or has settled. -/
def advance : Task ε σ ev α → Trace σ ev → Task ε σ ev α × Trace σ ev
  | settled outcome, t => (settled outcome, t)
  | act f next, t => advance (next t.world) { t with world := f t.world }
  | emit e next, t => advance next { t with events := t.events ++ [e] }
  | await next, t => (await next, t)

end Task

/-! ## Pools -/

/-- The calls in the order in which they were started, each with what is left of it. -/
structure Pool (κ ε σ ev α : Type) where
  world : σ
  calls : List (κ × Task ε σ ev α) := []
  log : List (Nat × ev) := []

inductive Action (κ : Type)
  | start (call : κ)
  | resume (i : Nat)

/-- Call `i` takes a turn; `task` is what it has to do. -/
def Pool.turn (p : Pool κ ε σ ev α) (i : Nat) (call : κ) (task : Task ε σ ev α) :
    Pool κ ε σ ev α :=
  let out := task.advance { world := p.world, events := [] }
  { world := out.2.world
    calls := p.calls.take i ++ (call, out.1) :: p.calls.drop (i + 1)
    log := p.log ++ out.2.events.map fun e => (i, e) }

def Pool.step (code : κ → Task ε σ ev α) (p : Pool κ ε σ ev α) :
    Action κ → Option (Pool κ ε σ ev α × Unit)
  | .start call => some (p.turn p.calls.length call (code call), ())
  | .resume i =>
      match p.calls[i]? with
      | some (call, .await next) => some (p.turn i call next, ())
      | _ => none

/-- The process, whose calls run the tasks of `code`. -/
def pool (code : κ → Task ε σ ev α) (world : σ) :
    Transition.System (Pool κ ε σ ev α) (Action κ) Unit where
  init := { world := world }
  step := Pool.step code

namespace Pool

variable {code : κ → Task ε σ ev α} {p p' : Pool κ ε σ ev α}

/-- No call awaits anything. -/
def Settled (p : Pool κ ε σ ev α) : Prop :=
  ∀ call task, (call, task) ∈ p.calls → ∃ outcome : Except ε α, task = .settled outcome

/-- Every step is the turn of one call. -/
theorem step_cases {a : Action κ} {o : Unit} (h : p.step code a = some (p', o)) :
    ∃ (i : Nat) (call : κ) (task : Task ε σ ev α), p' = p.turn i call task ∧
      ((a = .start call ∧ i = p.calls.length ∧ task = code call) ∨
        (a = .resume i ∧ p.calls[i]? = some (call, .await task))) := by
  cases a with
  | start call =>
      cases h
      exact ⟨_, call, _, rfl, Or.inl ⟨rfl, rfl, rfl⟩⟩
  | resume i =>
      simp only [step] at h
      split at h
      case h_1 call next hcall =>
        cases h
        exact ⟨i, call, next, rfl, Or.inr ⟨rfl, hcall⟩⟩
      case h_2 => cases h

/-- A turn leaves the other calls where they are. -/
theorem getElem?_turn {i : Nat} (hi : i ≤ p.calls.length) (call : κ) (task : Task ε σ ev α)
    (j : Nat) :
    (p.turn i call task).calls[j]? =
      if j = i then some (call, (task.advance { world := p.world, events := [] }).1)
      else p.calls[j]? := by
  have hlength : (p.calls.take i).length = i := by
    rw [List.length_take]
    omega
  change (p.calls.take i ++ _ :: p.calls.drop (i + 1))[j]? = _
  rcases Nat.lt_trichotomy j i with hlt | heq | hgt
  · rw [List.getElem?_append_left (by omega), if_neg (by omega), List.getElem?_take_of_lt hlt]
  · rw [List.getElem?_append_right (by omega), if_pos heq, hlength, heq, Nat.sub_self]
    rfl
  · obtain ⟨k, rfl⟩ : ∃ k, j = i + 1 + k := ⟨j - (i + 1), by omega⟩
    have hoffset : i + 1 + k - i = k + 1 := by omega
    rw [List.getElem?_append_right (by omega), if_neg (by omega), hlength, hoffset,
      List.getElem?_cons_succ, List.getElem?_drop]

theorem length_turn {i : Nat} (hi : i ≤ p.calls.length) (c : κ) (task : Task ε σ ev α) :
    p.calls.length ≤ (p.turn i c task).calls.length ∧ i < (p.turn i c task).calls.length := by
  change _ ≤ (p.calls.take i ++ _ :: p.calls.drop (i + 1)).length ∧
    i < (p.calls.take i ++ _ :: p.calls.drop (i + 1)).length
  rw [List.length_append, List.length_cons, List.length_take, List.length_drop]
  omega

end Pool

end Tasks
end Library
