import StoaCore.Library.EventLoop
import StoaCore.Library.Js.Number
import StoaCore.Library.Transition
import StoaCore.Network.NodeFailover

/-!
# RunWithTimeout — a worker races a timer

`runWithTimeout` is an async function around `Promise.race`, so its code runs in pieces: up to the
race when it is called, the callback of its timer, the reactions of the race to its two promises,
and what follows the `await`.  Each piece is a function on the invocation, and the event loop runs
the pieces of all invocations, one job after the other.  A timer fires only when no job is left.
-/

namespace StoaCore
namespace Network

open Library
open Library.Js
open Library.Transition

/-! ## Errors -/

/-- A text of ASCII characters. -/
def asciiText (text : JsString) : String :=
  String.ofList (text.map fun c => Char.ofNat c.toNat)

/-- `String(x)`; `none` is `NaN`. -/
def numberText : Option Number → String
  | none => "NaN"
  | some x => asciiText x.text

/-- `Number.isFinite(timeoutMs) && timeoutMs > 0` -/
def isValidTimeout : Option Number → Bool
  | some (.finite v) => decide (0 < v)
  | _ => false

def invalidTimeoutError (operation : String) (timeoutMs : Option Number) : JsError where
  name := some "Error"
  message := some ("runWithTimeout(" ++ operation ++
    "): timeoutMs must be a finite positive number, received " ++ numberText timeoutMs)

/-- `abortErr` -/
def abortError (operation : String) (timeoutMs : Option Number) : JsError where
  name := some "AbortError"
  message := some ("Timeout after " ++ numberText timeoutMs ++ "ms during " ++ operation)

/-! ## Invocations -/

inductive Timer
  | unset
  | pending
  | fired
  | cleared
  deriving DecidableEq

/-- `clearTimeout(timer)` -/
def Timer.clear : Timer → Timer
  | .pending => .cleared
  | timer => timer

variable {α : Type}

/-- One call of `runWithTimeout`; an outcome that is not there yet is `none`. -/
structure Invocation (α : Type) where
  operation : String
  timeoutMs : Option Number
  /-- The `AbortController` that has been created. -/
  controller : Option Nat := none
  aborted : Bool := false
  /-- `fn` has been called. -/
  invoked : Bool := false
  /-- What `fn` has thrown, or its promise has settled with. -/
  worker : Option (Except JsError α) := none
  timer : Timer := .unset
  /-- What the promise of the timer has been rejected with. -/
  deadline : Option JsError := none
  /-- What `Promise.race` has settled with. -/
  race : Option (Except JsError α) := none
  /-- What the promise that `runWithTimeout` returns has settled with. -/
  settled : Option (Except JsError α) := none

/-- A job in the queue of microtasks. -/
inductive Job
  | workerReaction
  | deadlineReaction
  | continuation
  deriving DecidableEq

/-- What a call of `fn` comes to: it throws, or it returns a promise, which may be settled. -/
inductive WorkerCall (α : Type)
  | threw (e : JsError)
  | returned (promise : Option (Except JsError α))

namespace Invocation

/-- The code up to the `await`, with the controller that it creates. -/
def start (operation : String) (timeoutMs : Option Number) (controller : Nat)
    (call : WorkerCall α) : Invocation α × List Job :=
  if isValidTimeout timeoutMs then
    match call with
    | .threw e =>
        -- The timer has not been set: there is nothing for `finally` to clear.
        ({ operation := operation
           timeoutMs := timeoutMs
           controller := some controller
           invoked := true
           worker := some (.error e)
           settled := some (.error e) }, [])
    | .returned promise =>
        ({ operation := operation
           timeoutMs := timeoutMs
           controller := some controller
           invoked := true
           worker := promise
           timer := .pending }, if promise.isSome then [.workerReaction] else [])
  else
    ({ operation := operation
       timeoutMs := timeoutMs
       settled := some (.error (invalidTimeoutError operation timeoutMs)) }, [])

variable (i : Invocation α)

/-- The promise of `fn` settles. -/
def settleWorker (outcome : Except JsError α) : Invocation α :=
  { i with worker := some outcome }

/-- The timer fires, and its callback calls `controller.abort()`. -/
def fireTimer : Invocation α :=
  { i with timer := .fired, aborted := true }

/-- The rest of the callback, after the abort event has been dispatched: `reject(abortErr)`. -/
def rejectDeadline : Invocation α :=
  { i with deadline := some (abortError i.operation i.timeoutMs) }

/-- A reaction of the race: the first outcome settles it. -/
def settleRace (outcome : Option (Except JsError α)) : Invocation α × List Job :=
  if i.race.isNone then ({ i with race := outcome }, [.continuation]) else (i, [])

/-- `finally` clears the timer, and the outcome of the race is returned or thrown. -/
def continuation : Invocation α :=
  { i with timer := i.timer.clear, settled := i.race }

def runJob : Job → Invocation α × List Job
  | .workerReaction => i.settleRace i.worker
  | .deadlineReaction => i.settleRace (i.deadline.map .error)
  | .continuation => (i.continuation, [])

/-! A reaction touches nothing but the race. -/

variable (outcome : Option (Except JsError α))

@[simp] theorem settleRace_controller : (i.settleRace outcome).1.controller = i.controller := by
  unfold settleRace
  split <;> rfl

@[simp] theorem settleRace_worker : (i.settleRace outcome).1.worker = i.worker := by
  unfold settleRace
  split <;> rfl

@[simp] theorem settleRace_timer : (i.settleRace outcome).1.timer = i.timer := by
  unfold settleRace
  split <;> rfl

@[simp] theorem settleRace_settled : (i.settleRace outcome).1.settled = i.settled := by
  unfold settleRace
  split <;> rfl

theorem settleRace_of_open (h : i.race = none) :
    i.settleRace outcome = ({ i with race := outcome }, [.continuation]) := by
  simp [settleRace, h]

theorem settleRace_of_settled (h : i.race ≠ none) : i.settleRace outcome = (i, []) := by
  simp [settleRace, h]

end Invocation

/-! ## The event loop -/

/-- The world is the number of controllers that have been created. -/
abbrev DeadlineLoop (α : Type) := EventLoop.Loop (Invocation α) Job Nat

inductive DeadlineEvent (α : Type)
  | start (operation : String) (timeoutMs : Option Number) (call : WorkerCall α)
  | settleWorker (id : Nat) (outcome : Except JsError α)
  | fireTimer (id : Nat)
  /-- The callback of the timer goes on after the abort event. -/
  | endCallback
  | microtask

/-- The outcome with which an invocation settles in a step. -/
abbrev Settlement (α : Type) := Option (Nat × Except JsError α)

namespace DeadlineLoop

def init : DeadlineLoop α :=
  { world := 0 }

def step (l : DeadlineLoop α) : DeadlineEvent α → Option (DeadlineLoop α × Settlement α)
  | .start operation timeoutMs call =>
      let i := Invocation.start operation timeoutMs l.world call
      some ({ l.spawn i.1 i.2 with
              world := if i.1.controller.isSome then l.world + 1 else l.world },
        i.1.settled.map (l.parts.length, ·))
  | .settleWorker id outcome =>
      match l.parts[id]? with
      | none => none
      | some i =>
          -- A promise settles once, and there is one if `fn` has returned.
          if i.invoked && i.worker.isNone then
            some (l.move id (i.settleWorker outcome) l.queue [.workerReaction], none)
          else none
  | .fireTimer id =>
      match l.parts[id]?, l.busy, l.queue with
      | some i, none, [] =>
          if i.timer = .pending then
            -- The listeners of the abort event are called now, before the callback goes on.
            some ({ l.move id i.fireTimer [] [] with busy := some id }, none)
          else none
      | _, _, _ => none
  | .endCallback =>
      match l.busy with
      | none => none
      | some id =>
          match l.parts[id]? with
          | none => none
          | some i =>
              some ({ l.move id i.rejectDeadline l.queue [.deadlineReaction] with busy := none },
                none)
  | .microtask =>
      match l.busy, l.queue with
      | none, (id, job) :: rest =>
          match l.parts[id]? with
          | none => none
          | some i =>
              let out := i.runJob job
              some (l.move id out.1 rest out.2,
                if job = .continuation then i.race.map (id, ·) else none)
      | _, _ => none

end DeadlineLoop

def deadlineSystem (α : Type) : System (DeadlineLoop α) (DeadlineEvent α) (Settlement α) :=
  { init := DeadlineLoop.init
    step := DeadlineLoop.step }

abbrev DeadlineRec (α : Type) := Record (DeadlineLoop α) (DeadlineEvent α) (Settlement α)

/-! ## What one step can do -/

abbrev DeadlineView (α : Type) := EventLoop.View (Invocation α) Job

/-- The steps of invocation number `n`, with its own jobs and whether its callback is running. -/
inductive Turn (n : Nat) :
    DeadlineEvent α → DeadlineView α → DeadlineView α → Option (Except JsError α) → Prop
  | settleWorker {i : Invocation α} {jobs : List Job} {busy : Bool}
      (outcome : Except JsError α) (hinvoked : i.invoked = true) (hworker : i.worker = none) :
      Turn n (.settleWorker n outcome) ⟨i, jobs, busy⟩
        ⟨i.settleWorker outcome, jobs ++ [.workerReaction], busy⟩ none
  | fireTimer {i : Invocation α} (htimer : i.timer = .pending) :
      Turn n (.fireTimer n) ⟨i, [], false⟩ ⟨i.fireTimer, [], true⟩ none
  | endCallback {i : Invocation α} {jobs : List Job} :
      Turn n .endCallback ⟨i, jobs, true⟩ ⟨i.rejectDeadline, jobs ++ [.deadlineReaction], false⟩
        none
  | microtask {i : Invocation α} {jobs : List Job} (job : Job) :
      Turn n .microtask ⟨i, job :: jobs, false⟩
        ⟨(i.runJob job).1, jobs ++ (i.runJob job).2, false⟩
        (if job = .continuation then i.race else none)

/-- A step begins a new invocation or is a turn of one that is there. -/
inductive LoopStep (r : DeadlineRec α) : Prop
  | start (operation : String) (timeoutMs : Option Number) (call : WorkerCall α)
      (hchanges : EventLoop.Changes r.pre r.post r.pre.parts.length
        ⟨(Invocation.start operation timeoutMs r.pre.world call).1,
          (Invocation.start operation timeoutMs r.pre.world call).2, false⟩)
      (hout : r.out = (Invocation.start operation timeoutMs r.pre.world call).1.settled.map
        (r.pre.parts.length, ·))
      (hworld : r.post.world =
        if (Invocation.start operation timeoutMs r.pre.world call).1.controller.isSome then
          r.pre.world + 1
        else r.pre.world)
  | turn (n : Nat) (v v' : DeadlineView α) (out : Option (Except JsError α))
      (hview : r.pre.view n = some v) (hturn : Turn n r.event v v' out)
      (hchanges : EventLoop.Changes r.pre r.post n v') (hout : r.out = out.map (n, ·))
      (hworld : r.post.world = r.pre.world)

section Inversion

open EventLoop

variable {r : DeadlineRec α}

theorem loopStep_start (hl : r.pre.WellFormed) (hvalid : r.Valid (deadlineSystem α))
    {operation : String} {timeoutMs : Option Number} {call : WorkerCall α}
    (hevent : r.event = .start operation timeoutMs call) : LoopStep r ∧ r.post.WellFormed := by
  rcases r with ⟨pre, event, out, post⟩
  dsimp only at hl hevent
  subst hevent
  have hstep : DeadlineLoop.step pre (.start operation timeoutMs call) = some (post, out) := hvalid
  simp only [DeadlineLoop.step] at hstep
  cases hstep
  have hchanges := Loop.changes_spawn hl (Invocation.start operation timeoutMs pre.world call).1
    (Invocation.start operation timeoutMs pre.world call).2
  have hpost := Loop.wellFormed_spawn hl (Invocation.start operation timeoutMs pre.world call).1
    (Invocation.start operation timeoutMs pre.world call).2
  exact ⟨.start operation timeoutMs call ⟨hchanges.moved, hchanges.others⟩ rfl rfl,
    ⟨hpost.queue, hpost.busy⟩⟩

theorem loopStep_settleWorker (hl : r.pre.WellFormed) (hvalid : r.Valid (deadlineSystem α))
    {id : Nat} {outcome : Except JsError α} (hevent : r.event = .settleWorker id outcome) :
    LoopStep r ∧ r.post.WellFormed := by
  rcases r with ⟨pre, event, out, post⟩
  dsimp only at hl hevent
  subst hevent
  have hstep : DeadlineLoop.step pre (.settleWorker id outcome) = some (post, out) := hvalid
  simp only [DeadlineLoop.step] at hstep
  split at hstep
  case h_1 => cases hstep
  case h_2 i hi =>
    split at hstep
    case isFalse => cases hstep
    case isTrue hpending =>
      cases hstep
      rw [Bool.and_eq_true, Option.isNone_iff_eq_none] at hpending
      have hlt : id < pre.parts.length := (List.getElem?_eq_some_iff.1 hi).1
      refine ⟨.turn id _ _ none (Loop.view_of_getElem? hi)
        (Turn.settleWorker outcome hpending.1 hpending.2) ?_ rfl rfl, ?_⟩
      · exact Loop.changes_move hlt (fun _ _ => rfl) (fun _ _ => rfl) _ _
      · exact Loop.wellFormed_move hl hlt (fun _ hj => hj) hl.busy _ _

theorem loopStep_fireTimer (hl : r.pre.WellFormed) (hvalid : r.Valid (deadlineSystem α))
    {id : Nat} (hevent : r.event = .fireTimer id) : LoopStep r ∧ r.post.WellFormed := by
  rcases r with ⟨pre, event, out, post⟩
  dsimp only at hl hevent
  subst hevent
  have hstep : DeadlineLoop.step pre (.fireTimer id) = some (post, out) := hvalid
  simp only [DeadlineLoop.step] at hstep
  split at hstep
  case h_2 => cases hstep
  case h_1 i hi hbusy hqueue =>
    split at hstep
    case isFalse => cases hstep
    case isTrue htimer =>
      cases hstep
      have hlt : id < pre.parts.length := (List.getElem?_eq_some_iff.1 hi).1
      have hview : pre.view id = some ⟨i, [], false⟩ := by
        rw [Loop.view_of_getElem? hi, hqueue, hbusy]
        rfl
      refine ⟨.turn id _ _ none hview (Turn.fireTimer htimer) ?_ rfl rfl, ?_⟩
      · have hother : ∀ n, n ≠ id → (some id == some n) = (pre.busy == some n) := by
          intro n hn
          rw [hbusy]
          simpa using hn.symm
        have hown : ∀ n, n ≠ id → own n ([] : List (Nat × Job)) = own n pre.queue :=
          fun _ _ => by rw [hqueue]
        have hchanges := Loop.changes_move hlt hown hother i.fireTimer ([] : List Job)
        simpa using hchanges
      · refine Loop.wellFormed_move hl hlt (by simp) ?_ _ _
        rintro n ⟨⟩
        exact hlt

theorem loopStep_endCallback (hl : r.pre.WellFormed) (hvalid : r.Valid (deadlineSystem α))
    (hevent : r.event = .endCallback) : LoopStep r ∧ r.post.WellFormed := by
  rcases r with ⟨pre, event, out, post⟩
  dsimp only at hl hevent
  subst hevent
  have hstep : DeadlineLoop.step pre .endCallback = some (post, out) := hvalid
  simp only [DeadlineLoop.step] at hstep
  split at hstep
  case h_1 => cases hstep
  case h_2 id hbusy =>
    split at hstep
    case h_1 => cases hstep
    case h_2 i hi =>
      cases hstep
      have hlt : id < pre.parts.length := (List.getElem?_eq_some_iff.1 hi).1
      have hview : pre.view id = some ⟨i, own id pre.queue, true⟩ := by
        rw [Loop.view_of_getElem? hi, hbusy]
        simp
      refine ⟨.turn id _ _ none hview Turn.endCallback ?_ rfl rfl, ?_⟩
      · have hother : ∀ n, n ≠ id → ((none : Option Nat) == some n) = (pre.busy == some n) := by
          intro n hn
          rw [hbusy]
          simpa using hn.symm
        exact Loop.changes_move hlt (fun _ _ => rfl) hother i.rejectDeadline _
      · refine Loop.wellFormed_move hl hlt (fun _ hj => hj) ?_ _ _
        rintro n ⟨⟩

theorem loopStep_microtask (hl : r.pre.WellFormed) (hvalid : r.Valid (deadlineSystem α))
    (hevent : r.event = .microtask) : LoopStep r ∧ r.post.WellFormed := by
  rcases r with ⟨pre, event, out, post⟩
  dsimp only at hl hevent
  subst hevent
  have hstep : DeadlineLoop.step pre .microtask = some (post, out) := hvalid
  simp only [DeadlineLoop.step] at hstep
  split at hstep
  case h_2 => cases hstep
  case h_1 id job rest hbusy hqueue =>
    split at hstep
    case h_1 => cases hstep
    case h_2 i hi =>
      cases hstep
      have hlt : id < pre.parts.length := (List.getElem?_eq_some_iff.1 hi).1
      have hview : pre.view id = some ⟨i, job :: own id rest, false⟩ := by
        rw [Loop.view_of_getElem? hi, hbusy, hqueue, own_cons_self]
        rfl
      refine ⟨.turn id _ _ _ hview (Turn.microtask job) ?_ ?_ rfl, ?_⟩
      · have hown : ∀ n, n ≠ id → own n rest = own n pre.queue := by
          intro n hn
          rw [hqueue, own_cons_of_ne hn.symm]
        have hchanges : Changes pre (pre.move id (i.runJob job).1 rest (i.runJob job).2) id
            ⟨(i.runJob job).1, own id rest ++ (i.runJob job).2, pre.busy == some id⟩ :=
          Loop.changes_move hlt hown (fun _ _ => rfl) _ _
        rwa [hbusy] at hchanges
      · split
        · rfl
        · rfl
      · refine Loop.wellFormed_move hl hlt (fun j hj => ?_) hl.busy _ _
        rw [hqueue]
        exact List.mem_cons_of_mem _ hj

theorem loopStep_of_valid (hl : r.pre.WellFormed) (hvalid : r.Valid (deadlineSystem α)) :
    LoopStep r ∧ r.post.WellFormed := by
  cases hevent : r.event with
  | start operation timeoutMs call => exact loopStep_start hl hvalid hevent
  | settleWorker id outcome => exact loopStep_settleWorker hl hvalid hevent
  | fireTimer id => exact loopStep_fireTimer hl hvalid hevent
  | endCallback => exact loopStep_endCallback hl hvalid hevent
  | microtask => exact loopStep_microtask hl hvalid hevent

end Inversion

end Network
end StoaCore
