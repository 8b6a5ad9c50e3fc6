import StoaCore.Library.Js.Members
import StoaCore.Library.Transition

/-!
# Polling — waiting for the results of submitted transactions

`pollStatus` asks a node for its requests, again and again, until every one has a result, the
time-out is over, or the caller aborts.  `retry` runs one attempt after the other.  An attempt is a
race between the abort signal, a timer that rejects, and the task, which sleeps for one millisecond
and then asks.  An event is one macrotask: a timer fires, the node answers, the signal aborts.
What follows in microtasks belongs to it, up to the settling of the task, where code of the caller
that awaits a result may still abort.  One clock serves `Date.now` and the timers, and the callbacks
of the caller do nothing but observe.
-/

namespace StoaCore
namespace Client

open Library Library.Js

/-! ## Promises -/

/-- What a promise is rejected with, as far as `retry` looks at it. -/
inductive Rejection
  | undefined
  | null
  /-- A `TypeError` of the engine. -/
  | typeError
  /-- Any other value, with the text that its `message` is. -/
  | value (message : Option JsString)
  deriving DecidableEq

def timeOutReject : Rejection :=
  .value (some (js "TIME_OUT_REJECT"))

def abortedError : Rejection :=
  .value (some (js "ABORTED"))

def notCompleted : Rejection :=
  .value (some (js "NOT_COMPLETED"))

/-- What a promise has settled with. -/
abbrev Settlement (ρ : Type) := Option (Except Rejection ρ)

/-- What `getPromise` returns. -/
structure Deferred (ρ : Type) where
  promise : Settlement ρ := none
  fulfilled : Bool := false
  data : Option ρ := none

def getPromise {ρ : Type} : Deferred ρ := {}

namespace Deferred

variable {ρ : Type}

/-- A promise that has settled stays as it is. -/
def resolve (pr : Deferred ρ) (data : ρ) : Deferred ρ where
  promise := pr.promise.or (some (.ok data))
  fulfilled := true
  data := some data

def reject (pr : Deferred ρ) (err : Rejection) : Deferred ρ :=
  { pr with promise := pr.promise.or (some (.error err)), fulfilled := true }

end Deferred

/-! ## Timers -/

/-- The delay that `setTimeout` takes: one millisecond where it cannot count what it is given. -/
def timerDelay (delay : Int) : Nat :=
  if 1 ≤ delay ∧ delay ≤ 2147483647 then delay.toNat else 1

theorem timerDelay_of_le {delay : Int} (hlow : 1 ≤ delay) (hhigh : delay ≤ 2147483647) :
    (timerDelay delay : Int) = delay := by
  rw [timerDelay, if_pos ⟨hlow, hhigh⟩]
  omega

theorem timerDelay_of_not {delay : Int} (h : ¬ (1 ≤ delay ∧ delay ≤ 2147483647)) :
    timerDelay delay = 1 :=
  if_neg h

/-! ## States -/

/-- An item of the answer of a node. -/
structure CommandResult where
  reqKey : JsString
  content : Value

/-- `sleep(1).then(task)` of the last attempt. -/
inductive PollTask
  | sleeping (due : Nat)
  | asking
  /-- The task is about to settle. -/
  | finished (failure : Option Rejection)
  | settled

/-- Where `retry` is. -/
inductive PollPhase
  | racing (startTime : Nat) (timeout : Int) (rejectDue : Nat)
  | waiting (startTime : Nat) (timeout : Int) (due : Nat)
  | ended (failure : Option Rejection)

structure PollState where
  now : Nat
  /-- `signal.aborted` -/
  aborted : Bool
  prs : Record (Deferred CommandResult)
  requestKeys : List JsString
  phase : PollPhase
  task : PollTask

/-- What the caller and the node see. -/
inductive Notice
  | onPoll (requestKey : JsString)
  | onPollError (error : Rejection)
  | poll (requestKeys : List JsString)
  | onResult (requestKey : JsString) (item : CommandResult)
  /-- The promise of `retry` settles. -/
  | settled (failure : Option Rejection)

namespace PollState

variable (s : PollState)

/-! ## The task -/

/-- `onPoll` is told, and the request goes out. -/
def ask : PollState × List Notice :=
  ({ s with task := .asking }, s.requestKeys.map .onPoll ++ [.poll s.requestKeys])

/-- The items are delivered one after the other, up to one that nobody has asked for: it has no
promise, so that reading `resolve` throws. -/
def deliver (s : PollState) : List CommandResult → PollState × List Notice × Option Rejection
  | [] => (s, [], none)
  | item :: rest =>
      match s.prs.lookup item.reqKey with
      | none => (s, [], some .typeError)
      | some pr =>
          let next := deliver
            { s with
              prs := s.prs.assign item.reqKey (pr.resolve item)
              requestKeys := s.requestKeys.filter (· ≠ item.reqKey) } rest
          (next.1, .onResult item.reqKey item :: next.2.1, next.2.2)

/-- The rest of `task`, after the answer. -/
def answered (items : List CommandResult) : PollState × List Notice :=
  match s.deliver items with
  | (s, notices, some error) =>
      ({ s with task := .finished (some error) }, notices ++ [.onPollError error])
  | (s, notices, none) =>
      ({ s with task := .finished (if s.requestKeys.isEmpty then none else some notCompleted) },
        notices)

/-! ## The attempts -/

/-- The promise of `retry` settles; where it is rejected, so are the promises that are open. -/
def finish (failure : Option Rejection) : PollState × List Notice :=
  match failure with
  | none => ({ s with phase := .ended none }, [.settled none])
  | some err =>
      ({ s with
         phase := .ended (some err)
         prs := s.prs.map fun m => (m.1, if m.2.fulfilled then m.2 else m.2.reject err) },
        [.settled (some err)])

/-- `runTask`, up to the race.  The task sleeps also where the signal has aborted already. -/
def runTask (timeout : Int) : PollState × List Notice :=
  let s := { s with task := .sleeping (s.now + 1) }
  if s.aborted then s.finish (some abortedError)
  else ({ s with phase := .racing s.now timeout (s.now + timerDelay timeout) }, [])

/-- The `catch` of `runTask`, for a task that has failed. -/
def caught (interval : Int) (startTime : Nat) (timeout : Int) (error : Rejection) :
    PollState × List Notice :=
  -- Reading `message` of `null` throws.
  if error = .null then s.finish (some .typeError)
  else if error = timeOutReject ∨ error = abortedError then s.finish (some error)
  else ({ s with phase := .waiting startTime timeout (s.now + timerDelay interval) }, [])

end PollState

/-- A call of `pollStatus`, at the time `now`. -/
structure PollCall where
  requestIds : List JsString
  timeout : Option Int := none
  interval : Option Int := none
  /-- `signal.aborted` -/
  aborted : Bool := false
  now : Nat

namespace PollCall

variable (c : PollCall)

/-- Three minutes where no time-out is given. -/
def limit : Int :=
  c.timeout.getD (1000 * 60 * 3)

/-- Five seconds where no interval is given. -/
def pause : Int :=
  c.interval.getD 5000

/-- A promise for every request, and nothing asked yet. -/
def opened : PollState where
  now := c.now
  aborted := c.aborted
  prs := c.requestIds.foldl (fun acc requestKey => acc.assign requestKey getPromise) []
  requestKeys := c.requestIds
  phase := .waiting c.now c.limit c.now
  task := .settled

/-- `pollStatus`, up to the race of the first attempt. -/
def pollStatus : PollState × List Notice :=
  c.opened.runTask c.limit

end PollCall

/-! ## Steps -/

inductive PollEvent
  | tick (passed : Nat)
  | abort
  | fireReject
  | wakeTask
  | respond (items : List CommandResult)
  | pollFails (error : Rejection)
  | settleTask
  | wakeLoop

/-- Timers that are set for the same time with the same delay fire in the order in which they were
set: the timer that rejects before the one on which the task sleeps. -/
def PollPhase.rejectsFirst (due : Nat) : PollPhase → Bool
  | .racing _ _ rejectDue => decide (rejectDue ≤ due)
  | _ => false

def PollTask.isFinished : PollTask → Bool
  | .finished _ => true
  | _ => false

def pollStep (interval : Int) (s : PollState) : PollEvent → Option (PollState × List Notice)
  | .tick passed => some ({ s with now := s.now + passed }, [])
  | .abort =>
      if s.aborted then none
      else
        match s.phase with
        | .racing _ _ _ => some ({ s with aborted := true }.finish (some abortedError))
        | _ => some ({ s with aborted := true }, [])
  | .fireReject =>
      match s.phase with
      | .racing _ _ rejectDue =>
          -- A task that is about to settle stops the timer before it can fire.
          if rejectDue ≤ s.now ∧ s.task.isFinished = false then
            some (s.finish (some timeOutReject))
          else none
      | _ => none
  | .wakeTask =>
      match s.task with
      | .sleeping due =>
          if due ≤ s.now ∧ s.phase.rejectsFirst due = false then some s.ask else none
      | _ => none
  | .respond items =>
      match s.task with
      | .asking => some (s.answered items)
      | _ => none
  | .pollFails error =>
      match s.task with
      | .asking => some ({ s with task := .finished (some error) }, [.onPollError error])
      | _ => none
  | .settleTask =>
      match s.task with
      | .finished result =>
          match s.phase, result with
          | .racing _ _ _, none => some ({ s with task := .settled }.finish none)
          | .racing startTime timeout _, some error =>
              some ({ s with task := .settled }.caught interval startTime timeout error)
          | _, _ => some ({ s with task := .settled }, [])
      | _ => none
  | .wakeLoop =>
      match s.phase with
      | .waiting startTime timeout due =>
          if due ≤ s.now then some (s.runTask (timeout - ((s.now : Int) - startTime))) else none
      | _ => none

def pollSystem (c : PollCall) : Transition.System PollState PollEvent (List Notice) where
  init := c.pollStatus.1
  step := pollStep c.pause

/-! ## The returned promise -/

/-- `mergeAll` -/
def mergeAll {ν : Type} (results : List (Record ν)) : Record ν :=
  results.foldl Record.spread []

/-- `Promise.all` over the promises of the requests, each as a record of its own: the first
rejection, or all results once every one is there.  All rejections come at once, in this order. -/
def promiseAll {ρ : Type} : Record (Deferred ρ) → Settlement (List (Record ρ))
  | [] => some (.ok [])
  | (requestKey, pr) :: rest =>
      match pr.promise, promiseAll rest with
      | some (.error err), _ => some (.error err)
      | _, some (.error err) => some (.error err)
      | some (.ok data), some (.ok results) => some (.ok ([(requestKey, data)] :: results))
      | _, _ => none

/-- The promise that `pollStatus` returns. -/
def returned {ρ : Type} (prs : Record (Deferred ρ)) : Settlement (Record ρ) :=
  (promiseAll prs).map fun outcome => outcome.map mergeAll

end Client
end StoaCore
