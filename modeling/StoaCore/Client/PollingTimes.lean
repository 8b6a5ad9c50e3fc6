import StoaCore.Client.PollingRuns

/-!
# PollingTimes — when a poll asks, and when it ends

Two requests of a poll are at least the interval apart, and the time-out bounds their number.  The
deadline is the same for all attempts: no timer rejects before it, and with timers that fire in
time the loop is over one interval after it.
-/

namespace StoaCore
namespace Client

open Library Library.Js

/-! ## Requests and timers -/

def Notice.isPoll : Notice → Bool
  | .poll _ => true
  | _ => false

/-- The times at which requests go out. -/
def requestTimes (trace : PollTrace) : List Nat :=
  (trace.filter fun r => r.out.any Notice.isPoll).map fun r => r.pre.now

theorem requestTimes_cons (r : Transition.Record PollState PollEvent (List Notice))
    (rest : PollTrace) :
    requestTimes (r :: rest) =
      if r.out.any Notice.isPoll then r.pre.now :: requestTimes rest else requestTimes rest := by
  rw [requestTimes, List.filter_cons]
  split
  case isTrue => rfl
  case isFalse => rfl

/-- The times for which the timers are set that `retry` waits for. -/
def PollState.timers (s : PollState) : List Nat :=
  match s.phase, s.task with
  | .racing _ _ rejectDue, .sleeping due => [rejectDue, due]
  | .racing _ _ rejectDue, _ => [rejectDue]
  | .waiting _ _ due, _ => [due]
  | .ended _, .sleeping due => [due]
  | .ended _, _ => []

/-- After the step no timer is overdue by more than `lag`. -/
def OnTime (lag : Nat) (r : Transition.Record PollState PollEvent (List Notice)) : Prop :=
  ∀ due ∈ r.post.timers, r.post.now ≤ due + lag

namespace PollCall

variable (c : PollCall)

/-- What lies at least between two requests: the interval, and the millisecond of the task. -/
def period : Nat :=
  timerDelay c.pause + 1

/-- The time at which the call is given up. -/
def deadline : Int :=
  c.now + c.limit

/-- The time-out leaves room for `n` requests. -/
def Affords : Nat → Prop
  | 0 => True
  | n + 1 => (n * c.period : Nat) + 2 ≤ c.limit

/-- The times of an attempt. -/
def Attempt (startTime : Nat) (timeout : Int) (rejectDue : Nat) (s : PollState) : Prop :=
  c.now ≤ startTime ∧ startTime ≤ s.now ∧ startTime + timeout = c.deadline ∧
    rejectDue = startTime + timerDelay timeout ∧ s.aborted = false

end PollCall

/-! ## The invariant -/

/-- After `n` requests, with none to come before `b`. -/
def Timed (c : PollCall) (n b : Nat) (s : PollState) : Prop :=
  match s.phase, s.task with
  | .racing startTime timeout rejectDue, .sleeping due =>
      c.Attempt startTime timeout rejectDue s ∧ due = startTime + 1 ∧ b ≤ due ∧
        c.now + n * c.period ≤ startTime ∧ c.Affords n
  | .racing _ _ _, .settled => False
  | .racing startTime timeout rejectDue, _ =>
      c.Attempt startTime timeout rejectDue s ∧ startTime + 1 ≤ s.now ∧ 2 ≤ timerDelay timeout ∧
        b ≤ s.now + c.period ∧ c.now + n * c.period ≤ startTime + c.period ∧ c.Affords n
  | .waiting startTime timeout due, .settled =>
      startTime + timeout = c.deadline ∧ b ≤ due + 1 ∧ c.now + n * c.period ≤ due ∧ c.Affords n
  | .waiting _ _ _, _ => False
  | .ended _, .sleeping due => b ≤ due ∧ c.Affords n
  | .ended _, _ => c.Affords n ∨ c.Affords (n - 1)

section Step

variable {c : PollCall} {n b : Nat} {s : PollState} {e : PollEvent}
  {r : PollState × List Notice}

/-- A timer that rejects after the task has slept has been set for the deadline. -/
theorem PollCall.Attempt.rejectDue_eq {startTime rejectDue : Nat} {timeout : Int}
    (h : c.Attempt startTime timeout rejectDue s) (hdelay : 2 ≤ timerDelay timeout) :
    (rejectDue : Int) = c.deadline := by
  rcases h with ⟨-, -, hdeadline, hreject, -⟩
  by_cases hrange : 1 ≤ timeout ∧ timeout ≤ 2147483647
  · have hexact := timerDelay_of_le hrange.1 hrange.2
    omega
  · rw [timerDelay_of_not hrange] at hdelay
    omega

/-- An attempt that asks begins early enough for one request more. -/
theorem PollCall.Attempt.affords {startTime rejectDue : Nat} {timeout : Int}
    (h : c.Attempt startTime timeout rejectDue s) (hdelay : 2 ≤ timerDelay timeout)
    (hcount : c.now + n * c.period ≤ startTime) : c.Affords (n + 1) := by
  have hreject := h.rejectDue_eq hdelay
  rcases h with ⟨-, -, -, hreject', -⟩
  rw [PollCall.deadline] at hreject
  simp only [PollCall.Affords]
  omega

theorem Timed.wake {due : Nat} (h : Timed c n b s) (htask : s.task = .sleeping due)
    (hdue : due ≤ s.now) (hfirst : s.phase.rejectsFirst due = false) :
    b ≤ s.now ∧ Timed c (n + 1) (s.now + c.period) s.ask.1 := by
  rcases s with ⟨now, aborted, prs, requestKeys, phase, task⟩
  cases htask
  cases phase with
  | racing startTime timeout rejectDue =>
      rcases h with ⟨hattempt, rfl, hb, hcount, -⟩
      have hlate : startTime + 1 < rejectDue := by
        simpa [PollPhase.rejectsFirst] using hfirst
      have hreject := hattempt.2.2.2.1
      have hdelay : 2 ≤ timerDelay timeout := by omega
      have haffords := hattempt.affords hdelay hcount
      have hmul : (n + 1) * c.period = n * c.period + c.period := Nat.succ_mul n c.period
      exact ⟨le_trans hb hdue, hattempt, hdue, hdelay, le_rfl, by omega, haffords⟩
  | waiting startTime timeout due' => exact h.elim
  | ended failure => exact ⟨le_trans h.1 hdue, Or.inr h.2⟩

/-- Where the loop ends. -/
theorem timed_finish (haffords : c.Affords n) (htask : ∀ due, s.task = .sleeping due → b ≤ due)
    (failure : Option Rejection) : Timed c n b (s.finish failure).1 := by
  have hended : (s.finish failure).1.phase = .ended failure ∧
      (s.finish failure).1.task = s.task := by
    cases failure with
    | none => exact ⟨rfl, rfl⟩
    | some err => exact ⟨rfl, rfl⟩
  unfold Timed
  rw [hended.1, hended.2]
  cases hsame : s.task with
  | sleeping due => exact ⟨htask due hsame, haffords⟩
  | _ => exact Or.inl haffords

/-- What an attempt has made sure of when it loses its race. -/
theorem Timed.racing {startTime rejectDue : Nat} {timeout : Int} (h : Timed c n b s)
    (hphase : s.phase = .racing startTime timeout rejectDue) :
    c.Affords n ∧ ∀ due, s.task = .sleeping due → b ≤ due := by
  rcases s with ⟨now, aborted, prs, requestKeys, phase, task⟩
  cases hphase
  cases task with
  | sleeping due =>
      refine ⟨h.2.2.2.2, ?_⟩
      rintro _ ⟨⟩
      exact h.2.2.1
  | settled => exact h.elim
  | asking =>
      refine ⟨h.2.2.2.2.2, ?_⟩
      rintro _ ⟨⟩
  | finished result =>
      refine ⟨h.2.2.2.2.2, ?_⟩
      rintro _ ⟨⟩

theorem Timed.waiting {startTime due : Nat} {timeout : Int} (h : Timed c n b s)
    (hphase : s.phase = .waiting startTime timeout due) : c.Affords n ∧ b ≤ due + 1 := by
  rcases s with ⟨now, aborted, prs, requestKeys, phase, task⟩
  cases hphase
  cases task with
  | settled => exact ⟨h.2.2.2, h.2.1⟩
  | _ => exact h.elim

/-- The signal aborts while no attempt is under way. -/
theorem Timed.abort (h : Timed c n b s)
    (hphase : ∀ startTime timeout rejectDue, s.phase ≠ .racing startTime timeout rejectDue) :
    Timed c n b { s with aborted := true } := by
  rcases s with ⟨now, aborted, prs, requestKeys, phase, task⟩
  cases phase with
  | racing startTime timeout rejectDue => exact absurd rfl (hphase _ _ _)
  | waiting startTime timeout due =>
      cases task with
      | settled => exact h
      | _ => exact h.elim
  | ended failure =>
      cases task with
      | _ => exact h

/-- A task that has its answer is about to settle. -/
theorem Timed.answered {t : PollState} {result : Option Rejection} (h : Timed c n b s)
    (htask : s.task = .asking) (hphase : t.phase = s.phase) (hnow : t.now = s.now)
    (haborted : t.aborted = s.aborted) (htask' : t.task = .finished result) : Timed c n b t := by
  rcases s with ⟨now, aborted, prs, requestKeys, phase, task⟩
  rcases t with ⟨now', aborted', prs', requestKeys', phase', task'⟩
  cases htask
  cases hphase
  cases hnow
  cases haborted
  cases htask'
  cases phase with
  | racing startTime timeout rejectDue => exact h
  | waiting startTime timeout due => exact h.elim
  | ended failure => exact h

/-- A task that nobody waits for any more. -/
theorem Timed.settleLate {result : Option Rejection} (h : Timed c n b s)
    (htask : s.task = .finished result)
    (hphase : ∀ startTime timeout rejectDue, s.phase ≠ .racing startTime timeout rejectDue) :
    Timed c n b { s with task := .settled } := by
  rcases s with ⟨now, aborted, prs, requestKeys, phase, task⟩
  cases htask
  cases phase with
  | racing startTime timeout rejectDue => exact absurd rfl (hphase _ _ _)
  | waiting startTime timeout due => exact h.elim
  | ended failure => exact h

theorem Timed.tick (h : Timed c n b s) (passed : Nat) :
    Timed c n b { s with now := s.now + passed } := by
  rcases s with ⟨now, aborted, prs, requestKeys, phase, task⟩
  cases phase with
  | racing startTime timeout rejectDue =>
      cases task with
      | sleeping due =>
          rcases h with ⟨⟨hnow, hstart, hrest⟩, hwake⟩
          exact ⟨⟨hnow, le_trans hstart (Nat.le_add_right _ _), hrest⟩, hwake⟩
      | settled => exact h.elim
      | _ =>
          rcases h with ⟨⟨hnow, hstart, hrest⟩, hlate, hdelay, hb, hcount⟩
          dsimp only at hstart hlate hb
          exact ⟨⟨hnow, le_trans hstart (Nat.le_add_right _ _), hrest⟩,
            le_trans hlate (Nat.le_add_right _ _), hdelay,
            le_trans hb (by dsimp only; omega), hcount⟩
  | waiting startTime timeout due =>
      cases task with
      | settled => exact h
      | _ => exact h.elim
  | ended failure =>
      cases task with
      | _ => exact h

/-- A failed attempt is followed by the interval. -/
theorem Timed.retry {startTime rejectDue : Nat} {timeout : Int} {error : Rejection}
    (h : Timed c n b s) (htask : s.task = .finished (some error))
    (hphase : s.phase = .racing startTime timeout rejectDue) :
    Timed c n b
      { s with
        task := .settled
        phase := .waiting startTime timeout (s.now + timerDelay c.pause) } := by
  rcases s with ⟨now, aborted, prs, requestKeys, phase, task⟩
  cases htask
  cases hphase
  rcases h with ⟨⟨-, hstart, hdeadline, -⟩, hlate, -, hb, hcount, haffords⟩
  rw [PollCall.period] at hb hcount
  dsimp only at hlate hb
  refine ⟨hdeadline, ?_, ?_, haffords⟩
  · dsimp only
    omega
  · rw [PollCall.period]
    dsimp only
    omega

/-- The next attempt. -/
theorem Timed.race {startTime due : Nat} {timeout : Int} (h : Timed c n b s)
    (hphase : s.phase = .waiting startTime timeout due) (hdue : due ≤ s.now)
    (habort : s.aborted = false) :
    Timed c n b
      { s with
        task := .sleeping (s.now + 1)
        phase := .racing s.now (timeout - ((s.now : Int) - startTime))
          (s.now + timerDelay (timeout - ((s.now : Int) - startTime))) } := by
  rcases s with ⟨now, aborted, prs, requestKeys, phase, task⟩
  cases hphase
  cases task with
  | settled =>
      rcases h with ⟨hdeadline, hb, hcount, haffords⟩
      dsimp only at hdue
      refine ⟨⟨?_, le_rfl, ?_, rfl, habort⟩, rfl, ?_, le_trans hcount hdue, haffords⟩
      · dsimp only
        omega
      · dsimp only
        omega
      · dsimp only
        omega
  | _ => exact h.elim

theorem isPoll_false_of_step {interval : Int} (hstep : PollStep interval s e r)
    (he : e ≠ .wakeTask) : r.2.any Notice.isPoll = false := by
  rw [List.any_eq_false]
  intro notice hnotice hpoll
  cases notice with
  | poll keys => exact he (poll_of_step hstep hnotice).1
  | _ => cases hpoll

/-- A step either sends a request, which nothing forbids, or it sends none. -/
theorem timed_of_step (h : Timed c n b s) (hstep : PollStep c.pause s e r) :
    (r.2.any Notice.isPoll = true ∧ b ≤ s.now ∧ Timed c (n + 1) (s.now + c.period) r.1) ∨
      (r.2.any Notice.isPoll = false ∧ Timed c n b r.1) := by
  by_cases he : e = .wakeTask
  · cases hstep with
    | wakeTask htask hdue hfirst =>
        exact Or.inl ⟨by simp [PollState.ask, Notice.isPoll], h.wake htask hdue hfirst⟩
    | _ => cases he
  refine Or.inr ⟨isPoll_false_of_step hstep he, ?_⟩
  cases hstep with
  | tick passed => exact h.tick passed
  | abortRace habort hphase =>
      have hracing := h.racing hphase
      exact @timed_finish c n b { s with aborted := true } hracing.1 hracing.2 _
  | abortElse habort hphase => exact h.abort hphase
  | fireReject hphase hdue htask =>
      have hracing := h.racing hphase
      exact timed_finish hracing.1 hracing.2 _
  | wakeTask htask hdue hfirst => exact absurd rfl he
  | respond items htask =>
      rcases answered_frame items with ⟨hphase, hnow, haborted, failure, htask'⟩
      exact h.answered htask hphase hnow haborted htask'
  | pollFails error htask => exact h.answered htask rfl rfl rfl rfl
  | settleDone htask hphase =>
      exact @timed_finish c n b { s with task := .settled } (h.racing hphase).1
        (fun _ hsleeping => by cases hsleeping) _
  | settleFinal failure htask hphase =>
      exact @timed_finish c n b { s with task := .settled } (h.racing hphase).1
        (fun _ hsleeping => by cases hsleeping) _
  | settleRetry htask hphase => exact h.retry htask hphase
  | settleLate htask hphase => exact h.settleLate htask hphase
  | wakeAborted hphase hdue habort =>
      rcases h.waiting hphase with ⟨haffords, hb⟩
      refine @timed_finish c n b { s with task := .sleeping (s.now + 1) } haffords ?_ _
      rintro _ ⟨⟩
      omega
  | wakeRace hphase hdue habort => exact h.race hphase hdue habort

end Step

/-! ## Requests -/

namespace PollCall

variable (c : PollCall)

theorem timed_opened : Timed c 0 0 c.opened :=
  ⟨rfl, Nat.zero_le _, by simp, trivial⟩

end PollCall

theorem timed_of_run {c : PollCall} {n b : Nat} {s t : PollState} {trace : PollTrace}
    (hrun : Transition.Run (pollSystem c) s trace t) (h : Timed c n b s) :
    (∃ b', Timed c (n + (requestTimes trace).length) b' t) ∧
      (∀ time ∈ requestTimes trace, b ≤ time) ∧
      (requestTimes trace).Pairwise fun time later => time + c.period ≤ later := by
  induction hrun generalizing n b with
  | nil s => exact ⟨⟨b, h⟩, by simp [requestTimes], List.Pairwise.nil⟩
  | @cons r rest t hvalid _ ih =>
      have hstep : PollStep c.pause r.pre r.event (r.post, r.out) := pollStep_cases hvalid
      rcases timed_of_step h hstep with ⟨hpoll, hb, hpost⟩ | ⟨hpoll, hpost⟩
      · have htimes : requestTimes (r :: rest) = r.pre.now :: requestTimes rest := by
          rw [requestTimes_cons, if_pos hpoll]
        rcases ih hpost with ⟨⟨b', ht⟩, hlater, hpairwise⟩
        rw [htimes]
        refine ⟨⟨b', ?_⟩, ?_, List.Pairwise.cons hlater hpairwise⟩
        · rw [List.length_cons, Nat.add_comm _ 1, ← Nat.add_assoc]
          exact ht
        · intro time htime
          rcases List.mem_cons.1 htime with rfl | htime
          · exact hb
          · exact le_trans hb (le_trans (Nat.le_add_right _ _) (hlater time htime))
      · dsimp only at hpoll
        have htimes : requestTimes (r :: rest) = requestTimes rest := by
          rw [requestTimes_cons, hpoll]
          rfl
        rw [htimes]
        exact ih hpost

/-- The loop is over or about to be: at most `k` requests are still to come. -/
def Closing (k : Nat) (s : PollState) : Prop :=
  match s.phase, s.task with
  | .racing _ _ _, _ => False
  | .waiting _ _ _, .settled => s.aborted = true ∧ 1 ≤ k
  | .waiting _ _ _, _ => False
  | .ended _, .sleeping _ => 1 ≤ k
  | .ended _, _ => True

section Closing

variable {k : Nat} {s : PollState} {e : PollEvent} {r : PollState × List Notice}

theorem Closing.not_racing {startTime rejectDue : Nat} {timeout : Int} (h : Closing k s)
    (hphase : s.phase = .racing startTime timeout rejectDue) : False := by
  rw [Closing, hphase] at h
  exact h

/-- The task asks nothing more where the loop has ended. -/
theorem closing_ended {failure : Option Rejection} (hphase : s.phase = .ended failure)
    (htask : ∀ due, s.task ≠ .sleeping due) : Closing k s := by
  unfold Closing
  rw [hphase]
  cases hsame : s.task with
  | sleeping due => exact absurd hsame (htask due)
  | _ => exact trivial

theorem Closing.ended_of_task (h : Closing k s) (htask : s.task ≠ .settled) :
    ∃ failure, s.phase = .ended failure := by
  rcases s with ⟨now, aborted, prs, requestKeys, phase, task⟩
  cases phase with
  | racing startTime timeout rejectDue => exact h.elim
  | waiting startTime timeout due =>
      cases task with
      | settled => exact absurd rfl htask
      | _ => exact h.elim
  | ended failure => exact ⟨failure, rfl⟩

theorem closing_of_step {interval : Int} (h : Closing k s) (hstep : PollStep interval s e r) :
    if r.2.any Notice.isPoll then ∃ k', k = k' + 1 ∧ Closing k' r.1 else Closing k r.1 := by
  by_cases he : e = .wakeTask
  · cases hstep with
    | wakeTask htask hdue hfirst =>
        have hpoll : s.ask.2.any Notice.isPoll = true := by simp [PollState.ask, Notice.isPoll]
        rcases h.ended_of_task (by simp [htask]) with ⟨failure, hphase⟩
        rw [if_pos hpoll]
        rw [Closing, hphase, htask] at h
        refine ⟨k - 1, by omega, closing_ended hphase ?_⟩
        rintro due ⟨⟩
    | _ => cases he
  rw [isPoll_false_of_step hstep he, if_neg Bool.false_ne_true]
  cases hstep with
  | tick passed => exact h
  | abortRace habort hphase => exact (h.not_racing hphase).elim
  | abortElse habort hphase =>
      rcases s with ⟨now, aborted, prs, requestKeys, phase, task⟩
      cases phase with
      | racing startTime timeout rejectDue => exact h.elim
      | waiting startTime timeout due =>
          cases task with
          | settled => exact ⟨rfl, h.2⟩
          | _ => exact h.elim
      | ended failure =>
          cases task with
          | _ => exact h
  | fireReject hphase hdue htask => exact (h.not_racing hphase).elim
  | wakeTask htask hdue hfirst => exact absurd rfl he
  | respond items htask =>
      rcases h.ended_of_task (by simp [htask]) with ⟨failure, hphase⟩
      rcases answered_frame items with ⟨hphase', -, -, result, htask'⟩
      refine closing_ended (hphase'.trans hphase) fun due hdue => ?_
      rw [htask'] at hdue
      cases hdue
  | pollFails error htask =>
      rcases h.ended_of_task (by simp [htask]) with ⟨failure, hphase⟩
      refine closing_ended hphase ?_
      rintro due ⟨⟩
  | settleDone htask hphase => exact (h.not_racing hphase).elim
  | settleFinal failure htask hphase => exact (h.not_racing hphase).elim
  | settleRetry htask hphase => exact (h.not_racing hphase).elim
  | settleLate htask hphase =>
      rcases h.ended_of_task (by simp [htask]) with ⟨failure, hphase⟩
      refine closing_ended hphase ?_
      rintro due ⟨⟩
  | wakeAborted hphase hdue habort =>
      rcases s with ⟨now, aborted, prs, requestKeys, phase, task⟩
      cases hphase
      cases task with
      | settled => exact h.2
      | _ => exact h.elim
  | wakeRace hphase hdue habort =>
      rcases s with ⟨now, aborted, prs, requestKeys, phase, task⟩
      cases hphase
      cases task with
      | settled =>
          cases habort
          cases h.1
      | _ => exact h.elim

theorem length_requestTimes_le {c : PollCall} {t : PollState} {trace : PollTrace}
    (hrun : Transition.Run (pollSystem c) s trace t) (h : Closing k s) :
    (requestTimes trace).length ≤ k := by
  induction hrun generalizing k with
  | nil s => exact Nat.zero_le k
  | @cons r rest t hvalid _ ih =>
      have hpost := closing_of_step h (pollStep_cases hvalid)
      rw [requestTimes_cons]
      split at hpost
      case isTrue hpoll =>
        rcases hpost with ⟨k', rfl, hpost⟩
        rw [if_pos hpoll, List.length_cons]
        exact Nat.succ_le_succ (ih hpost)
      case isFalse hpoll =>
        rw [if_neg hpoll]
        exact ih hpost

/-- Where the signal has aborted or the loop has ended, at most one request is still to come. -/
theorem Timed.closing {c : PollCall} {n b : Nat} (h : Timed c n b s)
    (hover : s.aborted = true ∨ s.phase.endings ≠ []) : Closing 1 s := by
  rcases s with ⟨now, aborted, prs, requestKeys, phase, task⟩
  cases phase with
  | racing startTime timeout rejectDue =>
      rcases hover with haborted | hended
      · -- No attempt goes on after an abort.
        have hattempt : aborted = false := by
          cases task with
          | sleeping due => exact h.1.2.2.2.2
          | settled => exact h.elim
          | asking => exact h.1.2.2.2.2
          | finished result => exact h.1.2.2.2.2
        cases hattempt
        cases haborted
      · exact absurd rfl hended
  | waiting startTime timeout due =>
      rcases hover with haborted | hended
      · cases task with
        | settled => exact ⟨haborted, le_rfl⟩
        | _ => exact h.elim
      · exact absurd rfl hended
  | ended failure =>
      cases task with
      | sleeping due => exact le_rfl
      | _ => exact trivial

end Closing

/-- What the time-out leaves room for, in any state. -/
theorem Timed.affords {c : PollCall} {n b : Nat} {s : PollState} (h : Timed c n b s) :
    c.Affords n ∨ c.Affords (n - 1) := by
  cases hphase : s.phase with
  | racing startTime timeout rejectDue => exact Or.inl (h.racing hphase).1
  | waiting startTime timeout due => exact Or.inl (h.waiting hphase).1
  | ended failure =>
      rw [Timed, hphase] at h
      cases htask : s.task with
      | sleeping due =>
          rw [htask] at h
          exact Or.inl h.2
      | _ =>
          rw [htask] at h
          exact h

/-- From the call on; the call itself sends no request. -/
theorem PollRun.timed {c : PollCall} {trace : PollTrace} {s : PollState}
    (hrun : PollRun c trace s) :
    (∃ b, Timed c (requestTimes trace).length b s) ∧
      (requestTimes trace).Pairwise fun time later => time + c.period ≤ later := by
  have htimes := timed_of_run hrun.whole c.timed_opened
  have hstart : c.pollStatus.2.any Notice.isPoll = false :=
    isPoll_false_of_step (pollStep_cases (c.step_opened c.pause)) (by simp)
  rw [requestTimes_cons, hstart, if_neg Bool.false_ne_true, Nat.zero_add] at htimes
  exact ⟨htimes.1, htimes.2.2⟩

/-- In every run two requests are at least the interval and one millisecond apart, so that the
time-out bounds their number, and after an abort or the end of the loop at most one more goes
out. -/
theorem requests_paced {c : PollCall} {trace : PollTrace} {s : PollState}
    (hrun : PollRun c trace s) :
    ((requestTimes trace).Pairwise fun time later => time + timerDelay c.pause + 1 ≤ later) ∧
      (2 ≤ (requestTimes trace).length →
        (((requestTimes trace).length - 2) * (timerDelay c.pause + 1) : Nat) + 2 ≤ c.limit) ∧
      ∀ front r back, trace = front ++ r :: back →
        (r.pre.aborted = true ∨ r.pre.phase.endings ≠ []) →
        (requestTimes (r :: back)).length ≤ 1 := by
  rcases hrun.timed with ⟨⟨b, htimed⟩, hpairwise⟩
  refine ⟨hpairwise, ?_, ?_⟩
  · intro hmany
    have haffords := htimed.affords
    rcases Nat.exists_eq_add_of_le hmany with ⟨m, hm⟩
    rw [hm, Nat.add_sub_cancel_left]
    rw [hm, Nat.add_comm 2 m] at haffords
    rcases haffords with hall | hbut
    · have hmul : (m + 1) * c.period = m * c.period + c.period := Nat.succ_mul m c.period
      simp only [PollCall.Affords] at hall
      rw [hmul, PollCall.period] at hall
      omega
    · exact hbut
  · intro front r back htrace hover
    have hfront : PollRun c front r.pre := hrun.before htrace
    rcases hfront.timed with ⟨⟨b', hbefore⟩, -⟩
    subst htrace
    rcases Transition.Run.split hrun with ⟨t, -, hfrom⟩
    cases hfrom with
    | cons hvalid hrest =>
        exact length_requestTimes_le (.cons hvalid hrest) (hbefore.closing hover)

theorem requests_paced_twoRequests :
    requestTimes twoRequestsTrace = [1, 8] ∧
      (requestTimes twoRequestsTrace).Pairwise fun time later => time + 6 ≤ later :=
  ⟨rfl, (requests_paced twoRequests_run).1⟩

/-! ## The deadline -/

section Deadline

variable {c : PollCall} {n b lag : Nat} {s : PollState} {e : PollEvent}
  {r : PollState × List Notice}

/-- No timer of an attempt rejects before the deadline, if `setTimeout` can count the time-out. -/
theorem Timed.deadline_le {startTime rejectDue : Nat} {timeout : Int} (h : Timed c n b s)
    (hphase : s.phase = .racing startTime timeout rejectDue) (hlimit : c.limit ≤ 2147483647) :
    c.deadline ≤ rejectDue := by
  have hattempt : c.Attempt startTime timeout rejectDue s := by
    rcases s with ⟨now, aborted, prs, requestKeys, phase, task⟩
    cases hphase
    cases task with
    | settled => exact h.elim
    | _ => exact h.1
  rcases hattempt with ⟨hnow, -, hdeadline, rfl, -⟩
  rw [PollCall.deadline] at hdeadline ⊢
  by_cases hrange : 1 ≤ timeout ∧ timeout ≤ 2147483647
  · have hexact := timerDelay_of_le hrange.1 hrange.2
    omega
  · rw [timerDelay_of_not hrange]
    omega

/-- A timer that is due fires, or the task that has stopped it settles. -/
theorem exists_enabled {interval : Int} (h : Timed c n b s) {due : Nat} (hmem : due ∈ s.timers)
    (hdue : due ≤ s.now) :
    ∃ e : PollEvent, (e = .fireReject ∨ e = .wakeTask ∨ e = .settleTask ∨ e = .wakeLoop) ∧
      (pollStep interval s e).isSome = true := by
  rcases s with ⟨now, aborted, prs, requestKeys, phase, task⟩
  dsimp only at hdue
  cases phase with
  | racing startTime timeout rejectDue =>
      cases task with
      | sleeping wake =>
          by_cases hreject : rejectDue ≤ now
          · exact ⟨.fireReject, by simp, by simp [pollStep, hreject, PollTask.isFinished]⟩
          · -- The task is due, and the timer that rejects is set for later.
            have hwake : wake ≤ now := by
              rcases List.mem_cons.1 hmem with rfl | hmem
              · exact absurd hdue hreject
              · rw [← List.mem_singleton.1 hmem]
                exact hdue
            have hfirst : ¬ rejectDue ≤ wake := fun hle => hreject (le_trans hle hwake)
            exact ⟨.wakeTask, by simp, by simp [pollStep, PollPhase.rejectsFirst, hwake, hfirst]⟩
      | asking =>
          have hreject : rejectDue ≤ now := by
            rw [← List.mem_singleton.1 hmem]
            exact hdue
          exact ⟨.fireReject, by simp, by simp [pollStep, hreject, PollTask.isFinished]⟩
      | finished result =>
          refine ⟨.settleTask, by simp, ?_⟩
          cases result with
          | none => simp [pollStep]
          | some error => simp [pollStep]
      | settled => exact h.elim
  | waiting startTime timeout wake =>
      have hwake : wake ≤ now := by
        rw [← List.mem_singleton.1 hmem]
        exact hdue
      exact ⟨.wakeLoop, by simp, by simp [pollStep, hwake]⟩
  | ended failure =>
      cases task with
      | sleeping wake =>
          have hwake : wake ≤ now := by
            rw [← List.mem_singleton.1 hmem]
            exact hdue
          exact ⟨.wakeTask, by simp, by simp [pollStep, PollPhase.rejectsFirst, hwake]⟩
      | _ => cases hmem

/-- With timers that are never late by more than `lag`. -/
def Punctual (c : PollCall) (lag : Nat) (s : PollState) : Prop :=
  (∀ due ∈ s.timers, s.now ≤ due + lag) ∧
    match s.phase with
    | .racing startTime _ _ =>
        (startTime : Int) ≤ max c.deadline c.now + timerDelay c.pause + 2 * lag
    | .waiting _ _ due => (due : Int) ≤ max c.deadline c.now + timerDelay c.pause + lag
    | .ended _ => True

theorem punctual_of_step (htimed : Timed c n b s) (h : Punctual c lag s)
    (hstep : PollStep c.pause s e r) (htimers : ∀ due ∈ r.1.timers, r.1.now ≤ due + lag) :
    Punctual c lag r.1 := by
  refine ⟨htimers, ?_⟩
  have hsame : r.1.phase = s.phase → match r.1.phase with
      | .racing startTime _ _ =>
          (startTime : Int) ≤ max c.deadline c.now + timerDelay c.pause + 2 * lag
      | .waiting _ _ due => (due : Int) ≤ max c.deadline c.now + timerDelay c.pause + lag
      | .ended _ => True := by
    intro hphase
    rw [hphase]
    exact h.2
  cases hstep with
  | tick passed => exact hsame rfl
  | abortRace habort hphase => exact trivial
  | abortElse habort hphase => exact hsame rfl
  | fireReject hphase hdue htask => exact trivial
  | wakeTask htask hdue hfirst => exact hsame rfl
  | respond items htask => exact hsame (answered_frame items).1
  | pollFails error htask => exact hsame rfl
  | settleDone htask hphase => exact trivial
  | settleFinal failure htask hphase => exact trivial
  | settleRetry htask hphase =>
      -- The attempt has asked, so that its timer was set for the deadline.
      rcases s with ⟨now, aborted, prs, requestKeys, phase, task⟩
      cases htask
      cases hphase
      rcases htimed with ⟨hattempt, -, hdelay, -⟩
      have hreject := hattempt.rejectDue_eq hdelay
      have hnow := h.1 _ List.mem_cons_self
      dsimp only at hnow ⊢
      push_cast
      omega
  | settleLate htask hphase => exact hsame rfl
  | wakeAborted hphase hdue habort => exact trivial
  | wakeRace hphase hdue habort =>
      rcases s with ⟨now, aborted, prs, requestKeys, phase, task⟩
      cases hphase
      have hnow := h.1 _ List.mem_cons_self
      have hlate := h.2
      dsimp only at hnow hlate ⊢
      omega

theorem Punctual.now_le (htimed : Timed c n b s) (h : Punctual c lag s)
    (hopen : s.phase.endings = []) :
    (s.now : Int) ≤ max c.deadline c.now + timerDelay c.pause + 3 * lag + 1 := by
  rcases s with ⟨now, aborted, prs, requestKeys, phase, task⟩
  rcases h with ⟨htimers, hlate⟩
  cases phase with
  | racing startTime timeout rejectDue =>
      have hattempt : c.Attempt startTime timeout rejectDue
          ⟨now, aborted, prs, requestKeys, .racing startTime timeout rejectDue, task⟩ := by
        cases task with
        | settled => exact htimed.elim
        | _ => exact htimed.1
      have hnow : now ≤ rejectDue + lag := by
        cases task with
        | _ => exact htimers _ List.mem_cons_self
      rcases hattempt with ⟨-, -, hdeadline, hreject, -⟩
      dsimp only at hlate ⊢
      by_cases hrange : 1 ≤ timeout ∧ timeout ≤ 2147483647
      · have hexact := timerDelay_of_le hrange.1 hrange.2
        omega
      · rw [timerDelay_of_not hrange] at hreject
        omega
  | waiting startTime timeout due =>
      have hnow : now ≤ due + lag := htimers _ List.mem_cons_self
      dsimp only at hlate ⊢
      omega
  | ended failure => cases hopen

theorem punctual_opened (c : PollCall) (lag : Nat) : Punctual c lag c.opened := by
  refine ⟨?_, ?_⟩
  · intro due hmem
    rw [List.mem_singleton.1 hmem]
    exact Nat.le_add_right _ _
  · dsimp only [PollCall.opened]
    omega

theorem punctual_of_run {t : PollState} {trace : PollTrace}
    (hrun : Transition.Run (pollSystem c) s trace t) (htimed : Timed c n b s)
    (h : Punctual c lag s) (htimers : ∀ r ∈ trace, OnTime lag r) :
    Punctual c lag t := by
  induction hrun generalizing n b with
  | nil s => exact h
  | @cons r rest t hvalid _ ih =>
      have hstep : PollStep c.pause r.pre r.event (r.post, r.out) := pollStep_cases hvalid
      have hpost := punctual_of_step htimed h hstep (htimers r List.mem_cons_self)
      have hrest : ∀ r' ∈ rest, OnTime lag r' :=
        fun r' hr' => htimers r' (List.mem_cons_of_mem _ hr')
      rcases timed_of_step htimed hstep with ⟨-, -, htimed'⟩ | ⟨-, htimed'⟩
      · exact ih htimed' hpost hrest
      · exact ih htimed' hpost hrest

end Deadline

/-- The timers of a call that has just begun. -/
theorem PollCall.onTime_pollStatus (c : PollCall) (lag : Nat) :
    ∀ due ∈ c.pollStatus.1.timers, c.pollStatus.1.now ≤ due + lag := by
  intro due hmem
  rw [PollCall.pollStatus, PollState.runTask] at hmem ⊢
  dsimp only at hmem ⊢
  split at hmem
  case isTrue habort =>
    rw [if_pos habort]
    rw [List.mem_singleton.1 hmem]
    simp [PollState.finish]
    omega
  case isFalse habort =>
    rw [if_neg habort]
    rcases List.mem_cons.1 hmem with rfl | hmem
    · dsimp only
      omega
    · rw [List.mem_singleton.1 hmem]
      dsimp only
      omega

/-- In every run no attempt times out before the deadline of the call; as long as some timer is
due, an event that serves it is enabled; and where the timers fire at most `lag` milliseconds late
the loop is over one interval after the deadline. -/
theorem poll_deadline {c : PollCall} {trace : PollTrace} {s : PollState}
    (hrun : PollRun c trace s) :
    (c.limit ≤ 2147483647 → ∀ r ∈ trace, r.event = .fireReject → c.deadline ≤ r.pre.now) ∧
      (∀ due ∈ s.timers, due ≤ s.now → ∃ e : PollEvent,
        (e = .fireReject ∨ e = .wakeTask ∨ e = .settleTask ∨ e = .wakeLoop) ∧
          ((pollSystem c).step s e).isSome = true) ∧
      ∀ lag, (∀ r ∈ trace, OnTime lag r) → s.phase.endings = [] →
        (s.now : Int) ≤ max c.deadline c.now + timerDelay c.pause + 3 * lag + 1 := by
  rcases hrun.timed with ⟨⟨b, htimed⟩, -⟩
  refine ⟨?_, ?_, ?_⟩
  · intro hlimit r hr hevent
    rcases List.append_of_mem hr with ⟨front, back, htrace⟩
    have hfront : PollRun c front r.pre := hrun.before htrace
    rcases hfront.timed with ⟨⟨b', hbefore⟩, -⟩
    have hstep : PollStep c.pause r.pre r.event (r.post, r.out) :=
      pollStep_cases (hrun.valid_of_mem r hr)
    rw [hevent] at hstep
    generalize hresult : (r.post, r.out) = result at hstep
    cases hstep with
    | fireReject hphase hdue htask =>
        have hreject := hbefore.deadline_le hphase hlimit
        omega
  · intro due hmem hdue
    exact exists_enabled htimed hmem hdue
  · intro lag htimers hopen
    have hwhole : ∀ r ∈ (⟨c.opened, .wakeLoop, c.pollStatus.2, c.pollStatus.1⟩ :: trace :
        PollTrace), OnTime lag r := by
      intro r hr
      rcases List.mem_cons.1 hr with rfl | hr
      · exact c.onTime_pollStatus lag
      · exact htimers r hr
    have hpunctual := punctual_of_run hrun.whole c.timed_opened (punctual_opened c lag) hwhole
    exact hpunctual.now_le htimed hopen

/-- The same call, up to its first request. -/
def askedTrace : PollTrace :=
  (pollSystem twoRequests).trace twoRequests.pollStatus.1 [.tick 1, .wakeTask]

def askedFinal : PollState :=
  (pollSystem twoRequests).final twoRequests.pollStatus.1 [.tick 1, .wakeTask]

theorem asked_run : PollRun twoRequests askedTrace askedFinal :=
  Transition.run_of_events [PollEvent.tick 1, .wakeTask] rfl

instance (lag : Nat) (r : Transition.Record PollState PollEvent (List Notice)) :
    Decidable (OnTime lag r) := by
  unfold OnTime
  infer_instance

theorem poll_deadline_twoRequests :
    (∀ r ∈ twoRequestsTrace, r.event = .fireReject → (10 : Int) ≤ r.pre.now) ∧
      (∀ r ∈ askedTrace, OnTime 0 r) ∧ (askedFinal.now : Int) ≤ 16 := by
  have hontime : ∀ r ∈ askedTrace, OnTime 0 r := by decide
  exact ⟨(poll_deadline twoRequests_run).1 (by decide), hontime,
    (poll_deadline asked_run).2.2 0 hontime rfl⟩

end Client
end StoaCore
