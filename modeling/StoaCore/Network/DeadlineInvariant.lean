import StoaCore.Network.RunWithTimeout

/-!
# DeadlineInvariant — one invocation and its own jobs

What every turn of an invocation keeps.  As long as its timer has not fired, an
outcome of the worker has a job on its way that ends with the timer cleared, so that the timer
cannot fire any more.  Once it has fired, the rejection of the timer comes before any later outcome
of the worker: an earlier one can only come from the abort event itself.
-/

namespace StoaCore
namespace Network

open Library
open Library.Js
open Library.EventLoop
open Library.Transition

variable {α : Type}

/-- A rejection with an error whose name is `AbortError`. -/
def IsAbort : Except JsError α → Prop
  | .ok _ => False
  | .error e => e.name = some "AbortError"

instance (outcome : Except JsError α) : Decidable (IsAbort outcome) := by
  cases outcome <;> unfold IsAbort <;> infer_instance

/-! ## The invariant of one invocation -/

/-- A valid invocation whose worker has returned a promise. -/
structure Racing (v : DeadlineView α) : Prop where
  valid : isValidTimeout v.part.timeoutMs = true
  controller : v.part.controller.isSome = true
  invoked : v.part.invoked = true
  timer_set : v.part.timer ≠ .unset
  aborted : v.part.aborted = true ↔ v.part.timer = .fired
  -- No job is there twice, and each is there for what it will look at.
  nodup : v.jobs.Nodup
  worker_job : .workerReaction ∈ v.jobs → v.part.worker ≠ none
  deadline_job : .deadlineReaction ∈ v.jobs → v.part.deadline ≠ none
  continuation_job : .continuation ∈ v.jobs → v.part.race ≠ none ∧ v.part.settled = none
  -- What has happened and has not been looked at has a job.
  worker_pending : v.part.worker ≠ none → v.part.race = none → .workerReaction ∈ v.jobs
  deadline_pending : v.part.deadline ≠ none → v.part.race = none → .deadlineReaction ∈ v.jobs
  race_pending : v.part.race ≠ none → v.part.settled = none → .continuation ∈ v.jobs
  settled : ∀ o, v.part.settled = some o → v.part.race = some o
  cleared : v.part.settled ≠ none → v.part.timer ≠ .pending
  -- The timer fires, and its callback goes on to the rejection.
  fired : v.part.timer = .fired → v.part.deadline ≠ none ∨ v.busy = true
  not_fired : v.part.timer ≠ .fired → v.part.deadline = none ∧ v.busy = false
  busy : v.busy = true → v.part.deadline = none
  deadline : ∀ e, v.part.deadline = some e → e.name = some "AbortError"
  -- Who wins the race.
  in_time : v.part.timer ≠ .fired → ∀ o, v.part.race = some o → v.part.worker = some o
  late : v.part.timer = .fired → ∀ o, v.part.race = some o → IsAbort o
  order : v.part.timer = .fired → v.part.race = none → ∀ o, v.part.worker = some o →
    IsAbort o ∨ Precedes .deadlineReaction .workerReaction v.jobs

/-- An invocation that was refused, one whose worker threw, or one that is in its race. -/
inductive Good (v : DeadlineView α) : Prop
  | refused (operation : String) (timeoutMs : Option Number)
      (hinvalid : isValidTimeout timeoutMs = false)
      (hv : v = ⟨{ operation := operation, timeoutMs := timeoutMs,
                   settled := some (.error (invalidTimeoutError operation timeoutMs)) },
        [], false⟩)
  | threw (operation : String) (timeoutMs : Option Number) (controller : Nat) (e : JsError)
      (hvalid : isValidTimeout timeoutMs = true)
      (hv : v = ⟨{ operation := operation, timeoutMs := timeoutMs, controller := some controller,
                   invoked := true, worker := some (.error e), settled := some (.error e) },
        [], false⟩)
  | racing (h : Racing v)

theorem good_start (operation : String) (timeoutMs : Option Number) (controller : Nat)
    (call : WorkerCall α) :
    Good ⟨(Invocation.start operation timeoutMs controller call).1,
      (Invocation.start operation timeoutMs controller call).2, false⟩ := by
  unfold Invocation.start
  cases hvalid : isValidTimeout timeoutMs with
  | false => exact .refused operation timeoutMs hvalid rfl
  | true =>
      cases call with
      | threw e => exact .threw operation timeoutMs controller e hvalid rfl
      | returned promise =>
          refine .racing ?_
          cases promise with
          | none => constructor <;> simp [hvalid]
          | some o => constructor <;> simp [hvalid]

/-! ## Its turns -/

section Turns

variable {i : Invocation α} {jobs : List Job} {busy : Bool}

/-- An outcome in the middle of the callback is an `AbortError`, and a later one comes behind the
rejection of the timer. -/
theorem racing_settleWorker (h : Racing ⟨i, jobs, busy⟩) (hworker : i.worker = none)
    {outcome : Except JsError α} (habort : busy = true → IsAbort outcome) :
    Racing ⟨i.settleWorker outcome, jobs ++ [.workerReaction], busy⟩ := by
  have hnew : .workerReaction ∉ jobs := fun hmem => h.worker_job hmem hworker
  exact
    { h with
      nodup := nodup_append_singleton h.nodup hnew
      worker_job := fun _ => Option.some_ne_none _
      deadline_job := fun hmem => h.deadline_job (by simpa using hmem)
      continuation_job := fun hmem => h.continuation_job (by simpa using hmem)
      worker_pending := fun _ _ => by simp
      deadline_pending := fun hne hrace => List.mem_append_left _ (h.deadline_pending hne hrace)
      race_pending := fun hne hsettled => List.mem_append_left _ (h.race_pending hne hsettled)
      in_time := fun hfired o hrace => by
        have hwon : i.worker = some o := h.in_time hfired o hrace
        rw [hworker] at hwon
        cases hwon
      order := by
        rintro hfired hrace o ⟨⟩
        rcases h.fired hfired with hdeadline | hbusy
        · exact Or.inr (precedes_append_singleton (h.deadline_pending hdeadline hrace) hnew)
        · exact Or.inl (habort hbusy) }

/-- With no job left and the timer pending, the race is open. -/
theorem racing_idle (h : Racing ⟨i, [], busy⟩) (htimer : i.timer = .pending) :
    i.settled = none ∧ i.race = none ∧ i.worker = none := by
  have hsettled : i.settled = none := by
    by_contra hne
    exact h.cleared hne htimer
  have hrace : i.race = none := by
    by_contra hne
    exact absurd (h.race_pending hne hsettled) List.not_mem_nil
  have hworker : i.worker = none := by
    by_contra hne
    exact absurd (h.worker_pending hne hrace) List.not_mem_nil
  exact ⟨hsettled, hrace, hworker⟩

/-- Only while the callback of a fired timer runs is its part busy. -/
theorem racing_fired_of_busy (h : Racing ⟨i, jobs, true⟩) : i.timer = .fired := by
  by_contra hne
  exact Bool.false_ne_true (h.not_fired hne).2.symm

theorem racing_fireTimer (h : Racing ⟨i, [], false⟩) (htimer : i.timer = .pending) :
    Racing ⟨i.fireTimer, [], true⟩ := by
  rcases racing_idle h htimer with ⟨hsettled, hrace, hworker⟩
  have hdeadline : i.deadline = none := (h.not_fired (by simp [htimer])).1
  exact
    { h with
      timer_set := by simp [Invocation.fireTimer]
      aborted := by simp [Invocation.fireTimer]
      cleared := fun hne => absurd hsettled hne
      fired := fun _ => Or.inr rfl
      not_fired := fun hne => absurd rfl hne
      busy := fun _ => hdeadline
      in_time := fun hne => absurd rfl hne
      late := fun _ o ho => absurd (hrace.symm.trans ho) (Option.some_ne_none o).symm
      order := fun _ _ o ho => absurd (hworker.symm.trans ho) (Option.some_ne_none o).symm }

theorem racing_endCallback (h : Racing ⟨i, jobs, true⟩) :
    Racing ⟨i.rejectDeadline, jobs ++ [.deadlineReaction], false⟩ := by
  have hdeadline : i.deadline = none := h.busy rfl
  have hnew : .deadlineReaction ∉ jobs := fun hmem => h.deadline_job hmem hdeadline
  have hfired := racing_fired_of_busy h
  exact
    { h with
      nodup := nodup_append_singleton h.nodup hnew
      worker_job := fun hmem => h.worker_job (by simpa using hmem)
      deadline_job := fun _ => Option.some_ne_none _
      continuation_job := fun hmem => h.continuation_job (by simpa using hmem)
      worker_pending := fun hne hrace => List.mem_append_left _ (h.worker_pending hne hrace)
      deadline_pending := fun _ _ => by simp
      race_pending := fun hne hsettled => List.mem_append_left _ (h.race_pending hne hsettled)
      fired := fun _ => Or.inl (Option.some_ne_none _)
      not_fired := fun hne => absurd hfired hne
      busy := fun hbusy => absurd hbusy Bool.false_ne_true
      deadline := by
        rintro e ⟨⟩
        rfl
      order := fun _ hrace o ho => (h.order hfired hrace o ho).imp_right fun hprecedes =>
        hprecedes.append (by decide) }

/-- A reaction that comes to a race already settled changes nothing. -/
theorem racing_late_reaction {job : Job} (h : Racing ⟨i, job :: jobs, false⟩)
    (hjob : job ≠ .continuation) (hrace : i.race ≠ none) : Racing ⟨i, jobs, false⟩ := by
  have hsub : ∀ k ∈ jobs, k ∈ job :: jobs := fun k => List.mem_cons_of_mem job
  exact
    { h with
      nodup := h.nodup.of_cons
      worker_job := fun hmem => h.worker_job (hsub _ hmem)
      deadline_job := fun hmem => h.deadline_job (hsub _ hmem)
      continuation_job := fun hmem => h.continuation_job (hsub _ hmem)
      worker_pending := fun _ hnone => absurd hnone hrace
      deadline_pending := fun _ hnone => absurd hnone hrace
      race_pending := fun hne hsettled =>
        (List.mem_cons.1 (h.race_pending hne hsettled)).resolve_left hjob.symm
      order := fun _ hnone => absurd hnone hrace }

/-- The reaction to the outcome that settles the race. -/
theorem racing_first_reaction {job : Job} {o : Except JsError α}
    (h : Racing ⟨i, job :: jobs, false⟩) (hrace : i.race = none)
    (hinTime : i.timer ≠ .fired → i.worker = some o) (hlate : i.timer = .fired → IsAbort o) :
    Racing ⟨{ i with race := some o }, jobs ++ [.continuation], false⟩ := by
  have hsub : ∀ k ∈ jobs, k ∈ job :: jobs := fun k => List.mem_cons_of_mem job
  have hnew : .continuation ∉ jobs := fun hmem => (h.continuation_job (hsub _ hmem)).1 hrace
  have hsettled : i.settled = none := by
    by_contra hne
    rcases Option.ne_none_iff_exists'.1 hne with ⟨o', ho'⟩
    exact absurd (hrace.symm.trans (h.settled o' ho')) (Option.some_ne_none o').symm
  have hold : ∀ k, k ≠ .continuation → k ∈ jobs ++ [Job.continuation] → k ∈ job :: jobs :=
    fun k hk hmem => hsub k (by simpa [hk] using hmem)
  exact
    { h with
      nodup := nodup_append_singleton h.nodup.of_cons hnew
      worker_job := fun hmem => h.worker_job (hold _ (by decide) hmem)
      deadline_job := fun hmem => h.deadline_job (hold _ (by decide) hmem)
      continuation_job := fun _ => ⟨Option.some_ne_none o, hsettled⟩
      worker_pending := fun _ hnone => absurd hnone (Option.some_ne_none o)
      deadline_pending := fun _ hnone => absurd hnone (Option.some_ne_none o)
      race_pending := fun _ _ => by simp
      settled := fun o' ho' => absurd (hsettled.symm.trans ho') (Option.some_ne_none o').symm
      in_time := by
        rintro hfired o' ⟨⟩
        exact hinTime hfired
      late := by
        rintro hfired o' ⟨⟩
        exact hlate hfired
      order := fun _ hnone => absurd hnone (Option.some_ne_none o) }

theorem racing_workerReaction (h : Racing ⟨i, .workerReaction :: jobs, false⟩) :
    Racing ⟨(i.runJob .workerReaction).1, jobs ++ (i.runJob .workerReaction).2, false⟩ := by
  have hworker : i.worker ≠ none := h.worker_job (List.mem_cons_self ..)
  rcases Option.ne_none_iff_exists'.1 hworker with ⟨o, ho⟩
  by_cases hrace : i.race = none
  · have hrun : i.runJob .workerReaction = ({ i with race := some o }, [.continuation]) := by
      rw [Invocation.runJob, i.settleRace_of_open _ hrace, ho]
    rw [hrun]
    refine racing_first_reaction h hrace (fun _ => ho) fun hfired => ?_
    exact (h.order hfired hrace o ho).resolve_right (not_precedes_cons _ _ _)
  · have hrun : i.runJob .workerReaction = (i, []) := i.settleRace_of_settled _ hrace
    rw [hrun, List.append_nil]
    exact racing_late_reaction h (by decide) hrace

theorem racing_deadlineReaction (h : Racing ⟨i, .deadlineReaction :: jobs, false⟩) :
    Racing ⟨(i.runJob .deadlineReaction).1, jobs ++ (i.runJob .deadlineReaction).2, false⟩ := by
  have hdeadline : i.deadline ≠ none := h.deadline_job (List.mem_cons_self ..)
  rcases Option.ne_none_iff_exists'.1 hdeadline with ⟨e, he⟩
  by_cases hrace : i.race = none
  · have hrun : i.runJob .deadlineReaction =
        ({ i with race := some (.error e) }, [.continuation]) := by
      rw [Invocation.runJob, i.settleRace_of_open _ hrace, he, Option.map_some]
    rw [hrun]
    refine racing_first_reaction h hrace (fun hfired => ?_) fun _ => h.deadline e he
    exact absurd (h.not_fired hfired).1 hdeadline
  · have hrun : i.runJob .deadlineReaction = (i, []) := i.settleRace_of_settled _ hrace
    rw [hrun, List.append_nil]
    exact racing_late_reaction h (by decide) hrace

@[simp] theorem Timer.clear_eq_fired {timer : Timer} : timer.clear = .fired ↔ timer = .fired := by
  cases timer <;> simp [Timer.clear]

theorem Timer.clear_ne_pending (timer : Timer) : timer.clear ≠ .pending := by
  cases timer <;> simp [Timer.clear]

theorem Timer.clear_eq_unset {timer : Timer} : timer.clear = .unset ↔ timer = .unset := by
  cases timer <;> simp [Timer.clear]

theorem racing_continuation (h : Racing ⟨i, .continuation :: jobs, false⟩) :
    Racing ⟨(i.runJob .continuation).1, jobs ++ (i.runJob .continuation).2, false⟩ := by
  have hrace : i.race ≠ none := (h.continuation_job (List.mem_cons_self ..)).1
  have hsub : ∀ k ∈ jobs, k ∈ .continuation :: jobs := fun k => List.mem_cons_of_mem _
  have hdone : .continuation ∉ jobs := (List.nodup_cons.1 h.nodup).1
  unfold Invocation.runJob Invocation.continuation
  dsimp only
  rw [List.append_nil]
  exact
    { h with
      timer_set := fun hunset => h.timer_set (Timer.clear_eq_unset.1 hunset)
      aborted := h.aborted.trans Timer.clear_eq_fired.symm
      nodup := h.nodup.of_cons
      worker_job := fun hmem => h.worker_job (hsub _ hmem)
      deadline_job := fun hmem => h.deadline_job (hsub _ hmem)
      continuation_job := fun hmem => absurd hmem hdone
      worker_pending := fun _ hnone => absurd hnone hrace
      deadline_pending := fun _ hnone => absurd hnone hrace
      race_pending := fun _ hnone => absurd hnone hrace
      settled := fun _ ho => ho
      cleared := fun _ => i.timer.clear_ne_pending
      fired := fun hfired => h.fired (Timer.clear_eq_fired.1 hfired)
      not_fired := fun hfired => h.not_fired fun heq => hfired (Timer.clear_eq_fired.2 heq)
      in_time := fun hfired => h.in_time fun heq => hfired (Timer.clear_eq_fired.2 heq)
      late := fun hfired => h.late (Timer.clear_eq_fired.1 hfired)
      order := fun _ hnone => absurd hnone hrace }

end Turns

/-- Where the abort event only makes the worker reject with an `AbortError`, every turn keeps the
invariant. -/
theorem good_turn {n : Nat} {event : DeadlineEvent α} {v v' : DeadlineView α}
    {out : Option (Except JsError α)} (hv : Good v) (hturn : Turn n event v v' out)
    (habort : ∀ outcome, event = .settleWorker n outcome → v.busy = true → IsAbort outcome) :
    Good v' := by
  cases hturn with
  | settleWorker outcome hinvoked hworker =>
      cases hv with
      | refused operation timeoutMs hinvalid heq => cases heq; cases hinvoked
      | threw operation timeoutMs controller e hvalid heq => cases heq; cases hworker
      | racing h => exact .racing (racing_settleWorker h hworker (habort outcome rfl))
  | fireTimer htimer =>
      cases hv with
      | refused operation timeoutMs hinvalid heq => cases heq; cases htimer
      | threw operation timeoutMs controller e hvalid heq => cases heq; cases htimer
      | racing h => exact .racing (racing_fireTimer h htimer)
  | endCallback =>
      cases hv with
      | refused operation timeoutMs hinvalid heq => cases heq
      | threw operation timeoutMs controller e hvalid heq => cases heq
      | racing h => exact .racing (racing_endCallback h)
  | microtask job =>
      cases hv with
      | refused operation timeoutMs hinvalid heq => cases heq
      | threw operation timeoutMs controller e hvalid heq => cases heq
      | racing h =>
          cases job with
          | workerReaction => exact .racing (racing_workerReaction h)
          | deadlineReaction => exact .racing (racing_deadlineReaction h)
          | continuation => exact .racing (racing_continuation h)

/-! ## What a turn leaves as it is -/

section Kept

variable {n : Nat} {event : DeadlineEvent α} {v v' : DeadlineView α}
  {out : Option (Except JsError α)}

theorem turn_controller (hturn : Turn n event v v' out) :
    v'.part.controller = v.part.controller := by
  cases hturn with
  | settleWorker outcome hinvoked hworker => rfl
  | fireTimer htimer => rfl
  | endCallback => rfl
  | microtask job =>
      cases job with
      | continuation => rfl
      | workerReaction => exact Invocation.settleRace_controller _ _
      | deadlineReaction => exact Invocation.settleRace_controller _ _

/-- The promise of an invocation settles in its continuation, and has not settled before. -/
theorem turn_settled (hv : Good v) (hturn : Turn n event v v' out) :
    v.part.settled.toList ++ out.toList = v'.part.settled.toList := by
  cases hturn with
  | settleWorker outcome hinvoked hworker => exact List.append_nil _
  | fireTimer htimer => exact List.append_nil _
  | endCallback => exact List.append_nil _
  | @microtask i jobs job =>
      cases hv with
      | refused operation timeoutMs hinvalid heq => cases heq
      | threw operation timeoutMs controller e hvalid heq => cases heq
      | racing h =>
          cases job with
          | continuation =>
              have hopen : i.settled = none := (h.continuation_job (List.mem_cons_self ..)).2
              simp [Invocation.runJob, Invocation.continuation, hopen]
          | workerReaction => simp [Invocation.runJob]
          | deadlineReaction => simp [Invocation.runJob]

/-- An outcome of the worker in time keeps the timer from firing. -/
theorem turn_in_time (hv : Good v) (hturn : Turn n event v v' out) {o : Except JsError α}
    (hworker : v.part.worker = some o) (htimer : v.part.timer ≠ .fired) :
    v'.part.worker = some o ∧ v'.part.timer ≠ .fired := by
  cases hturn with
  | settleWorker outcome hinvoked hnone =>
      exact absurd (hnone.symm.trans hworker) (Option.some_ne_none o).symm
  | fireTimer hpending =>
      cases hv with
      | refused operation timeoutMs hinvalid heq => cases heq; cases hpending
      | threw operation timeoutMs controller e hvalid heq => cases heq; cases hpending
      | racing h =>
          have hnone := (racing_idle h hpending).2.2
          exact absurd (hnone.symm.trans hworker) (Option.some_ne_none o).symm
  | endCallback =>
      cases hv with
      | refused operation timeoutMs hinvalid heq => cases heq
      | threw operation timeoutMs controller e hvalid heq => cases heq
      | racing h => exact absurd (racing_fired_of_busy h) htimer
  | microtask job =>
      cases job with
      | continuation =>
          exact ⟨hworker, fun hfired => htimer (Timer.clear_eq_fired.1 hfired)⟩
      | workerReaction =>
          exact ⟨(Invocation.settleRace_worker _ _).trans hworker, by simpa [Invocation.runJob]⟩
      | deadlineReaction =>
          exact ⟨(Invocation.settleRace_worker _ _).trans hworker, by simpa [Invocation.runJob]⟩

end Kept

end Network
end StoaCore
