import StoaCore.Network.DeadlineInvariant

/-!
# DeadlineRuns — what a run of the event loop leaves behind

The invariant of one invocation holds of all of them, whatever the others do in between.  The one
thing that breaks it is a worker that answers the abort event: `controller.abort()` comes before
`reject(abortErr)`, so that such an answer is there first.
-/

namespace StoaCore
namespace Network

open Library
open Library.Js
open Library.EventLoop
open Library.Transition

variable {α : Type}

/-! ## Steps -/

/-- The abort event does not make the worker whose controller is aborted settle, unless it makes it
reject with an `AbortError`. -/
def QuietAbort (r : DeadlineRec α) : Prop :=
  match r.event with
  | .settleWorker id outcome => r.pre.busy = some id → IsAbort outcome
  | _ => True

instance (r : DeadlineRec α) : Decidable (QuietAbort r) := by
  unfold QuietAbort
  split <;> infer_instance

/-- The controllers that exist have been counted, and no two invocations have the same. -/
structure Controllers (l : DeadlineLoop α) : Prop where
  counted : ∀ id v c, l.view id = some v → v.part.controller = some c → c < l.world
  distinct : ∀ id id' v v' c, l.view id = some v → l.view id' = some v' →
    v.part.controller = some c → v'.part.controller = some c → id = id'

structure DeadlineInv (l : DeadlineLoop α) : Prop where
  wellFormed : l.WellFormed
  good : ∀ id v, l.view id = some v → Good v
  controllers : Controllers l

theorem deadlineInv_init : DeadlineInv (DeadlineLoop.init : DeadlineLoop α) where
  wellFormed := ⟨by simp [DeadlineLoop.init], by simp [DeadlineLoop.init]⟩
  good := by simp [DeadlineLoop.init, Loop.view]
  controllers := ⟨by simp [DeadlineLoop.init, Loop.view], by simp [DeadlineLoop.init, Loop.view]⟩

section Step

variable {r : DeadlineRec α}

/-- A turn at which the invocation is busy is a turn in the middle of its callback. -/
theorem quietAbort_turn {n : Nat} {v : DeadlineView α} (hview : r.pre.view n = some v)
    (hquiet : QuietAbort r) :
    ∀ outcome, r.event = .settleWorker n outcome → v.busy = true → IsAbort outcome := by
  intro outcome hevent hbusy
  unfold QuietAbort at hquiet
  rw [hevent] at hquiet
  refine hquiet ?_
  rcases Option.map_eq_some_iff.1 hview with ⟨i, -, rfl⟩
  simpa using hbusy

theorem start_controller {operation : String} {timeoutMs : Option Number} {controller c : Nat}
    {call : WorkerCall α}
    (h : (Invocation.start operation timeoutMs controller call).1.controller = some c) :
    c = controller := by
  unfold Invocation.start at h
  split at h
  case isFalse => cases h
  case isTrue =>
    cases call with
    | threw e => exact (Option.some.inj h).symm
    | returned promise => exact (Option.some.inj h).symm

theorem controllers_step (hstep : LoopStep r) (h : Controllers r.pre) : Controllers r.post := by
  cases hstep with
  | turn n v v' out hview hturn hchanges hout hworld =>
      have hsame : ∀ id w, r.post.view id = some w →
          ∃ w', r.pre.view id = some w' ∧ w'.part.controller = w.part.controller := by
        intro id w hw
        by_cases hid : id = n
        · subst hid
          rw [hchanges.moved, Option.some.injEq] at hw
          exact ⟨v, hview, hw ▸ (turn_controller hturn).symm⟩
        · exact ⟨w, hchanges.others id hid ▸ hw, rfl⟩
      constructor
      · intro id w c hw hc
        rcases hsame id w hw with ⟨w', hw', heq⟩
        rw [hworld]
        exact h.counted id w' c hw' (heq.trans hc)
      · intro id id' w w' c hw hw' hc hc'
        rcases hsame id w hw with ⟨u, hu, heq⟩
        rcases hsame id' w' hw' with ⟨u', hu', heq'⟩
        exact h.distinct id id' u u' c hu hu' (heq.trans hc) (heq'.trans hc')
  | start operation timeoutMs call hchanges hout hworld =>
      have hnew : ∀ w c, r.post.view r.pre.parts.length = some w → w.part.controller = some c →
          c = r.pre.world ∧ r.post.world = r.pre.world + 1 := by
        intro w c hw hc
        rw [hchanges.moved, Option.some.injEq] at hw
        subst hw
        refine ⟨start_controller hc, ?_⟩
        rw [hworld, if_pos (Option.isSome_iff_exists.2 ⟨c, hc⟩)]
      have hle : r.pre.world ≤ r.post.world := by
        rw [hworld]
        split <;> omega
      have hold : ∀ id w c, id ≠ r.pre.parts.length → r.post.view id = some w →
          w.part.controller = some c → c < r.pre.world :=
        fun id w c hid hw hc => h.counted id w c (hchanges.others id hid ▸ hw) hc
      constructor
      · intro id w c hw hc
        by_cases hid : id = r.pre.parts.length
        · subst hid
          have := hnew w c hw hc
          omega
        · exact lt_of_lt_of_le (hold id w c hid hw hc) hle
      · intro id id' w w' c hw hw' hc hc'
        by_cases hid : id = r.pre.parts.length
        · by_cases hid' : id' = r.pre.parts.length
          · rw [hid, hid']
          · have hlt := hold id' w' c hid' hw' hc'
            exact absurd (hnew w c (hid ▸ hw) hc).1 hlt.ne
        · by_cases hid' : id' = r.pre.parts.length
          · have hlt := hold id w c hid hw hc
            exact absurd (hnew w' c (hid' ▸ hw') hc').1 hlt.ne
          · exact h.distinct id id' w w' c (hchanges.others id hid ▸ hw)
              (hchanges.others id' hid' ▸ hw') hc hc'

theorem deadlineInv_step (r : DeadlineRec α) (hvalid : r.Valid (deadlineSystem α))
    (hquiet : QuietAbort r) (h : DeadlineInv r.pre) : DeadlineInv r.post := by
  rcases loopStep_of_valid h.wellFormed hvalid with ⟨hstep, hpost⟩
  refine ⟨hpost, ?_, controllers_step hstep h.controllers⟩
  cases hstep with
  | start operation timeoutMs call hchanges =>
      exact hchanges.all h.good (good_start operation timeoutMs r.pre.world call)
  | turn n v v' out hview hturn hchanges =>
      exact hchanges.all h.good (good_turn (h.good n v hview) hturn (quietAbort_turn hview hquiet))

/-! ## Settlements -/

/-- The outcomes with which invocations settle in the steps of a run, in their order. -/
def settlements (trace : List (DeadlineRec α)) : List (Nat × Except JsError α) :=
  trace.filterMap Record.out

/-- What the promise of an invocation has settled with. -/
def settledOf (l : DeadlineLoop α) (id : Nat) : List (Except JsError α) :=
  ((l.view id).bind fun v => v.part.settled).toList

theorem settledOf_eq {l : DeadlineLoop α} {id : Nat} {v : DeadlineView α}
    (h : l.view id = some v) : settledOf l id = v.part.settled.toList := by
  rw [settledOf, h, Option.bind_some]

theorem settledOf_step (hvalid : r.Valid (deadlineSystem α)) (h : DeadlineInv r.pre) (id : Nat) :
    settledOf r.pre id ++ own id r.out.toList = settledOf r.post id := by
  rcases loopStep_of_valid h.wellFormed hvalid with ⟨hstep, -⟩
  have hother : ∀ {n : Nat} {out : Option (Except JsError α)} {v' : DeadlineView α},
      Changes r.pre r.post n v' → r.out = out.map (n, ·) → id ≠ n →
      settledOf r.pre id ++ own id r.out.toList = settledOf r.post id := by
    intro n out v' hchanges hout hid
    rw [settledOf, settledOf, hchanges.others id hid, hout]
    cases out with
    | none => exact List.append_nil _
    | some o =>
        rw [Option.map_some, Option.toList_some, own_cons_of_ne hid.symm, own_nil, List.append_nil]
  have hself : ∀ {n : Nat} {out : Option (Except JsError α)}, r.out = out.map (n, ·) →
      own n r.out.toList = out.toList := by
    intro n out hout
    rw [hout]
    cases out with
    | none => rfl
    | some o => exact own_cons_self n o []
  cases hstep with
  | start operation timeoutMs call hchanges hout =>
      by_cases hid : id = r.pre.parts.length
      · subst hid
        have hnone : r.pre.view r.pre.parts.length = none := by simp [Loop.view]
        rw [settledOf_eq hchanges.moved, hself hout, settledOf, hnone]
        rfl
      · exact hother hchanges hout hid
  | turn n v v' out hview hturn hchanges hout =>
      by_cases hid : id = n
      · subst hid
        rw [settledOf_eq hview, settledOf_eq hchanges.moved, hself hout]
        exact turn_settled (h.good id v hview) hturn
      · exact hother hchanges hout hid

end Step

/-! ## Runs -/

section Runs

variable {s t : DeadlineLoop α} {trace : List (DeadlineRec α)}

theorem deadlineInv_run (hrun : Run (deadlineSystem α) s trace t)
    (hquiet : ∀ r ∈ trace, QuietAbort r) (h : DeadlineInv s) : DeadlineInv t :=
  (hrun.invariant DeadlineInv QuietAbort deadlineInv_step hquiet h).1

theorem settledOf_run (hrun : Run (deadlineSystem α) s trace t)
    (hquiet : ∀ r ∈ trace, QuietAbort r) (h : DeadlineInv s) (id : Nat) :
    settledOf s id ++ own id (settlements trace) = settledOf t id := by
  induction hrun with
  | nil s => exact List.append_nil _
  | @cons r trace t hvalid _ ih =>
      have hpost := deadlineInv_step r hvalid (hquiet r (by simp)) h
      have hrest := ih (fun r' hr' => hquiet r' (by simp [hr'])) hpost
      have hcons : settlements (r :: trace) = r.out.toList ++ settlements trace := by
        unfold settlements
        rw [List.filterMap_cons]
        cases r.out <;> rfl
      rw [hcons, own_append, ← List.append_assoc, settledOf_step hvalid h id, hrest]

/-- The worker has an outcome, and the timer has not fired. -/
def WonInTime (id : Nat) (o : Except JsError α) (l : DeadlineLoop α) : Prop :=
  ∃ v, l.view id = some v ∧ v.part.worker = some o ∧ v.part.timer ≠ .fired

theorem wonInTime_step {id : Nat} {o : Except JsError α} (r : DeadlineRec α)
    (hvalid : r.Valid (deadlineSystem α)) (h : DeadlineInv r.pre) (hwon : WonInTime id o r.pre) :
    WonInTime id o r.post := by
  rcases hwon with ⟨w, hw, hworker, htimer⟩
  rcases loopStep_of_valid h.wellFormed hvalid with ⟨hstep, -⟩
  cases hstep with
  | start operation timeoutMs call hchanges =>
      have hlt := (List.getElem?_eq_some_iff.1 (Loop.getElem?_of_view hw)).1
      exact ⟨w, (hchanges.others id hlt.ne).trans hw, hworker, htimer⟩
  | turn n v v' out hview hturn hchanges =>
      by_cases hid : id = n
      · subst hid
        rw [hview, Option.some.injEq] at hw
        subst hw
        exact ⟨v', hchanges.moved, turn_in_time (h.good id v hview) hturn hworker htimer⟩
      · exact ⟨w, (hchanges.others id hid).trans hw, hworker, htimer⟩

theorem wonInTime_run {id : Nat} {o : Except JsError α} (hrun : Run (deadlineSystem α) s trace t)
    (hquiet : ∀ r ∈ trace, QuietAbort r) (h : DeadlineInv s) (hwon : WonInTime id o s) :
    WonInTime id o t :=
  (hrun.invariant (fun l => DeadlineInv l ∧ WonInTime id o l) QuietAbort
    (fun r hvalid hr hboth =>
      ⟨deadlineInv_step r hvalid hr hboth.1, wonInTime_step r hvalid hboth.1 hboth.2⟩)
    hquiet ⟨h, hwon⟩).1.2

/-! ## The queue runs empty -/

def Job.weight : Job → Nat
  | .continuation => 1
  | _ => 2

def queueWeight (queue : List (Nat × Job)) : Nat :=
  (queue.map fun job => job.2.weight).sum

/-- A reaction leaves at most a continuation behind, a continuation nothing. -/
theorem weight_runJob (i : Invocation α) (id : Nat) (job : Job) :
    queueWeight ((i.runJob job).2.map (id, ·)) < job.weight := by
  cases job with
  | continuation => exact Nat.zero_lt_one
  | workerReaction =>
      unfold Invocation.runJob Invocation.settleRace
      dsimp only
      split
      · exact Nat.lt_succ_self 1
      · exact Nat.zero_lt_two
  | deadlineReaction =>
      unfold Invocation.runJob Invocation.settleRace
      dsimp only
      split
      · exact Nat.lt_succ_self 1
      · exact Nat.zero_lt_two

theorem microtask_enabled {l : DeadlineLoop α} (hl : l.WellFormed) (hbusy : l.busy = none)
    (hqueue : l.queue ≠ []) :
    ∃ l' out, DeadlineLoop.step l .microtask = some (l', out) ∧ l'.busy = none ∧
      queueWeight l'.queue < queueWeight l.queue := by
  rcases List.exists_cons_of_ne_nil hqueue with ⟨⟨id, job⟩, rest, hcons⟩
  have hlt : id < l.parts.length := hl.queue (id, job) (by simp [hcons])
  rcases List.getElem?_eq_some_iff.2 ⟨hlt, rfl⟩ with hi
  refine ⟨l.move id (l.parts[id].runJob job).1 rest (l.parts[id].runJob job).2, _,
    by simp only [DeadlineLoop.step, hbusy, hcons, hi]; rfl, hbusy, ?_⟩
  have hweight := weight_runJob l.parts[id] id job
  simp only [queueWeight, Loop.move, hcons, List.map_append, List.map_cons, List.sum_append,
    List.sum_cons] at hweight ⊢
  omega

/-- Outside a callback the microtasks alone empty the queue. -/
theorem exists_drained {l : DeadlineLoop α} (hl : l.WellFormed) (hbusy : l.busy = none) :
    ∃ trace l', Run (deadlineSystem α) l trace l' ∧ (∀ r ∈ trace, r.event = .microtask) ∧
      l'.queue = [] ∧ l'.busy = none := by
  induction hweight : queueWeight l.queue using Nat.strongRecOn generalizing l with
  | ind weight ih =>
      by_cases hqueue : l.queue = []
      · exact ⟨[], l, Run.nil l, by simp, hqueue, hbusy⟩
      · rcases microtask_enabled hl hbusy hqueue with ⟨l₁, out, hstep, hbusy₁, hless⟩
        let r : DeadlineRec α := ⟨l, .microtask, out, l₁⟩
        have hvalid : r.Valid (deadlineSystem α) := hstep
        have hl₁ := (loopStep_of_valid hl hvalid).2
        rcases ih _ (hweight ▸ hless) hl₁ hbusy₁ rfl with ⟨trace, l', hrun, hevents, hdone⟩
        refine ⟨r :: trace, l', Run.cons hvalid hrun, ?_, hdone⟩
        intro r' hr'
        rcases List.mem_cons.1 hr' with rfl | hr'
        · rfl
        · exact hevents r' hr'

end Runs

/-! ## What is left of an invocation -/

/-- What a run leaves of invocation number `id`, which is `i` in the state `s` at its end. -/
structure LeavesNothing (trace : List (DeadlineRec α)) (s : DeadlineLoop α) (id : Nat)
    (i : Invocation α) : Prop where
  refused : isValidTimeout i.timeoutMs = false →
    i.settled = some (.error (invalidTimeoutError i.operation i.timeoutMs)) ∧
      i.invoked = false ∧ i.timer = .unset ∧ i.controller = none
  /-- The promise settles at most once. -/
  once : own id (settlements trace) = i.settled.toList
  inTime : isValidTimeout i.timeoutMs = true → i.timer ≠ .fired →
    ∀ o, i.settled = some o → i.worker = some o
  late : i.timer = .fired → ∀ o, i.settled = some o → IsAbort o
  /-- An outcome of the worker that is there before the timer fires keeps it from firing. -/
  first : ∀ r ∈ trace, ∀ o, WonInTime id o r.post → i.timer ≠ .fired ∧ i.worker = some o
  aborted : i.aborted = true ↔ i.timer = .fired
  clean : i.settled ≠ none → i.timer ≠ .pending
  /-- When no job is left, an outcome of the worker or of the timer has settled the promise. -/
  settles : s.busy = none → s.queue = [] → i.worker ≠ none ∨ i.timer = .fired → i.settled ≠ none

section Good

variable {v : DeadlineView α}

theorem good_refused (h : Good v) (hinvalid : isValidTimeout v.part.timeoutMs = false) :
    v.part.settled = some (.error (invalidTimeoutError v.part.operation v.part.timeoutMs)) ∧
      v.part.invoked = false ∧ v.part.timer = .unset ∧ v.part.controller = none := by
  cases h with
  | refused operation timeoutMs _ hv =>
      subst hv
      exact ⟨rfl, rfl, rfl, rfl⟩
  | threw operation timeoutMs controller e hvalid hv =>
      subst hv
      exact absurd (hinvalid.symm.trans hvalid) Bool.false_ne_true
  | racing h => exact absurd (hinvalid.symm.trans h.valid) Bool.false_ne_true

theorem good_inTime (h : Good v) (hvalid : isValidTimeout v.part.timeoutMs = true)
    (htimer : v.part.timer ≠ .fired) {o : Except JsError α} (ho : v.part.settled = some o) :
    v.part.worker = some o := by
  cases h with
  | refused operation timeoutMs hinvalid hv =>
      subst hv
      exact absurd (hinvalid.symm.trans hvalid) Bool.false_ne_true
  | threw operation timeoutMs controller e _ hv =>
      subst hv
      exact ho
  | racing h => exact h.in_time htimer o (h.settled o ho)

theorem good_late (h : Good v) (htimer : v.part.timer = .fired) {o : Except JsError α}
    (ho : v.part.settled = some o) : IsAbort o := by
  cases h with
  | refused operation timeoutMs hinvalid hv =>
      subst hv
      cases htimer
  | threw operation timeoutMs controller e hvalid hv =>
      subst hv
      cases htimer
  | racing h => exact h.late htimer o (h.settled o ho)

theorem good_aborted (h : Good v) : v.part.aborted = true ↔ v.part.timer = .fired := by
  cases h with
  | refused operation timeoutMs hinvalid hv =>
      subst hv
      simp
  | threw operation timeoutMs controller e hvalid hv =>
      subst hv
      simp
  | racing h => exact h.aborted

theorem good_clean (h : Good v) (hsettled : v.part.settled ≠ none) :
    v.part.timer ≠ .pending := by
  cases h with
  | refused operation timeoutMs hinvalid hv =>
      subst hv
      simp
  | threw operation timeoutMs controller e hvalid hv =>
      subst hv
      simp
  | racing h => exact h.cleared hsettled

theorem good_settles (h : Good v) (hjobs : v.jobs = []) (hbusy : v.busy = false)
    (hcome : v.part.worker ≠ none ∨ v.part.timer = .fired) : v.part.settled ≠ none := by
  cases h with
  | refused operation timeoutMs hinvalid hv =>
      subst hv
      simp
  | threw operation timeoutMs controller e hvalid hv =>
      subst hv
      simp
  | racing h =>
      have hnone : ∀ job, job ∉ v.jobs := fun job hmem => List.not_mem_nil (hjobs ▸ hmem)
      have hrace : v.part.race ≠ none := by
        intro hopen
        rcases hcome with hworker | hfired
        · exact hnone _ (h.worker_pending hworker hopen)
        · rcases h.fired hfired with hdeadline | htrue
          · exact hnone _ (h.deadline_pending hdeadline hopen)
          · exact Bool.false_ne_true (hbusy.symm.trans htrue)
      exact fun hsettled => hnone _ (h.race_pending hrace hsettled)

end Good

theorem first_of_run {trace : List (DeadlineRec α)} {s : DeadlineLoop α}
    (hrun : Run (deadlineSystem α) DeadlineLoop.init trace s)
    (hquiet : ∀ r ∈ trace, QuietAbort r) {id : Nat} {r : DeadlineRec α} (hr : r ∈ trace)
    {o : Except JsError α} (hwon : WonInTime id o r.post) : WonInTime id o s := by
  have hinv := hrun.invariant DeadlineInv QuietAbort deadlineInv_step hquiet deadlineInv_init
  have hpost := (hinv.2 r hr).2
  rcases List.append_of_mem hr with ⟨front, back, rfl⟩
  rcases hrun.split with ⟨u, -, hback⟩
  exact wonInTime_run hback.tail (fun r' hr' => hquiet r' (by simp [hr'])) hpost hwon

theorem leavesNothing_of_run {trace : List (DeadlineRec α)} {s : DeadlineLoop α}
    (hrun : Run (deadlineSystem α) DeadlineLoop.init trace s)
    (hquiet : ∀ r ∈ trace, QuietAbort r) {id : Nat} {i : Invocation α}
    (hi : s.parts[id]? = some i) : LeavesNothing trace s id i := by
  have hview := Loop.view_of_getElem? hi
  have hgood := (deadlineInv_run hrun hquiet deadlineInv_init).good id _ hview
  exact
    { refused := good_refused hgood
      once := by
        rw [← settledOf_eq hview, ← settledOf_run hrun hquiet deadlineInv_init id]
        rfl
      inTime := fun hvalid htimer o => good_inTime hgood hvalid htimer
      late := fun htimer o => good_late hgood htimer
      first := by
        intro r hr o hwon
        rcases first_of_run hrun hquiet hr hwon with ⟨v, hv, hworker, htimer⟩
        rw [hview, Option.some.injEq] at hv
        subst hv
        exact ⟨htimer, hworker⟩
      aborted := good_aborted hgood
      clean := good_clean hgood
      settles := fun hbusy hqueue => good_settles hgood (by simp [hqueue]) (by simp [hbusy]) }

/-- In every run without an answer to the abort event, every invocation leaves nothing behind, no
two have the same controller, and from wherever the run has come the microtasks alone bring the
queue to its end. -/
theorem runWithTimeout_leaves_nothing {trace : List (DeadlineRec α)} {s : DeadlineLoop α}
    (hrun : Run (deadlineSystem α) DeadlineLoop.init trace s)
    (hquiet : ∀ r ∈ trace, QuietAbort r) :
    (∀ id i, s.parts[id]? = some i → LeavesNothing trace s id i) ∧
    (∀ (id id' : Nat) (i i' : Invocation α) (c : Nat), s.parts[id]? = some i →
      s.parts[id']? = some i' → i.controller = some c → i'.controller = some c → id = id') ∧
    (s.busy = none → ∃ further s', Run (deadlineSystem α) s further s' ∧
      (∀ r ∈ further, r.event = .microtask) ∧ s'.queue = [] ∧ s'.busy = none) := by
  have hinv := deadlineInv_run hrun hquiet deadlineInv_init
  refine ⟨fun id i hi => leavesNothing_of_run hrun hquiet hi, ?_, exists_drained hinv.wellFormed⟩
  intro id id' i i' c hi hi' hc hc'
  exact hinv.controllers.distinct id id' _ _ c (Loop.view_of_getElem? hi)
    (Loop.view_of_getElem? hi') hc hc'

/-- Three invocations overlap: one is refused, the worker of one resolves in time, and the worker of
one resolves after its timer has fired. -/
def overlappingRun : List (DeadlineEvent Nat) :=
  [.start "poll" (some (.finite 0)) (.returned none),
    .start "submit" (some (.finite 60000)) (.returned none),
    .start "dirtyRead" (some (.finite 10)) (.returned none),
    .settleWorker 1 (.ok 7), .microtask, .microtask, .fireTimer 2, .endCallback,
    .settleWorker 2 (.ok 8), .microtask, .microtask, .microtask]

theorem runWithTimeout_leaves_nothing_overlapping :
    let sys := deadlineSystem Nat
    let s := sys.final DeadlineLoop.init overlappingRun
    let trace := sys.trace DeadlineLoop.init overlappingRun
    (∀ id i, s.parts[id]? = some i → LeavesNothing trace s id i) ∧
    (∀ (id id' : Nat) (i i' : Invocation Nat) (c : Nat), s.parts[id]? = some i →
      s.parts[id']? = some i' → i.controller = some c → i'.controller = some c → id = id') ∧
    (s.busy = none → ∃ further s', Run sys s further s' ∧
      (∀ r ∈ further, r.event = .microtask) ∧ s'.queue = [] ∧ s'.busy = none) :=
  runWithTimeout_leaves_nothing (run_of_events overlappingRun (by decide)) (by decide)

/-! ## A worker that answers the abort event -/

/-- The worker resolves from a listener of the abort event, before the callback of the timer goes on
to reject. -/
def answeringRun : List (DeadlineEvent Nat) :=
  [.start "dirtyRead" (some (.finite 15000)) (.returned none), .fireTimer 0,
    .settleWorker 0 (.ok 7), .endCallback, .microtask, .microtask, .microtask]

/-- The timer has fired, and the call resolves with the value of the worker. -/
theorem answered_after_timeout :
    let sys := deadlineSystem Nat
    let s := sys.final DeadlineLoop.init answeringRun
    let trace := sys.trace DeadlineLoop.init answeringRun
    Run sys DeadlineLoop.init trace s ∧
    ∃ i, s.parts[0]? = some i ∧ i.timer = .fired ∧ i.settled = some (.ok 7) ∧
      ¬LeavesNothing trace s 0 i := by
  refine ⟨run_of_events answeringRun (by decide), _, rfl, rfl, rfl, ?_⟩
  intro h
  exact h.late rfl (.ok 7) rfl

end Network
end StoaCore
