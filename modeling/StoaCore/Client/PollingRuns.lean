import StoaCore.Client.Polling

/-!
# PollingRuns — what the promises of a poll settle with

Every promise settles with what comes first: an item for its request, or the failure of the loop.
A request goes out for exactly those keys that nothing has been reported for, and once the loop has
ended no promise is open.
-/

namespace StoaCore
namespace Client

open Library Library.Js

/-! ## What a step is -/

section Steps

variable (interval : Int) (s : PollState)

/-- The steps of `pollStep`, one by one. -/
inductive PollStep : PollEvent → PollState × List Notice → Prop
  | tick (passed : Nat) : PollStep (.tick passed) ({ s with now := s.now + passed }, [])
  | abortRace {startTime : Nat} {timeout : Int} {rejectDue : Nat}
      (habort : s.aborted = false) (hphase : s.phase = .racing startTime timeout rejectDue) :
      PollStep .abort ({ s with aborted := true }.finish (some abortedError))
  | abortElse (habort : s.aborted = false)
      (hphase : ∀ startTime timeout rejectDue, s.phase ≠ .racing startTime timeout rejectDue) :
      PollStep .abort ({ s with aborted := true }, [])
  | fireReject {startTime : Nat} {timeout : Int} {rejectDue : Nat}
      (hphase : s.phase = .racing startTime timeout rejectDue) (hdue : rejectDue ≤ s.now)
      (htask : s.task.isFinished = false) :
      PollStep .fireReject (s.finish (some timeOutReject))
  | wakeTask {due : Nat} (htask : s.task = .sleeping due) (hdue : due ≤ s.now)
      (hfirst : s.phase.rejectsFirst due = false) : PollStep .wakeTask s.ask
  | respond (items : List CommandResult) (htask : s.task = .asking) :
      PollStep (.respond items) (s.answered items)
  | pollFails (error : Rejection) (htask : s.task = .asking) :
      PollStep (.pollFails error)
        ({ s with task := .finished (some error) }, [.onPollError error])
  | settleDone {startTime : Nat} {timeout : Int} {rejectDue : Nat}
      (htask : s.task = .finished none) (hphase : s.phase = .racing startTime timeout rejectDue) :
      PollStep .settleTask ({ s with task := .settled }.finish none)
  | settleFinal {startTime : Nat} {timeout : Int} {rejectDue : Nat} {error : Rejection}
      (failure : Rejection) (htask : s.task = .finished (some error))
      (hphase : s.phase = .racing startTime timeout rejectDue) :
      PollStep .settleTask ({ s with task := .settled }.finish (some failure))
  | settleRetry {startTime : Nat} {timeout : Int} {rejectDue : Nat} {error : Rejection}
      (htask : s.task = .finished (some error))
      (hphase : s.phase = .racing startTime timeout rejectDue) :
      PollStep .settleTask
        ({ s with
           task := .settled
           phase := .waiting startTime timeout (s.now + timerDelay interval) }, [])
  | settleLate {result : Option Rejection} (htask : s.task = .finished result)
      (hphase : ∀ startTime timeout rejectDue, s.phase ≠ .racing startTime timeout rejectDue) :
      PollStep .settleTask ({ s with task := .settled }, [])
  | wakeAborted {startTime : Nat} {timeout : Int} {due : Nat}
      (hphase : s.phase = .waiting startTime timeout due) (hdue : due ≤ s.now)
      (habort : s.aborted = true) :
      PollStep .wakeLoop ({ s with task := .sleeping (s.now + 1) }.finish (some abortedError))
  | wakeRace {startTime : Nat} {timeout : Int} {due : Nat}
      (hphase : s.phase = .waiting startTime timeout due) (hdue : due ≤ s.now)
      (habort : s.aborted = false) :
      PollStep .wakeLoop
        ({ s with
           task := .sleeping (s.now + 1)
           phase := .racing s.now (timeout - ((s.now : Int) - startTime))
             (s.now + timerDelay (timeout - ((s.now : Int) - startTime))) }, [])

variable {interval s} {e : PollEvent} {r : PollState × List Notice}

theorem pollStep_cases (h : pollStep interval s e = some r) : PollStep interval s e r := by
  cases e with
  | tick passed =>
      cases h
      exact .tick passed
  | abort =>
      simp only [pollStep] at h
      split at h
      case isTrue => cases h
      case isFalse habort =>
        have habort : s.aborted = false := by simpa using habort
        split at h
        case h_1 hphase =>
          cases h
          exact .abortRace habort hphase
        case h_2 hphase =>
          cases h
          exact .abortElse habort hphase
  | fireReject =>
      simp only [pollStep] at h
      split at h
      case h_1 hphase =>
        split at h
        case isTrue hfire =>
          cases h
          exact .fireReject hphase hfire.1 hfire.2
        case isFalse => cases h
      case h_2 => cases h
  | wakeTask =>
      simp only [pollStep] at h
      split at h
      case h_1 htask =>
        split at h
        case isTrue hwake =>
          cases h
          exact .wakeTask htask hwake.1 hwake.2
        case isFalse => cases h
      case h_2 => cases h
  | respond items =>
      simp only [pollStep] at h
      split at h
      case h_1 htask =>
        cases h
        exact .respond items htask
      case h_2 => cases h
  | pollFails error =>
      simp only [pollStep] at h
      split at h
      case h_1 htask =>
        cases h
        exact .pollFails error htask
      case h_2 => cases h
  | settleTask =>
      simp only [pollStep] at h
      split at h
      case h_1 result htask =>
        split at h
        case h_1 hphase =>
          cases h
          exact .settleDone htask hphase
        case h_2 startTime timeout rejectDue error hphase =>
          -- What `catch` does with the error: it ends the loop or goes on.
          simp only [PollState.caught] at h
          split at h
          · cases h
            exact .settleFinal _ htask hphase
          · split at h
            · cases h
              exact .settleFinal _ htask hphase
            · cases h
              exact .settleRetry htask hphase
        case h_3 hnone hsome =>
          rename_i result _ _
          cases h
          refine .settleLate htask fun startTime timeout rejectDue hphase => ?_
          cases result with
          | none => exact hnone _ _ _ hphase rfl
          | some error => exact hsome _ _ _ _ hphase rfl
      case h_2 => cases h
  | wakeLoop =>
      simp only [pollStep] at h
      split at h
      case h_1 hphase =>
        split at h
        case isTrue hdue =>
          simp only [PollState.runTask] at h
          split at h
          case isTrue habort =>
            cases h
            exact .wakeAborted hphase hdue habort
          case isFalse habort =>
            cases h
            exact .wakeRace hphase hdue (by simpa using habort)
        case isFalse => cases h
      case h_2 => cases h

end Steps

/-! ## What has been noticed -/

/-- The promise of a request. -/
def PollState.promiseOf (s : PollState) (key : JsString) : Settlement CommandResult :=
  (s.prs.lookup key).bind Deferred.promise

namespace Notice

/-- What a notice would settle the promise of a request with. -/
def settles (key : JsString) : Notice → Settlement CommandResult
  | .onResult requestKey item => if requestKey = key then some (.ok item) else none
  | .settled (some err) => some (.error err)
  | _ => none

def report? : Notice → Option JsString
  | .onResult requestKey _ => some requestKey
  | _ => none

def ending? : Notice → Option (Option Rejection)
  | .settled failure => some failure
  | _ => none

/-- Neither a result nor an end. -/
def isQuiet : Notice → Bool
  | .onResult _ _ => false
  | .settled _ => false
  | _ => true

end Notice

/-- What comes first for a request: an item, or the failure of the loop. -/
def firstFor (key : JsString) (notices : List Notice) : Settlement CommandResult :=
  notices.findSome? (Notice.settles key)

/-- The requests for which something has been reported. -/
def reported (notices : List Notice) : List JsString :=
  notices.filterMap Notice.report?

/-- How the loop has ended, if it has. -/
def endings (notices : List Notice) : List (Option Rejection) :=
  notices.filterMap Notice.ending?

def PollPhase.endings : PollPhase → List (Option Rejection)
  | .ended failure => [failure]
  | _ => []

section Quiet

variable {notices : List Notice} (h : ∀ n ∈ notices, n.isQuiet = true)

include h

theorem firstFor_of_quiet (key : JsString) : firstFor key notices = none := by
  rw [firstFor, List.findSome?_eq_none_iff]
  intro n hn
  have hquiet := h n hn
  cases n with
  | onResult _ _ => cases hquiet
  | settled _ => cases hquiet
  | _ => rfl

theorem reported_of_quiet : reported notices = [] := by
  rw [reported, List.filterMap_eq_nil_iff]
  intro n hn
  have hquiet := h n hn
  cases n with
  | onResult _ _ => cases hquiet
  | _ => rfl

theorem endings_of_quiet : endings notices = [] := by
  rw [endings, List.filterMap_eq_nil_iff]
  intro n hn
  have hquiet := h n hn
  cases n with
  | settled _ => cases hquiet
  | _ => rfl

end Quiet

/-! ## What a stretch of a run does -/

/-- The flag of a deferred promise says whether it has settled. -/
def Flagged (prs : Record (Deferred CommandResult)) : Prop :=
  ∀ key pr, prs.lookup key = some pr → pr.fulfilled = pr.promise.isSome

/-- From `s` to `t`, with these notices. -/
structure Moves (s : PollState) (notices : List Notice) (t : PollState) : Prop where
  names : t.prs.map Prod.fst = s.prs.map Prod.fst
  flagged : Flagged t.prs
  promise : ∀ key ∈ s.prs.map Prod.fst,
    t.promiseOf key = (s.promiseOf key).or (firstFor key notices)
  requestKeys : t.requestKeys = s.requestKeys.filter fun key => decide (key ∉ reported notices)
  endings : t.phase.endings = s.phase.endings ++ endings notices

section Moves

variable {s t u : PollState} {notices notices' : List Notice}

theorem Moves.trans (h : Moves s notices t) (h' : Moves t notices' u) :
    Moves s (notices ++ notices') u where
  names := h'.names.trans h.names
  flagged := h'.flagged
  promise := by
    intro key hkey
    have hkey' : key ∈ t.prs.map Prod.fst := h.names ▸ hkey
    rw [h'.promise key hkey', h.promise key hkey, firstFor, firstFor, firstFor,
      List.findSome?_append, Option.or_assoc]
  requestKeys := by
    rw [h'.requestKeys, h.requestKeys, List.filter_filter]
    refine List.filter_congr fun key _ => ?_
    simp only [reported, List.filterMap_append, List.mem_append, not_or, Bool.decide_and]
    exact Bool.and_comm _ _
  endings := by
    rw [h'.endings, h.endings, Client.endings, Client.endings, Client.endings,
      List.filterMap_append, List.append_assoc]

/-- What leaves the promises alone, and notices neither a result nor an end. -/
theorem moves_of_quiet (hflagged : Flagged s.prs) (hquiet : ∀ n ∈ notices, n.isQuiet = true)
    (hprs : t.prs = s.prs) (hkeys : t.requestKeys = s.requestKeys)
    (hphase : t.phase.endings = s.phase.endings) : Moves s notices t where
  names := by rw [hprs]
  flagged := hprs ▸ hflagged
  promise := by
    intro key _
    rw [firstFor_of_quiet hquiet, Option.or_none, PollState.promiseOf, hprs, PollState.promiseOf]
  requestKeys := by
    rw [reported_of_quiet hquiet, hkeys]
    simp
  endings := by rw [hphase, endings_of_quiet hquiet, List.append_nil]

/-- One item, delivered. -/
theorem moves_item (hflagged : Flagged s.prs) (item : CommandResult)
    {pr : Deferred CommandResult} (hpr : s.prs.lookup item.reqKey = some pr) :
    Moves s [.onResult item.reqKey item]
      { s with
        prs := s.prs.assign item.reqKey (pr.resolve item)
        requestKeys := s.requestKeys.filter (· ≠ item.reqKey) } where
  names := by
    rw [Record.assign, if_pos (Record.mem_keys_of_lookup hpr), Record.keys_overwrite]
  flagged := by
    intro key pr' hpr'
    rw [Record.lookup_assign] at hpr'
    split at hpr'
    · cases hpr'
      simp [Deferred.resolve]
    · exact hflagged key pr' hpr'
  promise := by
    intro key _
    simp only [PollState.promiseOf, Record.lookup_assign, firstFor, List.findSome?_cons,
      Notice.settles, List.findSome?_nil]
    by_cases hkey : key = item.reqKey
    · subst hkey
      simp [hpr, Deferred.resolve]
    · simp [hkey, Ne.symm hkey]
  requestKeys := by
    refine List.filter_congr fun key _ => ?_
    simp [reported, Notice.report?]
  endings := (List.append_nil _).symm

theorem moves_deliver (hflagged : Flagged s.prs) (items : List CommandResult) :
    Moves s (s.deliver items).2.1 (s.deliver items).1 := by
  induction items generalizing s with
  | nil => exact moves_of_quiet hflagged (by simp [PollState.deliver]) rfl rfl rfl
  | cons item rest ih =>
      rw [PollState.deliver]
      split
      case h_1 => exact moves_of_quiet hflagged (by simp) rfl rfl rfl
      case h_2 pr hpr =>
        have hitem := moves_item hflagged item hpr
        exact hitem.trans (ih hitem.flagged)

theorem moves_answered (hflagged : Flagged s.prs) (items : List CommandResult) :
    Moves s (s.answered items).2 (s.answered items).1 := by
  have hdeliver := moves_deliver hflagged items
  unfold PollState.answered
  rcases hresult : s.deliver items with ⟨t, notices, failure⟩
  rw [hresult] at hdeliver
  cases failure with
  | some error =>
      exact hdeliver.trans (moves_of_quiet hdeliver.flagged (by simp [Notice.isQuiet]) rfl rfl rfl)
  | none =>
      have hrest : Moves t [] { t with
          task := .finished (if t.requestKeys.isEmpty then none else some notCompleted) } :=
        moves_of_quiet hdeliver.flagged (by simp) rfl rfl rfl
      simpa using hdeliver.trans hrest

/-- The loop ends. -/
theorem moves_finish (hflagged : Flagged s.prs) (hopen : s.phase.endings = [])
    (failure : Option Rejection) : Moves s (s.finish failure).2 (s.finish failure).1 := by
  cases failure with
  | none =>
      refine ⟨rfl, hflagged, ?_, ?_, ?_⟩
      · intro key _
        simp [PollState.finish, PollState.promiseOf, firstFor, Notice.settles]
      · simp [PollState.finish, reported, Notice.report?]
      · rw [hopen]
        rfl
  | some err =>
      have hlookup : ∀ key, (s.finish (some err)).1.prs.lookup key =
          (s.prs.lookup key).map fun pr => if pr.fulfilled then pr else pr.reject err :=
        fun key => Record.lookup_mapValues fun pr : Deferred CommandResult =>
          if pr.fulfilled then pr else pr.reject err
      refine ⟨by simp [PollState.finish], ?_, ?_, ?_, ?_⟩
      · intro key pr hpr
        rw [hlookup, Option.map_eq_some_iff] at hpr
        rcases hpr with ⟨pr', hpr', rfl⟩
        split
        case isTrue => exact hflagged key pr' hpr'
        case isFalse => simp [Deferred.reject]
      · intro key hkey
        rcases hpr : s.prs.lookup key with _ | pr
        · exact absurd hkey (Record.lookup_eq_none_iff.1 hpr)
        -- The flag is set where the promise has settled, and then neither changes it.
        have hflag := hflagged key pr hpr
        rw [PollState.promiseOf, hlookup, PollState.promiseOf, hpr]
        cases hpromise : pr.promise with
        | none =>
            simp [hflag, hpromise, Deferred.reject, PollState.finish, firstFor, Notice.settles]
        | some outcome => simp [hflag, hpromise]
      · simp [PollState.finish, reported, Notice.report?]
      · rw [hopen]
        rfl

/-- The loop ends after a change that the promises do not see. -/
theorem moves_finish_of (hquiet : Moves s [] t) (hopen : t.phase.endings = [])
    (failure : Option Rejection) : Moves s (t.finish failure).2 (t.finish failure).1 :=
  hquiet.trans (moves_finish hquiet.flagged hopen failure)

theorem endings_of_racing {startTime : Nat} {timeout : Int} {rejectDue : Nat}
    (h : s.phase = .racing startTime timeout rejectDue) : s.phase.endings = [] := by
  rw [h]
  rfl

theorem endings_of_waiting {startTime : Nat} {timeout : Int} {due : Nat}
    (h : s.phase = .waiting startTime timeout due) : s.phase.endings = [] := by
  rw [h]
  rfl

theorem moves_of_step {interval : Int} {e : PollEvent} {r : PollState × List Notice}
    (hflagged : Flagged s.prs) (h : PollStep interval s e r) : Moves s r.2 r.1 := by
  cases h with
  | tick passed => exact moves_of_quiet hflagged (by simp) rfl rfl rfl
  | abortRace habort hphase =>
      have hquiet : Moves s [] { s with aborted := true } :=
        moves_of_quiet hflagged (by simp) rfl rfl rfl
      exact moves_finish_of hquiet (endings_of_racing hphase) _
  | abortElse habort hphase => exact moves_of_quiet hflagged (by simp) rfl rfl rfl
  | fireReject hphase hdue htask => exact moves_finish hflagged (endings_of_racing hphase) _
  | wakeTask htask hdue hfirst =>
      have hquiet : ∀ n ∈ s.ask.2, n.isQuiet = true := by
        intro n hn
        simp only [PollState.ask, List.mem_append, List.mem_map, List.mem_singleton] at hn
        rcases hn with ⟨_, _, rfl⟩ | rfl
        · rfl
        · rfl
      exact moves_of_quiet hflagged hquiet rfl rfl rfl
  | respond items htask => exact moves_answered hflagged items
  | pollFails error htask =>
      exact moves_of_quiet hflagged (by simp [Notice.isQuiet]) rfl rfl rfl
  | settleDone htask hphase =>
      have hquiet : Moves s [] { s with task := .settled } :=
        moves_of_quiet hflagged (by simp) rfl rfl rfl
      exact moves_finish_of hquiet (endings_of_racing hphase) _
  | settleFinal failure htask hphase =>
      have hquiet : Moves s [] { s with task := .settled } :=
        moves_of_quiet hflagged (by simp) rfl rfl rfl
      exact moves_finish_of hquiet (endings_of_racing hphase) _
  | settleRetry htask hphase =>
      exact moves_of_quiet hflagged (by simp) rfl rfl (endings_of_racing hphase).symm
  | settleLate htask hphase => exact moves_of_quiet hflagged (by simp) rfl rfl rfl
  | wakeAborted hphase hdue habort =>
      have hquiet : Moves s [] { s with task := .sleeping (s.now + 1) } :=
        moves_of_quiet hflagged (by simp) rfl rfl rfl
      exact moves_finish_of hquiet (endings_of_waiting hphase) _
  | wakeRace hphase hdue habort =>
      exact moves_of_quiet hflagged (by simp) rfl rfl (endings_of_waiting hphase).symm

end Moves

/-! ## Whole runs -/

/-- A trace of the loop. -/
abbrev PollTrace := List (Transition.Record PollState PollEvent (List Notice))

/-- What the steps of a trace have noticed. -/
def noticesOf (trace : PollTrace) : List Notice :=
  trace.flatMap Transition.Record.out

section Runs

variable {c : PollCall} {s t : PollState} {trace : PollTrace}

theorem moves_of_run (hrun : Transition.Run (pollSystem c) s trace t) (hflagged : Flagged s.prs) :
    Moves s (noticesOf trace) t := by
  induction hrun with
  | nil s => exact moves_of_quiet hflagged (by simp [noticesOf]) rfl rfl rfl
  | @cons r rest t hvalid _ ih =>
      have hstep : Moves r.pre r.out r.post := moves_of_step hflagged (pollStep_cases hvalid)
      simpa only [noticesOf, List.flatMap_cons] using hstep.trans (ih hstep.flagged)

end Runs

/-! ## How the loop ends -/

/-- The loop ends well only when nothing is left to ask for, and otherwise it settles what is
open. -/
structure Settling (s : PollState) : Prop where
  done : s.task = .finished none → s.requestKeys = []
  completed : s.phase = .ended none → s.requestKeys = []
  failed : ∀ err, s.phase = .ended (some err) →
    ∀ key ∈ s.prs.map Prod.fst, (s.promiseOf key).isSome = true

section Settling

variable {s t : PollState} {notices : List Notice}

/-- A stretch in which the loop neither ends nor begins to complete. -/
theorem Settling.move (h : Settling s) (hmoves : Moves s notices t)
    (hdone : t.task = .finished none → t.requestKeys = [])
    (hphase : ∀ failure, t.phase = .ended failure → s.phase = .ended failure) : Settling t where
  done := hdone
  completed := by
    intro hended
    rw [hmoves.requestKeys, h.completed (hphase none hended), List.filter_nil]
  failed := by
    intro err hended key hkey
    have hkey : key ∈ s.prs.map Prod.fst := hmoves.names ▸ hkey
    rw [hmoves.promise key hkey, Option.isSome_or, h.failed err (hphase _ hended) key hkey,
      Bool.true_or]

theorem Settling.finish_none (h : s.requestKeys = []) : Settling (s.finish none).1 where
  done := fun _ => h
  completed := fun _ => h
  failed := by
    intro err hended
    cases hended

theorem Settling.finish_some (hflagged : Flagged s.prs) (hopen : s.phase.endings = [])
    (hdone : s.task = .finished none → s.requestKeys = []) (err : Rejection) :
    Settling (s.finish (some err)).1 where
  done := hdone
  completed := by
    intro hended
    cases hended
  failed := by
    intro _ _ key hkey
    have hmoves := moves_finish hflagged hopen (some err)
    rw [hmoves.promise key (hmoves.names ▸ hkey), Option.isSome_or]
    simp [PollState.finish, firstFor, Notice.settles]

theorem answered_done (items : List CommandResult)
    (h : (s.answered items).1.task = .finished none) : (s.answered items).1.requestKeys = [] := by
  unfold PollState.answered at h ⊢
  rcases hresult : s.deliver items with ⟨t, notices, failure⟩
  rw [hresult] at h
  cases failure with
  | some error => cases h
  | none =>
      by_cases hempty : t.requestKeys.isEmpty
      · simpa using hempty
      · simp [hempty] at h

/-- Delivering items touches nothing but the promises and the keys that are left. -/
theorem deliver_frame (items : List CommandResult) :
    (s.deliver items).1.phase = s.phase ∧ (s.deliver items).1.now = s.now ∧
      (s.deliver items).1.aborted = s.aborted := by
  induction items generalizing s with
  | nil => exact ⟨rfl, rfl, rfl⟩
  | cons item rest ih =>
      rw [PollState.deliver]
      split
      case h_1 => exact ⟨rfl, rfl, rfl⟩
      case h_2 => exact ih

/-- After the answer the task is about to settle. -/
theorem answered_frame (items : List CommandResult) :
    (s.answered items).1.phase = s.phase ∧ (s.answered items).1.now = s.now ∧
      (s.answered items).1.aborted = s.aborted ∧
        ∃ failure, (s.answered items).1.task = .finished failure := by
  have hdeliver := @deliver_frame s items
  unfold PollState.answered
  rcases hresult : s.deliver items with ⟨t, notices, failure⟩
  rw [hresult] at hdeliver
  rcases hdeliver with ⟨hphase, hnow, haborted⟩
  cases failure with
  | some error => exact ⟨hphase, hnow, haborted, _, rfl⟩
  | none => exact ⟨hphase, hnow, haborted, _, rfl⟩

theorem settling_of_step {interval : Int} {e : PollEvent} {r : PollState × List Notice}
    (hflagged : Flagged s.prs) (h : Settling s) (hstep : PollStep interval s e r) :
    Settling r.1 := by
  have hmoves := moves_of_step hflagged hstep
  cases hstep with
  | tick passed => exact h.move hmoves h.done fun _ => id
  | abortRace habort hphase =>
      exact @Settling.finish_some { s with aborted := true } hflagged (endings_of_racing hphase)
        h.done _
  | abortElse habort hphase => exact h.move hmoves h.done fun _ => id
  | fireReject hphase hdue htask =>
      exact Settling.finish_some hflagged (endings_of_racing hphase) h.done _
  | wakeTask htask hdue hfirst => exact h.move hmoves (fun hdone => by cases hdone) fun _ => id
  | respond items htask =>
      exact h.move hmoves (answered_done items) fun _ => by
        rw [(answered_frame items).1]
        exact id
  | pollFails error htask => exact h.move hmoves (fun hdone => by cases hdone) fun _ => id
  | settleDone htask hphase => exact Settling.finish_none (h.done htask)
  | settleFinal failure htask hphase =>
      exact @Settling.finish_some { s with task := .settled } hflagged (endings_of_racing hphase)
        (fun hdone => by cases hdone) _
  | settleRetry htask hphase =>
      exact h.move hmoves (fun hdone => by cases hdone) fun _ hended => by cases hended
  | settleLate htask hphase => exact h.move hmoves (fun hdone => by cases hdone) fun _ => id
  | wakeAborted hphase hdue habort =>
      exact @Settling.finish_some { s with task := .sleeping (s.now + 1) } hflagged
        (endings_of_waiting hphase) (fun hdone => by cases hdone) _
  | wakeRace hphase hdue habort =>
      exact h.move hmoves (fun hdone => by cases hdone) fun _ hended => by cases hended

end Settling

/-! ## From the call on -/

namespace PollCall

variable (c : PollCall)

/-- What has been noticed since the call. -/
def history (trace : PollTrace) : List Notice :=
  c.pollStatus.2 ++ noticesOf trace

/-- The call goes on as an attempt that has waited for no time. -/
theorem step_opened (interval : Int) :
    pollStep interval c.opened .wakeLoop = some c.pollStatus := by
  simp [pollStep, opened, pollStatus]

theorem prs_opened :
    c.opened.prs = Record.spread [] (c.requestIds.map fun key => (key, getPromise)) := by
  rw [Record.spread, List.foldl_map]
  rfl

theorem mem_names_opened (key : JsString) :
    key ∈ c.opened.prs.map Prod.fst ↔ key ∈ c.requestIds := by
  rw [prs_opened, Record.mem_keys_spread, List.map_map]
  simp

/-- A promise that has just been made is open. -/
theorem lookup_opened {key : JsString} {pr : Deferred CommandResult}
    (h : c.opened.prs.lookup key = some pr) : pr = getPromise := by
  rw [prs_opened, Record.lookup_spread, List.lookup_nil, Option.or_none, ← List.map_reverse] at h
  rcases List.lookup_eq_some_iff.1 h with ⟨front, back, hsplit, _⟩
  have hmem : (key, pr) ∈ c.requestIds.reverse.map fun key => (key, getPromise) := by
    rw [hsplit]
    simp
  rcases List.mem_map.1 hmem with ⟨_, _, hpr⟩
  exact (congrArg Prod.snd hpr).symm

theorem promiseOf_opened (key : JsString) : c.opened.promiseOf key = none := by
  rw [PollState.promiseOf]
  cases h : c.opened.prs.lookup key with
  | none => rfl
  | some pr =>
      rw [c.lookup_opened h]
      rfl

theorem flagged_opened : Flagged c.opened.prs := by
  intro key pr h
  rw [c.lookup_opened h]
  rfl

theorem settling_opened : Settling c.opened where
  done := by
    intro hdone
    cases hdone
  completed := by
    intro hended
    cases hended
  failed := by
    intro err hended
    cases hended

end PollCall

/-- A run of the loop from the call on. -/
abbrev PollRun (c : PollCall) (trace : PollTrace) (s : PollState) : Prop :=
  Transition.Run (pollSystem c) c.pollStatus.1 trace s

namespace PollRun

variable {c : PollCall} {s : PollState} {trace : PollTrace}

/-- The same run, with the call as its first step. -/
theorem whole (hrun : PollRun c trace s) :
    Transition.Run (pollSystem c) c.opened
      (⟨c.opened, .wakeLoop, c.pollStatus.2, c.pollStatus.1⟩ :: trace) s :=
  have hvalid : Transition.Record.Valid (pollSystem c)
      ⟨c.opened, .wakeLoop, c.pollStatus.2, c.pollStatus.1⟩ := c.step_opened c.pause
  .cons hvalid hrun

theorem moves (hrun : PollRun c trace s) : Moves c.opened (c.history trace) s :=
  moves_of_run hrun.whole c.flagged_opened

theorem settling (hrun : PollRun c trace s) : Settling s := by
  have hkeeps : ∀ r : Transition.Record PollState PollEvent (List Notice),
      r.Valid (pollSystem c) →
      Flagged r.pre.prs ∧ Settling r.pre → Flagged r.post.prs ∧ Settling r.post := by
    intro r hvalid hpre
    have hstep : PollStep c.pause r.pre r.event (r.post, r.out) := pollStep_cases hvalid
    exact ⟨(moves_of_step hpre.1 hstep).flagged, settling_of_step hpre.1 hpre.2 hstep⟩
  have hinv := hrun.whole.invariant_of_forall (fun s => Flagged s.prs ∧ Settling s) hkeeps
    ⟨c.flagged_opened, c.settling_opened⟩
  exact hinv.1.2

/-- Every promise is what comes first for its request. -/
theorem promiseOf_eq (hrun : PollRun c trace s) {key : JsString} (hkey : key ∈ c.requestIds) :
    s.promiseOf key = firstFor key (c.history trace) := by
  have hmoves := hrun.moves
  rw [hmoves.promise key ((c.mem_names_opened key).2 hkey), c.promiseOf_opened, Option.none_or]

/-- Once the loop has ended no promise is open. -/
theorem isSome_promiseOf (hrun : PollRun c trace s) {failure : Option Rejection}
    (hended : s.phase = .ended failure) {key : JsString} (hkey : key ∈ c.requestIds) :
    (s.promiseOf key).isSome = true := by
  have hmoves := hrun.moves
  have hsettling := hrun.settling
  cases failure with
  | some err =>
      refine hsettling.failed err hended key ?_
      rw [hmoves.names, c.mem_names_opened]
      exact hkey
  | none =>
      -- Nothing is left to ask for, so something has been reported for the key.
      have hnil := hsettling.completed hended
      rw [hmoves.requestKeys, List.filter_eq_nil_iff] at hnil
      have hreported : key ∈ reported (c.history trace) := by
        simpa using hnil key hkey
      rcases List.mem_filterMap.1 hreported with ⟨n, hn, hreport⟩
      rw [hrun.promiseOf_eq hkey, firstFor, List.findSome?_isSome_iff]
      refine ⟨n, hn, ?_⟩
      cases n with
      | onResult requestKey item =>
          cases hreport
          simp [Notice.settles]
      | _ => cases hreport

end PollRun

/-! ## Requests -/

theorem poll_notMem_deliver (s : PollState) (items : List CommandResult) (keys : List JsString) :
    .poll keys ∉ (s.deliver items).2.1 := by
  induction items generalizing s with
  | nil => simp [PollState.deliver]
  | cons item rest ih =>
      rw [PollState.deliver]
      split
      case h_1 => simp
      case h_2 =>
        intro hmem
        rcases List.mem_cons.1 hmem with hpoll | hmem
        · cases hpoll
        · exact ih _ hmem

/-- A request goes out where the task wakes, for the keys that are left. -/
theorem poll_of_step {interval : Int} {s : PollState} {e : PollEvent}
    {r : PollState × List Notice} (h : PollStep interval s e r) {keys : List JsString}
    (hpoll : .poll keys ∈ r.2) : e = .wakeTask ∧ keys = s.requestKeys := by
  cases h with
  | wakeTask htask hdue hfirst =>
      simpa [PollState.ask] using hpoll
  | respond items htask =>
      exfalso
      have hdeliver := poll_notMem_deliver s items keys
      unfold PollState.answered at hpoll
      rcases hresult : s.deliver items with ⟨t, notices, failure⟩
      rw [hresult] at hpoll hdeliver
      cases failure with
      | some error => exact hdeliver (by simpa using hpoll)
      | none => exact hdeliver hpoll
  | tick passed => cases hpoll
  | abortElse habort hphase => cases hpoll
  | settleRetry htask hphase => cases hpoll
  | settleLate htask hphase => cases hpoll
  | wakeRace hphase hdue habort => cases hpoll
  | abortRace habort hphase => simp [PollState.finish] at hpoll
  | fireReject hphase hdue htask => simp [PollState.finish] at hpoll
  | pollFails error htask => simp at hpoll
  | settleDone htask hphase => simp [PollState.finish] at hpoll
  | settleFinal failure htask hphase => simp [PollState.finish] at hpoll
  | wakeAborted hphase hdue habort => simp [PollState.finish] at hpoll

/-! ## Two requests

The first is answered, the second is not before the time-out. -/

def twoRequests : PollCall where
  requestIds := [js "a", js "b"]
  timeout := some 10
  interval := some 5
  now := 0

def resultOf (key : String) : CommandResult where
  reqKey := js key
  content := .str (js "success")

def twoRequestsEvents : List PollEvent :=
  [.tick 1, .wakeTask, .tick 1, .respond [resultOf "a"], .settleTask, .tick 5, .wakeLoop, .tick 1,
    .wakeTask, .tick 2, .fireReject, .tick 1, .respond [resultOf "b"]]

def twoRequestsTrace : PollTrace :=
  (pollSystem twoRequests).trace twoRequests.pollStatus.1 twoRequestsEvents

def twoRequestsFinal : PollState :=
  (pollSystem twoRequests).final twoRequests.pollStatus.1 twoRequestsEvents

theorem twoRequests_run : PollRun twoRequests twoRequestsTrace twoRequestsFinal :=
  Transition.run_of_events twoRequestsEvents rfl

/-! ## The promises -/

/-- In every run each promise is what comes first for its request: an item, or the failure with
which the loop ends, which it does at most once.  Once it has ended no promise is open.  Every
request goes out for exactly the keys for which nothing has been reported before. -/
theorem polled_promises {c : PollCall} {trace : PollTrace} {s : PollState}
    (hrun : PollRun c trace s) :
    (∀ key ∈ c.requestIds, s.promiseOf key = firstFor key (c.history trace)) ∧
      endings (c.history trace) = s.phase.endings ∧
      (s.phase.endings ≠ [] → ∀ key ∈ c.requestIds, (s.promiseOf key).isSome = true) ∧
      ∀ front r back, trace = front ++ r :: back → ∀ keys, .poll keys ∈ r.out →
        keys = c.requestIds.filter fun key => decide (key ∉ reported (c.history front)) := by
  refine ⟨fun key hkey => hrun.promiseOf_eq hkey, ?_, ?_, ?_⟩
  · exact hrun.moves.endings.symm
  · intro hended key hkey
    cases hphase : s.phase with
    | ended failure => exact hrun.isSome_promiseOf hphase hkey
    | _ => exact absurd (by rw [hphase]; rfl) hended
  · intro front r back htrace keys hpoll
    have hbefore : PollRun c front r.pre := hrun.before htrace
    have hvalid := hrun.valid_of_mem r (by simp [htrace])
    have hstep : PollStep c.pause r.pre r.event (r.post, r.out) := pollStep_cases hvalid
    rw [(poll_of_step hstep hpoll).2, hbefore.moves.requestKeys]
    rfl

theorem polled_promises_twoRequests :
    twoRequestsFinal.promiseOf (js "a") = some (.ok (resultOf "a")) ∧
      twoRequestsFinal.promiseOf (js "b") = some (.error timeOutReject) := by
  have hpromises := (polled_promises twoRequests_run).1
  exact ⟨hpromises (js "a") (by decide), hpromises (js "b") (by decide)⟩

end Client
end StoaCore
