import StoaCore.Network.History

/-!
# ConfigErrors — what a rejected configuration leaves behind

`setNodeConfig` stops the retry loop before it checks its arguments.  A call that throws therefore
changes nothing exactly when the loop is not armed.  When it is armed the client is off its
primary, and after the throw nothing polls for the primary any more: the client is stranded on its
fallback until the next configuration call.
-/

namespace StoaCore
namespace Network

open Library.Transition

variable {α : Type} {parseUrl : String → Option Url}

/-! ## The call -/

theorem stopRetryLoop_of_disarmed {s : FailoverState} (h : s.retryTimer = none) :
    stopRetryLoop s = s := by
  simp [stopRetryLoop, h]

theorem stopRetryLoop_eq_self_iff (s : FailoverState) :
    stopRetryLoop s = s ↔ s.retryTimer = none := by
  constructor
  · intro h
    have htimer := stopRetryLoop_retryTimer s
    rwa [h] at htimer
  · exact stopRetryLoop_of_disarmed

@[simp] theorem stopRetryLoop_customGasLimit (s : FailoverState) :
    (stopRetryLoop s).customGasLimit = s.customGasLimit := by
  unfold stopRetryLoop
  split <;> rfl

/-- Whether the call throws, and with which message, depends on its arguments alone. -/
theorem setNodeConfig_throws_iff (s : FailoverState) (selected : NodeSelection)
    (customUrl : Option String) (limit : Option Rat) (e : TypeError) :
    (setNodeConfig parseUrl s selected customUrl limit).2 = .error e ↔
      selectHosts parseUrl selected customUrl = .error e := by
  unfold setNodeConfig
  cases hsel : selectHosts parseUrl selected customUrl with
  | error e' => simp
  | ok hosts => simp

/-! ## The step -/

theorem setNodeConfig_inv {r : Rec α} {selected : NodeSelection} {customUrl : Option String}
    {limit : Option Rat} (hvalid : r.Valid (failoverSystem parseUrl α))
    (hevent : r.event = .setNodeConfig selected customUrl limit) :
    r.post = { r.pre with
                mod := (setNodeConfig parseUrl r.pre.mod selected customUrl limit).1 } ∧
      r.out = match (setNodeConfig parseUrl r.pre.mod selected customUrl limit).2 with
        | .ok () => []
        | .error e => [.threw e] := by
  have hstep := step_of_valid hvalid hevent
  simp only [step] at hstep
  cases hset : setNodeConfig parseUrl r.pre.mod selected customUrl limit with
  | mk mod result =>
      rw [hset] at hstep
      cases result with
      | ok u =>
          simp only [Option.some.injEq, Prod.mk.injEq] at hstep
          exact ⟨hstep.1.symm, hstep.2.symm⟩
      | error e =>
          simp only [Option.some.injEq, Prod.mk.injEq] at hstep
          exact ⟨hstep.1.symm, hstep.2.symm⟩

/-- A configuration call that throws stops the retry loop and does nothing else. -/
theorem post_of_throw {r : Rec α} {selected : NodeSelection} {customUrl : Option String}
    {limit : Option Rat} (hvalid : r.Valid (failoverSystem parseUrl α))
    (hevent : r.event = .setNodeConfig selected customUrl limit) (hthrows : ¬ ReturnsNormally r) :
    r.post = { r.pre with mod := stopRetryLoop r.pre.mod } := by
  rcases setNodeConfig_inv hvalid hevent with ⟨hpost, hout⟩
  cases hres : (setNodeConfig parseUrl r.pre.mod selected customUrl limit).2 with
  | ok u =>
      rw [hres] at hout
      exact absurd (by simp [ReturnsNormally, hout]) hthrows
  | error e =>
      rw [hpost, setNodeConfig_error hres]

/-- In every run, a configuration call that throws keeps both hosts, the gas limit and the active
host, and it leaves the whole module state as it was if and only if the retry loop was not
armed. -/
theorem setNodeConfig_atomic_iff (parseUrl : String → Option Url) {s : Sys α}
    {trace : List (Rec α)} (hrun : Run (failoverSystem parseUrl α) Sys.load trace s) :
    ∀ r ∈ trace, ∀ selected customUrl limit,
      r.event = .setNodeConfig selected customUrl limit → ¬ ReturnsNormally r →
      (r.post.mod = r.pre.mod ↔ r.pre.mod.retryTimer = none) ∧
        r.post.mod.primaryHost = r.pre.mod.primaryHost ∧
        r.post.mod.fallbackHost = r.pre.mod.fallbackHost ∧
        r.post.mod.customGasLimit = r.pre.mod.customGasLimit ∧
        r.post.mod.currentHost = r.pre.mod.currentHost := by
  intro r hr selected customUrl limit hevent hthrows
  have hmod : r.post.mod = stopRetryLoop r.pre.mod := by
    rw [post_of_throw (hrun.valid_of_mem r hr) hevent hthrows]
  rw [hmod]
  exact ⟨stopRetryLoop_eq_self_iff r.pre.mod, by simp⟩

/-- A demotion, then a configuration that is rejected, then the same again. -/
def rejectedRun : List (Event Nat) :=
  [.startCall, .settleAttempt 0 (.error ⟨none, some "Failed to fetch"⟩),
    .setNodeConfig .custom none none, .setNodeConfig .custom (some "not a url") none]

def rejectedTrace : List (Rec Nat) :=
  (failoverSystem (fun _ => none) Nat).trace Sys.load rejectedRun

/-- The call with the rejected URL, which finds the loop disarmed by the call before it. -/
def rejectedRecord : Rec Nat :=
  rejectedTrace.get ⟨3, by decide⟩

theorem setNodeConfig_atomic_iff_rejectedRun :
    (rejectedRecord.post.mod = rejectedRecord.pre.mod ↔
        rejectedRecord.pre.mod.retryTimer = none) ∧
      rejectedRecord.post.mod.primaryHost = rejectedRecord.pre.mod.primaryHost ∧
      rejectedRecord.post.mod.fallbackHost = rejectedRecord.pre.mod.fallbackHost ∧
      rejectedRecord.post.mod.customGasLimit = rejectedRecord.pre.mod.customGasLimit ∧
      rejectedRecord.post.mod.currentHost = rejectedRecord.pre.mod.currentHost :=
  setNodeConfig_atomic_iff (fun _ => none) (run_of_events rejectedRun (by decide)) rejectedRecord
    (List.get_mem rejectedTrace _) .custom (some "not a url") none rfl (by decide)

/-- After the demotion the loop is armed, the call throws, and the loop is gone. -/
theorem rejectedRun_not_atomic :
    let sys := failoverSystem (fun _ => none) Nat
    let demoted := sys.final Sys.load (rejectedRun.take 2)
    Run sys Sys.load (sys.trace Sys.load (rejectedRun.take 2)) demoted ∧
      (setNodeConfig (fun _ => none) demoted.mod .custom none none).2 =
        .error ⟨"setNodeConfig: customUrl is required when selected === 'custom'"⟩ ∧
      demoted.mod.retryTimer = some 0 ∧
      (setNodeConfig (fun _ => none) demoted.mod .custom none none).1.retryTimer = none ∧
      ¬ (∀ s : Sys Nat, (∃ trace, Run sys Sys.load trace s) →
        ∀ selected customUrl limit e,
          (setNodeConfig (fun _ => none) s.mod selected customUrl limit).2 = .error e →
          (setNodeConfig (fun _ => none) s.mod selected customUrl limit).1 = s.mod) := by
  intro sys demoted
  have hrun : Run sys Sys.load (sys.trace Sys.load (rejectedRun.take 2)) demoted :=
    run_of_events (rejectedRun.take 2) (by decide)
  refine ⟨hrun, by decide, by decide, by decide, ?_⟩
  intro hatomic
  have hsame := hatomic _ ⟨_, hrun⟩ .custom none none _ rfl
  exact absurd hsame (by decide)

/-! ## The state after the throw -/

/-- A throwing call keeps the state invariant exactly when it finds the loop disarmed. -/
theorem stateInvariant_throw_iff {r : Rec α} {selected : NodeSelection}
    {customUrl : Option String} {limit : Option Rat}
    (hvalid : r.Valid (failoverSystem parseUrl α))
    (hevent : r.event = .setNodeConfig selected customUrl limit) (hthrows : ¬ ReturnsNormally r)
    (h : StateInvariant r.pre.mod) :
    StateInvariant r.post.mod ↔ r.pre.mod.retryTimer = none := by
  have hmod : r.post.mod = stopRetryLoop r.pre.mod := by
    rw [post_of_throw hvalid hevent hthrows]
  rw [hmod]
  constructor
  · intro hpost
    -- A disarmed loop means, by the invariant after the call, that the client is on its primary.
    have hon : r.pre.mod.currentHost = r.pre.mod.primaryHost := by
      have harmed := hpost.armed
      simp only [stopRetryLoop_retryTimer, stopRetryLoop_currentHost,
        stopRetryLoop_primaryHost] at harmed
      by_contra hoff
      exact absurd (harmed.2 hoff) (by simp)
    by_contra htimer
    exact h.armed.1 (Option.isSome_iff_ne_none.2 htimer) hon
  · intro htimer
    rwa [stopRetryLoop_of_disarmed htimer]

/-- The client is on its fallback, which is not its primary, no interval is live and no probe of
the retry loop is pending. -/
structure Stranded (s : Sys α) : Prop where
  current : s.mod.currentHost = s.mod.fallbackHost
  off : s.mod.currentHost ≠ s.mod.primaryHost
  intervals : s.mod.liveIntervals = []
  probes : ∀ p ∈ s.probes, p.origin = .retryLoop → p.settled = true

/-- A call that throws while the loop is armed, with no probe of the loop in flight, strands the
client. -/
theorem stranded_of_throw {r : Rec α} {selected : NodeSelection} {customUrl : Option String}
    {limit : Option Rat} (hvalid : r.Valid (failoverSystem parseUrl α))
    (hevent : r.event = .setNodeConfig selected customUrl limit) (hthrows : ¬ ReturnsNormally r)
    (h : StateInvariant r.pre.mod) (harmed : r.pre.mod.retryTimer.isSome = true)
    (hprobes : ∀ p ∈ r.pre.probes, p.origin = .retryLoop → p.settled = true) :
    Stranded r.post := by
  rw [post_of_throw hvalid hevent hthrows]
  have hoff := h.armed.1 harmed
  refine ⟨?_, ?_, stopRetryLoop_liveIntervals h.intervals, hprobes⟩
  · simpa using h.host.resolve_left hoff
  · simpa using hoff

theorem probes_of_startInit {r : Rec α} (hvalid : r.Valid (failoverSystem parseUrl α))
    (hevent : r.event = .startInit) :
    r.post.probes = r.pre.probes ++ [⟨.initNodeFailover, r.pre.mod.primaryHost, false⟩] := by
  have hstep := step_of_valid hvalid hevent
  simp only [step, Option.some.injEq, Prod.mk.injEq] at hstep
  exact (congrArg Sys.probes hstep.1).symm

theorem not_tick_of_stranded {r : Rec α} (hvalid : r.Valid (failoverSystem parseUrl α))
    (h : Stranded r.pre) (timer : TimerId) : r.event ≠ .tick timer := by
  intro hevent
  have hstep := step_of_valid hvalid hevent
  simp [step, h.intervals] at hstep

/-- No step but a configuration call changes the module state of a stranded client. -/
theorem mod_of_stranded {r : Rec α} (hvalid : r.Valid (failoverSystem parseUrl α))
    (hconf : ¬ r.event.IsConfiguration) (h : Stranded r.pre) : r.post.mod = r.pre.mod := by
  cases modStep_of_valid hvalid with
  | unchanged _ hmod => exact hmod
  | failure url _ hmod =>
      rw [hmod]
      exact switchToFallback_of_current _ h.current
  | recovery host hreport =>
      -- A recovery is the verdict of a pending probe of the loop, and there is none.
      cases hevent : r.event with
      | settleProbe id outcome =>
          rcases settleProbe_inv hvalid hevent with ⟨p, hp, hsettled, -, -⟩
          rcases p with ⟨origin, target, settled⟩
          cases origin with
          | retryLoop =>
              have hdone := h.probes _ (List.mem_of_getElem? hp) rfl
              rw [hsettled] at hdone
              cases hdone
          | initNodeFailover => simp [hevent, recoveryReport, hp] at hreport
      | _ => simp [hevent, recoveryReport] at hreport
  | configured selected customUrl limit hevent => simp [hevent, Event.IsConfiguration] at hconf
  | reset hevent => simp [hevent, Event.IsConfiguration] at hconf

theorem stranded_step (r : Rec α) (hvalid : r.Valid (failoverSystem parseUrl α))
    (hconf : ¬ r.event.IsConfiguration) (h : Stranded r.pre) : Stranded r.post := by
  have hmod := mod_of_stranded hvalid hconf h
  refine ⟨by rw [hmod]; exact h.current, by rw [hmod]; exact h.off,
    by rw [hmod]; exact h.intervals, ?_⟩
  intro p hp horigin
  rcases probes_of_valid hvalid with
    ⟨⟨timer, hevent⟩ | hevent, -⟩ | ⟨id, outcome, p₀, hp₀, -, hprobes⟩ | ⟨-, hprobes⟩
  · exact absurd hevent (not_tick_of_stranded hvalid h timer)
  · rw [probes_of_startInit hvalid hevent] at hp
    rcases List.mem_append.1 hp with hp | hp
    · exact h.probes p hp horigin
    · rw [List.mem_singleton.1 hp] at horigin
      cases horigin
  · rw [hprobes] at hp
    rcases List.mem_or_eq_of_mem_set hp with hp | rfl
    · exact h.probes p hp horigin
    · rfl
  · rw [hprobes] at hp
    exact h.probes p hp horigin

/-- A stranded client stays on its fallback, with no interval live, until the next configuration
call. -/
theorem stranded_run {s t : Sys α} {trace : List (Rec α)}
    (hrun : Run (failoverSystem parseUrl α) s trace t)
    (hconf : ∀ r ∈ trace, ¬ r.event.IsConfiguration) (h : Stranded s) :
    Stranded t ∧ ∀ r ∈ trace, r.post.mod = r.pre.mod := by
  have hinv := hrun.invariant Stranded (fun r => ¬ r.event.IsConfiguration) stranded_step hconf h
  refine ⟨hinv.1, ?_⟩
  intro r hr
  exact mod_of_stranded (hrun.valid_of_mem r hr) (hconf r hr) (hinv.2 r hr).1

end Network
end StoaCore
