import StoaCore.Network.FailoverSystem

/-!
# FailoverInvariant — the state invariant of the failover client

The client is on one of its two hosts, its only live interval is the one it keeps in `retryTimer`,
and the retry loop is armed exactly while it is off its primary.  Each operation keeps the
invariant, hence every run without a throwing `setNodeConfig` does.
-/

namespace StoaCore
namespace Network

open Library.Transition

variable {α : Type}

/-! ## The active host is always one of the two -/

/-- The active host is the primary or the fallback.  Throwing configuration calls keep this too. -/
def OnKnownHost (s : FailoverState) : Prop :=
  s.currentHost = s.primaryHost ∨ s.currentHost = s.fallbackHost

theorem onKnownHost_switchToFallback (s : FailoverState) : OnKnownHost (switchToFallback s) :=
  Or.inr (by simp)

theorem onKnownHost_switchToPrimary (s : FailoverState) : OnKnownHost (switchToPrimary s) :=
  Or.inl (by simp)

theorem setNodeConfig_error {parseUrl : String → Option Url} {s : FailoverState}
    {selected : NodeSelection} {customUrl : Option String} {limit : Option Rat} {e : TypeError}
    (h : (setNodeConfig parseUrl s selected customUrl limit).2 = .error e) :
    (setNodeConfig parseUrl s selected customUrl limit).1 = stopRetryLoop s := by
  unfold setNodeConfig at h ⊢
  cases hsel : selectHosts parseUrl selected customUrl with
  | error e' => simp
  | ok hosts =>
      rcases hosts with ⟨primary, fallback⟩
      simp [hsel] at h

theorem setNodeConfig_ok {parseUrl : String → Option Url} {s : FailoverState}
    {selected : NodeSelection} {customUrl : Option String} {limit : Option Rat} {u : Unit}
    (h : (setNodeConfig parseUrl s selected customUrl limit).2 = .ok u) :
    ∃ primary fallback, selectHosts parseUrl selected customUrl = .ok (primary, fallback) ∧
      (setNodeConfig parseUrl s selected customUrl limit).1 =
        { stopRetryLoop s with
          primaryHost := primary
          fallbackHost := fallback
          customGasLimit := limit.getD defaultGasLimit
          currentHost := primary } := by
  unfold setNodeConfig at h ⊢
  cases hsel : selectHosts parseUrl selected customUrl with
  | error e => simp [hsel] at h
  | ok hosts =>
      rcases hosts with ⟨primary, fallback⟩
      exact ⟨primary, fallback, rfl, rfl⟩

theorem onKnownHost_setNodeConfig (parseUrl : String → Option Url) {s : FailoverState}
    (selected : NodeSelection) (customUrl : Option String) (limit : Option Rat)
    (h : OnKnownHost s) :
    OnKnownHost (setNodeConfig parseUrl s selected customUrl limit).1 := by
  cases hres : (setNodeConfig parseUrl s selected customUrl limit).2 with
  | error e =>
      rw [setNodeConfig_error hres]
      simpa [OnKnownHost] using h
  | ok u =>
      rcases setNodeConfig_ok hres with ⟨primary, fallback, -, hmod⟩
      rw [hmod]
      exact Or.inl rfl

theorem onKnownHost_step {parseUrl : String → Option Url} (r : Rec α)
    (hvalid : r.Valid (failoverSystem parseUrl α)) (h : OnKnownHost r.pre.mod) :
    OnKnownHost r.post.mod := by
  cases modStep_of_valid hvalid with
  | unchanged _ hmod => rwa [hmod]
  | failure url _ hmod =>
      rw [hmod]
      exact onKnownHost_switchToFallback _
  | recovery host _ hmod =>
      rw [hmod]
      exact onKnownHost_switchToPrimary _
  | configured selected customUrl limit _ hmod =>
      rw [hmod]
      exact onKnownHost_setNodeConfig parseUrl selected customUrl limit h
  | reset _ hmod =>
      rw [hmod]
      exact Or.inl rfl

theorem onKnownHost_of_run {parseUrl : String → Option Url} {s : Sys α} {trace : List (Rec α)}
    (hrun : Run (failoverSystem parseUrl α) Sys.load trace s) :
    OnKnownHost s.mod ∧ ∀ r ∈ trace, OnKnownHost r.pre.mod ∧ OnKnownHost r.post.mod :=
  hrun.invariant_of_forall (fun s => OnKnownHost s.mod) onKnownHost_step (Or.inl rfl)

/-! ## The timer invariant -/

/-- No interval leaks, and the retry loop runs exactly while the client is off its primary. -/
structure StateInvariant (s : FailoverState) : Prop where
  host : OnKnownHost s
  intervals : s.liveIntervals = s.retryTimer.toList
  armed : s.retryTimer.isSome = true ↔ s.currentHost ≠ s.primaryHost

theorem stopRetryLoop_liveIntervals {s : FailoverState}
    (h : s.liveIntervals = s.retryTimer.toList) : (stopRetryLoop s).liveIntervals = [] := by
  unfold stopRetryLoop
  cases htimer : s.retryTimer with
  | none => simpa [htimer] using h
  | some timer => simp [h, htimer]

theorem startRetryLoop_liveIntervals {s : FailoverState}
    (h : s.liveIntervals = s.retryTimer.toList) :
    (startRetryLoop s).liveIntervals = (startRetryLoop s).retryTimer.toList := by
  unfold startRetryLoop
  cases htimer : s.retryTimer with
  | none => simp [h, htimer]
  | some timer => simpa [htimer] using h

theorem startRetryLoop_isSome (s : FailoverState) :
    (startRetryLoop s).retryTimer.isSome = true := by
  unfold startRetryLoop
  cases htimer : s.retryTimer with
  | none => simp
  | some timer => simp [htimer]

/-- A stopped loop with the client on its primary is a good state whatever came before. -/
theorem stateInvariant_of_stopped {s : FailoverState} (hcurrent : s.currentHost = s.primaryHost)
    (htimer : s.retryTimer = none) (hlive : s.liveIntervals = []) : StateInvariant s where
  host := Or.inl hcurrent
  intervals := by simp [htimer, hlive]
  armed := by simp [htimer, hcurrent]

theorem stateInvariant_switchToFallback {s : FailoverState} (h : StateInvariant s) :
    StateInvariant (switchToFallback s) := by
  -- A client that is on its fallback already is left alone, and so is its timer.
  by_cases hcurrent : s.currentHost = s.fallbackHost
  · rw [switchToFallback_of_current s hcurrent]
    exact h
  · have hprimary : s.currentHost = s.primaryHost := h.host.resolve_right hcurrent
    refine ⟨onKnownHost_switchToFallback s, ?_, ?_⟩
    · simp only [switchToFallback, if_neg hcurrent]
      exact startRetryLoop_liveIntervals (by simpa using h.intervals)
    · simp only [switchToFallback, if_neg hcurrent]
      -- The switch is a move, so the hosts differ and the armed loop is right.
      have hne : s.fallbackHost ≠ s.primaryHost := fun heq => hcurrent (hprimary.trans heq.symm)
      simpa [startRetryLoop_isSome] using hne

theorem stateInvariant_switchToPrimary {s : FailoverState} (h : StateInvariant s) :
    StateInvariant (switchToPrimary s) := by
  -- The same for a client that is back on its primary.
  by_cases hcurrent : s.currentHost = s.primaryHost
  · rw [switchToPrimary_of_current s hcurrent]
    exact h
  · simp only [switchToPrimary, if_neg hcurrent]
    exact stateInvariant_of_stopped (by simp) (by simp)
      (stopRetryLoop_liveIntervals (by simpa using h.intervals))

theorem stateInvariant_setNodeConfig {parseUrl : String → Option Url} {s : FailoverState}
    {selected : NodeSelection} {customUrl : Option String} {limit : Option Rat} {u : Unit}
    (h : StateInvariant s) (hok : (setNodeConfig parseUrl s selected customUrl limit).2 = .ok u) :
    StateInvariant (setNodeConfig parseUrl s selected customUrl limit).1 := by
  rcases setNodeConfig_ok hok with ⟨primary, fallback, -, hmod⟩
  rw [hmod]
  exact stateInvariant_of_stopped rfl (by simp) (stopRetryLoop_liveIntervals h.intervals)

theorem stateInvariant_resetNodeFailover {s : FailoverState} (h : StateInvariant s) :
    StateInvariant (resetNodeFailover s) :=
  stateInvariant_of_stopped rfl rfl (stopRetryLoop_liveIntervals h.intervals)

/-! ## Runs whose configuration calls return normally -/

def Output.isThrow : Output → Bool
  | .threw _ => true
  | _ => false

/-- No `setNodeConfig` throws in this step. -/
def ReturnsNormally (r : Rec α) : Prop :=
  ∀ o ∈ r.out, o.isThrow = false

instance (r : Rec α) : Decidable (ReturnsNormally r) :=
  inferInstanceAs (Decidable (∀ o ∈ r.out, o.isThrow = false))

theorem stateInvariant_step {parseUrl : String → Option Url} (r : Rec α)
    (hvalid : r.Valid (failoverSystem parseUrl α)) (hnormal : ReturnsNormally r)
    (h : StateInvariant r.pre.mod) : StateInvariant r.post.mod := by
  cases modStep_of_valid hvalid with
  | unchanged _ hmod => rwa [hmod]
  | failure url _ hmod =>
      rw [hmod]
      exact stateInvariant_switchToFallback h
  | recovery host _ hmod =>
      rw [hmod]
      exact stateInvariant_switchToPrimary h
  | configured selected customUrl limit _ hmod hout =>
      rw [hmod]
      cases hres : (setNodeConfig parseUrl r.pre.mod selected customUrl limit).2 with
      | ok u => exact stateInvariant_setNodeConfig h hres
      | error e =>
          rw [hres] at hout
          -- A throwing call has stopped the loop without moving the client, but none is allowed.
          have hthrow := hnormal (.threw e) (by simp [hout])
          simp [Output.isThrow] at hthrow
  | reset _ hmod =>
      rw [hmod]
      exact stateInvariant_resetNodeFailover h

theorem stateInvariant_load : StateInvariant (Sys.load : Sys α).mod :=
  stateInvariant_of_stopped rfl rfl rfl

/-- In every state reached from module load the client is on one of its hosts, holds exactly the
interval in `retryTimer`, and polls iff it is off its primary. -/
theorem failover_state_invariant (parseUrl : String → Option Url) {s : Sys α}
    {trace : List (Rec α)} (hrun : Run (failoverSystem parseUrl α) Sys.load trace s)
    (hnormal : ∀ r ∈ trace, ReturnsNormally r) :
    (s.mod.currentHost = s.mod.primaryHost ∨ s.mod.currentHost = s.mod.fallbackHost) ∧
      s.mod.liveIntervals = s.mod.retryTimer.toList ∧
      (s.mod.retryTimer.isSome = true ↔ s.mod.currentHost ≠ s.mod.primaryHost) := by
  have hinv : StateInvariant s.mod :=
    (hrun.invariant (fun s => StateInvariant s.mod) ReturnsNormally stateInvariant_step hnormal
      stateInvariant_load).1
  exact ⟨hinv.host, hinv.intervals, hinv.armed⟩

/-- A demotion, a recovery by the retry loop, a second demotion, and a switch to node1 while the
retry of the second call is still pending. -/
def demotionRun : List (Event Nat) :=
  [.startCall, .settleAttempt 0 (.error ⟨none, some "Failed to fetch"⟩), .tick 0,
    .settleProbe 0 (.response true), .startCall,
    .settleAttempt 1 (.error ⟨some "AbortError", none⟩), .setNodeConfig .node1 none none]

theorem failover_state_invariant_demotionRun :
    let s := (failoverSystem (fun _ => none) Nat).final Sys.load demotionRun
    (s.mod.currentHost = s.mod.primaryHost ∨ s.mod.currentHost = s.mod.fallbackHost) ∧
      s.mod.liveIntervals = s.mod.retryTimer.toList ∧
      (s.mod.retryTimer.isSome = true ↔ s.mod.currentHost ≠ s.mod.primaryHost) :=
  failover_state_invariant (fun _ => none) (run_of_events demotionRun (by decide))
    (by decide)

end Network
end StoaCore
