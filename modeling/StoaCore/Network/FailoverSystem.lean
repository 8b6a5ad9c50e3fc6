import StoaCore.Library.Transition
import StoaCore.Network.NodeFailover

/-!
# FailoverSystem — every interleaving of the failover client's operations

The system state is the module state, the `withFailover` calls started so far and the health
probes started so far.  An event is one synchronous stretch of the program: a call starts, a
pending attempt settles, an interval fires, a probe settles, the node configuration is set or
reset, or a URL is read.  Calls and probes settle in any order and at any later time, so a run of
`failoverSystem` is an arbitrary interleaving.
-/

namespace StoaCore
namespace Network

open Library.Transition

/-! ## States and events -/

/-- Who awaits a health probe. -/
inductive ProbeOrigin
  | retryLoop
  | initNodeFailover
  deriving DecidableEq

/-- A health probe; `host` is the `PRIMARY_HOST` read when it started. -/
structure Probe where
  origin : ProbeOrigin
  host : String
  settled : Bool
  deriving DecidableEq

structure Sys (α : Type) where
  mod : FailoverState
  calls : List (Call α)
  probes : List Probe

inductive Event (α : Type)
  | startCall
  | settleAttempt (id : Nat) (outcome : Except JsError α)
  | tick (timer : TimerId)
  | startInit
  | settleProbe (id : Nat) (outcome : FetchOutcome)
  | setNodeConfig (selected : NodeSelection) (customUrl : Option String)
      (customNodeGasLimit : Option Rat)
  | resetNodeFailover
  | getActiveBaseUrl
  | getActivePactUrl (chainId : String)
  | getActiveSpvUrl (chainId : String)

/-- What the outside sees of a step. -/
inductive Output
  | invoked (id : Nat) (baseUrl : String)
  | fetched (url : String)
  | returned (url : String)
  | threw (error : TypeError)
  deriving DecidableEq

/-- The URL an output carries to the outside. -/
def Output.url? : Output → Option String
  | .invoked _ url => some url
  | .fetched url => some url
  | .returned url => some url
  | .threw _ => none

variable {α : Type}

def Event.IsConfiguration : Event α → Prop
  | .setNodeConfig .. => True
  | .resetNodeFailover => True
  | _ => False

instance (e : Event α) : Decidable e.IsConfiguration := by
  cases e <;> unfold Event.IsConfiguration <;> infer_instance

namespace Sys

/-- The state right after module load. -/
def load : Sys α :=
  { mod := {}, calls := [], probes := [] }

/-- `isHealthy(PRIMARY_HOST)` is called and suspends on its fetch. -/
def startProbe (s : Sys α) (origin : ProbeOrigin) : Sys α :=
  { s with
    probes := s.probes ++ [{ origin := origin, host := s.mod.primaryHost, settled := false }] }

end Sys

/-- What the awaiting code does with the verdict of a probe. -/
def afterProbe (s : FailoverState) (origin : ProbeOrigin) (healthy : Bool) : FailoverState :=
  match origin with
  | .retryLoop => if healthy then switchToPrimary s else s
  | .initNodeFailover => if healthy then s else switchToFallback s

/-! ## The step function -/

section Step

variable (parseUrl : String → Option Url)

def step (s : Sys α) : Event α → Option (Sys α × List Output)
  | .startCall =>
      -- The callback is invoked before the first suspension.
      let c : Call α := withFailoverStart s.mod
      some ({ s with calls := s.calls ++ [c] }, [.invoked s.calls.length c.attemptedBaseUrl])
  | .settleAttempt id outcome =>
      match s.calls[id]? with
      | none => none
      | some c =>
          match withFailoverSettle s.mod c outcome with
          | none => none
          | some (mod, c') =>
              -- What the settlement has appended to the invocations is what it has just invoked.
              some ({ s with mod := mod, calls := s.calls.set id c' },
                (c'.invocations.drop c.invocations.length).map (.invoked id))
  | .tick timer =>
      -- Only intervals that have not been cleared fire.
      if timer ∈ s.mod.liveIntervals then
        some (s.startProbe .retryLoop, [.fetched (healthUrl s.mod.primaryHost)])
      else none
  | .startInit =>
      some (s.startProbe .initNodeFailover, [.fetched (healthUrl s.mod.primaryHost)])
  | .settleProbe id outcome =>
      match s.probes[id]? with
      | none => none
      | some p =>
          -- A fetch settles once.
          if p.settled then none
          else
            some ({ s with
                    mod := afterProbe s.mod p.origin (isHealthy outcome)
                    probes := s.probes.set id { p with settled := true } }, [])
  | .setNodeConfig selected customUrl customNodeGasLimit =>
      match Network.setNodeConfig parseUrl s.mod selected customUrl customNodeGasLimit with
      | (mod, .ok ()) => some ({ s with mod := mod }, [])
      -- `stopRetryLoop` has run before the throw, so the state may have changed.
      | (mod, .error e) => some ({ s with mod := mod }, [.threw e])
  | .resetNodeFailover => some ({ s with mod := Network.resetNodeFailover s.mod }, [])
  | .getActiveBaseUrl => some (s, [.returned (Network.getActiveBaseUrl s.mod)])
  | .getActivePactUrl chainId => some (s, [.returned (Network.getActivePactUrl s.mod chainId)])
  | .getActiveSpvUrl chainId => some (s, [.returned (Network.getActiveSpvUrl s.mod chainId)])

def failoverSystem (α : Type) : System (Sys α) (Event α) (List Output) :=
  { init := Sys.load
    step := step parseUrl }

end Step

abbrev Rec (α : Type) := Record (Sys α) (Event α) (List Output)

/-! ## What one settlement can do -/

/-- The four ways an attempt of a call can settle. -/
theorem withFailoverSettle_cases {s s' : FailoverState} {c c' : Call α}
    {outcome : Except JsError α} (h : withFailoverSettle s c outcome = some (s', c')) :
    (∃ v, c.phase = .firstAttempt ∧ outcome = .ok v ∧ s' = s ∧
      c' = { c with outcomes := c.outcomes ++ [.ok v], phase := .settled (.ok v) }) ∨
    (∃ err, c.phase = .firstAttempt ∧ outcome = .error err ∧ isNetworkError err = true ∧
      c.attemptedBaseUrl = c.attemptedPrimaryBaseUrl ∧ s' = switchToFallback s ∧
      c' = { c with
              invocations := c.invocations ++ [getActiveBaseUrl (switchToFallback s)]
              outcomes := c.outcomes ++ [.error err]
              phase := .retry }) ∨
    (∃ err, c.phase = .firstAttempt ∧ outcome = .error err ∧
      ¬ (isNetworkError err = true ∧ c.attemptedBaseUrl = c.attemptedPrimaryBaseUrl) ∧ s' = s ∧
      c' = { c with outcomes := c.outcomes ++ [.error err], phase := .settled (.error err) }) ∨
    (c.phase = .retry ∧ s' = s ∧
      c' = { c with outcomes := c.outcomes ++ [outcome], phase := .settled outcome }) := by
  unfold withFailoverSettle at h
  cases hphase : c.phase with
  | firstAttempt =>
      cases outcome with
      | ok v =>
          simp only [hphase, Option.some.injEq, Prod.mk.injEq] at h
          exact Or.inl ⟨v, rfl, rfl, h.1.symm, h.2.symm⟩
      | error err =>
          simp only [hphase] at h
          -- Only a network error of an attempt on the captured primary is retried.
          by_cases hnet : isNetworkError err = true ∧ c.attemptedBaseUrl = c.attemptedPrimaryBaseUrl
          · rw [if_pos hnet] at h
            simp only [Option.some.injEq, Prod.mk.injEq] at h
            exact Or.inr (Or.inl ⟨err, rfl, rfl, hnet.1, hnet.2, h.1.symm, h.2.symm⟩)
          · rw [if_neg hnet] at h
            simp only [Option.some.injEq, Prod.mk.injEq] at h
            exact Or.inr (Or.inr (Or.inl ⟨err, rfl, rfl, hnet, h.1.symm, h.2.symm⟩))
  | retry =>
      simp only [hphase, Option.some.injEq, Prod.mk.injEq] at h
      exact Or.inr (Or.inr (Or.inr ⟨rfl, h.1.symm, h.2.symm⟩))
  | settled o =>
      simp [hphase] at h

/-! ## Reports: the settlements that reach a switch -/

/-- The base URL whose failure makes this event call `switchToFallback`, if it does: the first
attempt of a call that went to its captured primary and failed with a network error, or the failed
health check of `initNodeFailover`. -/
def failureReport (s : Sys α) : Event α → Option String
  | .settleAttempt id (.error err) =>
      match s.calls[id]? with
      | none => none
      | some c =>
          match c.phase with
          | .firstAttempt =>
              if isNetworkError err ∧ c.attemptedBaseUrl = c.attemptedPrimaryBaseUrl then
                some c.attemptedBaseUrl
              else none
          | _ => none
  | .settleProbe id outcome =>
      match s.probes[id]? with
      | some { origin := .initNodeFailover, host := host, settled := false } =>
          if isHealthy outcome then none else some (chainwebRoot host)
      | _ => none
  | _ => none

/-- The host whose successful probe makes this event call `switchToPrimary` from the retry loop,
if it does. -/
def recoveryReport (s : Sys α) : Event α → Option String
  | .settleProbe id outcome =>
      match s.probes[id]? with
      | some { origin := .retryLoop, host := host, settled := false } =>
          if isHealthy outcome then some host else none
      | _ => none
  | _ => none

/-- What a step can do to the module state. -/
inductive ModStep (parseUrl : String → Option Url) (r : Rec α) : Prop
  | unchanged (hconf : ¬ r.event.IsConfiguration) (hmod : r.post.mod = r.pre.mod)
      (hfail : failureReport r.pre r.event = none) (hrec : recoveryReport r.pre r.event = none)
  | failure (url : String) (hreport : failureReport r.pre r.event = some url)
      (hmod : r.post.mod = switchToFallback r.pre.mod)
  | recovery (host : String) (hreport : recoveryReport r.pre r.event = some host)
      (hmod : r.post.mod = switchToPrimary r.pre.mod)
  | configured (selected : NodeSelection) (customUrl : Option String)
      (customNodeGasLimit : Option Rat)
      (hevent : r.event = .setNodeConfig selected customUrl customNodeGasLimit)
      (hmod : r.post.mod =
        (setNodeConfig parseUrl r.pre.mod selected customUrl customNodeGasLimit).1)
      (hout : r.out =
        match (setNodeConfig parseUrl r.pre.mod selected customUrl customNodeGasLimit).2 with
        | .ok () => []
        | .error e => [.threw e])
  | reset (hevent : r.event = .resetNodeFailover)
      (hmod : r.post.mod = resetNodeFailover r.pre.mod)

section Inversion

variable {parseUrl : String → Option Url} {r : Rec α}

theorem step_of_valid {e : Event α} (hvalid : r.Valid (failoverSystem parseUrl α))
    (hevent : r.event = e) : step parseUrl r.pre e = some (r.post, r.out) :=
  hevent ▸ hvalid

theorem settleAttempt_inv {id : Nat} {outcome : Except JsError α}
    (hvalid : r.Valid (failoverSystem parseUrl α)) (hevent : r.event = .settleAttempt id outcome) :
    ∃ c mod c', r.pre.calls[id]? = some c ∧
      withFailoverSettle r.pre.mod c outcome = some (mod, c') ∧
      r.post = { r.pre with mod := mod, calls := r.pre.calls.set id c' } ∧
      r.out = (c'.invocations.drop c.invocations.length).map (.invoked id) := by
  have hstep := step_of_valid hvalid hevent
  simp only [step] at hstep
  split at hstep
  · cases hstep
  · rename_i c hc
    split at hstep
    · cases hstep
    · rename_i mod c' hsettle
      simp only [Option.some.injEq, Prod.mk.injEq] at hstep
      exact ⟨c, mod, c', hc, hsettle, hstep.1.symm, hstep.2.symm⟩

theorem settleProbe_inv {id : Nat} {outcome : FetchOutcome}
    (hvalid : r.Valid (failoverSystem parseUrl α)) (hevent : r.event = .settleProbe id outcome) :
    ∃ p, r.pre.probes[id]? = some p ∧ p.settled = false ∧
      r.post = { r.pre with
                  mod := afterProbe r.pre.mod p.origin (isHealthy outcome)
                  probes := r.pre.probes.set id { p with settled := true } } ∧
      r.out = [] := by
  have hstep := step_of_valid hvalid hevent
  simp only [step] at hstep
  split at hstep
  · cases hstep
  · rename_i p hp
    by_cases hsettled : p.settled = true
    · simp [hsettled] at hstep
    · rw [if_neg hsettled] at hstep
      simp only [Option.some.injEq, Prod.mk.injEq] at hstep
      exact ⟨p, hp, by simpa using hsettled, hstep.1.symm, hstep.2.symm⟩

/-- The events that only read the module state or start something leave it as it is. -/
theorem mod_of_quiet (hvalid : r.Valid (failoverSystem parseUrl α))
    (hquiet : match r.event with
      | .settleAttempt .. | .settleProbe .. | .setNodeConfig .. | .resetNodeFailover => False
      | _ => True) : r.post.mod = r.pre.mod := by
  cases hevent : r.event with
  | settleAttempt id outcome => simp [hevent] at hquiet
  | settleProbe id outcome => simp [hevent] at hquiet
  | setNodeConfig selected customUrl limit => simp [hevent] at hquiet
  | resetNodeFailover => simp [hevent] at hquiet
  | tick timer =>
      have hstep := step_of_valid hvalid hevent
      simp only [step] at hstep
      split at hstep
      · simp only [Option.some.injEq, Prod.mk.injEq] at hstep
        exact (congrArg Sys.mod hstep.1).symm
      · cases hstep
  | _ =>
      have hstep := step_of_valid hvalid hevent
      simp only [step, Option.some.injEq, Prod.mk.injEq] at hstep
      exact (congrArg Sys.mod hstep.1).symm

/-- Every step is one of the five kinds of `ModStep`. -/
theorem modStep_of_valid (hvalid : r.Valid (failoverSystem parseUrl α)) : ModStep parseUrl r := by
  cases hevent : r.event with
  | settleAttempt id outcome =>
      rcases settleAttempt_inv hvalid hevent with ⟨c, mod, c', hc, hsettle, hpost, -⟩
      have hrec : recoveryReport r.pre r.event = none := by simp [hevent, recoveryReport]
      have hconf : ¬ r.event.IsConfiguration := by simp [hevent, Event.IsConfiguration]
      -- The second case is the one that reports; the others leave the module as it is.
      rcases withFailoverSettle_cases hsettle with
        ⟨v, -, rfl, rfl, -⟩ | ⟨err, hphase, rfl, hnet, hprim, rfl, -⟩ |
        ⟨err, hphase, rfl, hnet, rfl, -⟩ | ⟨hphase, rfl, -⟩
      · exact .unchanged hconf (by rw [hpost]) (by simp [hevent, failureReport]) hrec
      · exact .failure c.attemptedBaseUrl
          (by simp only [hevent, failureReport, hc, hphase]; rw [if_pos ⟨hnet, hprim⟩])
          (by rw [hpost])
      · exact .unchanged hconf (by rw [hpost])
          (by simp only [hevent, failureReport, hc, hphase]; rw [if_neg hnet]) hrec
      · refine .unchanged hconf (by rw [hpost]) ?_ hrec
        cases outcome with
        | ok v => simp [hevent, failureReport]
        | error err => simp [hevent, failureReport, hc, hphase]
  | settleProbe id outcome =>
      rcases settleProbe_inv hvalid hevent with ⟨p, hp, hsettled, hpost, -⟩
      have hmod : r.post.mod = afterProbe r.pre.mod p.origin (isHealthy outcome) := by rw [hpost]
      have hconf : ¬ r.event.IsConfiguration := by simp [hevent, Event.IsConfiguration]
      rcases p with ⟨origin, host, settled⟩
      subst hsettled
      -- A probe acts on one verdict only: the retry loop on success, `initNodeFailover` on failure.
      cases origin <;> cases hhealthy : isHealthy outcome
      · exact .unchanged hconf (by simpa [afterProbe, hhealthy] using hmod)
          (by simp [hevent, failureReport, hp]) (by simp [hevent, recoveryReport, hp, hhealthy])
      · exact .recovery host (by simp [hevent, recoveryReport, hp, hhealthy])
          (by simpa [afterProbe, hhealthy] using hmod)
      · exact .failure (chainwebRoot host) (by simp [hevent, failureReport, hp, hhealthy])
          (by simpa [afterProbe, hhealthy] using hmod)
      · exact .unchanged hconf (by simpa [afterProbe, hhealthy] using hmod)
          (by simp [hevent, failureReport, hp, hhealthy]) (by simp [hevent, recoveryReport, hp])
  | setNodeConfig selected customUrl customNodeGasLimit =>
      have hstep := step_of_valid hvalid hevent
      simp only [step] at hstep
      cases hset : setNodeConfig parseUrl r.pre.mod selected customUrl customNodeGasLimit with
      | mk mod result =>
          rw [hset] at hstep
          -- The state is the same function of the call whether it returns or throws.
          cases result with
          | ok u =>
              simp only [Option.some.injEq, Prod.mk.injEq] at hstep
              exact .configured selected customUrl customNodeGasLimit hevent
                (by rw [hset, ← hstep.1]) (by rw [hset, ← hstep.2])
          | error e =>
              simp only [Option.some.injEq, Prod.mk.injEq] at hstep
              exact .configured selected customUrl customNodeGasLimit hevent
                (by rw [hset, ← hstep.1]) (by rw [hset, ← hstep.2])
  | resetNodeFailover =>
      have hstep := step_of_valid hvalid hevent
      simp only [step, Option.some.injEq, Prod.mk.injEq] at hstep
      exact .reset hevent (by rw [← hstep.1])
  | _ =>
      exact .unchanged (by simp [hevent, Event.IsConfiguration])
        (mod_of_quiet hvalid (by simp [hevent])) (by simp [hevent, failureReport])
        (by simp [hevent, recoveryReport])

end Inversion

end Network
end StoaCore
