import StoaCore.Network.Justification

/-!
# RetryContract — what each `withFailover` call does under a fixed preset

While no configuration call runs, the primary and the fallback stay what they are, so what a call
captured at entry stays comparable with the hosts it finds later.  The contract of a call is an
invariant of its entry in the call table, whatever the other calls and probes do in between.
-/

namespace StoaCore
namespace Network

open Library.Transition

variable {α : Type}

/-! ## The contract of one call -/

/-- What a call with base URLs `primary` and `fallback` has done so far: the callback was invoked
once, and once more on `fallback` iff that first attempt went to `primary` and failed with a
network error; a settled call has settled with the outcome of its last attempt. -/
def RetryContract (primary fallback : String) (c : Call α) : Prop :=
  match c.phase with
  | .firstAttempt =>
      c.invocations = [c.attemptedBaseUrl] ∧ c.outcomes = []
  | .retry =>
      ∃ err, isNetworkError err = true ∧ c.attemptedBaseUrl = primary ∧
        c.invocations = [primary, fallback] ∧ c.outcomes = [.error err]
  | .settled outcome =>
      (c.invocations = [c.attemptedBaseUrl] ∧ c.outcomes = [outcome] ∧
        ∀ err, outcome = .error err →
          ¬ (isNetworkError err = true ∧ c.attemptedBaseUrl = primary)) ∨
      ∃ err, isNetworkError err = true ∧ c.attemptedBaseUrl = primary ∧
        c.invocations = [primary, fallback] ∧ c.outcomes = [.error err, outcome]

/-- The contract together with what the call captured at entry. -/
structure Tracked (primary fallback : String) (c : Call α) : Prop where
  captured : c.attemptedPrimaryBaseUrl = primary
  known : c.attemptedBaseUrl = primary ∨ c.attemptedBaseUrl = fallback
  contract : RetryContract primary fallback c

theorem tracked_withFailoverStart {s : FailoverState} (h : OnKnownHost s) :
    Tracked (getPrimaryBaseUrl s) (chainwebRoot s.fallbackHost) (withFailoverStart s : Call α) where
  captured := rfl
  known := by
    rcases h with h | h
    · exact Or.inl (congrArg chainwebRoot h)
    · exact Or.inr (congrArg chainwebRoot h)
  contract := ⟨rfl, rfl⟩

/-- Settling a pending attempt keeps the contract: in each of the four cases one outcome is
recorded, and only the retry case invokes the callback again. -/
theorem tracked_withFailoverSettle {s s' : FailoverState} {c c' : Call α}
    {outcome : Except JsError α} {primary : String}
    (h : Tracked primary (chainwebRoot s.fallbackHost) c)
    (hsettle : withFailoverSettle s c outcome = some (s', c')) :
    Tracked primary (chainwebRoot s.fallbackHost) c' := by
  have hcontract := h.contract
  rcases withFailoverSettle_cases hsettle with
    ⟨v, hphase, rfl, -, rfl⟩ | ⟨err, hphase, rfl, hnet, hprim, -, rfl⟩ |
    ⟨err, hphase, rfl, hnet, -, rfl⟩ | ⟨hphase, -, rfl⟩
  -- The first attempt succeeds: the call settles with it.
  · rw [RetryContract, hphase] at hcontract
    refine ⟨h.captured, h.known, Or.inl ⟨hcontract.1, by simp [hcontract.2], ?_⟩⟩
    intro err herr
    cases herr
  -- The retry case: the callback is invoked on the fallback.
  · rw [RetryContract, hphase] at hcontract
    have hattempted : c.attemptedBaseUrl = primary := hprim.trans h.captured
    refine ⟨h.captured, h.known, ⟨err, hnet, hattempted, ?_, by simp [hcontract.2]⟩⟩
    simp [hcontract.1, hattempted, getActiveBaseUrl]
  -- A failure that is not retried settles the call.
  · rw [RetryContract, hphase] at hcontract
    refine ⟨h.captured, h.known, Or.inl ⟨hcontract.1, by simp [hcontract.2], ?_⟩⟩
    intro err' herr hnet'
    cases herr
    exact hnet ⟨hnet'.1, hnet'.2.trans h.captured.symm⟩
  -- The retry settles the call whatever its outcome.
  · rw [RetryContract, hphase] at hcontract
    rcases hcontract with ⟨err, hnet, hattempted, hinv, hout⟩
    exact ⟨h.captured, h.known, Or.inr ⟨err, hnet, hattempted, hinv, by simp [hout]⟩⟩

/-- Whatever outcome a pending attempt of call number `id` ends with, the call takes it, and it
settles with it unless it goes on to its retry. -/
def CanSettle (parseUrl : String → Option Url) (s : Sys α) (id : Nat) (c : Call α) : Prop :=
  (∀ o, c.phase ≠ .settled o) → ∀ outcome,
    ∃ t out c', step parseUrl s (.settleAttempt id outcome) = some (t, out) ∧
      t.calls[id]? = some c' ∧ c'.outcomes = c.outcomes ++ [outcome] ∧
      (c'.phase = .settled outcome ∨ (c.phase = .firstAttempt ∧ c'.phase = .retry))

theorem canSettle (parseUrl : String → Option Url) {s : Sys α} {id : Nat} {c : Call α}
    (hc : s.calls[id]? = some c) : CanSettle parseUrl s id c := by
  intro hpending outcome
  have hlt : id < s.calls.length := (List.getElem?_eq_some_iff.1 hc).1
  have hsettle : ∃ mod c', withFailoverSettle s.mod c outcome = some (mod, c') := by
    unfold withFailoverSettle
    cases hphase : c.phase with
    | firstAttempt =>
        cases outcome with
        | ok v => exact ⟨_, _, rfl⟩
        | error err =>
            by_cases hnet : isNetworkError err = true ∧
                c.attemptedBaseUrl = c.attemptedPrimaryBaseUrl
            · exact ⟨_, _, if_pos hnet⟩
            · exact ⟨_, _, if_neg hnet⟩
    | retry => exact ⟨_, _, rfl⟩
    | settled o => exact absurd hphase (hpending o)
  rcases hsettle with ⟨mod, c', hsettle⟩
  refine ⟨_, _, c', by simp only [step, hc, hsettle]; rfl, by simp [List.getElem?_set_self hlt], ?_⟩
  rcases withFailoverSettle_cases hsettle with
    ⟨v, -, rfl, -, rfl⟩ | ⟨err, hphase, rfl, -, -, -, rfl⟩ | ⟨err, -, rfl, -, -, rfl⟩ | ⟨-, -, rfl⟩
  · exact ⟨rfl, Or.inl rfl⟩
  · exact ⟨rfl, Or.inr ⟨hphase, rfl⟩⟩
  · exact ⟨rfl, Or.inl rfl⟩
  · exact ⟨rfl, Or.inl rfl⟩

/-! ## Runs under a fixed configuration -/

/-- The step is no configuration call. -/
def Unconfigured (r : Rec α) : Prop :=
  ¬ r.event.IsConfiguration

instance (r : Rec α) : Decidable (Unconfigured r) :=
  inferInstanceAs (Decidable (¬ r.event.IsConfiguration))

section Fixed

variable {parseUrl : String → Option Url} {r : Rec α}

theorem hosts_of_valid (hvalid : r.Valid (failoverSystem parseUrl α)) (hfixed : Unconfigured r) :
    r.post.mod.primaryHost = r.pre.mod.primaryHost ∧
      r.post.mod.fallbackHost = r.pre.mod.fallbackHost := by
  cases modStep_of_valid hvalid with
  | unchanged _ hmod => exact ⟨by rw [hmod], by rw [hmod]⟩
  | failure url _ hmod => exact ⟨by simp [hmod], by simp [hmod]⟩
  | recovery host _ hmod => exact ⟨by simp [hmod], by simp [hmod]⟩
  | configured selected customUrl limit hevent =>
      exact absurd (by simp [hevent, Event.IsConfiguration]) hfixed
  | reset hevent => exact absurd (by simp [hevent, Event.IsConfiguration]) hfixed

/-- The invariant of a run that began in `s₀`: the hosts are those of `s₀`, and every call begun
since keeps its contract. -/
structure FixedRun (s₀ s : Sys α) : Prop where
  known : OnKnownHost s.mod
  primary : s.mod.primaryHost = s₀.mod.primaryHost
  fallback : s.mod.fallbackHost = s₀.mod.fallbackHost
  older : s₀.calls.length ≤ s.calls.length
  calls : ∀ id c, s₀.calls.length ≤ id → s.calls[id]? = some c →
    Tracked (getPrimaryBaseUrl s₀.mod) (chainwebRoot s₀.mod.fallbackHost) c

theorem fixedRun_step {s₀ : Sys α} (r : Rec α) (hvalid : r.Valid (failoverSystem parseUrl α))
    (hfixed : Unconfigured r) (h : FixedRun s₀ r.pre) : FixedRun s₀ r.post := by
  have hhosts := hosts_of_valid hvalid hfixed
  have hknown := onKnownHost_step r hvalid h.known
  have hprimary := hhosts.1.trans h.primary
  have hfallback := hhosts.2.trans h.fallback
  rcases calls_of_valid hvalid with
    ⟨-, hcalls⟩ | ⟨n, outcome, c₀, mod, c', -, hc₀, hsettle, hcalls⟩ | ⟨-, hcalls⟩
  · refine ⟨hknown, hprimary, hfallback, ?_, ?_⟩
    · have := h.older
      simp only [hcalls, List.length_append, List.length_singleton]
      omega
    · intro id c hid hc
      rw [hcalls] at hc
      rcases getElem?_concat_cases id c hc with ⟨-, rfl⟩ | ⟨-, hc⟩
      · -- The call that has just begun.
        have htracked := tracked_withFailoverStart (α := α) h.known
        rwa [getPrimaryBaseUrl, h.primary, h.fallback] at htracked
      · exact h.calls id c hid hc
  · refine ⟨hknown, hprimary, hfallback, by simpa [hcalls] using h.older, ?_⟩
    intro id c hid hc
    rw [hcalls] at hc
    -- Only the settled call changes.
    rcases getElem?_set_cases id c hc with ⟨rfl, rfl⟩ | ⟨-, hc⟩
    · have htracked := h.calls id c₀ hid hc₀
      rw [← h.fallback] at htracked ⊢
      exact tracked_withFailoverSettle htracked hsettle
    · exact h.calls id c hid hc
  · refine ⟨hknown, hprimary, hfallback, by simpa [hcalls] using h.older, ?_⟩
    intro id c hid hc
    rw [hcalls] at hc
    exact h.calls id c hid hc

/-- A failure that is no network error, and any failure on the fallback, changes nothing. -/
theorem mod_of_quiet_failure {s₀ : Sys α} (hvalid : r.Valid (failoverSystem parseUrl α))
    (hpreset : Preset s₀.mod) (h : FixedRun s₀ r.pre) {id : Nat} {err : JsError} {c : Call α}
    (hevent : r.event = .settleAttempt id (.error err)) (hid : s₀.calls.length ≤ id)
    (hc : r.pre.calls[id]? = some c)
    (hquiet : isNetworkError err = false ∨
      c.invocations.getLast? = some (chainwebRoot s₀.mod.fallbackHost)) :
    r.post.mod = r.pre.mod := by
  rcases settleAttempt_inv hvalid hevent with ⟨c₁, mod, c', hc₁, hsettle, hpost, -⟩
  rw [hc] at hc₁
  cases hc₁
  rcases withFailoverSettle_cases hsettle with
    ⟨v, -, -, rfl, -⟩ | ⟨err', hphase, herr, hnet, hprim, -, -⟩ | ⟨err', -, -, -, rfl, -⟩ |
    ⟨-, rfl, -⟩
  · rw [hpost]
  · -- The switching case: the first attempt went to the primary and failed with a network error.
    cases herr
    have htracked := h.calls id c hid hc
    have hcontract := htracked.contract
    rw [RetryContract, hphase] at hcontract
    rcases hquiet with hother | hlast
    · rw [hnet] at hother
      cases hother
    · rw [hcontract.1, hprim, htracked.captured] at hlast
      have hsame : s₀.mod.primaryHost = s₀.mod.fallbackHost :=
        chainwebRoot_inj.1 (Option.some.inj hlast)
      exact absurd hsame hpreset.primary_ne_fallback
  · rw [hpost]
  · rw [hpost]

end Fixed

/-! ## The theorem -/

/-- From any reachable state with a preset in force and without configuration calls: every call
begun in the run keeps its contract and can settle, failures that are no network errors or happen
on the fallback change no failover state, and between two demotions the client has been back on
its primary. -/
theorem no_lost_retry (parseUrl : String → Option Url) {before trace : List (Rec α)}
    {s₀ s : Sys α} (hbefore : Run (failoverSystem parseUrl α) Sys.load before s₀)
    (hpreset : Preset s₀.mod) (hrun : Run (failoverSystem parseUrl α) s₀ trace s)
    (hfixed : ∀ r ∈ trace, Unconfigured r) :
    (∀ id c, s₀.calls.length ≤ id → s.calls[id]? = some c →
      (c.attemptedBaseUrl = getPrimaryBaseUrl s₀.mod ∨
        c.attemptedBaseUrl = chainwebRoot s₀.mod.fallbackHost) ∧
      RetryContract (getPrimaryBaseUrl s₀.mod) (chainwebRoot s₀.mod.fallbackHost) c ∧
      CanSettle parseUrl s id c) ∧
    (∀ r ∈ trace, ∀ id err c, r.event = .settleAttempt id (.error err) →
      s₀.calls.length ≤ id → r.pre.calls[id]? = some c →
      (isNetworkError err = false ∨
        c.invocations.getLast? = some (chainwebRoot s₀.mod.fallbackHost)) →
      r.post.mod = r.pre.mod) ∧
    (∀ front first between second back, trace = front ++ first :: (between ++ second :: back) →
      Demotes first → Demotes second →
      ∃ r ∈ between, r.pre.mod.currentHost = r.pre.mod.fallbackHost ∧
        r.post.mod.currentHost = r.post.mod.primaryHost) := by
  have hinit : FixedRun s₀ s₀ :=
    ⟨(onKnownHost_of_run hbefore).1, rfl, rfl, le_rfl, fun id c hid hc =>
      absurd (List.getElem?_eq_some_iff.1 hc).1 (by omega)⟩
  have hinv := hrun.invariant (FixedRun s₀) Unconfigured fixedRun_step hfixed hinit
  refine ⟨?_, ?_, ?_⟩
  · intro id c hid hc
    have htracked := hinv.1.calls id c hid hc
    exact ⟨htracked.known, htracked.contract, canSettle parseUrl hc⟩
  · intro r hr id err c hevent hid hc hquiet
    exact mod_of_quiet_failure (hrun.valid_of_mem r hr) hpreset (hinv.2 r hr).1 hevent hid hc hquiet
  · intro front first between second back htrace hfirst hsecond
    subst htrace
    have hmem : ∀ r ∈ first :: between, r ∈ front ++ first :: (between ++ second :: back) := by
      intro r hr
      rcases List.mem_cons.1 hr with rfl | hr
      · simp
      · simp [hr]
    -- The hosts of the preset stay distinct, so a host is not primary and fallback at once.
    have hne : ∀ t : Sys α, FixedRun s₀ t → t.mod.primaryHost ≠ t.mod.fallbackHost := by
      intro t ht
      rw [ht.primary, ht.fallback]
      exact hpreset.primary_ne_fallback
    rcases hrun.split with ⟨_, -, hback⟩
    have hbetween : Run (failoverSystem parseUrl α) first.post between second.pre :=
      hback.tail.before rfl
    have hafter := (hinv.2 first (hmem first (by simp))).2
    -- The first demotion leaves the client off its primary and the second finds it there, so some
    -- step in between brought it back.
    have hcrossing := hbetween.exists_crossing
      (fun t => t.mod.currentHost = t.mod.primaryHost)
      (fun heq => hne _ hafter (heq.symm.trans hfirst.after)) hsecond.before
    rcases hcrossing with ⟨r, hr, hoff, hon⟩
    have hknown := (hinv.2 r (hmem r (by simp [hr]))).1.known
    exact ⟨r, hr, hknown.resolve_left hoff, hon⟩

/-- Two calls race on the primary, the retry loop recovers it, and a third call is demoted and
fails on the fallback. -/
def racingRun : List (Event Nat) :=
  [.startCall, .startCall, .settleAttempt 0 (.error ⟨none, some "Failed to fetch"⟩),
    .settleAttempt 1 (.error ⟨none, some "connect ECONNREFUSED"⟩), .settleAttempt 0 (.ok 7),
    .tick 0, .settleProbe 0 (.response true), .startCall,
    .settleAttempt 2 (.error ⟨some "AbortError", none⟩),
    .settleAttempt 2 (.error ⟨none, some "NetworkError"⟩)]

theorem no_lost_retry_racingRun :
    let sys := failoverSystem (fun _ => none) Nat
    let s₀ : Sys Nat := Sys.load
    let s := sys.final s₀ racingRun
    let trace := sys.trace s₀ racingRun
    (∀ id c, s₀.calls.length ≤ id → s.calls[id]? = some c →
      (c.attemptedBaseUrl = getPrimaryBaseUrl s₀.mod ∨
        c.attemptedBaseUrl = chainwebRoot s₀.mod.fallbackHost) ∧
      RetryContract (getPrimaryBaseUrl s₀.mod) (chainwebRoot s₀.mod.fallbackHost) c ∧
      CanSettle (fun _ => none) s id c) ∧
    (∀ r ∈ trace, ∀ id err c, r.event = .settleAttempt id (.error err) →
      s₀.calls.length ≤ id → r.pre.calls[id]? = some c →
      (isNetworkError err = false ∨
        c.invocations.getLast? = some (chainwebRoot s₀.mod.fallbackHost)) →
      r.post.mod = r.pre.mod) ∧
    (∀ front first between second back, trace = front ++ first :: (between ++ second :: back) →
      Demotes first → Demotes second →
      ∃ r ∈ between, r.pre.mod.currentHost = r.pre.mod.fallbackHost ∧
        r.post.mod.currentHost = r.post.mod.primaryHost) :=
  no_lost_retry (fun _ => none) (Run.nil Sys.load) (Or.inl ⟨rfl, rfl⟩)
    (run_of_events racingRun (by decide)) (by decide)

end Network
end StoaCore
