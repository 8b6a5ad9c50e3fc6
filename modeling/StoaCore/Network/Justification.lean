import StoaCore.Network.History

/-!
# Justification — which observation a host switch rests on

`withFailover`, `initNodeFailover` and the retry loop all observe one host, suspend, and act on
the module state they find later.  A configuration call in between may have replaced the hosts, so
the observation can be stale.  This module says exactly when an automatic switch is justified by
an observation of the host that is the primary at the time of the switch.
-/

namespace StoaCore
namespace Network

open Library.Transition

variable {α : Type}

/-! ## Calls remember their first attempt -/

/-- A call in its first attempt has invoked its callback once, with the URL captured at entry. -/
def CallsCoherent (s : Sys α) : Prop :=
  ∀ c ∈ s.calls, c.phase = .firstAttempt → c.invocations = [c.attemptedBaseUrl]

theorem callsCoherent_step {parseUrl : String → Option Url} (r : Rec α)
    (hvalid : r.Valid (failoverSystem parseUrl α)) (h : CallsCoherent r.pre) :
    CallsCoherent r.post := by
  intro c hc hphase
  rcases calls_of_valid hvalid with
    ⟨-, hcalls⟩ | ⟨id, outcome, c₀, mod, c', -, -, hsettle, hcalls⟩ | ⟨-, hcalls⟩
  · rw [hcalls] at hc
    rcases List.mem_append.1 hc with hc | hc
    · exact h c hc hphase
    · rw [List.mem_singleton.1 hc]
      rfl
  · rw [hcalls] at hc
    rcases List.mem_or_eq_of_mem_set hc with hc | rfl
    · exact h c hc hphase
    -- No settlement leads back to a first attempt.
    · rcases withFailoverSettle_cases hsettle with
        ⟨v, -, -, -, rfl⟩ | ⟨err, -, -, -, -, -, rfl⟩ | ⟨err, -, -, -, -, rfl⟩ | ⟨-, -, rfl⟩ <;>
        cases hphase
  · rw [hcalls] at hc
    exact h c hc hphase

/-! ## Observed failures -/

/-- The base URL a failed attempt or failed health check was made against. -/
def failedAgainst (s : Sys α) : Event α → Option String
  | .settleAttempt id (.error _) => (s.calls[id]?).bind fun c => c.invocations.getLast?
  | .settleProbe id outcome =>
      if isHealthy outcome then none else (s.probes[id]?).map fun p => chainwebRoot p.host
  | _ => none

/-- A failure that reaches `switchToFallback` was observed against the reported URL. -/
theorem failedAgainst_of_failureReport {s : Sys α} {e : Event α} {url : String}
    (hcalls : CallsCoherent s) (h : failureReport s e = some url) :
    failedAgainst s e = some url := by
  cases e with
  | settleAttempt id outcome =>
      cases outcome with
      | ok v => simp [failureReport] at h
      | error err =>
          simp only [failureReport] at h
          split at h
          · cases h
          · rename_i c hc
            split at h
            · rename_i hphase
              split at h
              · cases h
                -- A first attempt has gone to the captured URL, and to no other.
                have hinv := hcalls c (List.mem_of_getElem? hc) hphase
                simp [failedAgainst, hc, hinv]
              · cases h
            · cases h
  | settleProbe id outcome =>
      simp only [failureReport] at h
      split at h
      · rename_i host hp
        split at h
        · cases h
        · rename_i hhealthy
          cases h
          simp [failedAgainst, hp, hhealthy]
      · cases h
  | _ => simp [failureReport] at h

/-- A probe that reports a recovery has not failed. -/
theorem failedAgainst_of_recoveryReport {s : Sys α} {e : Event α} {host : String}
    (h : recoveryReport s e = some host) : failedAgainst s e = none := by
  cases e with
  | settleProbe id outcome =>
      simp only [recoveryReport] at h
      split at h
      · split at h
        · rename_i hhealthy
          simp [failedAgainst, hhealthy]
        · cases h
      · cases h
  | _ => simp [recoveryReport] at h

/-! ## Demotions -/

/-- An automatic switch of the active host from the primary to the fallback. -/
structure Demotes (r : Rec α) : Prop where
  automatic : ¬ r.event.IsConfiguration
  before : r.pre.mod.currentHost = r.pre.mod.primaryHost
  after : r.post.mod.currentHost = r.post.mod.fallbackHost
  moved : r.post.mod.currentHost ≠ r.pre.mod.currentHost

/-- A preset configuration (node1 or node2) is in force. -/
def Preset (s : FailoverState) : Prop :=
  (s.primaryHost = node2Host ∧ s.fallbackHost = node1Host) ∨
    (s.primaryHost = node1Host ∧ s.fallbackHost = node2Host)

theorem Preset.primary_ne_fallback {s : FailoverState} (h : Preset s) :
    s.primaryHost ≠ s.fallbackHost := by
  rcases h with ⟨hp, hf⟩ | ⟨hp, hf⟩ <;> rw [hp, hf] <;> decide

/-- What the failover client owes at one step: a demotion is caused by a failure against the host
that is the primary then, a failure never makes its own host the active one, and a retry under a
preset configuration does not go back to the URL that has just failed. -/
structure DemotionJustified (r : Rec α) : Prop where
  cause : Demotes r → failedAgainst r.pre r.event = some (getPrimaryBaseUrl r.pre.mod)
  other : ∀ url, failedAgainst r.pre r.event = some url →
    r.post.mod.currentHost ≠ r.pre.mod.currentHost → getActiveBaseUrl r.post.mod ≠ url
  retry : Preset r.pre.mod → ∀ id retried, .invoked id retried ∈ r.out →
    ∀ url, failedAgainst r.pre r.event = some url → retried ≠ url

def Event.IsAttempt : Event α → Prop
  | .settleAttempt .. => True
  | _ => False

/-- A failure is acted on while its host is still the primary, or it finds the client on the
fallback already and, where a retry follows, that fallback is another host than the failed one. -/
def ActsOnFreshFailure (s : Sys α) (e : Event α) : Prop :=
  ∀ url, failureReport s e = some url →
    url = getPrimaryBaseUrl s.mod ∨
      (s.mod.currentHost = s.mod.fallbackHost ∧
        (e.IsAttempt → Preset s.mod → url ≠ getActiveBaseUrl s.mod))

section Demotion

variable {parseUrl : String → Option Url} {r : Rec α}

/-- The callback is invoked again only after a reported failure, on the fallback. -/
theorem invoked_of_failedAgainst (hvalid : r.Valid (failoverSystem parseUrl α)) {id : Nat}
    {retried url : String} (hout : .invoked id retried ∈ r.out)
    (hfailed : failedAgainst r.pre r.event = some url) :
    r.event.IsAttempt ∧ failureReport r.pre r.event ≠ none ∧
      retried = chainwebRoot r.pre.mod.fallbackHost := by
  cases hevent : r.event with
  | settleAttempt n outcome =>
      rcases settleAttempt_inv hvalid hevent with ⟨c, mod, c', hc, hsettle, hpost, hr⟩
      rw [hr] at hout
      rcases withFailoverSettle_cases hsettle with
        ⟨v, -, -, -, rfl⟩ | ⟨err, hphase, rfl, hnet, hprim, -, rfl⟩ | ⟨err, -, -, -, -, rfl⟩ |
        ⟨-, -, rfl⟩
      · simp at hout
      · have hmem : retried = getActiveBaseUrl (switchToFallback r.pre.mod) := by
          have : id = n ∧ retried = getActiveBaseUrl (switchToFallback r.pre.mod) := by
            simpa using hout
          exact this.2
        refine ⟨trivial, ?_, by simpa [getActiveBaseUrl] using hmem⟩
        simp only [failureReport, hc, hphase]
        rw [if_pos ⟨hnet, hprim⟩]
        exact Option.some_ne_none _
      · simp at hout
      · simp at hout
  | settleProbe n outcome =>
      rcases settleProbe_inv hvalid hevent with ⟨p, -, -, -, hr⟩
      simp [hr] at hout
  | _ => simp [hevent, failedAgainst] at hfailed

/-- A reported first attempt is retried in the same step. -/
theorem invoked_of_failureReport (hvalid : r.Valid (failoverSystem parseUrl α))
    (hattempt : r.event.IsAttempt) {url : String}
    (hreport : failureReport r.pre r.event = some url) :
    ∃ id, .invoked id (chainwebRoot r.pre.mod.fallbackHost) ∈ r.out := by
  cases hevent : r.event with
  | settleAttempt n outcome =>
      rcases settleAttempt_inv hvalid hevent with ⟨c, mod, c', hc, hsettle, hpost, hr⟩
      rw [hevent] at hreport
      rcases withFailoverSettle_cases hsettle with
        ⟨v, -, rfl, -, -⟩ | ⟨err, -, -, -, -, -, rfl⟩ | ⟨err, hphase, rfl, hnet, -, -⟩ |
        ⟨hphase, -, -⟩
      · simp [failureReport] at hreport
      · exact ⟨n, by simp [hr, getActiveBaseUrl]⟩
      · simp only [failureReport, hc, hphase] at hreport
        rw [if_neg hnet] at hreport
        cases hreport
      · cases outcome with
        | ok v => simp [failureReport] at hreport
        | error err => simp [failureReport, hc, hphase] at hreport
  | _ => simp [hevent, Event.IsAttempt] at hattempt

/-- A report and a recovery, a configuration or an idle step exclude one another. -/
theorem post_of_failureReport (hvalid : r.Valid (failoverSystem parseUrl α))
    (hcalls : CallsCoherent r.pre) {url : String}
    (hreport : failureReport r.pre r.event = some url) :
    r.post.mod = switchToFallback r.pre.mod := by
  cases modStep_of_valid hvalid with
  | failure url' _ hmod => exact hmod
  | unchanged _ _ hnone =>
      rw [hnone] at hreport
      cases hreport
  | recovery host hrec =>
      have hfailed := failedAgainst_of_failureReport hcalls hreport
      rw [failedAgainst_of_recoveryReport hrec] at hfailed
      cases hfailed
  | configured selected customUrl limit hevent => simp [hevent, failureReport] at hreport
  | reset hevent => simp [hevent, failureReport] at hreport

theorem actsOnFreshFailure_of_justified (hvalid : r.Valid (failoverSystem parseUrl α))
    (hhost : OnKnownHost r.pre.mod) (hcalls : CallsCoherent r.pre) (hjust : DemotionJustified r) :
    ActsOnFreshFailure r.pre r.event := by
  intro url hreport
  by_cases hurl : url = getPrimaryBaseUrl r.pre.mod
  · exact Or.inl hurl
  have hfailed := failedAgainst_of_failureReport hcalls hreport
  have hmod := post_of_failureReport hvalid hcalls hreport
  -- With a stale report the client cannot have been on its primary, or the switch would be an
  -- unjustified demotion.
  have hcurrent : r.pre.mod.currentHost = r.pre.mod.fallbackHost := by
    by_contra hne
    have hdemotes : Demotes r := by
      refine ⟨?_, hhost.resolve_right hne, by simp [hmod], by simpa [hmod] using Ne.symm hne⟩
      intro hconf
      cases hevent : r.event <;>
        simp [hevent, failureReport, Event.IsConfiguration] at hreport hconf
    have hcause := hjust.cause hdemotes
    rw [hfailed] at hcause
    exact hurl (Option.some.inj hcause)
  refine Or.inr ⟨hcurrent, ?_⟩
  intro hattempt hpreset hactive
  rcases invoked_of_failureReport hvalid hattempt hreport with ⟨id, hout⟩
  apply hjust.retry hpreset id _ hout url hfailed
  rw [hactive, getActiveBaseUrl, hcurrent]

/-- Whatever moves the active host in a step with a failure is `switchToFallback`, and where it acts
on fresh failures that is the failure of the primary. -/
theorem moved_of_fresh (hvalid : r.Valid (failoverSystem parseUrl α))
    (hcalls : CallsCoherent r.pre) (hfresh : ActsOnFreshFailure r.pre r.event) {url : String}
    (hfailed : failedAgainst r.pre r.event = some url)
    (hne : r.post.mod.currentHost ≠ r.pre.mod.currentHost) :
    r.post.mod = switchToFallback r.pre.mod ∧ url = getPrimaryBaseUrl r.pre.mod := by
  cases modStep_of_valid hvalid with
  | unchanged _ hmod => exact absurd (by rw [hmod]) hne
  | failure url' hreport hmod =>
      have hurl : url' = url := by
        have hfailed' := failedAgainst_of_failureReport hcalls hreport
        exact Option.some.inj (hfailed'.symm.trans hfailed)
      subst hurl
      rcases hfresh url' hreport with heq | ⟨hcurrent, -⟩
      · exact ⟨hmod, heq⟩
      · exact absurd (by simp [hmod, hcurrent]) hne
  | recovery host hrec =>
      rw [failedAgainst_of_recoveryReport hrec] at hfailed
      cases hfailed
  | configured selected customUrl limit hevent => simp [hevent, failedAgainst] at hfailed
  | reset hevent => simp [hevent, failedAgainst] at hfailed

theorem justified_of_actsOnFreshFailure (hvalid : r.Valid (failoverSystem parseUrl α))
    (hhost : OnKnownHost r.pre.mod) (hcalls : CallsCoherent r.pre)
    (hfresh : ActsOnFreshFailure r.pre r.event) : DemotionJustified r where
  cause := by
    intro hdemotes
    cases modStep_of_valid hvalid with
    | unchanged _ hmod => exact absurd (by rw [hmod]) hdemotes.moved
    | failure url hreport hmod =>
        have hfailed := failedAgainst_of_failureReport hcalls hreport
        rw [hfailed, (moved_of_fresh hvalid hcalls hfresh hfailed hdemotes.moved).2]
    | recovery host _ hmod =>
        exact absurd (by simp [hmod, hdemotes.before]) hdemotes.moved
    | configured selected customUrl limit hevent =>
        exact absurd (by simp [hevent, Event.IsConfiguration]) hdemotes.automatic
    | reset hevent =>
        exact absurd (by simp [hevent, Event.IsConfiguration]) hdemotes.automatic
  other := by
    intro url hfailed hne hactive
    rcases moved_of_fresh hvalid hcalls hfresh hfailed hne with ⟨hmod, rfl⟩
    -- The new host would be primary and fallback at once, and then nothing has moved.
    have hback : r.post.mod.currentHost = r.pre.mod.primaryHost := chainwebRoot_inj.1 hactive
    have hfallback : r.post.mod.currentHost = r.pre.mod.fallbackHost := by simp [hmod]
    rcases hhost with hprimary | hcurrent
    · exact hne (hback.trans hprimary.symm)
    · exact hne (hfallback.trans hcurrent.symm)
  retry := by
    intro hpreset id retried hout url hfailed heq
    rcases invoked_of_failedAgainst hvalid hout hfailed with ⟨hattempt, hreport, hretried⟩
    rcases Option.ne_none_iff_exists'.1 hreport with ⟨url', hreport'⟩
    have hurl : url' = url :=
      Option.some.inj ((failedAgainst_of_failureReport hcalls hreport').symm.trans hfailed)
    subst hurl
    -- The retry goes to the fallback, which is neither the primary nor the URL of the report.
    rcases hfresh url' hreport' with hprimary | ⟨hcurrent, hother⟩
    · rw [hretried, hprimary] at heq
      exact hpreset.primary_ne_fallback (chainwebRoot_inj.1 heq).symm
    · apply hother hattempt hpreset
      rw [← heq, hretried, getActiveBaseUrl, hcurrent]

/-- One step is justified exactly when it acts on a fresh failure. -/
theorem demotionJustified_iff (hvalid : r.Valid (failoverSystem parseUrl α))
    (hhost : OnKnownHost r.pre.mod) (hcalls : CallsCoherent r.pre) :
    DemotionJustified r ↔ ActsOnFreshFailure r.pre r.event := by
  constructor
  · exact actsOnFreshFailure_of_justified hvalid hhost hcalls
  · exact justified_of_actsOnFreshFailure hvalid hhost hcalls

end Demotion

/-- The operation that `start` began and that `r` settles found the same primary at both ends, or
it finds the client on the fallback already and, where a retry follows, that fallback is another
host than the primary it began with. -/
def FailsOnItsPrimary (start r : Rec α) : Prop :=
  start.pre.mod.primaryHost = r.pre.mod.primaryHost ∨
    (r.pre.mod.currentHost = r.pre.mod.fallbackHost ∧
      (r.event.IsAttempt → Preset r.pre.mod →
        start.pre.mod.primaryHost ≠ r.pre.mod.fallbackHost))

/-- Tracing the reports of a run back to where their operations started. -/
theorem actsOnFreshFailure_iff {parseUrl : String → Option Url} {front : List (Rec α)}
    {r : Rec α} (hrun : Run (failoverSystem parseUrl α) Sys.load front r.pre) :
    ActsOnFreshFailure r.pre r.event ↔
      ∀ start ∈ front, StartedBy start r.event → failureReport r.pre r.event ≠ none →
        FailsOnItsPrimary start r := by
  constructor
  · intro hfresh start hmem hborn hreport
    rcases Option.ne_none_iff_exists'.1 hreport with ⟨url, hurl⟩
    -- The reported URL is the primary of the start.
    have hstart := (failureReport_history hrun hurl).2 start hmem hborn
    subst hstart
    rcases hfresh _ hurl with heq | ⟨hcurrent, hother⟩
    · exact Or.inl (chainwebRoot_inj.1 heq)
    · refine Or.inr ⟨hcurrent, ?_⟩
      intro hattempt hpreset heq
      apply hother hattempt hpreset
      rw [getPrimaryBaseUrl, getActiveBaseUrl, heq, hcurrent]
  · intro hsame url hurl
    rcases failureReport_history hrun hurl with ⟨⟨start, hmem, hborn⟩, hstart⟩
    rw [hstart start hmem hborn]
    rcases hsame start hmem hborn (by simp [hurl]) with heq | ⟨hcurrent, hother⟩
    · exact Or.inl (congrArg chainwebRoot heq)
    · refine Or.inr ⟨hcurrent, ?_⟩
      intro hattempt hpreset heq
      rw [← hcurrent] at hother
      exact hother hattempt hpreset (chainwebRoot_inj.1 heq)

/-- In every run, every step is justified iff every failure that is acted on comes from an
operation that found the same primary when it began, up to the harmless cases of
`FailsOnItsPrimary`. -/
theorem demotions_justified_iff (parseUrl : String → Option Url) {trace : List (Rec α)} {s : Sys α}
    (hrun : Run (failoverSystem parseUrl α) Sys.load trace s) :
    (∀ r ∈ trace, DemotionJustified r) ↔
      ∀ front r back, trace = front ++ r :: back → ∀ start ∈ front, StartedBy start r.event →
        failureReport r.pre r.event ≠ none → FailsOnItsPrimary start r := by
  have hhost := (onKnownHost_of_run hrun).2
  have hcalls := (hrun.invariant_of_forall CallsCoherent callsCoherent_step
    (fun c hc => by cases hc)).2
  -- Step by step the two sides agree; the history only renames the reports.
  have hiff : ∀ r ∈ trace, DemotionJustified r ↔ ActsOnFreshFailure r.pre r.event := fun r hr =>
    demotionJustified_iff (hrun.valid_of_mem r hr) (hhost r hr).1 (hcalls r hr).1
  constructor
  · intro h front r back htrace
    have hr : r ∈ trace := by simp [htrace]
    exact (actsOnFreshFailure_iff (hrun.before htrace)).1 ((hiff r hr).1 (h r hr))
  · intro h r hr
    rcases List.append_of_mem hr with ⟨front, back, htrace⟩
    exact (hiff r hr).2 ((actsOnFreshFailure_iff (hrun.before htrace)).2 (h front r back htrace))

/-- A call starts on node2, node1 is configured while it is pending, and the call then fails: the
client moves to node2, which has just failed, and retries there. -/
def staleFailureRun : List (Event Nat) :=
  [.startCall, .setNodeConfig .node1 none none,
    .settleAttempt 0 (.error ⟨none, some "Failed to fetch"⟩)]

theorem staleFailureRun_not_justified :
    ¬ ∀ (trace : List (Rec Nat)) (s : Sys Nat),
      Run (failoverSystem (fun _ => none) Nat) Sys.load trace s →
        ∀ r ∈ trace, DemotionJustified r := by
  intro h
  let sys := failoverSystem (fun _ => none) Nat
  let s := sys.final Sys.load (staleFailureRun.take 2)
  let t := sys.final Sys.load staleFailureRun
  let r : Rec Nat := ⟨s, .settleAttempt 0 (.error ⟨none, some "Failed to fetch"⟩),
    [.invoked 0 (chainwebRoot node2Host)], t⟩
  have hrun : Run sys Sys.load (sys.trace Sys.load (staleFailureRun.take 2) ++ [r]) t :=
    run_of_events staleFailureRun (by decide)
  have hjust := h _ _ hrun r (by simp)
  have hdemotes : Demotes r := ⟨by simp [r, Event.IsConfiguration], by decide, by decide, by decide⟩
  have hcause : failedAgainst s r.event = some (getPrimaryBaseUrl s.mod) := hjust.cause hdemotes
  exact absurd hcause (by decide)

theorem demotions_justified_iff_demotionRun :
    let trace := (failoverSystem (fun _ => none) Nat).trace Sys.load demotionRun
    (∀ r ∈ trace, DemotionJustified r) ↔
      ∀ front r back, trace = front ++ r :: back → ∀ start ∈ front, StartedBy start r.event →
        failureReport r.pre r.event ≠ none → FailsOnItsPrimary start r :=
  demotions_justified_iff (fun _ => none) (run_of_events demotionRun (by decide))

/-! ## Recoveries -/

/-- The host a successful health probe was made against. -/
def succeededAgainst (s : Sys α) : Event α → Option String
  | .settleProbe id outcome =>
      if isHealthy outcome then (s.probes[id]?).map fun p => p.host else none
  | _ => none

/-- The probe of a retry-loop tick completes. -/
def CompletesTick (s : Sys α) : Event α → Prop
  | .settleProbe id _ => ∃ p, s.probes[id]? = some p ∧ p.origin = .retryLoop
  | _ => False

/-- A retry-loop tick switches the active host from the fallback back to the primary. -/
structure Recovers (r : Rec α) : Prop where
  tick : CompletesTick r.pre r.event
  before : r.pre.mod.currentHost = r.pre.mod.fallbackHost
  after : r.post.mod.currentHost = r.post.mod.primaryHost
  moved : r.post.mod.currentHost ≠ r.pre.mod.currentHost

/-- The probe that made the switch was made against the host that is the primary then. -/
def RecoveryJustified (r : Rec α) : Prop :=
  Recovers r → succeededAgainst r.pre r.event = some r.pre.mod.primaryHost

/-- The successful probe of a tick was made against the host that is still the primary, or the
client is back on its primary when the probe completes. -/
def ActsOnFreshRecovery (s : Sys α) (e : Event α) : Prop :=
  ∀ host, recoveryReport s e = some host →
    host = s.mod.primaryHost ∨ s.mod.currentHost = s.mod.primaryHost

section Recovery

variable {parseUrl : String → Option Url} {r : Rec α}

theorem succeededAgainst_of_recoveryReport {s : Sys α} {e : Event α} {host : String}
    (h : recoveryReport s e = some host) :
    succeededAgainst s e = some host ∧ CompletesTick s e := by
  cases e with
  | settleProbe id outcome =>
      simp only [recoveryReport] at h
      split at h
      · rename_i host' hp
        split at h
        · rename_i hhealthy
          cases h
          exact ⟨by simp [succeededAgainst, hhealthy, hp], _, hp, rfl⟩
        · cases h
      · cases h
  | _ => simp [recoveryReport] at h

/-- A failed probe of `initNodeFailover` is no tick. -/
theorem not_completesTick_of_failureReport {s : Sys α} {e : Event α} {url : String}
    (h : failureReport s e = some url) : ¬ CompletesTick s e := by
  cases e with
  | settleProbe id outcome =>
      simp only [failureReport] at h
      split at h
      · rename_i host hp
        rintro ⟨p, hp', horigin⟩
        rw [hp] at hp'
        cases hp'
        cases horigin
      · cases h
  | _ => simp [CompletesTick]

theorem recoveryJustified_iff (hvalid : r.Valid (failoverSystem parseUrl α))
    (hhost : OnKnownHost r.pre.mod) :
    RecoveryJustified r ↔ ActsOnFreshRecovery r.pre r.event := by
  constructor
  · intro hjust host hreport
    by_cases hcurrent : r.pre.mod.currentHost = r.pre.mod.primaryHost
    · exact Or.inr hcurrent
    rcases succeededAgainst_of_recoveryReport hreport with ⟨hsucceeded, htick⟩
    have hmod : r.post.mod = switchToPrimary r.pre.mod := by
      cases modStep_of_valid hvalid with
      | recovery host' _ hmod => exact hmod
      | unchanged _ _ _ hnone => rw [hnone] at hreport; cases hreport
      | failure url hfail => exact absurd htick (not_completesTick_of_failureReport hfail)
      | configured selected customUrl limit hevent => simp [hevent, recoveryReport] at hreport
      | reset hevent => simp [hevent, recoveryReport] at hreport
    -- Off its primary, the switch moves the client, so it is a recovery and has to be justified.
    have hrecovers : Recovers r :=
      ⟨htick, hhost.resolve_left hcurrent, by simp [hmod], by simpa [hmod] using Ne.symm hcurrent⟩
    have hprimary := hjust hrecovers
    rw [hsucceeded] at hprimary
    exact Or.inl (Option.some.inj hprimary)
  · intro hfresh hrecovers
    cases modStep_of_valid hvalid with
    | unchanged _ hmod => exact absurd (by rw [hmod]) hrecovers.moved
    | failure url hfail =>
        exact absurd hrecovers.tick (not_completesTick_of_failureReport hfail)
    | recovery host hreport hmod =>
        rw [(succeededAgainst_of_recoveryReport hreport).1]
        rcases hfresh host hreport with hprimary | hcurrent
        · rw [hprimary]
        · exact absurd (by simp [hmod, hcurrent]) hrecovers.moved
    | configured selected customUrl limit hevent =>
        have htick := hrecovers.tick
        simp [hevent, CompletesTick] at htick
    | reset hevent =>
        have htick := hrecovers.tick
        simp [hevent, CompletesTick] at htick

end Recovery

/-- The probe that `start` began and that `r` settles found the same primary at both ends, or it
finds the client back on its primary already. -/
def RecoversItsPrimary (start r : Rec α) : Prop :=
  start.pre.mod.primaryHost = r.pre.mod.primaryHost ∨
    r.pre.mod.currentHost = r.pre.mod.primaryHost

theorem actsOnFreshRecovery_iff {parseUrl : String → Option Url} {front : List (Rec α)}
    {r : Rec α} (hrun : Run (failoverSystem parseUrl α) Sys.load front r.pre) :
    ActsOnFreshRecovery r.pre r.event ↔
      ∀ start ∈ front, StartedBy start r.event → recoveryReport r.pre r.event ≠ none →
        RecoversItsPrimary start r := by
  constructor
  · intro hfresh start hmem hborn hreport
    rcases Option.ne_none_iff_exists'.1 hreport with ⟨host, hhost⟩
    have hstart := (recoveryReport_history hrun hhost).2 start hmem hborn
    subst hstart
    exact hfresh _ hhost
  · intro hsame host hhost
    rcases recoveryReport_history hrun hhost with ⟨⟨start, hmem, hborn⟩, hstart⟩
    rw [hstart start hmem hborn]
    exact hsame start hmem hborn (by simp [hhost])

/-- In every run, every recovery is justified iff every successful probe that is acted on found
the same primary when it began, or finds the client back on its primary. -/
theorem recoveries_justified_iff (parseUrl : String → Option Url) {trace : List (Rec α)}
    {s : Sys α} (hrun : Run (failoverSystem parseUrl α) Sys.load trace s) :
    (∀ r ∈ trace, RecoveryJustified r) ↔
      ∀ front r back, trace = front ++ r :: back → ∀ start ∈ front, StartedBy start r.event →
        recoveryReport r.pre r.event ≠ none → RecoversItsPrimary start r := by
  have hiff : ∀ r ∈ trace, RecoveryJustified r ↔ ActsOnFreshRecovery r.pre r.event := fun r hr =>
    recoveryJustified_iff (hrun.valid_of_mem r hr) ((onKnownHost_of_run hrun).2 r hr).1
  constructor
  · intro h front r back htrace
    have hr : r ∈ trace := by simp [htrace]
    exact (actsOnFreshRecovery_iff (hrun.before htrace)).1 ((hiff r hr).1 (h r hr))
  · intro h r hr
    rcases List.append_of_mem hr with ⟨front, back, htrace⟩
    exact (hiff r hr).2 ((actsOnFreshRecovery_iff (hrun.before htrace)).2 (h front r back htrace))

/-- A tick probes node2, node1 is configured while the probe is in flight, node1 fails, and the
probe of node2 then succeeds: the client moves to node1, which nobody has found healthy. -/
def staleRecoveryRun : List (Event Nat) :=
  [.startCall, .settleAttempt 0 (.error ⟨none, some "Failed to fetch"⟩), .tick 0,
    .setNodeConfig .node1 none none, .startCall,
    .settleAttempt 1 (.error ⟨none, some "Failed to fetch"⟩), .settleProbe 0 (.response true)]

theorem staleRecoveryRun_not_justified :
    ¬ ∀ (trace : List (Rec Nat)) (s : Sys Nat),
      Run (failoverSystem (fun _ => none) Nat) Sys.load trace s →
        ∀ r ∈ trace, RecoveryJustified r := by
  intro h
  let sys := failoverSystem (fun _ => none) Nat
  let s := sys.final Sys.load (staleRecoveryRun.take 6)
  let t := sys.final Sys.load staleRecoveryRun
  let r : Rec Nat := ⟨s, .settleProbe 0 (.response true), [], t⟩
  have hrun : Run sys Sys.load (sys.trace Sys.load (staleRecoveryRun.take 6) ++ [r]) t :=
    run_of_events staleRecoveryRun (by decide)
  have hjust := h _ _ hrun r (by simp)
  have hrecovers : Recovers r := ⟨⟨_, rfl, rfl⟩, by decide, by decide, by decide⟩
  have hprimary : succeededAgainst s r.event = some s.mod.primaryHost := hjust hrecovers
  exact absurd hprimary (by decide)

theorem recoveries_justified_iff_demotionRun :
    let trace := (failoverSystem (fun _ => none) Nat).trace Sys.load demotionRun
    (∀ r ∈ trace, RecoveryJustified r) ↔
      ∀ front r back, trace = front ++ r :: back → ∀ start ∈ front, StartedBy start r.event →
        recoveryReport r.pre r.event ≠ none → RecoversItsPrimary start r :=
  recoveries_justified_iff (fun _ => none) (run_of_events demotionRun (by decide))

end Network
end StoaCore
