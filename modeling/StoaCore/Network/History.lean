import StoaCore.Network.FailoverInvariant

/-!
# History — which earlier step started the operation that settles now

A pending call or probe is an entry of a table; only the step that starts an operation adds its
entry, and later steps keep what the entry captured.  So a settlement can be traced back to the
one step of the run in which its operation read the module state.
-/

namespace StoaCore
namespace Network

open Library.Transition

variable {α : Type}

/-! ## Where a pending operation started -/

/-- The record `start` starts the operation that the event settles. -/
def StartedBy (start : Rec α) : Event α → Prop
  | .settleAttempt id _ => start.event = .startCall ∧ start.pre.calls.length = id
  | .settleProbe id _ =>
      ((∃ timer, start.event = .tick timer) ∨ start.event = .startInit) ∧
        start.pre.probes.length = id
  | _ => False

/-- Call number `id` was started under the module state `m`. -/
def CallFrom (m : FailoverState) (id : Nat) (s : Sys α) : Prop :=
  ∃ c, s.calls[id]? = some c ∧ c.attemptedBaseUrl = getActiveBaseUrl m ∧
    c.attemptedPrimaryBaseUrl = getPrimaryBaseUrl m

/-- Probe number `id` was started against `host`. -/
def ProbeOf (host : String) (id : Nat) (s : Sys α) : Prop :=
  ∃ p, s.probes[id]? = some p ∧ p.host = host

section History

variable {parseUrl : String → Option Url} {r : Rec α}

theorem captured_of_settle {s s' : FailoverState} {c c' : Call α} {outcome : Except JsError α}
    (h : withFailoverSettle s c outcome = some (s', c')) :
    c'.attemptedBaseUrl = c.attemptedBaseUrl ∧
      c'.attemptedPrimaryBaseUrl = c.attemptedPrimaryBaseUrl := by
  rcases withFailoverSettle_cases h with
    ⟨v, -, -, -, rfl⟩ | ⟨err, -, -, -, -, -, rfl⟩ | ⟨err, -, -, -, -, rfl⟩ | ⟨-, -, rfl⟩ <;>
    exact ⟨rfl, rfl⟩

/-- The calls after a step: one more after `startCall`, one replaced by its continuation after a
settlement, else the same. -/
theorem calls_of_valid (hvalid : r.Valid (failoverSystem parseUrl α)) :
    (r.event = .startCall ∧ r.post.calls = r.pre.calls ++ [withFailoverStart r.pre.mod]) ∨
    (∃ id outcome c mod c', r.event = .settleAttempt id outcome ∧ r.pre.calls[id]? = some c ∧
      withFailoverSettle r.pre.mod c outcome = some (mod, c') ∧
      r.post.calls = r.pre.calls.set id c') ∨
    (r.event ≠ .startCall ∧ r.post.calls = r.pre.calls) := by
  have hstep := step_of_valid hvalid rfl
  cases hevent : r.event with
  | startCall =>
      simp only [hevent, step, Option.some.injEq, Prod.mk.injEq] at hstep
      exact Or.inl ⟨rfl, by rw [← hstep.1]⟩
  | settleAttempt id outcome =>
      rcases settleAttempt_inv hvalid hevent with ⟨c, mod, c', hc, hsettle, hpost, -⟩
      exact Or.inr (Or.inl ⟨id, outcome, c, mod, c', rfl, hc, hsettle, by rw [hpost]⟩)
  | tick timer =>
      simp only [hevent, step] at hstep
      split at hstep
      · simp only [Option.some.injEq, Prod.mk.injEq] at hstep
        exact Or.inr (Or.inr ⟨by simp, (congrArg Sys.calls hstep.1).symm⟩)
      · cases hstep
  | settleProbe id outcome =>
      rcases settleProbe_inv hvalid hevent with ⟨p, -, -, hpost, -⟩
      exact Or.inr (Or.inr ⟨by simp, by rw [hpost]⟩)
  | setNodeConfig selected customUrl limit =>
      simp only [hevent, step] at hstep
      split at hstep <;> simp only [Option.some.injEq, Prod.mk.injEq] at hstep <;>
        exact Or.inr (Or.inr ⟨by simp, (congrArg Sys.calls hstep.1).symm⟩)
  | _ =>
      simp only [hevent, step, Option.some.injEq, Prod.mk.injEq] at hstep
      exact Or.inr (Or.inr ⟨by simp, (congrArg Sys.calls hstep.1).symm⟩)

/-- The probes after a step: one more against the primary after a tick or `initNodeFailover`, one
marked as settled, else the same. -/
theorem probes_of_valid (hvalid : r.Valid (failoverSystem parseUrl α)) :
    (((∃ timer, r.event = .tick timer) ∨ r.event = .startInit) ∧
      ∃ origin, r.post.probes = r.pre.probes ++ [⟨origin, r.pre.mod.primaryHost, false⟩]) ∨
    (∃ id outcome p, r.pre.probes[id]? = some p ∧
      r.event = .settleProbe id outcome ∧
      r.post.probes = r.pre.probes.set id { p with settled := true }) ∨
    (¬ ((∃ timer, r.event = .tick timer) ∨ r.event = .startInit) ∧
      r.post.probes = r.pre.probes) := by
  have hstep := step_of_valid hvalid rfl
  cases hevent : r.event with
  | startInit =>
      simp only [hevent, step, Option.some.injEq, Prod.mk.injEq] at hstep
      exact Or.inl ⟨Or.inr rfl, _, (congrArg Sys.probes hstep.1).symm⟩
  | settleAttempt id outcome =>
      rcases settleAttempt_inv hvalid hevent with ⟨c, mod, c', -, -, hpost, -⟩
      exact Or.inr (Or.inr ⟨by simp, by rw [hpost]⟩)
  | tick timer =>
      simp only [hevent, step] at hstep
      split at hstep
      · simp only [Option.some.injEq, Prod.mk.injEq] at hstep
        exact Or.inl ⟨Or.inl ⟨timer, rfl⟩, _, (congrArg Sys.probes hstep.1).symm⟩
      · cases hstep
  | settleProbe id outcome =>
      rcases settleProbe_inv hvalid hevent with ⟨p, hp, -, hpost, -⟩
      exact Or.inr (Or.inl ⟨id, outcome, p, hp, rfl, by rw [hpost]⟩)
  | setNodeConfig selected customUrl limit =>
      simp only [hevent, step] at hstep
      split at hstep <;> simp only [Option.some.injEq, Prod.mk.injEq] at hstep <;>
        exact Or.inr (Or.inr ⟨by simp, (congrArg Sys.probes hstep.1).symm⟩)
  | _ =>
      simp only [hevent, step, Option.some.injEq, Prod.mk.injEq] at hstep
      exact Or.inr (Or.inr ⟨by simp, (congrArg Sys.probes hstep.1).symm⟩)

/-- A call keeps what it captured, and it came into being in the step that started it. -/
theorem callFrom_step (hvalid : r.Valid (failoverSystem parseUrl α)) (m : FailoverState)
    (id : Nat) :
    CallFrom m id r.post ↔
      CallFrom m id r.pre ∨
        (r.event = .startCall ∧ r.pre.calls.length = id ∧
          getActiveBaseUrl r.pre.mod = getActiveBaseUrl m ∧
          getPrimaryBaseUrl r.pre.mod = getPrimaryBaseUrl m) := by
  unfold CallFrom
  rcases calls_of_valid hvalid with
    ⟨hevent, hcalls⟩ | ⟨n, outcome, c₀, mod, c', hevent, hc₀, hsettle, hcalls⟩ | ⟨hevent, hcalls⟩
  · rw [hcalls]
    -- Older entries stay, the new one is at the end, and there is nothing beyond.
    rcases Nat.lt_trichotomy id r.pre.calls.length with hlt | heq | hgt
    · simp [List.getElem?_append_left hlt, Nat.ne_of_gt hlt]
    · subst heq
      simp [hevent, withFailoverStart]
    · have hnone : r.pre.calls[id]? = none := List.getElem?_eq_none (by omega)
      have hnone' : (r.pre.calls ++ [withFailoverStart r.pre.mod])[id]? = none :=
        List.getElem?_eq_none (by simp; omega)
      simp [hnone, hnone', Nat.ne_of_lt hgt]
  · rw [hcalls]
    -- A settlement replaces one entry and keeps what that entry captured.
    have hcaptured := captured_of_settle hsettle
    by_cases hid : n = id
    · subst hid
      have hlt : n < r.pre.calls.length := (List.getElem?_eq_some_iff.1 hc₀).1
      simp [hevent, hc₀, List.getElem?_set_self hlt, hcaptured.1, hcaptured.2]
    · simp [hevent, List.getElem?_set_ne hid]
  · simp [hcalls, hevent]

/-- A probe keeps its host, and it came into being in the step that started it. -/
theorem probeOf_step (hvalid : r.Valid (failoverSystem parseUrl α)) (host : String) (id : Nat) :
    ProbeOf host id r.post ↔
      ProbeOf host id r.pre ∨
        (((∃ timer, r.event = .tick timer) ∨ r.event = .startInit) ∧
          r.pre.probes.length = id ∧ r.pre.mod.primaryHost = host) := by
  unfold ProbeOf
  rcases probes_of_valid hvalid with
    ⟨hevent, origin, hprobes⟩ | ⟨n, outcome, p, hp, hevent, hprobes⟩ | ⟨hevent, hprobes⟩
  · rw [hprobes]
    -- The table grows at its end only.
    rcases Nat.lt_trichotomy id r.pre.probes.length with hlt | heq | hgt
    · simp [List.getElem?_append_left hlt, Nat.ne_of_gt hlt]
    · subst heq
      simp [hevent]
    · have hnone : r.pre.probes[id]? = none := List.getElem?_eq_none (by omega)
      have hnone' : (r.pre.probes ++ [⟨origin, r.pre.mod.primaryHost, false⟩])[id]? = none :=
        List.getElem?_eq_none (by simp; omega)
      simp [hnone, hnone', Nat.ne_of_lt hgt]
  · rw [hprobes]
    by_cases hid : n = id
    · subst hid
      have hlt : n < r.pre.probes.length := (List.getElem?_eq_some_iff.1 hp).1
      simp [hevent, hp, List.getElem?_set_self hlt]
    · simp [hevent, List.getElem?_set_ne hid]
  · simp [hprobes, hevent]

variable {front : List (Rec α)} {s : Sys α}

/-- Call number `id` was started by an earlier step, and it captured the state of that step. -/
theorem call_history (hrun : Run (failoverSystem parseUrl α) Sys.load front s) {id : Nat}
    {c : Call α} (hc : s.calls[id]? = some c) :
    (∃ start ∈ front, start.event = .startCall ∧ start.pre.calls.length = id) ∧
      ∀ start ∈ front, start.event = .startCall → start.pre.calls.length = id →
        c.attemptedBaseUrl = getActiveBaseUrl start.pre.mod ∧
          c.attemptedPrimaryBaseUrl = getPrimaryBaseUrl start.pre.mod := by
  constructor
  -- The table was empty at module load, so some step has made it longer than `id`.
  · have hlt : id < s.calls.length := (List.getElem?_eq_some_iff.1 hc).1
    rcases hrun.exists_crossing (fun s => id < s.calls.length) (by simp [Sys.load]) hlt with
      ⟨start, hstart, hbefore, hafter⟩
    refine ⟨start, hstart, ?_⟩
    rcases calls_of_valid (hrun.valid_of_mem start hstart) with
      ⟨hevent, hcalls⟩ | ⟨n, outcome, c₀, mod, c', -, -, -, hcalls⟩ | ⟨-, hcalls⟩
    · rw [hcalls, List.length_append, List.length_singleton] at hafter
      exact ⟨hevent, by omega⟩
    · rw [hcalls, List.length_set] at hafter
      exact absurd hafter hbefore
    · rw [hcalls] at hafter
      exact absurd hafter hbefore
  · intro start hstart hevent hid
    -- From the step that starts the call on, its entry keeps the captured URLs.
    have hborn : CallFrom start.pre.mod id start.post :=
      (callFrom_step (hrun.valid_of_mem start hstart) _ _).2 (Or.inr ⟨hevent, hid, rfl, rfl⟩)
    rcases hrun.persists (CallFrom start.pre.mod id)
      (fun r hr h => (callFrom_step hr _ _).2 (Or.inl h)) hstart hborn with ⟨c', hc', hcaptured⟩
    rw [hc] at hc'
    cases hc'
    exact hcaptured

/-- Probe number `id` was started by an earlier step, against the primary of that step. -/
theorem probe_history (hrun : Run (failoverSystem parseUrl α) Sys.load front s) {id : Nat}
    {p : Probe} (hp : s.probes[id]? = some p) :
    (∃ start ∈ front, ((∃ timer, start.event = .tick timer) ∨ start.event = .startInit) ∧
        start.pre.probes.length = id) ∧
      ∀ start ∈ front, ((∃ timer, start.event = .tick timer) ∨ start.event = .startInit) →
        start.pre.probes.length = id → p.host = start.pre.mod.primaryHost := by
  constructor
  -- The same crossing argument for the probes.
  · have hlt : id < s.probes.length := (List.getElem?_eq_some_iff.1 hp).1
    rcases hrun.exists_crossing (fun s => id < s.probes.length) (by simp [Sys.load]) hlt with
      ⟨start, hstart, hbefore, hafter⟩
    refine ⟨start, hstart, ?_⟩
    rcases probes_of_valid (hrun.valid_of_mem start hstart) with
      ⟨hevent, origin, hprobes⟩ | ⟨n, outcome, p', -, -, hprobes⟩ | ⟨-, hprobes⟩
    · rw [hprobes, List.length_append, List.length_singleton] at hafter
      exact ⟨hevent, by omega⟩
    · rw [hprobes, List.length_set] at hafter
      exact absurd hafter hbefore
    · rw [hprobes] at hafter
      exact absurd hafter hbefore
  · intro start hstart hevent hid
    -- From the step that starts the probe on, its entry keeps its host.
    have hborn : ProbeOf start.pre.mod.primaryHost id start.post :=
      (probeOf_step (hrun.valid_of_mem start hstart) _ _).2 (Or.inr ⟨hevent, hid, rfl⟩)
    rcases hrun.persists (ProbeOf start.pre.mod.primaryHost id)
      (fun r hr h => (probeOf_step hr _ _).2 (Or.inl h)) hstart hborn with ⟨p', hp', hhost⟩
    rw [hp] at hp'
    cases hp'
    exact hhost

/-! ## Reports trace back to the primary of their start -/

/-- A reported failure is a failure against the host that was the primary when the operation
started. -/
theorem failureReport_history (hrun : Run (failoverSystem parseUrl α) Sys.load front s)
    {e : Event α} {url : String} (hreport : failureReport s e = some url) :
    (∃ start ∈ front, StartedBy start e) ∧
      ∀ start ∈ front, StartedBy start e → url = getPrimaryBaseUrl start.pre.mod := by
  cases e with
  | settleAttempt id outcome =>
      cases outcome with
      | ok v => simp [failureReport] at hreport
      | error err =>
          simp only [failureReport] at hreport
          split at hreport
          · cases hreport
          · rename_i c hc
            split at hreport
            · split at hreport
              · rename_i hprim
                cases hreport
                rcases call_history hrun hc with ⟨hstart, hcaptured⟩
                refine ⟨hstart, ?_⟩
                intro start hmem hborn
                rw [hprim.2, (hcaptured start hmem hborn.1 hborn.2).2]
              · cases hreport
            · cases hreport
  | settleProbe id outcome =>
      simp only [failureReport] at hreport
      split at hreport
      · rename_i host hp
        split at hreport
        · cases hreport
        · cases hreport
          rcases probe_history hrun hp with ⟨hstart, hhost⟩
          refine ⟨hstart, ?_⟩
          intro start hmem hborn
          exact congrArg chainwebRoot (hhost start hmem hborn.1 hborn.2)
      · cases hreport
  | _ => simp [failureReport] at hreport

/-- A reported recovery is a successful probe of the host that was the primary when the probe
started. -/
theorem recoveryReport_history (hrun : Run (failoverSystem parseUrl α) Sys.load front s)
    {e : Event α} {host : String} (hreport : recoveryReport s e = some host) :
    (∃ start ∈ front, StartedBy start e) ∧
      ∀ start ∈ front, StartedBy start e → host = start.pre.mod.primaryHost := by
  cases e with
  | settleProbe id outcome =>
      simp only [recoveryReport] at hreport
      split at hreport
      · rename_i host' hp
        split at hreport
        · cases hreport
          rcases probe_history hrun hp with ⟨hstart, hhost⟩
          exact ⟨hstart, fun start hmem hborn => hhost start hmem hborn.1 hborn.2⟩
        · cases hreport
      · cases hreport
  | _ => simp [recoveryReport] at hreport

end History

end Network
end StoaCore
