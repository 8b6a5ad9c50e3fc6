import StoaCore.Network.ClientRuns

/-!
# OutcomeSpec — what the methods of the failover client come to

The specification of a method says what it does by the outcomes of its attempts, without the three
wrappers: one attempt, or a second one on the fallback, and the last outcome as the method settles
with it.  Every run refines it, in whatever order the attempts end and whatever else goes on.
-/

namespace StoaCore
namespace Network

open Library
open Library.Js
open Library.EventLoop
open Library.Transition

variable {α : Type}

/-! ## The specification -/

/-- What a method settles with by the outcome of its last attempt. -/
inductive SettlesWith : Except JsError α → Except ClientError α → Prop
  | value (v : α) : SettlesWith (.ok v) (.ok v)
  | timeout (err : JsError) (error : SigningError) (habort : err.name = some "AbortError")
      (hcode : error.code = "TIMEOUT") (horiginal : error.originalError = err) :
      SettlesWith (.error err) (.error (.signing error))
  | unchanged (err : JsError) (hother : err.name ≠ some "AbortError") :
      SettlesWith (.error err) (.error (.thrown err))

/-- What a method has done by the outcomes of its attempts; `primary` and `fallback` are the base
URLs of the two nodes. -/
inductive OutcomeSpec (l : DeadlineLoop α) (primary fallback : String) (m : Method α) : Prop
  | first (baseUrl : String) (a : Attempt) (hattempts : m.attempts = [a])
      (hbase : baseUrl = primary ∨ baseUrl = fallback)
      (hbegun : Begun l m.call (m.call.pactUrl baseUrl) a) (hsettled : m.settled = none)
  | once (baseUrl : String) (a : Attempt) (o : Except JsError α) (result : Except ClientError α)
      (hattempts : m.attempts = [a]) (hbase : baseUrl = primary ∨ baseUrl = fallback)
      (hbegun : Begun l m.call (m.call.pactUrl baseUrl) a) (hended : Ended l a o)
      (honly : baseUrl = fallback ∨ ∀ err, o = .error err → isNetworkError err = false)
      (hsettled : m.settled = some result) (hresult : SettlesWith o result)
  | retrying (a b : Attempt) (err : JsError) (hattempts : m.attempts = [a, b])
      (hdistinct : a.invocation ≠ b.invocation) (hmoved : primary ≠ fallback)
      (hfirst : Begun l m.call (m.call.pactUrl primary) a) (hfailed : Ended l a (.error err))
      (hnetwork : isNetworkError err = true)
      (hsecond : Begun l m.call (m.call.pactUrl fallback) b) (hsettled : m.settled = none)
  | twice (a b : Attempt) (err : JsError) (o : Except JsError α) (result : Except ClientError α)
      (hattempts : m.attempts = [a, b]) (hdistinct : a.invocation ≠ b.invocation)
      (hmoved : primary ≠ fallback) (hfirst : Begun l m.call (m.call.pactUrl primary) a)
      (hfailed : Ended l a (.error err)) (hnetwork : isNetworkError err = true)
      (hsecond : Begun l m.call (m.call.pactUrl fallback) b) (hended : Ended l b o)
      (hsettled : m.settled = some result) (hresult : SettlesWith o result)

theorem settlesWith_outerBoundaryConvert (operation : String) (timeoutMs : Option Number)
    (o : Except JsError α) : SettlesWith o (outerBoundaryConvert operation timeoutMs o) := by
  cases o with
  | ok v => exact .value v
  | error err =>
      by_cases habort : err.name = some "AbortError"
      · rw [outerBoundaryConvert, if_pos habort]
        exact .timeout err _ habort rfl rfl
      · rw [outerBoundaryConvert, if_neg habort]
        exact .unchanged err habort

theorem ended_unique {l : DeadlineLoop α} {a : Attempt} {o o' : Except JsError α}
    (h : Ended l a o) (h' : Ended l a o') : o = o' := by
  rcases h with ⟨i, hi, ho⟩
  rcases h' with ⟨i', hi', ho'⟩
  cases hi.symm.trans hi'
  exact Option.some.inj (ho.symm.trans ho')

section Spec

variable {l : DeadlineLoop α} {primary fallback : String} {m : Method α} {c : Call α}

/-- A call in its first attempt belongs to a method with one attempt. -/
theorem attempts_of_firstAttempt (h : Linked l m c) (htracked : Tracked primary fallback c)
    (hphase : c.phase = .firstAttempt) :
    ∃ a, m.attempts = [a] ∧ Begun l m.call (m.call.pactUrl c.attemptedBaseUrl) a := by
  have hcontract := htracked.contract
  rw [RetryContract, hphase] at hcontract
  have hbegun := h.begun
  rw [hcontract.1] at hbegun
  rcases List.forall₂_cons_left_iff.1 hbegun with ⟨a, rest, ha, hrest, hattempts⟩
  rw [List.forall₂_nil_left_iff.1 hrest] at hattempts
  exact ⟨a, hattempts, ha⟩

/-- A call that keeps its retry contract is a method that meets the specification. -/
theorem outcomeSpec_of_linked (h : Linked l m c) (htracked : Tracked primary fallback c)
    (hmoved : primary ≠ fallback) : OutcomeSpec l primary fallback m := by
  have hcontract := htracked.contract
  unfold RetryContract at hcontract
  have hbegun := h.begun
  have hconvert := settlesWith_outerBoundaryConvert (α := α) m.call.operation m.call.timeoutMs
  cases hphase : c.phase with
  | firstAttempt =>
      rcases attempts_of_firstAttempt h htracked hphase with ⟨a, hattempts, ha⟩
      rcases h.ended with ⟨front, b, -, -, -, hopen⟩ | ⟨o, -, hsettled, -⟩
      · exact .first _ a hattempts htracked.known ha hopen
      · cases hphase.symm.trans hsettled
  | retry =>
      rw [hphase] at hcontract
      rcases hcontract with ⟨err, hnetwork, -, hinvocations, houtcomes⟩
      rcases h.ended with ⟨front, b, hattempts, hended, -, hopen⟩ | ⟨o, -, hsettled, -⟩
      · rw [houtcomes] at hended
        rcases List.forall₂_cons_right_iff.1 hended with ⟨a, rest, ha, hrest, rfl⟩
        rw [List.forall₂_nil_right_iff.1 hrest] at hattempts
        have hdistinct := h.distinct
        rw [hinvocations, hattempts] at hbegun
        rw [hattempts] at hdistinct
        rcases hbegun with _ | ⟨hfirst, hbegun⟩
        rcases hbegun with _ | ⟨hsecond, -⟩
        exact .retrying a b err hattempts (by simpa using hdistinct) hmoved hfirst ha hnetwork
          hsecond hopen
      · cases hphase.symm.trans hsettled
  | settled o =>
      rw [hphase] at hcontract
      rcases h.ended with ⟨front, b, -, -, hpending, -⟩ | ⟨o', hended, hsettled, hresult⟩
      · exact absurd hphase (hpending o)
      · cases hphase.symm.trans hsettled
        rcases hcontract with ⟨hinvocations, houtcomes, honly⟩ |
          ⟨err, hnetwork, -, hinvocations, houtcomes⟩
        · rw [houtcomes] at hended
          rcases List.forall₂_cons_right_iff.1 hended with ⟨a, rest, ha, hrest, hattempts⟩
          rw [List.forall₂_nil_right_iff.1 hrest] at hattempts
          rw [hinvocations, hattempts] at hbegun
          rcases hbegun with _ | ⟨hfirst, -⟩
          refine .once _ a o _ hattempts htracked.known hfirst ha ?_ hresult (hconvert o)
          refine htracked.known.symm.imp_right fun hprimary err herr => ?_
          exact Bool.eq_false_of_not_eq_true fun hnetwork => honly err herr ⟨hnetwork, hprimary⟩
        · rw [houtcomes] at hended
          rcases List.forall₂_cons_right_iff.1 hended with ⟨a, rest, ha, hrest, hattempts⟩
          rcases List.forall₂_cons_right_iff.1 hrest with ⟨b, rest', hb, hrest', rfl⟩
          rw [List.forall₂_nil_right_iff.1 hrest'] at hattempts
          have hdistinct := h.distinct
          rw [hinvocations, hattempts] at hbegun
          rw [hattempts] at hdistinct
          rcases hbegun with _ | ⟨hfirst, hbegun⟩
          rcases hbegun with _ | ⟨hsecond, -⟩
          exact .twice a b err o _ hattempts (by simpa using hdistinct) hmoved hfirst ha hnetwork
            hsecond hb hresult (hconvert o)

end Spec

/-! ## Runs under a fixed preset -/

/-- The step is no configuration call. -/
def FixedConfiguration (r : ClientRec α) : Prop :=
  match r.event with
  | .failover event => ¬ event.IsConfiguration
  | _ => True

instance (r : ClientRec α) : Decidable (FixedConfiguration r) := by
  unfold FixedConfiguration
  split <;> infer_instance

/-- Method number `n` refines its specification in the state `s`. -/
structure RefinesSpec (parseUrl : String → Option Url) (s : ClientSys α)
    (primary fallback : String) (n : Nat) (m : Method α) : Prop where
  call : m.call = m.entry.call n
  valid : m.entry.ValidTimeouts → isValidTimeout m.call.timeoutMs = true
  outcome : OutcomeSpec s.loop primary fallback m
  /-- No other invocation has the controller of an attempt. -/
  controllers : ∀ a ∈ m.attempts, ∀ (i : Invocation α) (controller : Nat),
    s.loop.parts[a.invocation]? = some i → i.controller = some controller →
    ∀ (id : Nat) (j : Invocation α), s.loop.parts[id]? = some j → j.controller = some controller →
      id = a.invocation
  /-- No other method has an attempt in common with it. -/
  alone : ∀ (n' : Nat) (m' : Method α), n' ≠ n → s.methods[n']? = some m' →
    ∀ a ∈ m.attempts, ∀ a' ∈ m'.attempts, a.invocation ≠ a'.invocation
  /-- Once its last attempt has ended, the method settles or makes its second attempt. -/
  goesOn : m.settled = none → ∀ outcome, s.ended m = some outcome → ∀ worker, ∃ t m',
    s.step parseUrl (.resume n worker) = some (t, ()) ∧ t.methods[n]? = some m' ∧
      ((∃ result, m'.settled = some result ∧ SettlesWith outcome result) ∨
        ∃ a b, m.attempts = [a] ∧ m'.attempts = [a, b])
  /-- A time-out on the primary is not seen where the fallback answers. -/
  recovers : ∀ a b err v, m.attempts = [a, b] → Ended s.loop a (.error err) →
    err.name = some "AbortError" → Ended s.loop b (.ok v) →
    ∀ result, m.settled = some result → result = .ok v

section Runs

variable {parseUrl : String → Option Url} {s₀ s : ClientSys α} {trace : List (ClientRec α)}

theorem goesOn_of_linked {n : Nat} {m : Method α} (hm : s.methods[n]? = some m) {id : Nat}
    {c : Call α} (hroute : m.route = .failover id) (hcall : s.failover.calls[id]? = some c)
    (hlinked : Linked s.loop m c) {primary fallback : String}
    (htracked : Tracked primary fallback c) (hopen : m.settled = none) {outcome : Except JsError α}
    (hended : s.ended m = some outcome) (worker : WorkerCall α) :
    ∃ t m', s.step parseUrl (.resume n worker) = some (t, ()) ∧ t.methods[n]? = some m' ∧
      ((∃ result, m'.settled = some result ∧ SettlesWith outcome result) ∨
        ∃ a b, m.attempts = [a] ∧ m'.attempts = [a, b]) := by
  have hlt : n < s.methods.length := (List.getElem?_eq_some_iff.1 hm).1
  have hstep : ∀ t, s.resume parseUrl n m outcome worker = some t →
      s.step parseUrl (.resume n worker) = some (t, ()) := by
    intro t ht
    simp only [ClientSys.step, hm, hopen, hended, ht, Option.map_some]
  rcases hlinked.pending hopen with ⟨-, -, -, -, hpending⟩
  rcases resume_cases parseUrl hroute hcall hpending n outcome worker with ⟨r, -, -, -, hcases⟩
  rcases hcases with ⟨baseUrl, hphase, -, heq⟩ | ⟨-, heq⟩
  · rcases attempts_of_firstAttempt hlinked htracked hphase with ⟨a, hattempts, -⟩
    let s' : ClientSys α := { s with failover := r.post }
    refine ⟨_, _, hstep _ heq, List.getElem?_set_self hlt,
      Or.inr ⟨a, s'.attempt m.call (m.call.pactUrl baseUrl) worker, hattempts, ?_⟩⟩
    rw [hattempts]
    rfl
  · exact ⟨_, _, hstep _ heq, List.getElem?_set_self hlt,
      Or.inl ⟨_, rfl, settlesWith_outerBoundaryConvert _ _ outcome⟩⟩

theorem recovers_of_spec {l : DeadlineLoop α} {primary fallback : String} {m : Method α}
    (h : OutcomeSpec l primary fallback m) {a b : Attempt} (hattempts : m.attempts = [a, b])
    {v : α} (hended : Ended l b (.ok v)) {result : Except ClientError α}
    (hsettled : m.settled = some result) : result = .ok v := by
  cases h with
  | first baseUrl a' hattempts' => cases hattempts.symm.trans hattempts'
  | once baseUrl a' o result' hattempts' => cases hattempts.symm.trans hattempts'
  | retrying a' b' err _ _ _ _ _ _ _ hopen => cases hopen.symm.trans hsettled
  | twice a' b' err o result' hattempts' _ _ _ _ _ _ hended' hsettled' hresult =>
      cases hattempts.symm.trans hattempts'
      cases hsettled.symm.trans hsettled'
      cases ended_unique hended hended'
      cases hresult
      rfl

theorem failover_step_fixed (r : ClientRec α) (hvalid : r.Valid (clientSystem parseUrl α))
    (hfixed : FixedConfiguration r) :
    r.post.failover = r.pre.failover ∨ ∃ r' : Rec α, r'.Valid (failoverSystem parseUrl α) ∧
      Unconfigured r' ∧ r'.pre = r.pre.failover ∧ r'.post = r.post.failover := by
  rcases failover_step r hvalid with hsame | ⟨r', hr', hconf, hpre, hpost⟩
  · exact Or.inl hsame
  · refine Or.inr ⟨r', hr', fun hconfig => ?_, hpre, hpost⟩
    unfold FixedConfiguration at hfixed
    rw [hconf hconfig] at hfixed
    exact hfixed hconfig

/-- The failover client within a run under a fixed configuration. -/
theorem fixedRun_failover (hknown : OnKnownHost s₀.failover.mod)
    (hrun : Run (clientSystem parseUrl α) s₀ trace s)
    (hfixed : ∀ r ∈ trace, FixedConfiguration r) : FixedRun s₀.failover s.failover := by
  have hinit : FixedRun s₀.failover s₀.failover :=
    ⟨hknown, rfl, rfl, le_rfl, fun id c hid hc =>
      absurd (List.getElem?_eq_some_iff.1 hc).1 (by omega)⟩
  rcases hrun.project ClientSys.failover FixedConfiguration Unconfigured failover_step_fixed hfixed
    with ⟨trace', hrun', hfixed'⟩
  exact (hrun'.invariant (FixedRun s₀.failover) Unconfigured fixedRun_step hfixed' hinit).1

theorem onKnownHost_clientStep (r : ClientRec α) (hvalid : r.Valid (clientSystem parseUrl α))
    (h : OnKnownHost r.pre.failover.mod) : OnKnownHost r.post.failover.mod := by
  rcases failover_step r hvalid with hsame | ⟨r', hr', -, hpre, hpost⟩
  · rwa [hsame]
  · rw [← hpre] at h
    exact hpost ▸ onKnownHost_step r' hr' h

end Runs

/-- From any reachable state with a preset in force and without configuration calls: every method
that begins in the run and goes through the failover refines its specification, whatever the other
methods, calls, probes and deadlines do. -/
theorem methods_refine_outcomeSpec (parseUrl : String → Option Url)
    {before trace : List (ClientRec α)} {s₀ s : ClientSys α}
    (hbefore : Run (clientSystem parseUrl α) ClientSys.load before s₀)
    (hpreset : Preset s₀.failover.mod) (hrun : Run (clientSystem parseUrl α) s₀ trace s)
    (hfixed : ∀ r ∈ trace, FixedConfiguration r) :
    ∀ n m, s₀.methods.length ≤ n → s.methods[n]? = some m → m.entry.pactUrl = none →
      RefinesSpec parseUrl s (getPrimaryBaseUrl s₀.failover.mod)
        (chainwebRoot s₀.failover.mod.fallbackHost) n m := by
  intro n m hn hm hpinned
  have hinv₀ := (hbefore.invariant_of_forall ClientInv clientInv_step clientInv_load).1
  have hinv := (hrun.invariant_of_forall ClientInv clientInv_step hinv₀).1
  have hsince : Since s₀ s := by
    refine (hrun.invariant_of_forall (Since s₀) since_step ⟨le_rfl, ?_⟩).1
    intro k m' id hk hm'
    exact absurd (List.getElem?_eq_some_iff.1 hm').1 (by omega)
  have hknown := (hbefore.invariant_of_forall (fun u => OnKnownHost u.failover.mod)
    onKnownHost_clientStep (Or.inl rfl)).1
  have hfailover := fixedRun_failover hknown hrun hfixed
  have hmoved : getPrimaryBaseUrl s₀.failover.mod ≠ chainwebRoot s₀.failover.mod.fallbackHost :=
    fun heq => hpreset.primary_ne_fallback (chainwebRoot_inj.1 heq)
  have hentry := hinv.entries n m hm
  cases hinv.methods n m hm with
  | pinned url a hroute => exact absurd hroute (hentry.2 hpinned)
  | failover id c hroute hcall hlinked =>
      have htracked := hfailover.calls id c (hsince.routes n m id hn hm hroute) hcall
      have hspec := outcomeSpec_of_linked hlinked htracked hmoved
      exact
        { call := hentry.1
          valid := fun h => hentry.1 ▸ Entry.isValidTimeout_call h n
          outcome := hspec
          controllers := by
            intro a _ i controller hi hc id' j hj hc'
            exact (hinv.loop.controllers.distinct _ _ _ _ controller (Loop.view_of_getElem? hi)
              (Loop.view_of_getElem? hj) hc hc').symm
          alone := by
            intro n' m' hne hm' a ha a' ha' heq
            exact hne (hinv.attempts n n' m m' hm hm' a ha a' ha' heq).symm
          goesOn := fun hopen outcome hended worker =>
            goesOn_of_linked hm hroute hcall hlinked htracked hopen hended worker
          recovers := fun a b err v hattempts _ _ hended result hsettled =>
            recovers_of_spec hspec hattempts hended hsettled }

/-- A submit times out on the primary and gets through on the fallback, where a read that has begun
meanwhile times out as well. -/
def recoveringRun : List (ClientEvent Nat) :=
  [.begin (.client "0" {} .submit 5 none) (.returned none), .deadline (.fireTimer 0),
    .deadline .endCallback, .deadline .microtask, .deadline .microtask,
    .resume 0 (.returned none), .begin (.rawRead {}) (.returned none),
    .deadline (.settleWorker 1 (.ok 7)), .deadline .microtask, .deadline .microtask,
    .resume 0 (.returned none), .deadline (.fireTimer 2), .deadline .endCallback,
    .deadline .microtask, .deadline .microtask, .resume 1 (.returned none)]

theorem methods_refine_outcomeSpec_recovering :
    let sys := clientSystem (fun _ => none) Nat
    let s₀ : ClientSys Nat := ClientSys.load
    let s := sys.final s₀ recoveringRun
    ∀ n m, s₀.methods.length ≤ n → s.methods[n]? = some m → m.entry.pactUrl = none →
      RefinesSpec (fun _ => none) s (getPrimaryBaseUrl s₀.failover.mod)
        (chainwebRoot s₀.failover.mod.fallbackHost) n m :=
  methods_refine_outcomeSpec (fun _ => none) (Run.nil ClientSys.load) (Or.inl ⟨rfl, rfl⟩)
    (run_of_events recoveringRun (by decide +kernel)) (by decide +kernel)

/-- The submit resolves; the read began on the fallback, so its time-out is the end of it. -/
example :
    (((clientSystem (fun _ => none) Nat).final ClientSys.load recoveringRun).methods.map
      fun m => m.settled) =
      [some (.ok 7), some (.error (.signing (createTimeoutError "rawCalibratedDirtyRead"
        (millis 15000) (abortError "rawCalibratedDirtyRead" (millis 15000)))))] := by
  decide +kernel

end Network
end StoaCore
