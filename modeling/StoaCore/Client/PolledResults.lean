import StoaCore.Client.PollingRuns

/-!
# PolledResults — the promise that a poll returns

`pollStatus` returns one promise for all requests.  It resolves, to the record of their results,
once every request has one, and it is rejected where the loop ends before.
-/

namespace StoaCore
namespace Client

open Library Library.Js

/-! ## `Promise.all` -/

section PromiseAll

variable {ρ : Type} {prs : Record (Deferred ρ)}

theorem promiseAll_error {err : Rejection} (h : promiseAll prs = some (.error err)) :
    ∃ m ∈ prs, m.2.promise = some (.error err) := by
  fun_induction promiseAll prs with
  | case1 => cases h
  | case2 requestKey pr rest err' hpr =>
      cases h
      exact ⟨_, List.mem_cons_self, hpr⟩
  | case3 requestKey pr rest err' hrest _ ih =>
      cases h
      rcases ih hrest with ⟨m, hm, hpromise⟩
      exact ⟨m, List.mem_cons_of_mem _ hm, hpromise⟩
  | case4 => cases h
  | case5 => cases h

/-- The results, one for every promise. -/
theorem promiseAll_ok {results : List (Record ρ)} (h : promiseAll prs = some (.ok results)) :
    ∃ items : Record ρ, results = items.map (fun m => [m]) ∧
      List.Forall₂ (fun m item => item.1 = m.1 ∧ m.2.promise = some (.ok item.2)) prs items := by
  fun_induction promiseAll prs generalizing results with
  | case1 =>
      cases h
      exact ⟨[], rfl, .nil⟩
  | case2 => cases h
  | case3 => cases h
  | case4 requestKey pr rest data results hrest hpr ih =>
      cases h
      rcases ih hrest with ⟨items, rfl, hitems⟩
      exact ⟨(requestKey, data) :: items, rfl, .cons ⟨rfl, hpr⟩ hitems⟩
  | case5 => cases h

theorem resolved_of_promiseAll {results : List (Record ρ)}
    (h : promiseAll prs = some (.ok results)) {m : JsString × Deferred ρ} (hm : m ∈ prs) :
    ∃ data, m.2.promise = some (.ok data) := by
  rcases promiseAll_ok h with ⟨items, -, hitems⟩
  clear h
  induction hitems with
  | nil => cases hm
  | cons hitem _ ih =>
      rcases List.mem_cons.1 hm with rfl | hm
      · exact ⟨_, hitem.2⟩
      · exact ih hm

theorem isSome_promiseAll (h : ∀ m ∈ prs, m.2.promise.isSome = true) :
    (promiseAll prs).isSome = true := by
  induction prs with
  | nil => rfl
  | cons m rest ih =>
      rcases m with ⟨requestKey, pr⟩
      have hpr : pr.promise.isSome = true := h _ List.mem_cons_self
      have hrest := ih fun m' hm' => h m' (List.mem_cons_of_mem _ hm')
      rw [Option.isSome_iff_exists] at hpr hrest
      rcases hpr with ⟨outcome, hpr⟩
      rcases hrest with ⟨outcomes, hrest⟩
      simp only [promiseAll, hpr, hrest]
      cases outcome with
      | error err => rfl
      | ok data =>
          cases outcomes with
          | error err => rfl
          | ok results => rfl

/-- Merging records of one member each. -/
theorem mergeAll_singletons (items : Record ρ) :
    mergeAll (items.map fun m => [m]) = Record.spread [] items := by
  rw [mergeAll, List.foldl_map]
  rfl

/-- What the record of the results holds for a request is what its promise has resolved to. -/
theorem lookup_merged {results : List (Record ρ)} (h : promiseAll prs = some (.ok results))
    (hnodup : (prs.map Prod.fst).Nodup) (key : JsString) (data : ρ) :
    (mergeAll results).lookup key = some data ↔
      (prs.lookup key).bind Deferred.promise = some (.ok data) := by
  rcases promiseAll_ok h with ⟨items, rfl, hitems⟩
  have hnames : items.map Prod.fst = prs.map Prod.fst := by
    clear h hnodup
    induction hitems with
    | nil => rfl
    | cons hitem _ ih => rw [List.map_cons, List.map_cons, ih, hitem.1]
  rw [mergeAll_singletons, Record.lookup_spread, List.lookup_nil, Option.or_none,
    Record.lookup_reverse (hnames ▸ hnodup)]
  clear h hnodup hnames
  induction hitems with
  | nil => simp
  | @cons m item prs items hitem _ ih =>
      rcases m with ⟨requestKey, pr⟩
      rcases item with ⟨name, data'⟩
      rcases hitem with ⟨hname, hpromise⟩
      dsimp only at hname hpromise
      subst hname
      by_cases hkey : key = name
      · subst hkey
        simp [hpromise]
      · have hbeq : (key == name) = false := by simpa using hkey
        rw [List.lookup_cons, List.lookup_cons, hbeq]
        exact ih

end PromiseAll

/-! ## The record of the results -/

namespace PollRun

variable {c : PollCall} {s : PollState} {trace : PollTrace}

theorem nodup_names (hrun : PollRun c trace s) : (s.prs.map Prod.fst).Nodup := by
  rw [hrun.moves.names, c.prs_opened]
  exact Record.nodup_spread List.nodup_nil

theorem mem_names (hrun : PollRun c trace s) (key : JsString) :
    key ∈ s.prs.map Prod.fst ↔ key ∈ c.requestIds := by
  rw [hrun.moves.names, c.mem_names_opened]

theorem promiseOf_mem (hrun : PollRun c trace s) {m : JsString × Deferred CommandResult}
    (hm : m ∈ s.prs) : m.1 ∈ c.requestIds ∧ s.promiseOf m.1 = m.2.promise := by
  refine ⟨(hrun.mem_names m.1).1 (List.mem_map_of_mem hm), ?_⟩
  rw [PollState.promiseOf, Record.lookup_of_mem hrun.nodup_names hm]
  rfl

/-- A promise is rejected only by the end of the loop. -/
theorem ended_of_rejected (hrun : PollRun c trace s) {key : JsString} {err : Rejection}
    (h : firstFor key (c.history trace) = some (.error err)) : s.phase = .ended (some err) := by
  rw [firstFor] at h
  rcases List.exists_of_findSome?_eq_some h with ⟨n, hn, hsettles⟩
  have hending : n.ending? = some (some err) := by
    cases n with
    | onResult requestKey item =>
        simp only [Notice.settles] at hsettles
        split at hsettles
        · cases hsettles
        · cases hsettles
    | settled failure =>
        cases failure with
        | none => cases hsettles
        | some err' =>
            cases hsettles
            rfl
    | _ => cases hsettles
  have hmem : some err ∈ s.phase.endings := by
    rw [hrun.moves.endings]
    exact List.mem_append_right _ (List.mem_filterMap.2 ⟨n, hn, hending⟩)
  cases hphase : s.phase with
  | ended failure =>
      rw [hphase] at hmem
      rw [List.mem_singleton.1 hmem]
  | racing startTime timeout rejectDue =>
      rw [hphase] at hmem
      cases hmem
  | waiting startTime timeout due =>
      rw [hphase] at hmem
      cases hmem

end PollRun

/-- In every run the returned promise is open as long as a request is; it resolves only where every
request has an item, to the record that holds, for exactly the requests, what each one's own promise
has resolved to; and it is rejected with the failure of the loop where that comes first for some
request. -/
theorem returned_promise {c : PollCall} {trace : PollTrace} {s : PollState}
    (hrun : PollRun c trace s) :
    (returned s.prs = none ↔ ∃ key ∈ c.requestIds, firstFor key (c.history trace) = none) ∧
      (∀ results, returned s.prs = some (.ok results) →
        (∀ key ∈ c.requestIds, ∃ item, firstFor key (c.history trace) = some (.ok item)) ∧
        ∀ key item, results.lookup key = some item ↔
          key ∈ c.requestIds ∧ firstFor key (c.history trace) = some (.ok item)) ∧
      ∀ err, returned s.prs = some (.error err) →
        s.phase = .ended (some err) ∧
          ∃ key ∈ c.requestIds, firstFor key (c.history trace) = some (.error err) := by
  have hrejected : ∀ err, promiseAll s.prs = some (.error err) →
      s.phase = .ended (some err) ∧
        ∃ key ∈ c.requestIds, firstFor key (c.history trace) = some (.error err) := by
    intro err hall
    rcases promiseAll_error hall with ⟨m, hm, hpromise⟩
    rcases hrun.promiseOf_mem hm with ⟨hkey, hpromiseOf⟩
    rw [hrun.promiseOf_eq hkey, hpromise] at hpromiseOf
    exact ⟨hrun.ended_of_rejected hpromiseOf, m.1, hkey, hpromiseOf⟩
  have hresolved : ∀ {results}, promiseAll s.prs = some (.ok results) → ∀ key ∈ c.requestIds,
      ∃ item, firstFor key (c.history trace) = some (.ok item) := by
    intro results hall key hkey
    rcases List.mem_map.1 ((hrun.mem_names key).2 hkey) with ⟨m, hm, rfl⟩
    rcases resolved_of_promiseAll hall hm with ⟨data, hpromise⟩
    exact ⟨data, (hrun.promiseOf_eq hkey).symm.trans ((hrun.promiseOf_mem hm).2.trans hpromise)⟩
  refine ⟨⟨?_, ?_⟩, ?_, ?_⟩
  · intro hopen
    by_contra hnone
    have hall : ∀ m ∈ s.prs, m.2.promise.isSome = true := by
      intro m hm
      rcases hrun.promiseOf_mem hm with ⟨hkey, hpromiseOf⟩
      rw [← hpromiseOf, hrun.promiseOf_eq hkey, Option.isSome_iff_ne_none]
      exact fun hfirst => hnone ⟨m.1, hkey, hfirst⟩
    have hsome := isSome_promiseAll hall
    rw [returned, Option.map_eq_none_iff] at hopen
    rw [hopen] at hsome
    cases hsome
  · rintro ⟨key, hkey, hfirst⟩
    rw [returned, Option.map_eq_none_iff]
    cases hall : promiseAll s.prs with
    | none => rfl
    | some outcome =>
        exfalso
        have hpromise := hrun.promiseOf_eq hkey
        rw [hfirst] at hpromise
        cases outcome with
        | error err =>
            -- The loop has ended, so that no promise is open.
            have hsettled := hrun.isSome_promiseOf (hrejected err hall).1 hkey
            rw [hpromise] at hsettled
            cases hsettled
        | ok results =>
            rcases hresolved hall key hkey with ⟨item, hitem⟩
            rw [hfirst] at hitem
            cases hitem
  · intro results hresults
    rw [returned, Option.map_eq_some_iff] at hresults
    rcases hresults with ⟨outcome, hall, houtcome⟩
    cases outcome with
    | error err => cases houtcome
    | ok all =>
        cases houtcome
        refine ⟨hresolved hall, fun key item => ?_⟩
        have hlookup := lookup_merged hall hrun.nodup_names key item
        rw [hlookup]
        change s.promiseOf key = some (.ok item) ↔ _
        constructor
        · intro hpromise
          have hkey : key ∈ c.requestIds := by
            rw [← hrun.mem_names]
            by_contra hnot
            rw [PollState.promiseOf, Record.lookup_eq_none_iff.2 hnot] at hpromise
            cases hpromise
          exact ⟨hkey, (hrun.promiseOf_eq hkey).symm.trans hpromise⟩
        · rintro ⟨hkey, hfirst⟩
          exact (hrun.promiseOf_eq hkey).trans hfirst
  · intro err herr
    rw [returned, Option.map_eq_some_iff] at herr
    rcases herr with ⟨outcome, hall, houtcome⟩
    cases outcome with
    | ok all => cases houtcome
    | error err' =>
        cases houtcome
        exact hrejected err hall

/-- Both requests are answered at once. -/
def answeredEvents : List PollEvent :=
  [.tick 1, .wakeTask, .tick 1, .respond [resultOf "b", resultOf "a"], .settleTask]

theorem returned_promise_twoRequests :
    (twoRequestsFinal.phase = .ended (some timeOutReject) ∧
      ∃ key ∈ twoRequests.requestIds,
        firstFor key (twoRequests.history twoRequestsTrace) = some (.error timeOutReject)) ∧
    ∃ trace s results, PollRun twoRequests trace s ∧
      trace.map Transition.Record.event = answeredEvents ∧
      returned s.prs = some (.ok results) ∧
      (∀ key ∈ [js "a", js "b"],
        ∃ item, firstFor key (twoRequests.history trace) = some (.ok item)) ∧
      results.lookup (js "b") = some (resultOf "b") := by
  have hrejected := (returned_promise twoRequests_run).2.2 timeOutReject rfl
  have hexec : ((pollSystem twoRequests).exec twoRequests.pollStatus.1 answeredEvents).isSome =
      true := rfl
  have hrun := Transition.run_of_events answeredEvents hexec
  have hresolved := (returned_promise hrun).2.1 _ rfl
  exact ⟨hrejected, _, _, _, hrun, Transition.events_of_trace hexec, rfl, hresolved.1,
    (hresolved.2 (js "b") (resultOf "b")).2 ⟨by decide, rfl⟩⟩

end Client
end StoaCore
