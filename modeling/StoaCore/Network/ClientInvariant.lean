import Mathlib.Data.List.Forall2
import StoaCore.Network.DeadlineRuns
import StoaCore.Network.FailoverClient
import StoaCore.Network.RetryContract

/-!
# ClientInvariant — a method, its `withFailover` call and its attempts

A method of the failover client is spread over two state machines: a call of the one that decides
on the retry, and an invocation of the other for every attempt.  The invariant ties them together,
attempt by attempt, and holds in every run, whatever the other parts do.
-/

namespace StoaCore
namespace Network

open Library
open Library.Js
open Library.EventLoop
open Library.Transition

variable {α : Type}

/-! ## What an invocation keeps -/

/-- An invocation takes no turn any more, or its promise has settled with its race. -/
inductive Lasting (v : DeadlineView α) : Prop
  | spent (hjobs : v.jobs = []) (hbusy : v.busy = false) (htimer : v.part.timer = .unset)
      (hworker : v.part.invoked = true → v.part.worker ≠ none)
  | raced (h : ∀ o, v.part.settled = some o → v.part.race = some o)

/-- `j` is what has become of the invocation `i`. -/
structure Continues (i j : Invocation α) : Prop where
  operation : j.operation = i.operation
  timeoutMs : j.timeoutMs = i.timeoutMs
  controller : j.controller = i.controller
  settled : ∀ o, i.settled = some o → j.settled = some o

theorem Continues.refl (i : Invocation α) : Continues i i :=
  ⟨rfl, rfl, rfl, fun _ h => h⟩

theorem lasting_start (operation : String) (timeoutMs : Option Number) (controller : Nat)
    (worker : WorkerCall α) :
    Lasting ⟨(Invocation.start operation timeoutMs controller worker).1,
      (Invocation.start operation timeoutMs controller worker).2, false⟩ := by
  unfold Invocation.start
  cases isValidTimeout timeoutMs with
  | false => exact .spent rfl rfl rfl (fun h => nomatch h)
  | true =>
      cases worker with
      | threw e => exact .spent rfl rfl rfl (fun _ => Option.some_ne_none _)
      | returned promise => exact .raced (fun _ h => nomatch h)

theorem lasting_settleRace {i : Invocation α} {jobs : List Job}
    (h : ∀ o, i.settled = some o → i.race = some o) (outcome : Option (Except JsError α)) :
    Lasting ⟨(i.settleRace outcome).1, jobs, false⟩ ∧ Continues i (i.settleRace outcome).1 := by
  by_cases hrace : i.race = none
  · rw [i.settleRace_of_open outcome hrace]
    have hopen : ∀ o, i.settled ≠ some o := fun o ho => by
      rw [h o ho] at hrace
      cases hrace
    exact ⟨.raced fun o ho => absurd ho (hopen o), ⟨rfl, rfl, rfl, fun _ ho => ho⟩⟩
  · rw [i.settleRace_of_settled outcome hrace]
    exact ⟨.raced h, .refl i⟩

theorem lasting_turn {n : Nat} {event : DeadlineEvent α} {v v' : DeadlineView α}
    {out : Option (Except JsError α)} (hv : Lasting v) (hturn : Turn n event v v' out) :
    Lasting v' ∧ Continues v.part v'.part := by
  cases hturn with
  | settleWorker outcome hinvoked hworker =>
      cases hv with
      | spent hjobs hbusy htimer hover => exact absurd hworker (hover hinvoked)
      | raced h => exact ⟨.raced h, ⟨rfl, rfl, rfl, fun _ ho => ho⟩⟩
  | fireTimer hpending =>
      cases hv with
      | spent hjobs hbusy htimer hover => cases htimer.symm.trans hpending
      | raced h => exact ⟨.raced h, ⟨rfl, rfl, rfl, fun _ ho => ho⟩⟩
  | endCallback =>
      cases hv with
      | spent hjobs hbusy htimer hover => cases hbusy
      | raced h => exact ⟨.raced h, ⟨rfl, rfl, rfl, fun _ ho => ho⟩⟩
  | microtask job =>
      cases hv with
      | spent hjobs hbusy htimer hover => cases hjobs
      | raced h =>
          cases job with
          | workerReaction => exact lasting_settleRace h _
          | deadlineReaction => exact lasting_settleRace h _
          | continuation => exact ⟨.raced fun _ ho => ho, ⟨rfl, rfl, rfl, h⟩⟩

/-! ## The event loop, whatever the workers do -/

structure LoopInv (l : DeadlineLoop α) : Prop where
  wellFormed : l.WellFormed
  lasting : ∀ id v, l.view id = some v → Lasting v
  controllers : Controllers l

theorem loopInv_init : LoopInv (DeadlineLoop.init : DeadlineLoop α) where
  wellFormed := deadlineInv_init.wellFormed
  lasting := by simp [DeadlineLoop.init, Loop.view]
  controllers := deadlineInv_init.controllers

section Loop

variable {r : DeadlineRec α}

theorem loopInv_step (hvalid : r.Valid (deadlineSystem α)) (h : LoopInv r.pre) :
    LoopInv r.post := by
  rcases loopStep_of_valid h.wellFormed hvalid with ⟨hstep, hpost⟩
  refine ⟨hpost, ?_, controllers_step hstep h.controllers⟩
  cases hstep with
  | start operation timeoutMs worker hchanges =>
      exact hchanges.all h.lasting (lasting_start operation timeoutMs r.pre.world worker)
  | turn n v v' out hview hturn hchanges =>
      exact hchanges.all h.lasting (lasting_turn (h.lasting n v hview) hturn).1

theorem continues_step (hvalid : r.Valid (deadlineSystem α)) (h : LoopInv r.pre) {id : Nat}
    {i : Invocation α} (hi : r.pre.parts[id]? = some i) :
    ∃ j, r.post.parts[id]? = some j ∧ Continues i j := by
  have hview := Loop.view_of_getElem? hi
  rcases loopStep_of_valid h.wellFormed hvalid with ⟨hstep, -⟩
  cases hstep with
  | start operation timeoutMs worker hchanges =>
      have hlt := (List.getElem?_eq_some_iff.1 hi).1
      exact ⟨i, Loop.getElem?_of_view ((hchanges.others id hlt.ne).trans hview), .refl i⟩
  | turn n v v' out hv hturn hchanges =>
      by_cases hid : id = n
      · subst hid
        rw [hview, Option.some.injEq] at hv
        subst hv
        exact ⟨v'.part, Loop.getElem?_of_view hchanges.moved,
          (lasting_turn (h.lasting id _ hview) hturn).2⟩
      · exact ⟨i, Loop.getElem?_of_view ((hchanges.others id hid).trans hview), .refl i⟩

end Loop

/-! ## Attempts -/

/-- The attempt `a` of a method calls `runWithTimeout` for a request to `url`. -/
def Begun (l : DeadlineLoop α) (call : MethodCall) (url : String) (a : Attempt) : Prop :=
  ∃ i, l.parts[a.invocation]? = some i ∧ i.operation = call.operation ∧
    i.timeoutMs = call.timeoutMs ∧
    (isValidTimeout call.timeoutMs = true →
      ∃ controller, i.controller = some controller ∧
        a.request = some (call.request url (some controller)))

def Ended (l : DeadlineLoop α) (a : Attempt) (outcome : Except JsError α) : Prop :=
  ∃ i, l.parts[a.invocation]? = some i ∧ i.settled = some outcome

/-- Every invocation of `l` goes on in `l'`. -/
def Extends (l l' : DeadlineLoop α) : Prop :=
  ∀ (id : Nat) (i : Invocation α), l.parts[id]? = some i →
    ∃ j, l'.parts[id]? = some j ∧ Continues i j

section Attempts

variable {l l' : DeadlineLoop α} {call : MethodCall} {url : String} {a : Attempt}

theorem Extends.refl (l : DeadlineLoop α) : Extends l l :=
  fun _ i hi => ⟨i, hi, .refl i⟩

theorem Begun.mono (hl : Extends l l') (h : Begun l call url a) : Begun l' call url a := by
  rcases h with ⟨i, hi, hoperation, htimeout, hrequest⟩
  rcases hl _ i hi with ⟨j, hj, hcontinues⟩
  refine ⟨j, hj, hcontinues.operation.trans hoperation, hcontinues.timeoutMs.trans htimeout, ?_⟩
  rwa [hcontinues.controller]

theorem Ended.mono (hl : Extends l l') {outcome : Except JsError α} (h : Ended l a outcome) :
    Ended l' a outcome := by
  rcases h with ⟨i, hi, hsettled⟩
  rcases hl _ i hi with ⟨j, hj, hcontinues⟩
  exact ⟨j, hj, hcontinues.settled outcome hsettled⟩

theorem Begun.lt (h : Begun l call url a) : a.invocation < l.parts.length := by
  rcases h with ⟨i, hi, -⟩
  exact (List.getElem?_eq_some_iff.1 hi).1

theorem valid_start (l : DeadlineLoop α) (operation : String) (timeoutMs : Option Number)
    (worker : WorkerCall α) :
    ∃ r : DeadlineRec α, r.Valid (deadlineSystem α) ∧ r.pre = l ∧
      r.post = l.start operation timeoutMs worker :=
  ⟨⟨l, .start operation timeoutMs worker, _, _⟩, l.step_start operation timeoutMs worker, rfl, rfl⟩

theorem loopInv_start (h : LoopInv l) (operation : String) (timeoutMs : Option Number)
    (worker : WorkerCall α) : LoopInv (l.start operation timeoutMs worker) := by
  rcases valid_start l operation timeoutMs worker with ⟨r, hvalid, rfl, hpost⟩
  exact hpost ▸ loopInv_step hvalid h

theorem extends_start (h : LoopInv l) (operation : String) (timeoutMs : Option Number)
    (worker : WorkerCall α) : Extends l (l.start operation timeoutMs worker) := by
  rcases valid_start l operation timeoutMs worker with ⟨r, hvalid, rfl, hpost⟩
  exact fun id i hi => hpost ▸ continues_step hvalid h hi

theorem start_fields (operation : String) (timeoutMs : Option Number) (controller : Nat)
    (worker : WorkerCall α) :
    (Invocation.start operation timeoutMs controller worker).1.operation = operation ∧
      (Invocation.start operation timeoutMs controller worker).1.timeoutMs = timeoutMs := by
  unfold Invocation.start
  split
  · cases worker with
    | threw e => exact ⟨rfl, rfl⟩
    | returned promise => exact ⟨rfl, rfl⟩
  · exact ⟨rfl, rfl⟩

theorem start_of_valid (operation : String) {timeoutMs : Option Number}
    (h : isValidTimeout timeoutMs = true) (controller : Nat) (worker : WorkerCall α) :
    (Invocation.start operation timeoutMs controller worker).1.invoked = true ∧
      (Invocation.start operation timeoutMs controller worker).1.controller = some controller := by
  unfold Invocation.start
  rw [if_pos h]
  cases worker with
  | threw e => exact ⟨rfl, rfl⟩
  | returned promise => exact ⟨rfl, rfl⟩

/-- The attempt that begins now is begun then. -/
theorem begun_attempt (s : ClientSys α) (call : MethodCall) (url : String)
    (worker : WorkerCall α) :
    Begun (s.loop.start call.operation call.timeoutMs worker) call url
      (s.attempt call url worker) := by
  have hfields := start_fields call.operation call.timeoutMs s.loop.world worker
  refine ⟨(Invocation.start call.operation call.timeoutMs s.loop.world worker).1, ?_, hfields.1,
    hfields.2, fun hvalid => ?_⟩
  · simp [DeadlineLoop.start, Loop.spawn, ClientSys.attempt]
  · have hstart := start_of_valid call.operation hvalid s.loop.world worker
    refine ⟨s.loop.world, hstart.2, ?_⟩
    unfold ClientSys.attempt
    rw [← hstart.2]
    exact if_pos hstart.1

end Attempts

/-! ## One method -/

/-- A method whose `withFailover` call is `c`: an attempt for each invocation of its callback, and
all of them have ended, but for the last while the call goes on. -/
structure Linked (l : DeadlineLoop α) (m : Method α) (c : Call α) : Prop where
  begun : List.Forall₂ (fun baseUrl a => Begun l m.call (m.call.pactUrl baseUrl) a)
    c.invocations m.attempts
  distinct : (m.attempts.map Attempt.invocation).Nodup
  ended : (∃ front a, m.attempts = front ++ [a] ∧ List.Forall₂ (Ended l) front c.outcomes ∧
      (∀ o, c.phase ≠ .settled o) ∧ m.settled = none) ∨
    ∃ o, List.Forall₂ (Ended l) m.attempts c.outcomes ∧ c.phase = .settled o ∧
      m.settled = some (outerBoundaryConvert m.call.operation m.call.timeoutMs o)

inductive MethodInv (s : ClientSys α) (m : Method α) : Prop
  | failover (id : Nat) (c : Call α) (hroute : m.route = .failover id)
      (hcall : s.failover.calls[id]? = some c) (h : Linked s.loop m c)
  | pinned (url : String) (a : Attempt) (hroute : m.route = .pinned) (hattempts : m.attempts = [a])
      (hbegun : Begun s.loop m.call url a)
      (hsettled : m.settled = none ∨ ∃ o, Ended s.loop a o ∧
        m.settled = some (outerBoundaryConvert m.call.operation m.call.timeoutMs o))

section Linked

variable {l l' : DeadlineLoop α} {m : Method α} {c : Call α}

theorem Linked.mono (hl : Extends l l') (h : Linked l m c) : Linked l' m c where
  begun := h.begun.imp fun _ _ hbegun => hbegun.mono hl
  distinct := h.distinct
  ended := by
    rcases h.ended with ⟨front, a, hattempts, hended, hopen⟩ | ⟨o, hended, hsettled⟩
    · exact Or.inl ⟨front, a, hattempts, hended.imp fun _ _ ho => ho.mono hl, hopen⟩
    · exact Or.inr ⟨o, hended.imp fun _ _ ho => ho.mono hl, hsettled⟩

theorem Linked.lt (h : Linked l m c) {a : Attempt} (ha : a ∈ m.attempts) :
    a.invocation < l.parts.length := by
  rcases List.mem_iff_get.1 ha with ⟨k, rfl⟩
  have hk : k.1 < c.invocations.length := h.begun.length_eq.symm ▸ k.2
  exact (h.begun.get hk k.2).lt

/-- A call goes on exactly while its method does. -/
theorem Linked.pending (h : Linked l m c) (hopen : m.settled = none) :
    ∃ front a, m.attempts = front ++ [a] ∧ List.Forall₂ (Ended l) front c.outcomes ∧
      ∀ o, c.phase ≠ .settled o := by
  rcases h.ended with ⟨front, a, hattempts, hended, hphase, -⟩ | ⟨o, -, -, hsettled⟩
  · exact ⟨front, a, hattempts, hended, hphase⟩
  · cases hopen.symm.trans hsettled

/-- The last attempt of a method is the one that it waits for. -/
theorem ended_of_append {s : ClientSys α} {front : List Attempt} {a : Attempt}
    (hattempts : m.attempts = front ++ [a]) {outcome : Except JsError α}
    (h : s.ended m = some outcome) : Ended s.loop a outcome := by
  unfold ClientSys.ended at h
  rw [hattempts, List.getLast?_concat, Option.bind_some] at h
  rcases Option.bind_eq_some_iff.1 h with ⟨i, hi, hsettled⟩
  exact ⟨i, hi, hsettled⟩

theorem linked_settle (h : Linked l m c) {front : List Attempt} {a : Attempt}
    (hattempts : m.attempts = front ++ [a]) (hfront : List.Forall₂ (Ended l) front c.outcomes)
    {outcome : Except JsError α} (hended : Ended l a outcome) :
    Linked l
      { m with settled := some (outerBoundaryConvert m.call.operation m.call.timeoutMs outcome) }
      { c with outcomes := c.outcomes ++ [outcome], phase := .settled outcome } where
  begun := h.begun
  distinct := h.distinct
  ended := by
    refine Or.inr ⟨outcome, ?_, rfl, rfl⟩
    rw [hattempts]
    exact List.rel_append hfront (.cons hended .nil)

theorem linked_retry (hl : Extends l l') (h : Linked l m c) {front : List Attempt} {a b : Attempt}
    (hattempts : m.attempts = front ++ [a]) (hfront : List.Forall₂ (Ended l) front c.outcomes)
    {outcome : Except JsError α} (hended : Ended l a outcome) (hopen : m.settled = none)
    {baseUrl : String} (hb : Begun l' m.call (m.call.pactUrl baseUrl) b)
    (hfresh : l.parts.length ≤ b.invocation) :
    Linked l' { m with attempts := m.attempts ++ [b] }
      { c with
        invocations := c.invocations ++ [baseUrl]
        outcomes := c.outcomes ++ [outcome]
        phase := .retry } where
  begun := List.rel_append (h.mono hl).begun (.cons hb .nil)
  distinct := by
    rw [List.map_append, List.map_singleton]
    refine nodup_append_singleton h.distinct ?_
    intro hmem
    rcases List.mem_map.1 hmem with ⟨a', ha', heq⟩
    have hlt := h.lt ha'
    omega
  ended := by
    refine Or.inl ⟨m.attempts, b, rfl, ?_, (fun o ho => nomatch ho), hopen⟩
    rw [hattempts]
    exact List.rel_append (hfront.imp fun _ _ ho => ho.mono hl) (.cons (hended.mono hl) .nil)

end Linked

/-! ## The calls of `withFailover` -/

section Calls

variable (parseUrl : String → Option Url)

/-- The end of a pending attempt settles its call or invokes the callback once more. -/
theorem settleAttempt_cases {s : Sys α} {id : Nat} {c : Call α} (hc : s.calls[id]? = some c)
    (hpending : ∀ o, c.phase ≠ .settled o) (outcome : Except JsError α) :
    ∃ r : Rec α, r.Valid (failoverSystem parseUrl α) ∧ r.pre = s ∧
      r.event = .settleAttempt id outcome ∧
      ((∃ baseUrl, c.phase = .firstAttempt ∧ r.out = [.invoked id baseUrl] ∧
          r.post.calls[id]? = some
            { c with
              invocations := c.invocations ++ [baseUrl]
              outcomes := c.outcomes ++ [outcome]
              phase := .retry }) ∨
        r.post.calls[id]? = some
          { c with outcomes := c.outcomes ++ [outcome], phase := .settled outcome }) := by
  rcases canSettle parseUrl hc hpending outcome with ⟨t, out, -, hstep, -⟩
  let r : Rec α := ⟨s, .settleAttempt id outcome, out, t⟩
  have hvalid : r.Valid (failoverSystem parseUrl α) := hstep
  refine ⟨r, hvalid, rfl, rfl, ?_⟩
  rcases settleAttempt_inv hvalid rfl with ⟨c₁, mod, c', hc₁, hsettle, hpost, hout⟩
  rw [hc, Option.some.injEq] at hc₁
  subst hc₁
  have hlt : id < s.calls.length := (List.getElem?_eq_some_iff.1 hc).1
  have hcalls : t.calls[id]? = some c' := by
    rw [show t.calls = s.calls.set id c' from congrArg Sys.calls hpost]
    exact List.getElem?_set_self hlt
  rcases withFailoverSettle_cases hsettle with
    ⟨v, -, rfl, -, rfl⟩ | ⟨err, hphase, rfl, -, -, -, rfl⟩ | ⟨err, -, rfl, -, -, rfl⟩ | ⟨-, -, rfl⟩
  · exact Or.inr hcalls
  · refine Or.inl ⟨_, hphase, hout.trans ?_, hcalls⟩
    rw [List.drop_left, List.map_singleton]
  · exact Or.inr hcalls
  · exact Or.inr hcalls

/-- A step that settles no attempt of a call leaves the call as it is. -/
theorem call_of_valid {parseUrl : String → Option Url} {r : Rec α}
    (hvalid : r.Valid (failoverSystem parseUrl α)) {id : Nat} {c : Call α}
    (hc : r.pre.calls[id]? = some c) (hother : ∀ outcome, r.event ≠ .settleAttempt id outcome) :
    r.post.calls[id]? = some c := by
  have hlt : id < r.pre.calls.length := (List.getElem?_eq_some_iff.1 hc).1
  rcases calls_of_valid hvalid with
    ⟨-, hcalls⟩ | ⟨n, outcome, c₀, mod, c', hevent, -, -, hcalls⟩ | ⟨-, hcalls⟩
  · rwa [hcalls, List.getElem?_append_left hlt]
  · have hn : n ≠ id := fun heq => hother outcome (heq ▸ hevent)
    rwa [hcalls, List.getElem?_set_ne hn]
  · rwa [hcalls]

/-- A method whose attempt has ended settles or begins another attempt. -/
theorem resume_cases {s : ClientSys α} {m : Method α} {id : Nat} {c : Call α}
    (hroute : m.route = .failover id) (hc : s.failover.calls[id]? = some c)
    (hpending : ∀ o, c.phase ≠ .settled o) (n : Nat) (outcome : Except JsError α)
    (worker : WorkerCall α) :
    ∃ r : Rec α, r.Valid (failoverSystem parseUrl α) ∧ r.pre = s.failover ∧
      r.event = .settleAttempt id outcome ∧
      ((∃ baseUrl, c.phase = .firstAttempt ∧
          r.post.calls[id]? = some
            { c with
              invocations := c.invocations ++ [baseUrl]
              outcomes := c.outcomes ++ [outcome]
              phase := .retry } ∧
          s.resume parseUrl n m outcome worker =
            some (({ s with failover := r.post }).retry n m baseUrl worker)) ∨
        (r.post.calls[id]? = some
            { c with outcomes := c.outcomes ++ [outcome], phase := .settled outcome } ∧
          s.resume parseUrl n m outcome worker =
            some (({ s with failover := r.post }).settle n m outcome))) := by
  rcases settleAttempt_cases parseUrl hc hpending outcome with ⟨r, hvalid, hpre, hevent, hcases⟩
  have hstep : Network.step parseUrl s.failover (.settleAttempt id outcome) =
      some (r.post, r.out) := hpre ▸ step_of_valid hvalid hevent
  refine ⟨r, hvalid, hpre, hevent, ?_⟩
  rcases hcases with ⟨baseUrl, hphase, hout, hcall⟩ | hcall
  · refine Or.inl ⟨baseUrl, hphase, hcall, ?_⟩
    simp only [ClientSys.resume, hroute, hstep, hcall, hout, Option.map_some]
  · refine Or.inr ⟨hcall, ?_⟩
    simp only [ClientSys.resume, hroute, hstep, hcall, Option.map_some]

end Calls

end Network
end StoaCore
