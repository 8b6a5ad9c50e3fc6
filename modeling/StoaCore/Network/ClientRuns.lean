import StoaCore.Network.ClientInvariant

/-!
# ClientRuns — all methods of the failover client in a run

Every step keeps the invariant of all methods: the one that goes on has its own call and its own
attempts, and the steps of the others leave these alone.  What the failover client does within a
run of the whole is a run of its own.
-/

namespace StoaCore
namespace Network

open Library
open Library.Js
open Library.EventLoop
open Library.Transition

variable {α : Type}

/-! ## The invariant of all methods -/

structure ClientInv (s : ClientSys α) : Prop where
  loop : LoopInv s.loop
  entries : ∀ (n : Nat) (m : Method α), s.methods[n]? = some m →
    m.call = m.entry.call n ∧ (m.entry.pactUrl = none → m.route ≠ .pinned)
  methods : ∀ (n : Nat) (m : Method α), s.methods[n]? = some m → MethodInv s m
  -- No two methods share a call or an attempt.
  routes : ∀ (n n' : Nat) (m m' : Method α) (id : Nat), s.methods[n]? = some m →
    s.methods[n']? = some m' →
    m.route = .failover id → m'.route = .failover id → n = n'
  attempts : ∀ (n n' : Nat) (m m' : Method α), s.methods[n]? = some m → s.methods[n']? = some m' →
    ∀ a ∈ m.attempts, ∀ a' ∈ m'.attempts, a.invocation = a'.invocation → n = n'

theorem clientInv_load : ClientInv (ClientSys.load : ClientSys α) where
  loop := loopInv_init
  entries := fun _ _ h => nomatch h
  methods := fun _ _ h => nomatch h
  routes := fun _ _ _ _ _ h => nomatch h
  attempts := fun _ _ _ _ h => nomatch h

section Kept

variable {s s' : ClientSys α} {m : Method α}

theorem MethodInv.mono (h : MethodInv s m) (hl : Extends s.loop s'.loop)
    (hcalls : ∀ id c, m.route = .failover id → s.failover.calls[id]? = some c →
      s'.failover.calls[id]? = some c) : MethodInv s' m := by
  cases h with
  | failover id c hroute hcall hlinked =>
      exact .failover id c hroute (hcalls id c hroute hcall) (hlinked.mono hl)
  | pinned url a hroute hattempts hbegun hsettled =>
      refine .pinned url a hroute hattempts (hbegun.mono hl) (hsettled.imp_right ?_)
      rintro ⟨o, hended, ho⟩
      exact ⟨o, hended.mono hl, ho⟩

theorem MethodInv.lt (h : MethodInv s m) {a : Attempt} (ha : a ∈ m.attempts) :
    a.invocation < s.loop.parts.length := by
  cases h with
  | failover id c hroute hcall hlinked => exact hlinked.lt ha
  | pinned url b hroute hattempts hbegun hsettled =>
      rw [hattempts, List.mem_singleton] at ha
      exact ha ▸ hbegun.lt

theorem MethodInv.route_lt (h : MethodInv s m) {id : Nat} (hroute : m.route = .failover id) :
    id < s.failover.calls.length := by
  cases h with
  | failover id' c hroute' hcall hlinked =>
      cases hroute.symm.trans hroute'
      exact (List.getElem?_eq_some_iff.1 hcall).1
  | pinned url a hroute' hattempts hbegun hsettled => cases hroute.symm.trans hroute'

/-- The methods stay as they are, and so do their calls. -/
theorem clientInv_kept (h : ClientInv s) (hmethods : s'.methods = s.methods)
    (hloop : LoopInv s'.loop) (hl : Extends s.loop s'.loop)
    (hcalls : ∀ m ∈ s.methods, ∀ id c, m.route = .failover id →
      s.failover.calls[id]? = some c → s'.failover.calls[id]? = some c) : ClientInv s' where
  loop := hloop
  entries := hmethods ▸ h.entries
  methods := by
    intro n m hm
    rw [hmethods] at hm
    exact (h.methods n m hm).mono hl (hcalls m (List.mem_of_getElem? hm))
  routes := hmethods ▸ h.routes
  attempts := hmethods ▸ h.attempts

/-- Method number `n` is `new` now, and the others stay as they are. -/
theorem clientInv_changed (h : ClientInv s) {n : Nat} {new : Method α}
    (hmethods : ∀ (k : Nat) (m : Method α), s'.methods[k]? = some m →
      (k = n ∧ m = new) ∨ (k ≠ n ∧ s.methods[k]? = some m))
    (hloop : LoopInv s'.loop) (hl : Extends s.loop s'.loop)
    (hcalls : ∀ (k : Nat) (m : Method α), k ≠ n → s.methods[k]? = some m → ∀ id c,
      m.route = .failover id → s.failover.calls[id]? = some c → s'.failover.calls[id]? = some c)
    (hentry : new.call = new.entry.call n ∧ (new.entry.pactUrl = none → new.route ≠ .pinned))
    (hnew : MethodInv s' new)
    (hroute : ∀ (k : Nat) (m : Method α), k ≠ n → s.methods[k]? = some m → ∀ id,
      m.route = .failover id → new.route ≠ .failover id)
    (hattempts : ∀ (k : Nat) (m : Method α), k ≠ n → s.methods[k]? = some m → ∀ a ∈ m.attempts,
      ∀ a' ∈ new.attempts, a.invocation ≠ a'.invocation) : ClientInv s' where
  loop := hloop
  entries := by
    intro k m hm
    rcases hmethods k m hm with ⟨rfl, rfl⟩ | ⟨-, hm⟩
    · exact hentry
    · exact h.entries k m hm
  methods := by
    intro k m hm
    rcases hmethods k m hm with ⟨rfl, rfl⟩ | ⟨hk, hm⟩
    · exact hnew
    · exact (h.methods k m hm).mono hl (hcalls k m hk hm)
  routes := by
    intro k k' m m' id hm hm' hid hid'
    rcases hmethods k m hm with ⟨rfl, rfl⟩ | ⟨hk, hm⟩
    · rcases hmethods k' m' hm' with ⟨rfl, rfl⟩ | ⟨hk', hm'⟩
      · rfl
      · exact absurd hid (hroute k' m' hk' hm' id hid')
    · rcases hmethods k' m' hm' with ⟨rfl, rfl⟩ | ⟨hk', hm'⟩
      · exact absurd hid' (hroute k m hk hm id hid)
      · exact h.routes k k' m m' id hm hm' hid hid'
  attempts := by
    intro k k' m m' hm hm' a ha a' ha' heq
    rcases hmethods k m hm with ⟨rfl, rfl⟩ | ⟨hk, hm⟩
    · rcases hmethods k' m' hm' with ⟨rfl, rfl⟩ | ⟨hk', hm'⟩
      · rfl
      · exact absurd heq.symm (hattempts k' m' hk' hm' a' ha' a ha)
    · rcases hmethods k' m' hm' with ⟨rfl, rfl⟩ | ⟨hk', hm'⟩
      · exact absurd heq (hattempts k m hk hm a ha a' ha')
      · exact h.attempts k k' m m' hm hm' a ha a' ha' heq

end Kept

/-! ## Steps -/

section Steps

variable {parseUrl : String → Option Url} {s t : ClientSys α}

theorem resume_inv {n : Nat} {worker : WorkerCall α} {out : Unit}
    (hstep : s.step parseUrl (.resume n worker) = some (t, out)) :
    ∃ m outcome, s.methods[n]? = some m ∧ m.settled = none ∧ s.ended m = some outcome ∧
      s.resume parseUrl n m outcome worker = some t := by
  simp only [ClientSys.step] at hstep
  split at hstep
  case h_1 => cases hstep
  case h_2 m hm =>
    split at hstep
    case h_2 => cases hstep
    case h_1 outcome hopen hended =>
      rcases Option.map_eq_some_iff.1 hstep with ⟨t', hresume, heq⟩
      cases heq
      exact ⟨m, outcome, hm, hopen, hended, hresume⟩

theorem clientInv_begin (h : ClientInv s) (entry : Entry) (worker : WorkerCall α) :
    ClientInv (s.begin entry worker) := by
  have hlast : ∀ (k : Nat) (m : Method α), s.methods[k]? = some m → ∀ a ∈ m.attempts,
      a.invocation ≠ s.loop.parts.length :=
    fun k m hm a ha => ((h.methods k m hm).lt ha).ne
  unfold ClientSys.begin
  cases hurl : entry.pactUrl with
  | some pactUrl =>
      refine clientInv_changed h getElem?_concat_cases (loopInv_start h.loop _ _ _)
        (extends_start h.loop _ _ _) (fun _ _ _ _ _ _ _ hc => hc) ⟨rfl, ?_⟩
        (.pinned pactUrl _ rfl rfl (begun_attempt s _ _ _) (Or.inl rfl))
        (fun _ _ _ _ _ _ => Route.noConfusion) ?_
      · intro hnone
        cases hurl.symm.trans hnone
      · intro k m _ hm a ha a' ha'
        rw [List.mem_singleton] at ha'
        exact ha' ▸ hlast k m hm a ha
  | none =>
      refine clientInv_changed h getElem?_concat_cases (loopInv_start h.loop _ _ _)
        (extends_start h.loop _ _ _) ?_ ⟨rfl, fun _ => Route.noConfusion⟩
        (.failover s.failover.calls.length (withFailoverStart s.failover.mod) rfl (by simp) ?_)
        ?_ ?_
      · intro k m _ _ id c _ hc
        rwa [List.getElem?_append_left (List.getElem?_eq_some_iff.1 hc).1]
      · exact
          { begun := .cons (begun_attempt s _ _ _) .nil
            distinct := List.nodup_singleton _
            ended := Or.inl ⟨[], _, rfl, .nil, (fun o ho => nomatch ho), rfl⟩ }
      · intro k m _ hm id hid hnew
        cases hnew
        exact Nat.lt_irrefl _ ((h.methods k m hm).route_lt hid)
      · intro k m _ hm a ha a' ha'
        rw [List.mem_singleton] at ha'
        exact ha' ▸ hlast k m hm a ha

/-- Only the method that goes on settles an attempt of its call. -/
theorem others_calls (h : ClientInv s) {n id : Nat} {m : Method α}
    (hm : s.methods[n]? = some m) (hroute : m.route = .failover id) {outcome : Except JsError α}
    {r : Rec α} (hvalid : r.Valid (failoverSystem parseUrl α)) (hpre : r.pre = s.failover)
    (hevent : r.event = .settleAttempt id outcome) (k : Nat) (m' : Method α) (hk : k ≠ n)
    (hm' : s.methods[k]? = some m') (id' : Nat) (c : Call α) (hid' : m'.route = .failover id')
    (hc : s.failover.calls[id']? = some c) : r.post.calls[id']? = some c := by
  refine call_of_valid hvalid (hpre ▸ hc) ?_
  intro outcome' hevent'
  cases hevent.symm.trans hevent'
  exact hk (h.routes k n m' m id hm' hm hid' hroute)

theorem clientInv_resume (h : ClientInv s) {n : Nat} {m : Method α}
    (hm : s.methods[n]? = some m) (hopen : m.settled = none) {outcome : Except JsError α}
    (hended : s.ended m = some outcome) {worker : WorkerCall α} {t : ClientSys α}
    (hresume : s.resume parseUrl n m outcome worker = some t) : ClientInv t := by
  have hentry := h.entries n m hm
  have hothers : ∀ (k : Nat) (m' : Method α), k ≠ n → s.methods[k]? = some m' →
      ∀ a ∈ m'.attempts, ∀ a' ∈ m.attempts, a.invocation ≠ a'.invocation :=
    fun k m' hk hm' a ha a' ha' heq => hk (h.attempts k n m' m hm' hm a ha a' ha' heq)
  cases h.methods n m hm with
  | pinned url a hroute hattempts hbegun hsettled =>
      simp only [ClientSys.resume, hroute, Option.some.injEq] at hresume
      subst hresume
      have hsingle : m.attempts = [] ++ [a] := hattempts
      have hlast := ended_of_append hsingle hended
      refine clientInv_changed h getElem?_set_cases h.loop (.refl s.loop)
        (fun _ _ _ _ _ _ _ hc => hc) hentry
        (.pinned url a hroute hattempts hbegun (Or.inr ⟨outcome, hlast, rfl⟩)) ?_ hothers
      intro k m' _ _ id _ hnew
      cases hroute.symm.trans hnew
  | failover id c hroute hcall hlinked =>
      rcases hlinked.pending hopen with ⟨front, a, hattempts, hfront, hpending⟩
      have hlast := ended_of_append hattempts hended
      have hroutes : ∀ (k : Nat) (m' : Method α), k ≠ n → s.methods[k]? = some m' →
          ∀ id', m'.route = .failover id' → m.route ≠ .failover id' :=
        fun k m' hk hm' id' hid' hid => hk (h.routes k n m' m id' hm' hm hid' hid)
      rcases resume_cases parseUrl hroute hcall hpending n outcome worker with
        ⟨r, hvalid, hpre, hevent, hcases⟩
      have hcalls := others_calls h hm hroute hvalid hpre hevent
      rcases hcases with ⟨baseUrl, -, hcall', heq⟩ | ⟨hcall', heq⟩
      · cases heq.symm.trans hresume
        have hl := extends_start h.loop m.call.operation m.call.timeoutMs worker
        refine clientInv_changed h getElem?_set_cases (loopInv_start h.loop _ _ _) hl hcalls hentry
          (.failover id _ hroute hcall' (linked_retry hl hlinked hattempts hfront hlast hopen
            (begun_attempt _ _ _ _) (Nat.le_refl _))) hroutes ?_
        intro k m' hk hm' a' ha' b hb
        rcases List.mem_append.1 hb with hb | hb
        · exact hothers k m' hk hm' a' ha' b hb
        · rw [List.mem_singleton] at hb
          exact hb ▸ ((h.methods k m' hm').lt ha').ne
      · cases heq.symm.trans hresume
        exact clientInv_changed h getElem?_set_cases h.loop (.refl s.loop) hcalls hentry
          (.failover id _ hroute hcall' (linked_settle hlinked hattempts hfront hlast)) hroutes
          hothers

theorem clientInv_failover (h : ClientInv s) {event : Event α} (howns : s.owns event = false)
    {r : Rec α} (hvalid : r.Valid (failoverSystem parseUrl α)) (hpre : r.pre = s.failover)
    (hevent : r.event = event) : ClientInv { s with failover := r.post } := by
  refine clientInv_kept h rfl h.loop (.refl s.loop) ?_
  intro m hm id c hroute hc
  refine call_of_valid hvalid (hpre ▸ hc) ?_
  intro outcome hsettle
  rw [← hevent, hsettle, ClientSys.owns, List.any_eq_false] at howns
  exact howns m hm (decide_eq_true hroute)

theorem clientInv_step (r : ClientRec α) (hvalid : r.Valid (clientSystem parseUrl α))
    (h : ClientInv r.pre) : ClientInv r.post := by
  rcases r with ⟨pre, event, out, post⟩
  have hstep : pre.step parseUrl event = some (post, out) := hvalid
  cases event with
  | begin entry worker =>
      cases hstep
      exact clientInv_begin h entry worker
  | resume n worker =>
      rcases resume_inv hstep with ⟨m, outcome, hm, hopen, hended, hresume⟩
      exact clientInv_resume h hm hopen hended hresume
  | failover event =>
      simp only [ClientSys.step] at hstep
      split at hstep
      case isTrue => cases hstep
      case isFalse howns =>
        rcases Option.map_eq_some_iff.1 hstep with ⟨⟨failover, outs⟩, hnext, heq⟩
        cases heq
        exact clientInv_failover h (Bool.eq_false_of_not_eq_true howns)
          (r := ⟨pre.failover, event, outs, failover⟩) hnext rfl rfl
  | deadline event =>
      rcases Option.map_eq_some_iff.1 hstep with ⟨⟨loop, settlement⟩, hnext, heq⟩
      cases heq
      have hloop : (⟨pre.loop, event, settlement, loop⟩ : DeadlineRec α).Valid (deadlineSystem α) :=
        hnext
      exact clientInv_kept h rfl (loopInv_step hloop h.loop)
        (fun id i hi => continues_step hloop h.loop hi) (fun _ _ _ _ _ hc => hc)

/-! ## The failover client within -/

/-- A method that goes on keeps what it is, and the end of its attempt is all that the failover
client sees of it. -/
theorem resume_shape {n : Nat} {m : Method α} {outcome : Except JsError α} {worker : WorkerCall α}
    (h : s.resume parseUrl n m outcome worker = some t) :
    (∃ m', t.methods = s.methods.set n m' ∧ m'.route = m.route) ∧
      (t.failover = s.failover ∨ ∃ (r : Rec α) (id : Nat), r.Valid (failoverSystem parseUrl α) ∧
        r.event = .settleAttempt id outcome ∧ r.pre = s.failover ∧ r.post = t.failover) := by
  unfold ClientSys.resume at h
  split at h
  case h_1 =>
    cases h
    exact ⟨⟨_, rfl, rfl⟩, Or.inl rfl⟩
  case h_2 id hroute =>
    split at h
    case h_1 => cases h
    case h_2 failover out hstep =>
      have hrec : ∃ (r : Rec α) (id : Nat), r.Valid (failoverSystem parseUrl α) ∧
          r.event = .settleAttempt id outcome ∧ r.pre = s.failover ∧ r.post = failover :=
        ⟨⟨s.failover, .settleAttempt id outcome, out, failover⟩, id, hstep, rfl, rfl, rfl⟩
      dsimp only at h
      split at h
      case h_1 o _ =>
        cases h
        exact ⟨⟨_, rfl, rfl⟩, Or.inr hrec⟩
      case h_2 baseUrl =>
        cases h
        exact ⟨⟨_, rfl, rfl⟩, Or.inr hrec⟩
      case h_3 => cases h

/-- A step of the whole is one of the failover client or none, and it configures only where the
event does. -/
theorem failover_step (r : ClientRec α) (hvalid : r.Valid (clientSystem parseUrl α)) :
    r.post.failover = r.pre.failover ∨ ∃ r' : Rec α, r'.Valid (failoverSystem parseUrl α) ∧
      (r'.event.IsConfiguration → r.event = .failover r'.event) ∧
      r'.pre = r.pre.failover ∧ r'.post = r.post.failover := by
  rcases r with ⟨pre, event, out, post⟩
  have hstep : pre.step parseUrl event = some (post, out) := hvalid
  cases event with
  | begin entry worker =>
      cases hstep
      dsimp only [ClientSys.begin]
      cases entry.pactUrl with
      | some pactUrl => exact Or.inl rfl
      | none =>
          have hstart : Network.step parseUrl pre.failover .startCall = some (_, _) := rfl
          exact Or.inr ⟨⟨pre.failover, .startCall, _, _⟩, hstart, (fun h => nomatch h), rfl, rfl⟩
  | resume n worker =>
      rcases resume_inv hstep with ⟨m, outcome, -, -, -, hresume⟩
      rcases (resume_shape hresume).2 with hsame | ⟨r', id, hr', hevent, hpre, hpost⟩
      · exact Or.inl hsame
      · refine Or.inr ⟨r', hr', ?_, hpre, hpost⟩
        rw [hevent]
        exact fun h => nomatch h
  | failover event =>
      simp only [ClientSys.step] at hstep
      split at hstep
      case isTrue => cases hstep
      case isFalse =>
        rcases Option.map_eq_some_iff.1 hstep with ⟨⟨failover, outs⟩, hnext, heq⟩
        cases heq
        exact Or.inr ⟨⟨pre.failover, event, outs, failover⟩, hnext, fun _ => rfl, rfl, rfl⟩
  | deadline event =>
      rcases Option.map_eq_some_iff.1 hstep with ⟨next, -, heq⟩
      cases heq
      exact Or.inl rfl

/-- The methods that have begun since `s₀` have calls that have begun since then. -/
structure Since (s₀ s : ClientSys α) : Prop where
  calls : s₀.failover.calls.length ≤ s.failover.calls.length
  routes : ∀ (n : Nat) (m : Method α) (id : Nat), s₀.methods.length ≤ n →
    s.methods[n]? = some m → m.route = .failover id → s₀.failover.calls.length ≤ id

theorem length_calls_le {r : Rec α} (hvalid : r.Valid (failoverSystem parseUrl α)) :
    r.pre.calls.length ≤ r.post.calls.length := by
  rcases calls_of_valid hvalid with
    ⟨-, hcalls⟩ | ⟨n, outcome, c₀, mod, c', -, -, -, hcalls⟩ | ⟨-, hcalls⟩
  · simp [hcalls]
  · simp [hcalls]
  · rw [hcalls]

theorem since_step {s₀ : ClientSys α} (r : ClientRec α)
    (hvalid : r.Valid (clientSystem parseUrl α)) (h : Since s₀ r.pre) : Since s₀ r.post := by
  have hcalls : r.pre.failover.calls.length ≤ r.post.failover.calls.length := by
    rcases failover_step r hvalid with hsame | ⟨r', hr', -, hpre, hpost⟩
    · rw [hsame]
    · exact hpre ▸ hpost ▸ length_calls_le hr'
  refine ⟨h.calls.trans hcalls, ?_⟩
  rcases r with ⟨pre, event, out, post⟩
  have hstep : pre.step parseUrl event = some (post, out) := hvalid
  cases event with
  | begin entry worker =>
      cases hstep
      intro n m id hn hm hid
      dsimp only [ClientSys.begin] at hm
      cases hurl : entry.pactUrl with
      | some pactUrl =>
          simp only [hurl] at hm
          rcases getElem?_concat_cases n m hm with ⟨-, rfl⟩ | ⟨-, hm⟩
          · cases hid
          · exact h.routes n m id hn hm hid
      | none =>
          simp only [hurl] at hm
          rcases getElem?_concat_cases n m hm with ⟨-, rfl⟩ | ⟨-, hm⟩
          · cases hid
            exact h.calls
          · exact h.routes n m id hn hm hid
  | resume n worker =>
      rcases resume_inv hstep with ⟨m, outcome, hm, -, -, hresume⟩
      rcases (resume_shape hresume).1 with ⟨m', hmethods, hroute⟩
      intro k m₁ id hk hm₁ hid
      rw [hmethods] at hm₁
      rcases getElem?_set_cases k m₁ hm₁ with ⟨rfl, rfl⟩ | ⟨-, hm₁⟩
      · exact h.routes k m id hk hm (hroute.symm.trans hid)
      · exact h.routes k m₁ id hk hm₁ hid
  | failover event =>
      simp only [ClientSys.step] at hstep
      split at hstep
      case isTrue => cases hstep
      case isFalse =>
        rcases Option.map_eq_some_iff.1 hstep with ⟨next, -, heq⟩
        cases heq
        exact h.routes
  | deadline event =>
      rcases Option.map_eq_some_iff.1 hstep with ⟨next, -, heq⟩
      cases heq
      exact h.routes

end Steps

end Network
end StoaCore
