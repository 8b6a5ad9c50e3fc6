import Mathlib.Data.List.TakeWhile
import StoaCore.Network.FailoverInvariant

/-!
# CustomNode — a custom node is its own fallback

While a custom configuration is in force, primary, fallback and active host are one and the same,
so every transition of the failover client is the identity on hosts: nothing that leaves the
client in that window can carry another origin.
-/

namespace StoaCore
namespace Network

open Library.Transition

variable {α : Type}

/-! ## URLs that leave a step -/

theorem chainwebRoot_eq (host : String) :
    chainwebRoot host = host ++ ("/" ++ "chainweb/0.0/stoa") :=
  congrArg (host ++ ·) (by decide)

theorem healthUrl_eq (host : String) : healthUrl host = host ++ ("/" ++ "info") :=
  congrArg (host ++ ·) (by decide)

/-- Appending to a URL below a host stays below that host. -/
theorem exists_path_append {host url : String} (h : ∃ rest, url = host ++ ("/" ++ rest))
    (suffix : String) : ∃ rest, url ++ suffix = host ++ ("/" ++ rest) := by
  rcases h with ⟨rest, rfl⟩
  exact ⟨rest ++ suffix, by simp only [String.append_assoc]⟩

/-- Every URL a step hands out lies below the active host or the primary host as they stand after
the step. -/
theorem out_url_cases {parseUrl : String → Option Url} {r : Rec α}
    (hvalid : r.Valid (failoverSystem parseUrl α)) {o : Output} (ho : o ∈ r.out) {url : String}
    (hurl : o.url? = some url) :
    ∃ host rest, url = host ++ ("/" ++ rest) ∧
      (host = r.post.mod.currentHost ∨ host = r.post.mod.primaryHost) := by
  have hactive : ∀ s : FailoverState, ∃ rest, getActiveBaseUrl s = s.currentHost ++ ("/" ++ rest) :=
    fun s => ⟨_, chainwebRoot_eq s.currentHost⟩
  -- A step that emits just `o'`, whose URL lies below one of the two hosts.
  have hsingle : ∀ o' url', r.out = [o'] → o'.url? = some url' →
      (∃ host rest, url' = host ++ ("/" ++ rest) ∧
        (host = r.post.mod.currentHost ∨ host = r.post.mod.primaryHost)) →
      ∃ host rest, url = host ++ ("/" ++ rest) ∧
        (host = r.post.mod.currentHost ∨ host = r.post.mod.primaryHost) := by
    intro o' url' hout hurl' hbelow
    rw [hout, List.mem_singleton] at ho
    subst ho
    rw [hurl] at hurl'
    cases hurl'
    exact hbelow
  have hstep := step_of_valid hvalid rfl
  cases hevent : r.event with
  | startCall =>
      simp only [hevent, step, Option.some.injEq, Prod.mk.injEq] at hstep
      rcases hactive r.pre.mod with ⟨rest, hrest⟩
      exact hsingle _ _ hstep.2.symm rfl ⟨_, rest, hrest, Or.inl (by rw [← hstep.1])⟩
  | settleAttempt id outcome =>
      rcases settleAttempt_inv hvalid hevent with ⟨c, mod, c', -, hsettle, hpost, hout⟩
      rcases withFailoverSettle_cases hsettle with
        ⟨v, -, -, -, rfl⟩ | ⟨err, -, -, -, -, rfl, rfl⟩ | ⟨err, -, -, -, -, rfl⟩ | ⟨-, -, rfl⟩
      · simp [hout] at ho
      · rcases hactive (switchToFallback r.pre.mod) with ⟨rest, hrest⟩
        exact hsingle _ _ (by simpa using hout) rfl ⟨_, rest, hrest, Or.inl (by rw [hpost])⟩
      · simp [hout] at ho
      · simp [hout] at ho
  | tick timer =>
      simp only [hevent, step] at hstep
      split at hstep
      · simp only [Option.some.injEq, Prod.mk.injEq] at hstep
        exact hsingle _ _ hstep.2.symm rfl ⟨_, _, healthUrl_eq _, Or.inr (by rw [← hstep.1]; rfl)⟩
      · cases hstep
  | startInit =>
      simp only [hevent, step, Option.some.injEq, Prod.mk.injEq] at hstep
      exact hsingle _ _ hstep.2.symm rfl ⟨_, _, healthUrl_eq _, Or.inr (by rw [← hstep.1]; rfl)⟩
  | settleProbe id outcome =>
      rcases settleProbe_inv hvalid hevent with ⟨p, -, -, -, hout⟩
      simp [hout] at ho
  | setNodeConfig selected customUrl limit =>
      simp only [hevent, step] at hstep
      split at hstep <;> simp only [Option.some.injEq, Prod.mk.injEq] at hstep <;>
        rw [← hstep.2] at ho <;> simp at ho
      subst ho
      cases hurl
  | resetNodeFailover =>
      simp only [hevent, step, Option.some.injEq, Prod.mk.injEq] at hstep
      simp [← hstep.2] at ho
  | getActiveBaseUrl =>
      simp only [hevent, step, Option.some.injEq, Prod.mk.injEq] at hstep
      rcases hactive r.pre.mod with ⟨rest, hrest⟩
      exact hsingle _ _ hstep.2.symm rfl ⟨_, rest, hrest, Or.inl (by rw [← hstep.1])⟩
  | getActivePactUrl chainId =>
      simp only [hevent, step, Option.some.injEq, Prod.mk.injEq] at hstep
      rcases exists_path_append (hactive r.pre.mod) ("/chain/" ++ chainId ++ "/pact") with
        ⟨rest, hrest⟩
      exact hsingle _ _ hstep.2.symm rfl ⟨_, rest, hrest, Or.inl (by rw [← hstep.1])⟩
  | getActiveSpvUrl chainId =>
      simp only [hevent, step, Option.some.injEq, Prod.mk.injEq] at hstep
      rcases exists_path_append (hactive r.pre.mod) ("/chain/" ++ chainId ++ "/pact/spv") with
        ⟨rest, hrest⟩
      exact hsingle _ _ hstep.2.symm rfl ⟨_, rest, hrest, Or.inl (by rw [← hstep.1])⟩

/-! ## The window of a custom configuration -/

/-- All three hosts are `host`. -/
structure PinnedTo (host : String) (s : FailoverState) : Prop where
  primary : s.primaryHost = host
  fallback : s.fallbackHost = host
  current : s.currentHost = host

/-- The step does not replace the configuration: it is no reset, and a `setNodeConfig` in it
throws. -/
def KeepsConfiguration (r : Rec α) : Prop :=
  match r.event with
  | .setNodeConfig .. => ¬ ReturnsNormally r
  | .resetNodeFailover => False
  | _ => True

instance (r : Rec α) : Decidable (KeepsConfiguration r) := by
  unfold KeepsConfiguration
  cases r.event <;> infer_instance

theorem pinnedTo_step {parseUrl : String → Option Url} {host : String} (r : Rec α)
    (hvalid : r.Valid (failoverSystem parseUrl α)) (hkeeps : KeepsConfiguration r)
    (h : PinnedTo host r.pre.mod) : PinnedTo host r.post.mod := by
  cases modStep_of_valid hvalid with
  | unchanged _ hmod => rwa [hmod]
  | failure url _ hmod =>
      rw [hmod]
      -- Falling back from a host to itself.
      exact ⟨by simp [h.primary], by simp [h.fallback], by simp [h.fallback]⟩
  | recovery origin _ hmod =>
      rw [hmod]
      -- Going back to the host the client is on.
      exact ⟨by simp [h.primary], by simp [h.fallback], by simp [h.primary]⟩
  | configured selected customUrl limit hevent hmod hout =>
      rw [hmod]
      cases hres : (setNodeConfig parseUrl r.pre.mod selected customUrl limit).2 with
      | ok u =>
          rw [hres] at hout
          simp [KeepsConfiguration, hevent, ReturnsNormally, hout] at hkeeps
      | error e =>
          rw [setNodeConfig_error hres]
          -- A throwing call has only stopped the retry loop.
          exact ⟨by simp [h.primary], by simp [h.fallback], by simp [h.current]⟩
  | reset hevent =>
      simp [KeepsConfiguration, hevent] at hkeeps

/-- A custom URL that is accepted has the scheme `https:` and its origin becomes all three
hosts. -/
theorem pinnedTo_of_custom {parseUrl : String → Option Url} {r : Rec α} {url : String}
    {limit : Option Rat} (hvalid : r.Valid (failoverSystem parseUrl α))
    (hevent : r.event = .setNodeConfig .custom (some url) limit) (hnormal : ReturnsNormally r) :
    ∃ parsed, parseUrl url = some parsed ∧ parsed.protocol = "https:" ∧
      PinnedTo parsed.origin r.post.mod := by
  cases modStep_of_valid hvalid with
  | unchanged hconf =>
      simp [hevent, Event.IsConfiguration] at hconf
  | failure url hreport => simp [hevent, failureReport] at hreport
  | recovery host hreport => simp [hevent, recoveryReport] at hreport
  | reset hreset => simp [hevent] at hreset
  | configured selected customUrl limit' hconfig hmod hout =>
      rw [hevent] at hconfig
      cases hconfig
      cases hres : (setNodeConfig parseUrl r.pre.mod .custom (some url) limit).2 with
      | error e =>
          rw [hres] at hout
          have hthrow := hnormal (.threw e) (by simp [hout])
          simp [Output.isThrow] at hthrow
      | ok u =>
          -- The three checks of the custom branch: a URL is given, it parses, and it is https.
          rcases setNodeConfig_ok hres with ⟨primary, fallback, hhosts, hstate⟩
          rw [hstate] at hmod
          simp only [selectHosts] at hhosts
          split at hhosts
          · cases hhosts
          · split at hhosts
            · cases hhosts
            · rename_i parsed hparsed
              split at hhosts
              · cases hhosts
              · rename_i hprotocol
                simp only [Except.ok.injEq, Prod.mk.injEq] at hhosts
                rcases hhosts with ⟨rfl, rfl⟩
                exact ⟨parsed, hparsed, not_not.1 hprotocol, by rw [hmod]; exact ⟨rfl, rfl, rfl⟩⟩

/-- The documented behaviour of `URL` that the client relies on when it appends paths to an
origin: an https origin followed by `/` and anything parses again, with the same origin. -/
def OriginStable (parseUrl : String → Option Url) : Prop :=
  ∀ text parsed rest, parseUrl text = some parsed → parsed.protocol = "https:" →
    ∃ parsed', parseUrl (parsed.origin ++ ("/" ++ rest)) = some parsed' ∧
      parsed'.origin = parsed.origin

/-- From a `setNodeConfig("custom", url, ...)` that returned until the configuration is replaced,
every URL that leaves the client has the origin of `url`. -/
theorem custom_node_never_leaks {parseUrl : String → Option Url} (hparse : OriginStable parseUrl)
    {before window : List (Rec α)} {r : Rec α} {s : Sys α} {url : String} {limit : Option Rat}
    (hrun : Run (failoverSystem parseUrl α) Sys.load (before ++ r :: window) s)
    (hevent : r.event = .setNodeConfig .custom (some url) limit) (hnormal : ReturnsNormally r)
    (hwindow : ∀ w ∈ window, KeepsConfiguration w) :
    ∃ parsed, parseUrl url = some parsed ∧
      ∀ w ∈ window, ∀ o ∈ w.out, ∀ u, o.url? = some u →
        ∃ parsed', parseUrl u = some parsed' ∧ parsed'.origin = parsed.origin := by
  have hvalid : ∀ w ∈ r :: window, w.Valid (failoverSystem parseUrl α) := by
    intro w hw
    exact hrun.valid_of_mem w (List.mem_append_right _ hw)
  rcases pinnedTo_of_custom (hvalid r (by simp)) hevent hnormal with
    ⟨parsed, hparsed, hprotocol, hpinned⟩
  -- The run before the configuration call is of no interest: the call pins all three hosts.
  rcases hrun.split with ⟨mid, -, hback⟩
  have hinv := hback.tail.invariant (fun s => PinnedTo parsed.origin s.mod) KeepsConfiguration
    pinnedTo_step hwindow hpinned
  refine ⟨parsed, hparsed, ?_⟩
  intro w hw o ho u hu
  rcases out_url_cases (hvalid w (by simp [hw])) ho hu with ⟨host, rest, rfl, hhost⟩
  have hpost := (hinv.2 w hw).2
  -- Every URL lies below one of two hosts, and both are the pinned one.
  have horigin : host = parsed.origin := by
    rcases hhost with rfl | rfl
    · exact hpost.current
    · exact hpost.primary
  rw [horigin]
  exact hparse url parsed rest hparsed hprotocol

/-! ## A concrete URL parser and run -/

def httpsPrefix : List Char := "https://".toList

/-- The host part of a plain `https://host/...` text. -/
def plainHost (text : String) : List Char :=
  (text.toList.drop httpsPrefix.length).takeWhile (· ≠ '/')

/-- `URL` on plain `https://host/...` texts. -/
def plainHttpsUrl (text : String) : Option Url :=
  if httpsPrefix <+: text.toList ∧ plainHost text ≠ [] then
    some { protocol := "https:", origin := String.ofList (httpsPrefix ++ plainHost text) }
  else none

theorem plainHost_append {host : List Char} (hhost : ∀ c ∈ host, c ≠ '/') (rest : String) :
    plainHost (String.ofList (httpsPrefix ++ host) ++ ("/" ++ rest)) = host := by
  have hlist : (String.ofList (httpsPrefix ++ host) ++ ("/" ++ rest)).toList =
      httpsPrefix ++ (host ++ '/' :: rest.toList) := by
    simp
  rw [plainHost, hlist, List.drop_left, List.takeWhile_append_of_pos]
  · simp
  · intro c hc
    simpa using hhost c hc

theorem originStable_plainHttpsUrl : OriginStable plainHttpsUrl := by
  intro text parsed rest hparsed _
  simp only [plainHttpsUrl] at hparsed
  split at hparsed
  · rename_i hplain
    cases hparsed
    -- The host part ends before the first slash, so appending a path does not change it.
    have hslash : ∀ c ∈ plainHost text, c ≠ '/' := by
      intro c hc
      simpa using List.mem_takeWhile_imp hc
    have hhost := plainHost_append hslash rest
    have hhead : httpsPrefix <+:
        (String.ofList (httpsPrefix ++ plainHost text) ++ ("/" ++ rest)).toList := by
      simp
    exact ⟨_, by rw [plainHttpsUrl, hhost, if_pos ⟨hhead, hplain.2⟩], rfl⟩
  · cases hparsed

def customText : String := "https://node.example.com/some-path"

/-- A call and a health check begin under the default configuration, then the custom node is
set. -/
def beforeCustom : List (Event Nat) := [.startCall, .startInit]

/-- The old call and the old health check fail; new calls, checks, reads and a throwing
`setNodeConfig` follow. -/
def customWindow : List (Event Nat) :=
  [.settleAttempt 0 (.error ⟨none, some "Failed to fetch"⟩), .settleProbe 0 .threw, .startCall,
    .settleAttempt 1 (.error ⟨some "AbortError", none⟩), .startInit, .settleProbe 1 .threw,
    .setNodeConfig .custom none none, .getActivePactUrl "0"]

theorem custom_node_never_leaks_customWindow :
    let sys := failoverSystem plainHttpsUrl Nat
    let configured := sys.final Sys.load (beforeCustom ++ [.setNodeConfig .custom customText none])
    ∃ parsed, plainHttpsUrl customText = some parsed ∧
      ∀ w ∈ sys.trace configured customWindow, ∀ o ∈ w.out, ∀ u, o.url? = some u →
        ∃ parsed', plainHttpsUrl u = some parsed' ∧ parsed'.origin = parsed.origin := by
  let sys := failoverSystem plainHttpsUrl Nat
  let config : Event Nat := .setNodeConfig .custom customText none
  let s := sys.final Sys.load beforeCustom
  let configured := sys.final Sys.load (beforeCustom ++ [config])
  have hrun : Run sys Sys.load
      (sys.trace Sys.load beforeCustom ++ ⟨s, config, [], configured⟩ ::
        sys.trace configured customWindow)
      (sys.final Sys.load (beforeCustom ++ config :: customWindow)) :=
    run_of_events (beforeCustom ++ config :: customWindow) (by decide)
  exact custom_node_never_leaks originStable_plainHttpsUrl hrun rfl (by decide) (by decide)

end Network
end StoaCore
