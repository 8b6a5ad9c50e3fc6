import Mathlib.Data.List.Infix
import Mathlib.Data.Rat.Defs

/-!
# NodeFailover — the module variables of the failover client and the functions over them

Each function of the source is a function on `FailoverState`: the five module variables together
with the event loop's table of live intervals, which is what `setInterval` and `clearInterval`
change.  `withFailover` is an async function, so it appears as the two synchronous stretches
between its awaits: `withFailoverStart` (up to the first `await fn(...)`) and
`withFailoverSettle` (from the settlement of the pending attempt up to the next await or return).
Logging is left out.
-/

namespace StoaCore
namespace Network

/-! ## Constants -/

def kadenaNetwork : String := "stoa"

def node2Host : String := "https://node2.stoachain.com"

def node1Host : String := "https://node1.stoachain.com"

/-- Known gas limits per node. -/
def nodeGasLimits : List (String × Rat) :=
  [(node2Host, 2000000), (node1Host, 2000000)]

/-- Default gas limit for unknown/custom nodes. -/
def defaultGasLimit : Rat := 1600000

/-! ## Module state -/

abbrev TimerId := Nat

structure FailoverState where
  primaryHost : String := node2Host
  fallbackHost : String := node1Host
  customGasLimit : Rat := defaultGasLimit
  currentHost : String := node2Host
  retryTimer : Option TimerId := none
  /-- Intervals created by `setInterval` and not yet cleared. -/
  liveIntervals : List TimerId := []
  /-- The handle the next `setInterval` returns. -/
  nextInterval : TimerId := 0
  deriving DecidableEq

/-- How `fetch` on the health endpoint ends. -/
inductive FetchOutcome
  | response (ok : Bool)
  | threw
  deriving DecidableEq

/-- The verdict of `isHealthy` once its `fetch` has ended; the time-out is a throwing `fetch`. -/
def isHealthy : FetchOutcome → Bool
  | .response ok => ok
  | .threw => false

/-- The URL `isHealthy` fetches. -/
def healthUrl (host : String) : String :=
  host ++ "/info"

/-! ## Retry loop and switches -/

def startRetryLoop (s : FailoverState) : FailoverState :=
  match s.retryTimer with
  | some _ => s
  | none =>
      { s with
        retryTimer := some s.nextInterval
        liveIntervals := s.liveIntervals ++ [s.nextInterval]
        nextInterval := s.nextInterval + 1 }

def stopRetryLoop (s : FailoverState) : FailoverState :=
  match s.retryTimer with
  | some timer =>
      { s with
        retryTimer := none
        liveIntervals := s.liveIntervals.filter (· ≠ timer) }
  | none => s

/-- Switch to fallback and start retry loop. -/
def switchToFallback (s : FailoverState) : FailoverState :=
  if s.currentHost = s.fallbackHost then s
  else startRetryLoop { s with currentHost := s.fallbackHost }

/-- Switch back to primary. -/
def switchToPrimary (s : FailoverState) : FailoverState :=
  if s.currentHost = s.primaryHost then s
  else stopRetryLoop { s with currentHost := s.primaryHost }

/-! ## URLs -/

/-- The chainweb API root under a host. -/
def chainwebRoot (host : String) : String :=
  host ++ ("/chainweb/0.0/" ++ kadenaNetwork)

def getPrimaryBaseUrl (s : FailoverState) : String :=
  chainwebRoot s.primaryHost

def getActiveBaseUrl (s : FailoverState) : String :=
  chainwebRoot s.currentHost

def getActivePactUrl (s : FailoverState) (chainId : String) : String :=
  getActiveBaseUrl s ++ ("/chain/" ++ chainId ++ "/pact")

def getActiveSpvUrl (s : FailoverState) (chainId : String) : String :=
  getActiveBaseUrl s ++ ("/chain/" ++ chainId ++ "/pact/spv")

theorem chainwebRoot_inj {h h' : String} : chainwebRoot h = chainwebRoot h' ↔ h = h' := by
  constructor
  · intro h
    exact (String.append_left_inj _).1 h
  · rintro rfl
    rfl

/-! ## withFailover -/

/-- The two fields of a rejection value that `withFailover` looks at. -/
structure JsError where
  name : Option String
  message : Option String
  deriving DecidableEq

/-- `text?.includes(part)` -/
def includes (text : Option String) (part : String) : Bool :=
  match text with
  | some t => decide (part.toList <:+: t.toList)
  | none => false

def isNetworkError (err : JsError) : Bool :=
  includes err.message "Failed to fetch" ||
    includes err.message "NetworkError" ||
    includes err.message "ECONNREFUSED" ||
    err.name == some "AbortError"

inductive CallPhase (α : Type)
  | firstAttempt
  | retry
  | settled (outcome : Except JsError α)

/-- A `withFailover` call: the URLs captured at entry, every base URL its callback was invoked
with, the outcome of every attempt that has ended, and where the call stands. -/
structure Call (α : Type) where
  attemptedBaseUrl : String
  attemptedPrimaryBaseUrl : String
  invocations : List String
  outcomes : List (Except JsError α)
  phase : CallPhase α

variable {α : Type}

def withFailoverStart (s : FailoverState) : Call α :=
  { attemptedBaseUrl := getActiveBaseUrl s
    attemptedPrimaryBaseUrl := getPrimaryBaseUrl s
    invocations := [getActiveBaseUrl s]
    outcomes := []
    phase := .firstAttempt }

/-- The pending attempt of a call ends with `outcome`.  A settled call has no pending attempt. -/
def withFailoverSettle (s : FailoverState) (c : Call α) (outcome : Except JsError α) :
    Option (FailoverState × Call α) :=
  match c.phase with
  | .firstAttempt =>
      match outcome with
      | .ok v =>
          some (s, { c with outcomes := c.outcomes ++ [.ok v], phase := .settled (.ok v) })
      | .error err =>
          if isNetworkError err ∧ c.attemptedBaseUrl = c.attemptedPrimaryBaseUrl then
            let s' := switchToFallback s
            -- The retry reads the active host again, after the switch.
            some (s',
              { c with
                invocations := c.invocations ++ [getActiveBaseUrl s']
                outcomes := c.outcomes ++ [.error err]
                phase := .retry })
          else
            some (s,
              { c with outcomes := c.outcomes ++ [.error err], phase := .settled (.error err) })
  | .retry =>
      some (s, { c with outcomes := c.outcomes ++ [outcome], phase := .settled outcome })
  | .settled _ => none

/-! ## Configuration -/

inductive NodeSelection
  | node2
  | node1
  | custom
  deriving DecidableEq

/-- What the code reads of a parsed `URL`. -/
structure Url where
  protocol : String
  origin : String
  deriving DecidableEq

structure TypeError where
  message : String
  deriving DecidableEq

section Config

-- `parseUrl text` stands for `new URL(text)`; it is `none` where the constructor throws.
variable (parseUrl : String → Option Url)

/-- The primary and fallback hosts a selection stands for, after the checks on a custom URL. -/
def selectHosts (selected : NodeSelection) (customUrl : Option String) :
    Except TypeError (String × String) :=
  match selected with
  | .node1 => .ok (node1Host, node2Host)
  | .custom =>
      match customUrl with
      | none =>
          .error ⟨"setNodeConfig: customUrl is required when selected === 'custom'"⟩
      | some text =>
          if text = "" then
            .error ⟨"setNodeConfig: customUrl is required when selected === 'custom'"⟩
          else
            match parseUrl text with
            | none =>
                .error ⟨"setNodeConfig: customUrl is not a valid URL: " ++ text⟩
            | some parsed =>
                if parsed.protocol ≠ "https:" then
                  .error ⟨"setNodeConfig: customUrl must use https://; got " ++ parsed.protocol⟩
                else
                  .ok (parsed.origin, parsed.origin)
  | .node2 => .ok (node2Host, node1Host)

/-- The retry loop is stopped before the arguments are checked, so a call that throws has stopped
it too. -/
def setNodeConfig (s : FailoverState) (selected : NodeSelection) (customUrl : Option String)
    (customNodeGasLimit : Option Rat) : FailoverState × Except TypeError Unit :=
  let s := stopRetryLoop s
  match selectHosts parseUrl selected customUrl with
  | .error e => (s, .error e)
  | .ok (primary, fallback) =>
      ({ s with
          primaryHost := primary
          fallbackHost := fallback
          customGasLimit := customNodeGasLimit.getD defaultGasLimit
          currentHost := primary }, .ok ())

end Config

def resetNodeFailover (s : FailoverState) : FailoverState :=
  { stopRetryLoop s with
    primaryHost := node2Host
    fallbackHost := node1Host
    customGasLimit := defaultGasLimit
    currentHost := node2Host
    retryTimer := none }

/-- The block gas limit for the currently active node. -/
def getActiveGasLimit (s : FailoverState) : Rat :=
  (nodeGasLimits.lookup s.currentHost).getD s.customGasLimit

/-! ## What the operations leave alone -/

section Frame

variable (s : FailoverState)

@[simp] theorem startRetryLoop_primaryHost : (startRetryLoop s).primaryHost = s.primaryHost := by
  unfold startRetryLoop
  split <;> rfl

@[simp] theorem startRetryLoop_fallbackHost :
    (startRetryLoop s).fallbackHost = s.fallbackHost := by
  unfold startRetryLoop
  split <;> rfl

@[simp] theorem startRetryLoop_currentHost : (startRetryLoop s).currentHost = s.currentHost := by
  unfold startRetryLoop
  split <;> rfl

@[simp] theorem stopRetryLoop_primaryHost : (stopRetryLoop s).primaryHost = s.primaryHost := by
  unfold stopRetryLoop
  split <;> rfl

@[simp] theorem stopRetryLoop_fallbackHost : (stopRetryLoop s).fallbackHost = s.fallbackHost := by
  unfold stopRetryLoop
  split <;> rfl

@[simp] theorem stopRetryLoop_currentHost : (stopRetryLoop s).currentHost = s.currentHost := by
  unfold stopRetryLoop
  split <;> rfl

@[simp] theorem stopRetryLoop_retryTimer : (stopRetryLoop s).retryTimer = none := by
  unfold stopRetryLoop
  split
  · rfl
  · assumption

@[simp] theorem switchToFallback_primaryHost :
    (switchToFallback s).primaryHost = s.primaryHost := by
  unfold switchToFallback
  split <;> simp

@[simp] theorem switchToFallback_fallbackHost :
    (switchToFallback s).fallbackHost = s.fallbackHost := by
  unfold switchToFallback
  split <;> simp

/-- After the switch the fallback is the active host, whether or not it was already. -/
@[simp] theorem switchToFallback_currentHost :
    (switchToFallback s).currentHost = s.fallbackHost := by
  unfold switchToFallback
  split
  · assumption
  · simp

@[simp] theorem switchToPrimary_primaryHost :
    (switchToPrimary s).primaryHost = s.primaryHost := by
  unfold switchToPrimary
  split <;> simp

@[simp] theorem switchToPrimary_fallbackHost :
    (switchToPrimary s).fallbackHost = s.fallbackHost := by
  unfold switchToPrimary
  split <;> simp

@[simp] theorem switchToPrimary_currentHost :
    (switchToPrimary s).currentHost = s.primaryHost := by
  unfold switchToPrimary
  split
  · assumption
  · simp

theorem switchToFallback_of_current (h : s.currentHost = s.fallbackHost) :
    switchToFallback s = s := by
  simp [switchToFallback, h]

theorem switchToPrimary_of_current (h : s.currentHost = s.primaryHost) :
    switchToPrimary s = s := by
  simp [switchToPrimary, h]

end Frame

end Network
end StoaCore
