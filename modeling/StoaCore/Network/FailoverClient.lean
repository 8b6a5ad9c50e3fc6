import StoaCore.Network.FailoverSystem
import StoaCore.Network.RunWithTimeout

/-!
# FailoverClient — methods that wrap a deadline in a failover

A method of `getFailoverClient` hands the same object to every attempt: `runWithTimeout` gives each
a controller of its own, `withFailover` decides from an attempt's outcome whether there is a second
one, and `outerBoundaryConvert` sees the outcome of the last.  `clientSystem` puts the failover
client and the event loop of the deadlines together.  A method goes on with what the promise of its
`runWithTimeout` has settled with, at any later time, and all other traffic runs in between.
-/

namespace StoaCore
namespace Network

open Library
open Library.Js
open Library.Transition

variable {α : Type}

/-! ## Time-outs -/

/-- A time-out option, which may be missing. -/
abbrev TimeoutOption := Option (Option Number)

def millis (ms : Rat) : Option Number :=
  some (.finite ms)

def defaultReadTimeoutMs : Option Number := millis 15000

def defaultSubmitTimeoutMs : Option Number := millis 60000

def defaultListenTimeoutMs : Option Number := millis 180000

def defaultPollTimeoutMs : Option Number := millis 30000

structure FailoverClientOptions where
  readTimeoutMs : TimeoutOption := none
  submitTimeoutMs : TimeoutOption := none
  listenTimeoutMs : TimeoutOption := none
  pollTimeoutMs : TimeoutOption := none

/-- `callOpts?.timeoutMs ?? options?.timeoutMs ?? fallback` -/
def effectiveTimeout (callOpts options : TimeoutOption) (fallback : Option Number) :
    Option Number :=
  callOpts.getD (options.getD fallback)

theorem isValidTimeout_millis {ms : Rat} (h : 0 < ms) : isValidTimeout (millis ms) = true :=
  decide_eq_true h

/-- An option that is given is a finite positive number. -/
def TimeoutOption.Valid (option : TimeoutOption) : Prop :=
  ∀ timeoutMs, option = some timeoutMs → isValidTimeout timeoutMs = true

theorem isValidTimeout_effectiveTimeout {callOpts options : TimeoutOption}
    (hcall : callOpts.Valid) (hoptions : options.Valid) {fallback : Option Number}
    (hfallback : isValidTimeout fallback = true) :
    isValidTimeout (effectiveTimeout callOpts options fallback) = true := by
  cases callOpts with
  | some timeoutMs => exact hcall timeoutMs rfl
  | none =>
      cases options with
      | some timeoutMs => exact hoptions timeoutMs rfl
      | none => exact hfallback

/-! ## Methods -/

/-- A reference: an object that the caller has handed over, or the transaction that a read builds.
A read builds one, so the number of the read tells which it is. -/
inductive Ref
  | argument (id : Nat)
  | built (read : Nat)
  deriving DecidableEq

/-- What a method puts into the callback of `withFailover`. -/
structure MethodCall where
  operation : String
  timeoutMs : Option Number
  chainId : String
  transaction : Ref
  /-- Whether `{ signal: controller.signal }` goes along. -/
  forwardsSignal : Bool

inductive ClientMethod
  | dirtyRead
  | submit
  | listen
  | pollOne
  deriving DecidableEq

def getFailoverClient (chainId : String) (options : FailoverClientOptions) (transaction : Ref)
    (callOpts : TimeoutOption) : ClientMethod → MethodCall
  | .dirtyRead =>
      { operation := "dirtyRead"
        timeoutMs := effectiveTimeout callOpts options.readTimeoutMs defaultReadTimeoutMs
        chainId := chainId
        transaction := transaction
        forwardsSignal := true }
  | .submit =>
      { operation := "submit"
        timeoutMs := effectiveTimeout callOpts options.submitTimeoutMs defaultSubmitTimeoutMs
        chainId := chainId
        transaction := transaction
        forwardsSignal := true }
  | .listen =>
      { operation := "listen"
        timeoutMs := effectiveTimeout callOpts options.listenTimeoutMs defaultListenTimeoutMs
        chainId := chainId
        transaction := transaction
        forwardsSignal := true }
  | .pollOne =>
      -- The second argument of `pollOne` has no place for a signal.
      { operation := "pollOne"
        timeoutMs := effectiveTimeout callOpts options.pollTimeoutMs defaultPollTimeoutMs
        chainId := chainId
        transaction := transaction
        forwardsSignal := false }

def kadenaChainId : String := "0"

/-- The options that `rawCalibratedDirtyRead` reads. -/
structure RawReadOptions where
  pactUrl : Option String := none
  chainId : Option String := none
  readTimeoutMs : TimeoutOption := none

/-- The two branches of the read put the same into their callbacks. -/
def rawCalibratedDirtyRead (options : RawReadOptions) (transaction : Ref) : MethodCall where
  operation := "rawCalibratedDirtyRead"
  timeoutMs := effectiveTimeout options.readTimeoutMs none (millis 15000)
  chainId := options.chainId.getD kadenaChainId
  transaction := transaction
  forwardsSignal := true

/-- What the caller calls. -/
inductive Entry
  | client (chainId : String) (options : FailoverClientOptions) (method : ClientMethod)
      (transaction : Nat) (callOpts : TimeoutOption)
  | rawRead (options : RawReadOptions)

namespace Entry

/-- The number of the call tells its transaction apart where it builds one. -/
def call (number : Nat) : Entry → MethodCall
  | client chainId options method transaction callOpts =>
      getFailoverClient chainId options (.argument transaction) callOpts method
  | rawRead options => rawCalibratedDirtyRead options (.built number)

/-- The endpoint that goes around the failover; an empty text is none. -/
def pactUrl : Entry → Option String
  | client .. => none
  | rawRead options => options.pactUrl.filter (· ≠ "")

def ValidTimeouts : Entry → Prop
  | client _ options _ _ callOpts =>
      callOpts.Valid ∧ options.readTimeoutMs.Valid ∧ options.submitTimeoutMs.Valid ∧
        options.listenTimeoutMs.Valid ∧ options.pollTimeoutMs.Valid
  | rawRead options => options.readTimeoutMs.Valid

theorem isValidTimeout_call {e : Entry} (h : e.ValidTimeouts) (number : Nat) :
    isValidTimeout (e.call number).timeoutMs = true := by
  cases e with
  | rawRead options =>
      have hmissing : TimeoutOption.Valid none := fun _ hnone => nomatch hnone
      exact isValidTimeout_effectiveTimeout h hmissing (isValidTimeout_millis (by decide))
  | client chainId options method transaction callOpts =>
      rcases h with ⟨hcall, hread, hsubmit, hlisten, hpoll⟩
      cases method with
      | dirtyRead =>
          exact isValidTimeout_effectiveTimeout hcall hread (isValidTimeout_millis (by decide))
      | submit =>
          exact isValidTimeout_effectiveTimeout hcall hsubmit (isValidTimeout_millis (by decide))
      | listen =>
          exact isValidTimeout_effectiveTimeout hcall hlisten (isValidTimeout_millis (by decide))
      | pollOne =>
          exact isValidTimeout_effectiveTimeout hcall hpoll (isValidTimeout_millis (by decide))

end Entry

/-! ## Outcomes -/

structure SigningError where
  message : String
  code : String
  context : String
  originalError : JsError
  suggestions : List String
  deriving DecidableEq

def createTimeoutError (operation : String) (timeoutMs : Option Number)
    (originalError : JsError) : SigningError where
  message := "Timeout after " ++ numberText timeoutMs ++ "ms during " ++ operation
  code := "TIMEOUT"
  context := "Operation: " ++ operation
  originalError := originalError
  suggestions :=
    ["Check network connectivity", "Try again in a few seconds — node may have failed over",
      "If persistent, increase the timeout via options"]

/-- What a method rejects with. -/
inductive ClientError
  | signing (error : SigningError)
  | thrown (error : JsError)
  deriving DecidableEq

/-- `outerBoundaryConvert` once its worker has settled. -/
def outerBoundaryConvert (operation : String) (timeoutMs : Option Number) :
    Except JsError α → Except ClientError α
  | .ok v => .ok v
  | .error err =>
      if err.name = some "AbortError" then
        .error (.signing (createTimeoutError operation timeoutMs err))
      else .error (.thrown err)

/-! ## The system -/

/-- What an attempt hands to the node. -/
structure Request where
  url : String
  transaction : Ref
  /-- The controller whose signal goes along. -/
  signal : Option Nat
  deriving DecidableEq

/-- An attempt: the `runWithTimeout` call and the request, if it has got that far. -/
structure Attempt where
  invocation : Nat
  request : Option Request
  deriving DecidableEq

namespace MethodCall

def pactUrl (call : MethodCall) (baseUrl : String) : String :=
  baseUrl ++ ("/chain/" ++ call.chainId ++ "/pact")

def request (call : MethodCall) (url : String) (controller : Option Nat) : Request where
  url := url
  transaction := call.transaction
  signal := if call.forwardsSignal then controller else none

end MethodCall

/-- `withFailover` call number `id`, or the one endpoint of the caller. -/
inductive Route
  | failover (id : Nat)
  | pinned
  deriving DecidableEq

structure Method (α : Type) where
  entry : Entry
  call : MethodCall
  route : Route
  attempts : List Attempt
  settled : Option (Except ClientError α) := none

structure ClientSys (α : Type) where
  failover : Sys α
  loop : DeadlineLoop α
  methods : List (Method α) := []

/-- The worker is what the node makes of a request. -/
inductive ClientEvent (α : Type)
  | begin (entry : Entry) (worker : WorkerCall α)
  | resume (n : Nat) (worker : WorkerCall α)
  /-- Anything else that the failover client does. -/
  | failover (event : Event α)
  /-- Anything else that the event loop does. -/
  | deadline (event : DeadlineEvent α)

/-- `runWithTimeout` is called. -/
def DeadlineLoop.start (l : DeadlineLoop α) (operation : String) (timeoutMs : Option Number)
    (worker : WorkerCall α) : DeadlineLoop α :=
  let i := Invocation.start operation timeoutMs l.world worker
  { l.spawn i.1 i.2 with world := if i.1.controller.isSome then l.world + 1 else l.world }

theorem DeadlineLoop.step_start (l : DeadlineLoop α) (operation : String)
    (timeoutMs : Option Number) (worker : WorkerCall α) :
    l.step (.start operation timeoutMs worker) = some (l.start operation timeoutMs worker,
      (Invocation.start operation timeoutMs l.world worker).1.settled.map (l.parts.length, ·)) :=
  rfl

namespace ClientSys

def load : ClientSys α :=
  { failover := Sys.load
    loop := DeadlineLoop.init }

/-- The attempt that begins now; the request is made where the worker is called. -/
def attempt (s : ClientSys α) (call : MethodCall) (url : String) (worker : WorkerCall α) :
    Attempt :=
  let i := (Invocation.start call.operation call.timeoutMs s.loop.world worker).1
  { invocation := s.loop.parts.length
    request := if i.invoked then some (call.request url i.controller) else none }

/-- What the last attempt has ended with. -/
def ended (s : ClientSys α) (m : Method α) : Option (Except JsError α) :=
  m.attempts.getLast?.bind fun a => s.loop.parts[a.invocation]?.bind Invocation.settled

/-- The attempts of a method end in no other way than with their `runWithTimeout` calls. -/
def owns (s : ClientSys α) : Event α → Bool
  | .settleAttempt id _ => s.methods.any fun m => m.route = .failover id
  | _ => false

/-- A method runs up to the `await` of its first attempt. -/
def begin (s : ClientSys α) (entry : Entry) (worker : WorkerCall α) : ClientSys α :=
  let call := entry.call s.methods.length
  let loop := s.loop.start call.operation call.timeoutMs worker
  match entry.pactUrl with
  | some pactUrl =>
      { s with
        loop := loop
        methods := s.methods ++ [{ entry := entry, call := call, route := .pinned,
                                   attempts := [s.attempt call pactUrl worker] }] }
  | none =>
      let c : Call α := withFailoverStart s.failover.mod
      { failover := { s.failover with calls := s.failover.calls ++ [c] }
        loop := loop
        methods := s.methods ++
          [{ entry := entry, call := call, route := .failover s.failover.calls.length,
             attempts := [s.attempt call (call.pactUrl c.attemptedBaseUrl) worker] }] }

/-- The conversion that a method ends with depends on the outcome only. -/
def settle (s : ClientSys α) (n : Nat) (m : Method α) (outcome : Except JsError α) :
    ClientSys α :=
  { s with
    methods := s.methods.set n
      { m with settled := some (outerBoundaryConvert m.call.operation m.call.timeoutMs outcome) } }

/-- The callback of `withFailover` is invoked once more. -/
def retry (s : ClientSys α) (n : Nat) (m : Method α) (baseUrl : String) (worker : WorkerCall α) :
    ClientSys α :=
  { s with
    loop := s.loop.start m.call.operation m.call.timeoutMs worker
    methods := s.methods.set n
      { m with attempts := m.attempts ++ [s.attempt m.call (m.call.pactUrl baseUrl) worker] } }

variable (parseUrl : String → Option Url)

/-- The attempt of a method has ended with `outcome`. -/
def resume (s : ClientSys α) (n : Nat) (m : Method α) (outcome : Except JsError α)
    (worker : WorkerCall α) : Option (ClientSys α) :=
  match m.route with
  | .pinned => some (s.settle n m outcome)
  | .failover id =>
      match Network.step parseUrl s.failover (.settleAttempt id outcome) with
      | none => none
      | some (failover, out) =>
          let s' : ClientSys α := { s with failover := failover }
          match (failover.calls[id]?).map Call.phase, out with
          | some (.settled o), _ => some (s'.settle n m o)
          | some .retry, [.invoked _ baseUrl] => some (s'.retry n m baseUrl worker)
          | _, _ => none

def step (s : ClientSys α) : ClientEvent α → Option (ClientSys α × Unit)
  | .begin entry worker => some (s.begin entry worker, ())
  | .resume n worker =>
      match s.methods[n]? with
      | none => none
      | some m =>
          match m.settled, s.ended m with
          | none, some outcome => (s.resume parseUrl n m outcome worker).map (·, ())
          | _, _ => none
  | .failover event =>
      if s.owns event then none
      else (Network.step parseUrl s.failover event).map fun next =>
        ({ s with failover := next.1 }, ())
  | .deadline event =>
      (s.loop.step event).map fun next => ({ s with loop := next.1 }, ())

end ClientSys

def clientSystem (parseUrl : String → Option Url) (α : Type) :
    System (ClientSys α) (ClientEvent α) Unit :=
  { init := ClientSys.load
    step := ClientSys.step parseUrl }

abbrev ClientRec (α : Type) := Record (ClientSys α) (ClientEvent α) Unit

end Network
end StoaCore
