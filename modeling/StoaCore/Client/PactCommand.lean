import StoaCore.Library.KeyedTable
import StoaCore.Library.Js.DecimalText
import StoaCore.Library.Js.Members
import StoaCore.Signing.UniversalSign

/-!
# PactCommand — commands, patches of commands and their composition

A command under construction is a plain object.  `patchCommand` copies it and merges a patch into
the copy, but the objects that describe signers are shared: a signer that is there is changed in
place.  They live in a heap and a command lists their places.  The arrays that list them and the
other parts are made anew by every composition, except for the payload of a first patch: that is
taken over as it is, and `finalizeCommand` fills in the `proof` of a continuation in place.  Every
later composition would fill it in the same way, so a copy shows no difference.
-/

namespace StoaCore
namespace Client

open Library Library.Js Signing

/-! ## Parts of a command -/

abbrev Members := Record Value

/-- `ICap`, what `withCapability(name, ...args)` returns. -/
structure Cap where
  name : JsString
  args : List Value

inductive SignerScheme
  | ED25519
  | ETH
  | WebAuthn
  deriving DecidableEq

structure Signer where
  pubKey : JsString
  scheme : Option SignerScheme
  address : Option JsString
  clist : Option (List Cap)

structure Verifier where
  name : JsString
  proof : Value
  clist : Option (List Cap)

/-- The payload is an execution or a continuation; both are partial while a command grows. -/
inductive Payload
  | exec (code : Option JsString) (data : Option Members)
  | cont (fields : Members)

/-- `IPartialPactCommand`, with signers of type `σ`.  `names` are the members the object has, in the
order of their creation. -/
structure PactCommand (σ : Type) where
  payload : Option Payload := none
  metaData : Option Members := none
  nonce : Option JsString := none
  networkId : Option JsString := none
  signers : Option (List σ) := none
  verifiers : Option (List Verifier) := none
  names : StringSet := .empty

namespace PactCommand

variable {σ τ : Type}

/-! ### Assignments -/

def setPayload (command : PactCommand σ) (payload : Option Payload) : PactCommand σ :=
  { command with payload := payload, names := command.names.add (js "payload") }

def setMeta (command : PactCommand σ) (members : Members) : PactCommand σ :=
  { command with metaData := some members, names := command.names.add (js "meta") }

def setNonce (command : PactCommand σ) (nonce : JsString) : PactCommand σ :=
  { command with nonce := some nonce, names := command.names.add (js "nonce") }

def setNetworkId (command : PactCommand σ) (networkId : JsString) : PactCommand σ :=
  { command with networkId := some networkId, names := command.names.add (js "networkId") }

def setSigners (command : PactCommand σ) (signers : List σ) : PactCommand σ :=
  { command with signers := some signers, names := command.names.add (js "signers") }

def setVerifiers (command : PactCommand σ) (verifiers : List Verifier) : PactCommand σ :=
  { command with verifiers := some verifiers, names := command.names.add (js "verifiers") }

/-- The same command with other signers. -/
def withSigners (command : PactCommand σ) (signers : Option (List τ)) : PactCommand τ where
  payload := command.payload
  metaData := command.metaData
  nonce := command.nonce
  networkId := command.networkId
  signers := signers
  verifiers := command.verifiers
  names := command.names

end PactCommand

/-! ## patchCommand -/

/-- `{ ...first, ...second, … }` -/
def spreadAll (sources : List Members) : Members :=
  sources.foldl Record.spread []

/-- What spreading the data of a payload copies. -/
def membersOf : Value → Members
  | .obj fields => fields
  | _ => []

def contData (fields : Members) : Value :=
  (fields.lookup (js "data")).getD .undefined

def mergePayload (payload newPayload : Option Payload) : Except Thrown (Option Payload) :=
  match payload, newPayload with
  | none, _ => .ok newPayload
  | _, none => .ok payload
  | some (.exec code data), some (.exec newCode newData) =>
      .ok (some (.exec (some (code.getD [] ++ newCode.getD []))
        (some (spreadAll [data.getD [], newData.getD []]))))
  | some (.cont fields), some (.cont newFields) =>
      -- The own `data` of the new fields is overwritten by what both data add up to.
      .ok (some (.cont (Record.assign (spreadAll [fields, newFields]) (js "data")
        (.obj (spreadAll [membersOf (contData fields), membersOf (contData newFields)])))))
  | _, _ => .error (.error (js "PAYLOAD_NOT_MERGEABLE"))

section Patches

variable {σ τ : Type}

def patchPayload (command : PactCommand σ) (newPayload : Option Payload) :
    Except Thrown (PactCommand σ) :=
  match newPayload with
  | none => .ok command
  | some newPayload => (mergePayload command.payload (some newPayload)).map command.setPayload

def patchMeta (state : PactCommand σ) (newMeta : Option Members) : PactCommand σ :=
  match newMeta with
  | none => state
  | some members => state.setMeta (spreadAll [state.metaData.getD [], members])

def patchNonce (state : PactCommand σ) (nonce : Option JsString) : PactCommand σ :=
  match nonce with
  | none => state
  | some nonce => state.setNonce nonce

def patchNetworkId (state : PactCommand σ) (networkId : Option JsString) : PactCommand σ :=
  match networkId with
  | none => state
  | some networkId => state.setNetworkId networkId

/-- The part of `patchCommand` before the signers. -/
def patchFields (command : PactCommand σ) (patch : PactCommand τ) :
    Except Thrown (PactCommand σ) := do
  let state ← patchPayload command patch.payload
  pure (patchNetworkId (patchNonce (patchMeta state patch.metaData) patch.nonce) patch.networkId)

/-- The part of `patchCommand` after the signers. -/
def patchVerifiers (state : PactCommand σ) (verifiers : Option (List Verifier)) : PactCommand σ :=
  match verifiers with
  | none => state
  | some [] => state
  | some verifiers => state.setVerifiers (state.verifiers.getD [] ++ verifiers)

end Patches

/-- What a composition acts on: the signer objects, and how often the clock has been read. -/
structure World where
  heap : List Signer
  reads : Nat

abbrev Build (α : Type) := Async World α

/-- A command whose signers are known by their places in the heap. -/
abbrev Draft := PactCommand Nat

def Build.act {α : Type} (f : World → α × World) : Build α :=
  ExceptT.mk fun w => (.ok (f w).1, (f w).2)

theorem Build.runIn_act {α : Type} (f : World → α × World) (w : World) :
    Async.runIn (Build.act f) w = (.ok (f w).1, (f w).2) :=
  rfl

/-- A new object. -/
def newSigner (signer : Signer) : Build Nat :=
  Build.act fun w => (w.heap.length, { w with heap := w.heap ++ [signer] })

/-- `foundSigner.clist = [...(foundSigner.clist ?? []), ...(signer?.clist ?? [])]` -/
def Signer.absorb (foundSigner signer : Signer) : Signer :=
  { foundSigner with clist := some (foundSigner.clist.getD [] ++ signer.clist.getD []) }

/-- A signer with the same key is changed in place; otherwise the new one is pushed. -/
def mergeSigner (place : Nat) (signer : Signer) (heap : List Signer) (signers : List Nat) :
    List Signer × List Nat :=
  KeyedTable.mergePlace Signer.pubKey Signer.absorb place signer heap signers

/-- One round of `patch.signers.forEach`. -/
def patchSigner (state : Draft) (place : Nat) : Build Draft :=
  Build.act fun w =>
    match w.heap[place]? with
    | none => (state, w)
    | some signer =>
        let (heap, signers) := mergeSigner place signer w.heap (state.signers.getD [])
        (state.setSigners signers, { w with heap := heap })

def patchCommand (command patch : Draft) : Build Draft := do
  let state ← Async.lift (patchFields command patch)
  let state ← (patch.signers.getD []).foldlM patchSigner state
  pure (patchVerifiers state patch.verifiers)

/-! ## composePactCommand -/

section Clock

variable {σ : Type} (clock : Nat → Nat)

/-- `Date.now()`: `clock n` is the `n`-th reading, in milliseconds. -/
def dateNow : Build Nat :=
  Build.act fun w => (clock w.reads, { w with reads := w.reads + 1 })

def defaultMeta (ms : Nat) : Members :=
  [(js "gasLimit", .num ⟨js "2500", by decide⟩), (js "gasPrice", .num ⟨js "1e-8", by decide⟩),
    (js "sender", .str []), (js "ttl", .num ⟨js "900", by decide⟩),
    (js "creationTime", .num (natLiteral (ms / 1000)))]

def defaultNonce (ms : Nat) : JsString :=
  js "kjs:nonce:" ++ decimalText ms

/-- `finalCommand.payload.cont.proof ??= null` -/
def finalizePayload : Payload → Payload
  | .exec code data => .exec code data
  | .cont fields =>
      if ((fields.lookup (js "proof")).getD .undefined).isNullish then
        .cont (Record.assign fields (js "proof") .null)
      else .cont fields

def finalizeCommand (command : PactCommand σ) : Build (PactCommand σ) := do
  let dateInMs ← dateNow clock
  let finalCommand :=
    if command.nonce.isNone then command.setNonce (defaultNonce dateInMs) else command
  let finalCommand :=
    if finalCommand.signers.isNone then finalCommand.setSigners [] else finalCommand
  let finalCommand ←
    match finalCommand.metaData with
    | none => pure finalCommand
    | some members => do
        let now ← dateNow clock
        pure (finalCommand.setMeta (spreadAll [defaultMeta now, members]))
  pure { finalCommand with payload := finalCommand.payload.map finalizePayload }

/-- An argument of `composePactCommand`. -/
inductive Step
  | patch (command : Draft)
  | reduce (next : Draft → Build Draft)

def Step.apply (acc : Draft) : Step → Build Draft
  | .patch next => patchCommand acc next
  | .reduce next => next acc

def composePactCommand (first : Step) (rest : List Step) (initial : Draft) : Build Draft := do
  let command ← (first :: rest).foldlM Step.apply initial
  finalizeCommand clock command

end Clock

end Client
end StoaCore
