import StoaCore.Client.PactCommand
import StoaCore.Library.Transition

/-!
# TransactionBuilder — the builder that composes a command step by step

A builder keeps one reducer.  Every call composes the reducer with one more step, and nothing is
computed before `getCommand` runs all the steps from an empty command; a key that is used twice is
therefore reported there, and by every later `getCommand`.
-/

namespace StoaCore
namespace Client

open Library Library.Js Signing

/-! ## The steps -/

/-- `data[key] !== undefined`; what a plain object inherits is not `undefined` either. -/
def isTaken (data : Members) (key : JsString) : Bool :=
  match data.property key with
  | some (.own v) => !v.isUndefined
  | some (.inherited _) => true
  | none => false

/-- `getData(cmd, key) !== undefined` -/
def hasData (payload : Option Payload) (key : JsString) : Bool :=
  match payload with
  | some (.exec _ (some data)) => isTaken data key
  | some (.cont fields) =>
      match contData fields with
      | .obj data => isTaken data key
      | _ => false
  | _ => false

def duplicatedKey (key : JsString) : Thrown :=
  .error (js "DUPLICATED_KEY: \"" ++ key ++ js "\" is already available in the data")

/-- `{ payload: { [target]: { data: { [key]: value } } } }` -/
def dataPatch (payload : Option Payload) (key : JsString) (value : Value) : Payload :=
  match payload with
  | some (.cont _) => .cont [(js "data", .obj [(key, value)])]
  | _ => .exec none (some [(key, value)])

def addData (key : JsString) (value : Value) (cmd : Draft) : Build Draft :=
  if hasData cmd.payload key then Async.lift (.error (duplicatedKey key))
  else patchCommand cmd { payload := some (dataPatch cmd.payload key value) }

def keysetValue (pred : JsString) (publicKeys : List JsString) : Value :=
  .obj [(js "keys", .arr (publicKeys.map Value.str)), (js "pred", .str pred)]

def addKeyset (name pred : JsString) (publicKeys : List JsString) : Draft → Build Draft :=
  addData name (keysetValue pred publicKeys)

/-- `ISigner` -/
inductive SignerArg
  | key (pubKey : JsString)
  | object (pubKey : JsString) (scheme : Option SignerScheme) (address : Option JsString)

/-- The default scheme is guessed from the key only where the key is given as a string. -/
def signerOf (clist : Option (List Cap)) : SignerArg → Signer
  | .key pubKey =>
      { pubKey := pubKey
        scheme := some (if (js "WEBAUTHN").isPrefixOf pubKey then .WebAuthn else .ED25519)
        address := none
        clist := clist }
  | .object pubKey scheme address =>
      { pubKey := pubKey
        scheme := some (scheme.getD .ED25519)
        address := address
        clist := clist }

/-- `clist` is what the capability function has returned, when the step was added. -/
def addSigner (signers : List SignerArg) (clist : Option (List Cap)) (cmd : Draft) :
    Build Draft := do
  let places ← signers.mapM fun item => newSigner (signerOf clist item)
  patchCommand cmd { signers := some places }

def addVerifier (name : JsString) (proof : Value) (clist : Option (List Cap)) (cmd : Draft) :
    Build Draft :=
  patchCommand cmd
    { verifiers := some [{ name := name, proof := proof, clist := some (clist.getD []) }] }

/-- The sender has a name of its own among the options. -/
def metaPatch (current options : Members) : Members :=
  let rest := options.filter fun m => m.1 ≠ js "senderAccount"
  let senderAccount := (options.lookup (js "senderAccount")).getD .undefined
  spreadAll [current, rest,
    if senderAccount.isUndefined then [] else [(js "sender", senderAccount)]]

def setMeta (options : Members) (command : Draft) : Build Draft :=
  patchCommand command { metaData := some (metaPatch (command.metaData.getD []) options) }

/-- `setNonce` of the builder takes a text or a function of the command. -/
inductive NonceArg
  | text (nonce : JsString)
  | generator (nonce : PactCommand Signer → JsString)

/-- `typeof arg === 'function' ? arg(cmd) : arg` -/
def NonceArg.value (cmd : PactCommand Signer) : NonceArg → JsString
  | .text nonce => nonce
  | .generator f => f cmd

/-- The command that a function of the caller sees. -/
def view (heap : List Signer) (cmd : Draft) : PactCommand Signer :=
  cmd.withSigners (cmd.signers.map fun places => places.filterMap fun place => heap[place]?)

def setNonce (arg : NonceArg) (cmd : Draft) : Build Draft := do
  let seen ← Build.act fun w => (view w.heap cmd, w)
  patchCommand cmd { nonce := some (arg.value seen) }

/-! ## The builder -/

abbrev Reducer := Draft → Build Draft

inductive Call
  | addData (key : JsString) (value : Value)
  | addKeyset (key pred : JsString) (publicKeys : List JsString)
  | addSigner (signers : List SignerArg) (clist : Option (List Cap))
  | addVerifier (name : JsString) (proof : Value) (clist : Option (List Cap))
  | setMeta (options : Members)
  | setNetworkId (id : JsString)
  | setNonce (arg : NonceArg)

def Call.step : Call → Step
  | .addData key value => .reduce (Client.addData key value)
  | .addKeyset key pred publicKeys => .reduce (Client.addKeyset key pred publicKeys)
  | .addSigner signers clist => .reduce (Client.addSigner signers clist)
  | .addVerifier name proof clist => .reduce (Client.addVerifier name proof clist)
  | .setMeta options => .reduce (Client.setMeta options)
  | .setNetworkId id => .patch { networkId := some id }
  | .setNonce arg => .reduce (Client.setNonce arg)

def execution (codes : List JsString) : Payload :=
  .exec (some codes.flatten) (some [])

/-- A proof that is a string loses its quotes. -/
def continuation (options : Members) : Payload :=
  let clone := spreadAll [[(js "data", .obj [])], options]
  match clone.lookup (js "proof") with
  | some (.str proof) =>
      .cont (Record.assign clone (js "proof") (.str (proof.filter fun c => c ≠ unit '"')))
  | _ => .cont clone

/-- The builder asks for an execution or a continuation first. -/
inductive Start
  | execution (codes : List JsString)
  | continuation (options : Members)

def Start.payload : Start → Payload
  | .execution codes => Client.execution codes
  | .continuation options => Client.continuation (spreadAll [[(js "proof", .null)], options])

section Clock

variable (clock : Nat → Nat)

/-- `composeWith` -/
def composeWith (reducer : Reducer) (patch : Step) : Reducer :=
  composePactCommand clock (.reduce reducer) [patch]

/-- `statefulCompose(init)` -/
def statefulCompose (init : Draft) : Reducer :=
  composePactCommand clock (.patch init) []

/-- `state.finalize({})` -/
def getCommand (reducer : Reducer) : Build Draft :=
  reducer {}

/-- What happens to a builder. -/
inductive Event
  | call (c : Call)
  | getCommand

structure BuilderState where
  reducer : Reducer
  world : World

/-- A builder over `init`, with the signer objects in `heap` and the clock at its first reading.
Only `getCommand` has an output. -/
def builder (init : Draft) (heap : List Signer) :
    Transition.System BuilderState Event (Option (Except Thrown Draft)) where
  init := { reducer := statefulCompose clock init, world := { heap := heap, reads := 0 } }
  step s
    | .call c => some ({ s with reducer := composeWith clock s.reducer c.step }, none)
    | .getCommand =>
        let (result, world) := Async.runIn (getCommand s.reducer) s.world
        some ({ s with world := world }, some result)

end Clock

/-- `createTransactionBuilder(initial).execution(…)` and `.continuation(…)` up to the builder: what
the builder starts from. -/
def createTransactionBuilder (initial : Option Draft) (start : Start) : Build Draft :=
  match initial with
  | none => pure { payload := some start.payload }
  | some initial => patchCommand initial { payload := some start.payload }

end Client
end StoaCore
