import StoaCore.Library.Js.JsonRoundTrip
import StoaCore.Signing.UniversalSign

/-!
# PartialSig — handing a partially signed command from signer to signer

`signPartial` signs with the keys at hand, `serializePartialTransaction` wraps the command into a
versioned JSON envelope, and `deserializePartialTransaction` reads it back and checks the hash.
-/

namespace StoaCore
namespace Signing

open Library.Js

def partialSigFormat : String := "ouronet-partial-sig"

def partialSigVersion : NumberLiteral := ⟨js "1", by decide⟩

/-- The value of `version` in messages. -/
def partialSigVersionText : String := "1"

/-! ## Messages -/

/-- The `message` of a thrown error, where the repository chooses it. -/
def Thrown.message : Thrown → Option JsString
  | .syntaxError => none
  | .typeError => none
  | .error message => some message
  | .invalidEnvelopeError reason => some (js ("Invalid partial-sig envelope: " ++ reason))
  | .tamperedHashError expected actual =>
      some (js ("Partial-sig envelope hash mismatch — embedded hash does not match " ++
          "blake2b-256(cmd). Expected ") ++ expected ++ js ", got " ++ actual ++
        js ". The cmd may have been modified mid-flight.")
  | .external reason => some reason

/-! ## Signing -/

section Backends

variable (B : Backend)

/-- `universalSignTransaction` without a callback; nothing of the world is needed. -/
def signPartial (transaction : Command) (keypairs : List UniversalKeypair) :
    Except Thrown Command :=
  ((universalSignTransaction (σ := Unit) B transaction keypairs none).run ()).1

/-! ## The envelope -/

def transactionValue (transaction : Command) : Value :=
  .obj [(js "cmd", .str transaction.cmd), (js "hash", .str transaction.hash),
    (js "sigs", .arr transaction.sigs)]

/-- `metadata` is `undefined` where it is not passed. -/
def partialSigEnvelope (transaction : Command) (metadata : Value) : Value :=
  .obj ([(js "format", .str (js partialSigFormat)), (js "version", .num partialSigVersion),
      (js "transaction", transactionValue transaction)] ++
    if metadata.truthy then [(js "metadata", metadata)] else [])

def serializePartialTransaction (transaction : Command) (metadata : Value) : JsString :=
  (stringify (partialSigEnvelope transaction metadata) (js "  ")).getD []

/-- The checks on the `transaction` field, in the order of the source. -/
def readTransaction (tx : Value) : Except Thrown Command :=
  match tx with
  | .obj _ =>
      match tx.optionalGet (js "cmd"), tx.optionalGet (js "hash"), tx.optionalGet (js "sigs") with
      | .str cmd, .str hash, .arr sigs =>
          -- The embedded hash is recomputed from the text of the command, not trusted.
          if B.hash cmd = hash then .ok { cmd := cmd, hash := hash, sigs := sigs }
          else .error (.tamperedHashError hash (B.hash cmd))
      | .str _, .str _, _ =>
          .error (.invalidEnvelopeError "transaction.sigs missing or not an array")
      | .str _, _, _ =>
          .error (.invalidEnvelopeError "transaction.hash missing or not a string")
      | _, _, _ =>
          .error (.invalidEnvelopeError "transaction.cmd missing or not a string")
  | _ => .error (.invalidEnvelopeError "transaction field missing or not an object")

/-- The checks on the parsed text. -/
def readEnvelope (parsed : Value) : Except Thrown Command :=
  match parsed with
  | .obj _ =>
      if ¬ (parsed.optionalGet (js "format")).strictEq (.str (js partialSigFormat)) then
        .error (.invalidEnvelopeError
          ("unrecognised format — expected \"" ++ partialSigFormat ++ "\""))
      else if ¬ (parsed.optionalGet (js "version")).strictEq (.num partialSigVersion) then
        .error (.invalidEnvelopeError ("unsupported version — expected " ++ partialSigVersionText))
      else readTransaction B (parsed.optionalGet (js "transaction"))
  | _ => .error (.invalidEnvelopeError "expected a JSON object")

def deserializePartialTransaction (json : JsString) : Except Thrown Command :=
  match parse json with
  | none => .error (.invalidEnvelopeError "not valid JSON")
  | some parsed => readEnvelope B parsed

end Backends

/-! ## Who has signed -/

/-- The declared public keys; a malformed command declares none. -/
def readSignerPubKeys (transaction : Command) : List JsString :=
  match parse transaction.cmd with
  | none => []
  | some parsed =>
      match parsed.optionalGet (js "signers") with
      | .arr signers =>
          signers.filterMap fun s =>
            match s.optionalGet (js "pubKey") with
            | .str pubKey => some pubKey
            | _ => none
      | _ => []

def isSlotFilled (slot : Value) : Bool :=
  match slot.optionalGet (js "sig") with
  | .str sig => slot.truthy && sig != []
  | _ => false

/-- `transaction.sigs[i]` -/
def slotAt (sigs : List Value) (i : Nat) : Value :=
  sigs[i]?.getD .undefined

def getMissingSigners (transaction : Command) : List JsString :=
  ((readSignerPubKeys transaction).zipIdx.filter fun entry =>
    !isSlotFilled (slotAt transaction.sigs entry.2)).map Prod.fst

def getFilledSigners (transaction : Command) : List JsString :=
  ((readSignerPubKeys transaction).zipIdx.filter fun entry =>
    isSlotFilled (slotAt transaction.sigs entry.2)).map Prod.fst

def isFullySigned (transaction : Command) : Bool :=
  (getMissingSigners transaction).length == 0

/-- What the two views of the slots have in common: a command is fully signed exactly when every
position that declares a signer holds a filled slot. -/
theorem isFullySigned_iff (transaction : Command) :
    isFullySigned transaction = true ↔
      ∀ i < (readSignerPubKeys transaction).length,
        isSlotFilled (slotAt transaction.sigs i) = true := by
  -- No entry of the zipped list passes the filter, so the statement is about its positions.
  unfold isFullySigned getMissingSigners
  rw [beq_iff_eq, List.length_map, List.length_eq_zero_iff, List.filter_eq_nil_iff]
  constructor
  · intro h i hi
    have hmem : ((readSignerPubKeys transaction)[i], i) ∈ (readSignerPubKeys transaction).zipIdx :=
      List.mk_mem_zipIdx_iff_getElem?.2 (by simp [hi])
    simpa using h _ hmem
  · rintro h ⟨k, i⟩ hmem
    have hk := List.mk_mem_zipIdx_iff_getElem?.1 hmem
    have hi := (List.getElem?_eq_some_iff.1 hk).1
    simpa using h i hi

end Signing
end StoaCore
