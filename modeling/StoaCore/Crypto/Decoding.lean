import StoaCore.Crypto.V2

/-!
# Decoding — what a blob denotes, and that every decryptor computes it

A blob either is corrupt or asks for one opening: a key derivation, an IV and a ciphertext.  The
two legacy decoders and the two dispatchers all carry out exactly that opening.
-/

namespace StoaCore
namespace Crypto

open Library
open Library.Js

/-! ## The opening a blob asks for -/

structure Opening where
  params : Pbkdf2Params
  iv : Bytes
  ciphertext : Bytes
  deriving DecidableEq

/-- Under SHA-256 and 10,000 iterations, with the IV cut to 12 bytes and the salt to 16. -/
def legacyOpening (fields : EncryptedBytes) : Opening where
  params := { hash := .sha256, iterations := 10000, salt := fields.salt.take 16 }
  iv := fields.iv.take 12
  ciphertext := fields.ciphertext

/-- Under SHA-512 and 600,000 iterations. -/
def currentOpening (fields : EncryptedBytes) : Opening where
  params := { hash := .sha512, iterations := 600000, salt := fields.salt }
  iv := fields.iv
  ciphertext := fields.ciphertext

/-- The fields of a blob that is not corrupt, and whether it has the marker. -/
def readBlob (blob : JsString) : Option (Bool × EncryptedBytes) :=
  (parseEnvelope blob).bind fun envelope =>
    (if isObject envelope then V1.readFields envelope else none).map fun fields =>
      (V2.hasMarker envelope, fields)

def openingOf : Bool × EncryptedBytes → Opening
  | (true, fields) => currentOpening fields
  | (false, fields) => legacyOpening fields

section Subtle

variable (crypto : WebCrypto)

def derivation (params : Pbkdf2Params) (password : JsString) (usage : KeyUsage) :
    Except PlatformError crypto.CryptoKey := do
  let keyMaterial ← crypto.importKey (textEncode password)
  crypto.deriveKey params keyMaterial usage

def Opening.carryOut (opening : Opening) (password : JsString) : Except ErrorClass JsString :=
  match derivation crypto opening.params password .decrypt with
  | .error _ => .error .other
  | .ok key =>
      match crypto.decrypt opening.iv key opening.ciphertext with
      | .ok data => .ok (textDecode data)
      | .error e => .error (if e.name = js "OperationError" then .wrongPassword else .other)

/-- What decrypting a blob comes to. -/
def decoded (blob password : JsString) : Except ErrorClass JsString :=
  match readBlob blob with
  | none => .error .corruptEnvelope
  | some parts => (openingOf parts).carryOut crypto password

end Subtle

/-! ## Decryptors -/

variable {α : Type}

def CryptoEvent.isOpened : CryptoEvent → Bool
  | .opened _ _ => true
  | _ => false

/-- What a run has opened. -/
def openings (events : List CryptoEvent) : List CryptoEvent :=
  events.filter CryptoEvent.isOpened

@[simp] theorem openings_opened (events : List CryptoEvent) (params : Pbkdf2Params) (iv : Bytes) :
    openings (events ++ [.opened params iv]) = openings events ++ [.opened params iv] := by
  simp [openings, CryptoEvent.isOpened]

@[simp] theorem openings_derived (events : List CryptoEvent) (params : Pbkdf2Params) :
    openings (events ++ [.derived params]) = openings events := by
  simp [openings, CryptoEvent.isOpened]

@[simp] theorem openings_warned (events : List CryptoEvent) (message : JsString) :
    openings (events ++ [.warned message]) = openings events := by
  simp [openings, CryptoEvent.isOpened]

/-- The program ends as `opening.carryOut` does, and has opened that and nothing else. -/
def CarriesOut (crypto : WebCrypto) (opening : Opening) (password : JsString)
    (x : CryptoM JsString) : Prop :=
  ∀ before, Traced.Triple (fun l => openings l = before) x
    (fun text l => opening.carryOut crypto password = .ok text ∧
      openings l = before ++ [.opened opening.params opening.iv])
    (fun e l => opening.carryOut crypto password = .error e.errorClass ∧ openings l = before)

/-- The program ends as the blob denotes, and has opened what the blob asks for. -/
def Decodes (crypto : WebCrypto) (blob password : JsString) (x : CryptoM JsString) : Prop :=
  ∀ before, Traced.Triple (fun l => openings l = before) x
    (fun text l => decoded crypto blob password = .ok text ∧
      ∃ parts, readBlob blob = some parts ∧
        openings l = before ++ [.opened (openingOf parts).params (openingOf parts).iv])
    (fun e l => decoded crypto blob password = .error e.errorClass ∧ openings l = before)

/-- The program succeeds, and opens nothing. -/
def OpensNothing (x : CryptoM Unit) : Prop :=
  ∀ before, Traced.Triple (fun l => openings l = before) x (fun _ l => openings l = before)
    (fun _ _ => False)

section Rules

variable {crypto : WebCrypto} {blob password : JsString} {x : CryptoM JsString}

theorem opensNothing_pure : OpensNothing (pure ()) :=
  fun _ => Traced.Triple.pure fun _ h => h

theorem opensNothing_emitV1WarningOnce : OpensNothing V2.emitV1WarningOnce := by
  intro before
  -- Whether the warning is given depends on the module, what is opened does not.
  refine Traced.Triple.bind (Q := fun _ l => openings l = before) ?_ ?_
  · refine Traced.Triple.call ?_ ?_
    · intro _ _ _ l hl
      exact hl
    · intro _ _ herror
      cases herror
  · intro emitted
    cases emitted with
    | true => exact Traced.Triple.pure fun _ hl => hl
    | false => exact Traced.Triple.emit fun l hl => (openings_warned l _).trans hl

theorem await_spec {r : Except PlatformError α} (before : List CryptoEvent) :
    Traced.Triple (fun l => openings l = before) (await r)
      (fun a l => r = .ok a ∧ openings l = before)
      (fun e l => (∃ reason, r = .error reason) ∧ e.errorClass = .other ∧ openings l = before) := by
  cases r with
  | error reason => exact Traced.Triple.throw fun _ hl => ⟨⟨reason, rfl⟩, rfl, hl⟩
  | ok a => exact Traced.Triple.pure fun _ hl => ⟨rfl, hl⟩

theorem deriveKey_spec (crypto : WebCrypto) (params : Pbkdf2Params) (password : JsString)
    (usage : KeyUsage) (before : List CryptoEvent) :
    Traced.Triple (fun l => openings l = before) (deriveKey crypto params password usage)
      (fun key l => derivation crypto params password usage = .ok key ∧ openings l = before)
      (fun e l => (∃ reason, derivation crypto params password usage = .error reason) ∧
        e.errorClass = .other ∧ openings l = before) := by
  unfold deriveKey derivation
  refine Traced.Triple.bind (Traced.Triple.mono (await_spec before) (fun _ hl => hl)
    (fun _ _ hQ => hQ) ?_) ?_
  · rintro e l ⟨⟨reason, hreason⟩, hclass, hl⟩
    rw [hreason]
    exact ⟨⟨reason, rfl⟩, hclass, hl⟩
  · intro keyMaterial
    refine Traced.Triple.of_pre fun himport => ?_
    rw [himport]
    refine Traced.Triple.bind (Q := fun _ l => openings l = before) ?_ ?_
    · refine Traced.Triple.emit fun l hl => ?_
      exact (openings_derived l params).trans hl
    · intro _
      exact await_spec before

/-- The common end of the decoders carries out the opening it is given. -/
theorem openText_carriesOut (opening : Opening) {onOpened : CryptoM Unit}
    (hquiet : OpensNothing onOpened) (unexpected : JsString) :
    CarriesOut crypto opening password
      (openText crypto opening.params opening.iv opening.ciphertext password onOpened
        unexpected) := by
  intro before
  have hkey := deriveKey_spec crypto opening.params password .decrypt before
  refine Traced.Triple.bind (Traced.Triple.mono hkey (fun _ hl => hl) (fun _ _ hQ => hQ) ?_) ?_
  · rintro e l ⟨⟨reason, hreason⟩, hclass, hl⟩
    rw [Opening.carryOut, hreason, hclass]
    exact ⟨rfl, hl⟩
  · intro key
    refine Traced.Triple.of_pre fun hderived => ?_
    -- The key exists; it remains to see how the opening itself ends.
    unfold Opening.carryOut
    simp only [hderived]
    cases crypto.decrypt opening.iv key opening.ciphertext with
    | error e =>
        dsimp only
        split
        · exact Traced.Triple.throw fun l hl => ⟨rfl, hl⟩
        · exact Traced.Triple.throw fun l hl => ⟨rfl, hl⟩
    | ok data =>
        dsimp only
        refine Traced.Triple.bind (Q := fun _ l =>
          openings l = before ++ [.opened opening.params opening.iv]) ?_ ?_
        · refine Traced.Triple.emit fun l hl => ?_
          rw [openings_opened, hl]
        · intro _
          -- A warning after the opening cannot turn it into a failure.
          refine Traced.Triple.bind (Traced.Triple.mono (hquiet _) (fun _ hl => hl)
            (fun _ _ hQ => hQ) (fun _ _ hfalse => hfalse.elim)) ?_
          intro _
          exact Traced.Triple.pure fun l hl => ⟨rfl, hl⟩

theorem CarriesOut.decodes {parts : Bool × EncryptedBytes} (hblob : readBlob blob = some parts)
    (h : CarriesOut crypto (openingOf parts) password x) : Decodes crypto blob password x := by
  intro before
  have hdecoded : decoded crypto blob password = (openingOf parts).carryOut crypto password := by
    rw [decoded, hblob]
  rw [hdecoded]
  refine Traced.Triple.mono (h before) (fun _ hl => hl) ?_ (fun _ _ hE => hE)
  rintro text l ⟨htext, hl⟩
  exact ⟨htext, parts, hblob, hl⟩

theorem decodes_corrupt (hblob : readBlob blob = none) (message : JsString) :
    Decodes crypto blob password (throw (.corruptEnvelope message)) := by
  intro before
  refine Traced.Triple.throw fun l hl => ⟨?_, hl⟩
  rw [decoded, hblob]
  rfl

end Rules

/-! ## The decryptors decode -/

theorem readFieldsV1_eq (envelope : Value) : V2.readFieldsV1 envelope = V1.readFields envelope := by
  unfold V2.readFieldsV1 V1.readFields
  -- The order of decoding only matters for which field fails first, and all fail alike.
  cases base64ToArrayBuffer (envelope.optionalGet (js "salt")) <;>
    cases base64ToArrayBuffer (envelope.optionalGet (js "iv")) <;> rfl

section Decryptors

variable {blob : JsString} {envelope : Value} {fields : EncryptedBytes}
  (hparse : parseEnvelope blob = some envelope)

include hparse

theorem isEncryptedV2_of_parse : V2.isEncryptedV2 blob = V2.hasMarker envelope := by
  rw [V2.isEncryptedV2, hparse]

theorem readBlob_of_parse :
    readBlob blob = (if isObject envelope then V1.readFields envelope else none).map
      fun fields => (V2.hasMarker envelope, fields) := by
  rw [readBlob, hparse, Option.bind_some]

end Decryptors

theorem readBlob_of_parse_none {blob : JsString} (hparse : parseEnvelope blob = none) :
    readBlob blob = none := by
  rw [readBlob, hparse, Option.bind_none]

/-- The parts of a blob come from its envelope. -/
theorem readBlob_some {blob : JsString} {parts : Bool × EncryptedBytes}
    (h : readBlob blob = some parts) :
    ∃ envelope, parseEnvelope blob = some envelope ∧ V1.readFields envelope = some parts.2 ∧
      V2.isEncryptedV2 blob = parts.1 := by
  cases hparse : parseEnvelope blob with
  | none =>
      rw [readBlob_of_parse_none hparse] at h
      cases h
  | some envelope =>
      rw [readBlob_of_parse hparse] at h
      rcases Option.map_eq_some_iff.1 h with ⟨fields, hfields, rfl⟩
      split at hfields
      · exact ⟨envelope, rfl, hfields, isEncryptedV2_of_parse hparse⟩
      · cases hfields

section Decryptors

variable (crypto : WebCrypto) {blob : JsString} (password : JsString)

theorem decryptString_corrupt (hblob : readBlob blob = none) :
    ∃ message, V1.decryptString crypto blob password = throw (.corruptEnvelope message) := by
  unfold V1.decryptString
  cases hparse : parseEnvelope blob with
  | none => exact ⟨_, rfl⟩
  | some envelope =>
      rw [readBlob_of_parse hparse, Option.map_eq_none_iff] at hblob
      dsimp only
      split
      case isFalse => exact ⟨_, rfl⟩
      case isTrue hobject =>
        rw [if_pos hobject] at hblob
        rw [hblob]
        exact ⟨_, rfl⟩

/-- The legacy decoder carries out the legacy opening, whether or not the blob has the marker. -/
theorem decryptString_carriesOut {parts : Bool × EncryptedBytes}
    (hblob : readBlob blob = some parts) :
    CarriesOut crypto (legacyOpening parts.2) password (V1.decryptString crypto blob password) := by
  unfold V1.decryptString
  cases hparse : parseEnvelope blob with
  | none =>
      rw [readBlob_of_parse_none hparse] at hblob
      cases hblob
  | some envelope =>
      rw [readBlob_of_parse hparse, Option.map_eq_some_iff] at hblob
      rcases hblob with ⟨fields, hfields, rfl⟩
      dsimp only
      split
      case isFalse hobject =>
        rw [if_neg hobject] at hfields
        cases hfields
      case isTrue hobject =>
        rw [if_pos hobject] at hfields
        rw [hfields]
        dsimp only
        rw [truncate_eq_take, truncate_eq_take]
        exact openText_carriesOut (legacyOpening fields) opensNothing_pure _

theorem decryptString_decodes (h : V2.isEncryptedV2 blob = false) :
    Decodes crypto blob password (V1.decryptString crypto blob password) := by
  cases hblob : readBlob blob with
  | none =>
      rcases decryptString_corrupt crypto password hblob with ⟨message, hthrow⟩
      rw [hthrow]
      exact decodes_corrupt hblob message
  | some parts =>
      -- Without the marker the blob asks for the legacy opening.
      rcases readBlob_some hblob with ⟨_, _, _, hmarker⟩
      have hopening : openingOf parts = legacyOpening parts.2 := by
        rcases parts with ⟨marked, fields⟩
        obtain rfl : marked = false := hmarker.symm.trans h
        rfl
      have hcarries := decryptString_carriesOut crypto password hblob
      rw [← hopening] at hcarries
      exact hcarries.decodes hblob

theorem decryptStringV2_decodes :
    Decodes crypto blob password (V2.decryptStringV2 crypto blob password) := by
  unfold V2.decryptStringV2
  cases hparse : parseEnvelope blob with
  | none => exact decodes_corrupt (readBlob_of_parse_none hparse) _
  | some envelope =>
      have hblob := readBlob_of_parse hparse
      dsimp only
      split
      case isFalse hobject =>
        rw [if_neg hobject] at hblob
        exact decodes_corrupt hblob _
      case isTrue hobject =>
        rw [if_pos hobject] at hblob
        rw [readFieldsV1_eq]
        cases hfields : V1.readFields envelope with
        | none =>
            rw [hfields] at hblob
            split
            · exact decodes_corrupt hblob _
            · exact decodes_corrupt hblob _
        | some fields =>
            rw [hfields, Option.map_some] at hblob
            dsimp only
            split
            case isTrue hmarker =>
              rw [hmarker] at hblob
              exact (openText_carriesOut (currentOpening fields) opensNothing_pure _).decodes hblob
            case isFalse hmarker =>
              rw [Bool.eq_false_of_not_eq_true hmarker] at hblob
              rw [truncate_eq_take, truncate_eq_take]
              exact (openText_carriesOut (legacyOpening fields)
                opensNothing_emitV1WarningOnce _).decodes hblob

theorem smartDecrypt_decodes :
    Decodes crypto blob password (V2.smartDecrypt crypto blob password) := by
  unfold V2.smartDecrypt
  split
  -- With the marker it is the current decoder itself.
  case isTrue => exact decryptStringV2_decodes crypto password
  case isFalse hmarker =>
    have hlegacy := decryptString_decodes crypto password (Bool.eq_false_of_not_eq_true hmarker)
    intro before
    refine Traced.Triple.bind (Traced.Triple.mono (opensNothing_emitV1WarningOnce before)
      (fun _ hl => hl) (fun _ _ hQ => hQ) (fun _ _ hfalse => hfalse.elim)) ?_
    intro _
    exact hlegacy before

end Decryptors

/-! ## Outcomes -/

/-- The result of a run, with an error by its class. -/
def outcome (x : CryptoM α) (t : Traced.Trace ModuleState CryptoEvent) : Except ErrorClass α :=
  (Traced.run x t).1.mapError CryptoError.errorClass

/-- The fields of the blob have been opened as `opening` says, and nothing else has. -/
def OpenedAs (blob : JsString) (opening : EncryptedBytes → Opening) (x : CryptoM α)
    (t : Traced.Trace ModuleState CryptoEvent) : Prop :=
  ∃ envelope fields, parseEnvelope blob = some envelope ∧ V1.readFields envelope = some fields ∧
    openings (Traced.run x t).2.events =
      openings t.events ++ [.opened (opening fields).params (opening fields).iv]

/-- A variant with details: the plaintext of `decryptStringV2`, flagged as legacy exactly when the
legacy parameters have opened it. -/
def ReportsFormat (crypto : WebCrypto) (blob password : JsString)
    (x : CryptoM V2.DecryptResultWithDetails) : Prop :=
  ∀ t, (∀ t', (outcome x t).map V2.DecryptResultWithDetails.plaintext =
      outcome (V2.decryptStringV2 crypto blob password) t') ∧
    ∀ d, outcome x t = .ok d →
      (d.wasLegacyV1 = true ↔ OpenedAs blob legacyOpening x t) ∧
      (d.wasLegacyV1 = false ↔ OpenedAs blob currentOpening x t)

/-- What the two variants do with their decryptor. -/
def withDetails (blob : JsString) (x : CryptoM JsString) : CryptoM V2.DecryptResultWithDetails := do
  let plaintext ← x
  pure { plaintext := plaintext, wasLegacyV1 := !V2.isEncryptedV2 blob }

section Decodes

variable {crypto : WebCrypto} {blob password : JsString} {x : CryptoM JsString}

theorem Decodes.outcome_eq (h : Decodes crypto blob password x)
    (t : Traced.Trace ModuleState CryptoEvent) : outcome x t = decoded crypto blob password := by
  have hpost := h _ t rfl
  unfold outcome
  rcases hrun : Traced.run x t with ⟨r, t'⟩
  rw [hrun] at hpost
  cases r with
  | error e => exact hpost.1.symm
  | ok text => exact hpost.1.symm

theorem Decodes.opened (h : Decodes crypto blob password x)
    {t : Traced.Trace ModuleState CryptoEvent} {text : JsString} (hok : outcome x t = .ok text) :
    ∃ parts, readBlob blob = some parts ∧ openings (Traced.run x t).2.events =
      openings t.events ++ [.opened (openingOf parts).params (openingOf parts).iv] := by
  have hpost := h _ t rfl
  unfold outcome at hok
  rcases hrun : Traced.run x t with ⟨r, t'⟩
  rw [hrun] at hpost hok
  cases r with
  | error e => cases hok
  | ok text => exact hpost.2

theorem run_withDetails (t : Traced.Trace ModuleState CryptoEvent) :
    Traced.run (withDetails blob x) t =
      ((Traced.run x t).1.map fun text =>
        { plaintext := text, wasLegacyV1 := !V2.isEncryptedV2 blob }, (Traced.run x t).2) := by
  rw [withDetails, Traced.run_bind]
  rcases Traced.run x t with ⟨r, t'⟩
  cases r <;> rfl

theorem outcome_withDetails (t : Traced.Trace ModuleState CryptoEvent) :
    outcome (withDetails blob x) t =
      (outcome x t).map fun text =>
        { plaintext := text, wasLegacyV1 := !V2.isEncryptedV2 blob } := by
  rw [outcome, outcome, run_withDetails]
  cases (Traced.run x t).1 <;> rfl

/-- Only one opening can be the one that has taken place. -/
theorem openedAs_iff {x : CryptoM α} {t : Traced.Trace ModuleState CryptoEvent} {envelope : Value}
    {fields : EncryptedBytes} {actual : Opening} (hparse : parseEnvelope blob = some envelope)
    (hfields : V1.readFields envelope = some fields)
    (hopened : openings (Traced.run x t).2.events =
      openings t.events ++ [.opened actual.params actual.iv])
    (opening : EncryptedBytes → Opening) :
    OpenedAs blob opening x t ↔
      actual.params = (opening fields).params ∧ actual.iv = (opening fields).iv := by
  unfold OpenedAs
  rw [hopened]
  constructor
  · rintro ⟨envelope', fields', hparse', hfields', hevents⟩
    obtain rfl : envelope = envelope' := by simpa [hparse] using hparse'
    obtain rfl : fields = fields' := by simpa [hfields] using hfields'
    simpa using hevents
  · rintro ⟨hparams, hiv⟩
    exact ⟨envelope, fields, hparse, hfields, by rw [hparams, hiv]⟩

theorem Decodes.reportsFormat (h : Decodes crypto blob password x) :
    ReportsFormat crypto blob password (withDetails blob x) := by
  intro t
  constructor
  · intro t'
    have hplaintext : (outcome (withDetails blob x) t).map V2.DecryptResultWithDetails.plaintext =
        outcome x t := by
      rw [outcome_withDetails]
      cases outcome x t <;> rfl
    calc (outcome (withDetails blob x) t).map V2.DecryptResultWithDetails.plaintext
        = outcome x t := hplaintext
      _ = decoded crypto blob password := h.outcome_eq t
      _ = outcome (V2.decryptStringV2 crypto blob password) t' :=
          ((decryptStringV2_decodes crypto password).outcome_eq t').symm
  · intro d hd
    rw [outcome_withDetails] at hd
    cases hx : outcome x t with
    | error c =>
        rw [hx] at hd
        cases hd
    | ok text =>
        rw [hx] at hd
        cases hd
        -- The run succeeded, so it has opened what the blob asks for, and the marker decides which.
        rcases h.opened hx with ⟨⟨marked, fields⟩, hblob, hopened⟩
        rcases readBlob_some hblob with ⟨envelope, hparse, hfields, hmarker⟩
        have hevents : (Traced.run (withDetails blob x) t).2 = (Traced.run x t).2 := by
          rw [run_withDetails]
        rw [← hevents] at hopened
        rw [openedAs_iff hparse hfields hopened, openedAs_iff hparse hfields hopened, hmarker]
        -- The hash tells the two openings apart.
        cases marked with
        | true => simp [openingOf, legacyOpening, currentOpening]
        | false => simp [openingOf, legacyOpening, currentOpening]

end Decodes

/-- The two legacy decoders and the two dispatchers agree, on every blob and from every state. -/
theorem decryptors_agree (crypto : WebCrypto) (blob password : JsString) :
    (∀ t t', outcome (V2.smartDecrypt crypto blob password) t =
      outcome (V2.decryptStringV2 crypto blob password) t') ∧
    ReportsFormat crypto blob password (V2.smartDecryptWithDetails crypto blob password) ∧
    ReportsFormat crypto blob password (V2.decryptStringV2WithDetails crypto blob password) := by
  refine ⟨?_, (smartDecrypt_decodes crypto password).reportsFormat,
    (decryptStringV2_decodes crypto password).reportsFormat⟩
  intro t t'
  calc outcome (V2.smartDecrypt crypto blob password) t
      = decoded crypto blob password := (smartDecrypt_decodes crypto password).outcome_eq t
    _ = outcome (V2.decryptStringV2 crypto blob password) t' :=
        ((decryptStringV2_decodes crypto password).outcome_eq t').symm

end Crypto
end StoaCore
