import StoaCore.Crypto.Decoding

/-!
# Classification — how the decryptors report a failure

A blob is well shaped when it is the base64 of a JSON object whose three fields are strings that
decode.  The decoders never look at the type of a field: `atob` takes the text of whatever is
there, so a field that is no string passes when its text happens to be base64.
-/

namespace StoaCore
namespace Crypto

open Library
open Library.Js

/-! ## Well-shaped blobs -/

/-- The member of that name is a string, and these are the bytes it encodes. -/
def StringMember (envelope : Value) (name : JsString) (bytes : Bytes) : Prop :=
  ∃ text, envelope.optionalGet name = .str text ∧ base64ToArrayBuffer (.str text) = some bytes

structure StringFields (blob : JsString) (fields : EncryptedBytes) : Prop where
  intro ::
  parsed : ∃ members, parseEnvelope blob = some (.obj members) ∧
    StringMember (.obj members) (js "ciphertext") fields.ciphertext ∧
    StringMember (.obj members) (js "iv") fields.iv ∧
    StringMember (.obj members) (js "salt") fields.salt

def fieldNames : List JsString :=
  [js "ciphertext", js "iv", js "salt"]

/-- Where the texts of all three fields are base64, the fields are strings. -/
def CoercesNoField (blob : JsString) : Prop :=
  ∀ envelope, parseEnvelope blob = some envelope →
    (∀ name ∈ fieldNames, (atob (envelope.optionalGet name).template).isSome = true) →
    ∀ name ∈ fieldNames, ∃ text, envelope.optionalGet name = .str text

/-! ## How an opening ends -/

section Ends

variable (crypto : WebCrypto) (opening : Opening) (password : JsString)

/-- The key is derived, and AES-GCM rejects the ciphertext with an `OperationError`. -/
def TagFails : Prop :=
  ∃ key e, derivation crypto opening.params password .decrypt = .ok key ∧
    crypto.decrypt opening.iv key opening.ciphertext = .error e ∧ e.name = js "OperationError"

/-- The key is derived, and AES-GCM opens the ciphertext to the bytes of this text. -/
def OpensTo (text : JsString) : Prop :=
  ∃ key data, derivation crypto opening.params password .decrypt = .ok key ∧
    crypto.decrypt opening.iv key opening.ciphertext = .ok data ∧ text = textDecode data

/-- A call fails, and not as a tag does. -/
def FailsOtherwise : Prop :=
  (∃ e, derivation crypto opening.params password .decrypt = .error e) ∨
    ∃ key e, derivation crypto opening.params password .decrypt = .ok key ∧
      crypto.decrypt opening.iv key opening.ciphertext = .error e ∧ e.name ≠ js "OperationError"

end Ends

/-- The result for a blob tells the shape of the blob and the end of its opening apart: a badly
shaped blob is corrupt, a well-shaped one is opened, and a wrong password is a tag that fails. -/
structure ClassifiesExactly (crypto : WebCrypto) (opening : EncryptedBytes → Opening)
    (blob password : JsString) (result : Except ErrorClass JsString) : Prop where
  corrupt : result = .error .corruptEnvelope ↔ ¬ ∃ fields, StringFields blob fields
  wrongPassword : ∀ fields, StringFields blob fields →
    (result = .error .wrongPassword ↔ TagFails crypto (opening fields) password)
  otherwise : ∀ fields, StringFields blob fields → ¬ TagFails crypto (opening fields) password →
    (∃ text, result = .ok text ∧ OpensTo crypto (opening fields) password text) ∨
      (result = .error .other ∧ FailsOtherwise crypto (opening fields) password)

section Ends

variable {crypto : WebCrypto} {opening : Opening} {password : JsString}

/-- An opening ends in one of three ways, and its result tells which. -/
theorem carryOut_cases (crypto : WebCrypto) (opening : Opening) (password : JsString) :
    (∃ text, opening.carryOut crypto password = .ok text ∧ OpensTo crypto opening password text) ∨
      (opening.carryOut crypto password = .error .wrongPassword ∧
        TagFails crypto opening password) ∨
      (opening.carryOut crypto password = .error .other ∧
        FailsOtherwise crypto opening password) := by
  unfold Opening.carryOut
  cases hkey : derivation crypto opening.params password .decrypt with
  | error e => exact Or.inr (Or.inr ⟨rfl, Or.inl ⟨e, hkey⟩⟩)
  | ok key =>
      dsimp only
      cases hdata : crypto.decrypt opening.iv key opening.ciphertext with
      | ok data => exact Or.inl ⟨textDecode data, rfl, key, data, hkey, hdata, rfl⟩
      | error e =>
          dsimp only
          by_cases hname : e.name = js "OperationError"
          · refine Or.inr (Or.inl ⟨?_, key, e, hkey, hdata, hname⟩)
            rw [if_pos hname]
          · refine Or.inr (Or.inr ⟨?_, Or.inr ⟨key, e, hkey, hdata, hname⟩⟩)
            rw [if_neg hname]

theorem carryOut_ne_corrupt : opening.carryOut crypto password ≠ .error .corruptEnvelope := by
  intro h
  rcases carryOut_cases crypto opening password with ⟨text, hok, _⟩ | ⟨hwrong, _⟩ | ⟨hother, _⟩
  · cases hok.symm.trans h
  · cases hwrong.symm.trans h
  · cases hother.symm.trans h

theorem TagFails.carryOut (h : TagFails crypto opening password) :
    opening.carryOut crypto password = .error .wrongPassword := by
  rcases h with ⟨key, e, hkey, hdata, hname⟩
  unfold Opening.carryOut
  rw [hkey]
  dsimp only
  rw [hdata]
  dsimp only
  rw [if_pos hname]

theorem carryOut_wrongPassword_iff :
    opening.carryOut crypto password = .error .wrongPassword ↔
      TagFails crypto opening password := by
  constructor
  · intro h
    rcases carryOut_cases crypto opening password with ⟨text, hok, _⟩ | ⟨_, hfails⟩ | ⟨hother, _⟩
    · cases hok.symm.trans h
    · exact hfails
    · cases hother.symm.trans h
  · exact TagFails.carryOut

theorem carryOut_otherwise (h : ¬ TagFails crypto opening password) :
    (∃ text, opening.carryOut crypto password = .ok text ∧ OpensTo crypto opening password text) ∨
      (opening.carryOut crypto password = .error .other ∧
        FailsOtherwise crypto opening password) := by
  rcases carryOut_cases crypto opening password with hopens | ⟨_, hfails⟩ | hother
  · exact Or.inl hopens
  · exact absurd hfails h
  · exact Or.inr hother

end Ends

/-! ## What the decoders take for fields -/

section Fields

variable {blob : JsString} {envelope : Value} {fields : EncryptedBytes}

theorem readFields_eq_some :
    V1.readFields envelope = some fields ↔
      base64ToArrayBuffer (envelope.optionalGet (js "ciphertext")) = some fields.ciphertext ∧
        base64ToArrayBuffer (envelope.optionalGet (js "iv")) = some fields.iv ∧
        base64ToArrayBuffer (envelope.optionalGet (js "salt")) = some fields.salt := by
  unfold V1.readFields
  rcases fields with ⟨ciphertext, iv, salt⟩
  cases base64ToArrayBuffer (envelope.optionalGet (js "salt")) <;>
    cases base64ToArrayBuffer (envelope.optionalGet (js "iv")) <;>
    cases base64ToArrayBuffer (envelope.optionalGet (js "ciphertext")) <;> simp

theorem StringMember.base64ToArrayBuffer {name : JsString} {bytes : Bytes}
    (h : StringMember envelope name bytes) :
    base64ToArrayBuffer (envelope.optionalGet name) = some bytes := by
  rcases h with ⟨text, htext, hbytes⟩
  rw [htext]
  exact hbytes

/-- What base64 has decoded was the text of the value. -/
theorem isSome_atob_template {v : Value} {bytes : Bytes}
    (h : base64ToArrayBuffer v = some bytes) : (atob v.template).isSome = true := by
  rcases Option.map_eq_some_iff.1 h with ⟨binary, hbinary, _⟩
  exact Option.isSome_iff_exists.2 ⟨binary, hbinary⟩

theorem exists_base64ToArrayBuffer {v : Value} (h : (atob v.template).isSome = true) :
    ∃ bytes, base64ToArrayBuffer v = some bytes := by
  rcases Option.isSome_iff_exists.1 h with ⟨binary, hbinary⟩
  exact ⟨_, Option.map_eq_some_iff.2 ⟨binary, hbinary, rfl⟩⟩

/-- A missing field decodes to nothing: the text "undefined" is no base64. -/
theorem base64ToArrayBuffer_undefined : base64ToArrayBuffer .undefined = none := by
  decide

theorem obj_of_base64 {name : JsString} {bytes : Bytes}
    (h : base64ToArrayBuffer (envelope.optionalGet name) = some bytes) :
    ∃ members, envelope = .obj members := by
  cases envelope with
  | obj members => exact ⟨members, rfl⟩
  | _ =>
      -- Whatever else is parsed has no member of that name.
      exact absurd (h.symm.trans base64ToArrayBuffer_undefined) (Option.some_ne_none bytes)

theorem readBlob_of_fields (hparse : parseEnvelope blob = some envelope)
    (hfields : V1.readFields envelope = some fields) :
    readBlob blob = some (V2.isEncryptedV2 blob, fields) := by
  rcases obj_of_base64 (readFields_eq_some.1 hfields).1 with ⟨members, rfl⟩
  have hobject : isObject (.obj members) = true := rfl
  rw [readBlob_of_parse hparse, if_pos hobject, hfields, isEncryptedV2_of_parse hparse]
  rfl

theorem StringFields.readBlob (h : StringFields blob fields) :
    readBlob blob = some (V2.isEncryptedV2 blob, fields) := by
  rcases h with ⟨members, hparse, hciphertext, hiv, hsalt⟩
  exact readBlob_of_fields hparse (readFields_eq_some.2
    ⟨hciphertext.base64ToArrayBuffer, hiv.base64ToArrayBuffer, hsalt.base64ToArrayBuffer⟩)

theorem forall_fieldNames {P : JsString → Prop} :
    (∀ name ∈ fieldNames, P name) ↔ P (js "ciphertext") ∧ P (js "iv") ∧ P (js "salt") := by
  simp [fieldNames]

/-- Without coercion, what the decoders read are strings. -/
theorem CoercesNoField.stringFields (h : CoercesNoField blob) {parts : Bool × EncryptedBytes}
    (hblob : Crypto.readBlob blob = some parts) : StringFields blob parts.2 := by
  rcases readBlob_some hblob with ⟨envelope, hparse, hfields, _⟩
  have hbytes := readFields_eq_some.1 hfields
  rcases obj_of_base64 hbytes.1 with ⟨members, rfl⟩
  have hstrings := forall_fieldNames.1 (h _ hparse (forall_fieldNames.2
    ⟨isSome_atob_template hbytes.1, isSome_atob_template hbytes.2.1,
      isSome_atob_template hbytes.2.2⟩))
  have hmember : ∀ {name : JsString} {bytes : Bytes},
      (∃ text, (Value.obj members).optionalGet name = .str text) →
        Crypto.base64ToArrayBuffer ((Value.obj members).optionalGet name) = some bytes →
        StringMember (.obj members) name bytes := by
    rintro name bytes ⟨text, htext⟩ hdecoded
    rw [htext] at hdecoded
    exact ⟨text, htext, hdecoded⟩
  exact ⟨members, hparse, hmember hstrings.1 hbytes.1, hmember hstrings.2.1 hbytes.2.1,
    hmember hstrings.2.2 hbytes.2.2⟩

/-- Where every blob that is read is well shaped, no field is coerced. -/
theorem coercesNoField_of_stringFields
    (h : ∀ parts, Crypto.readBlob blob = some parts → ∃ fields, StringFields blob fields) :
    CoercesNoField blob := by
  intro envelope hparse hdecode
  rcases forall_fieldNames.1 hdecode with ⟨hciphertext, hiv, hsalt⟩
  rcases exists_base64ToArrayBuffer hciphertext with ⟨ciphertext, hciphertext⟩
  rcases exists_base64ToArrayBuffer hiv with ⟨iv, hiv⟩
  rcases exists_base64ToArrayBuffer hsalt with ⟨salt, hsalt⟩
  have hfields : V1.readFields envelope = some ⟨ciphertext, iv, salt⟩ :=
    readFields_eq_some.2 ⟨hciphertext, hiv, hsalt⟩
  rcases h _ (readBlob_of_fields hparse hfields) with ⟨fields, members, hmembers, hstrings⟩
  obtain rfl : envelope = .obj members := Option.some.inj (hparse.symm.trans hmembers)
  exact forall_fieldNames.2 ⟨hstrings.1.imp fun _ => And.left, hstrings.2.1.imp fun _ => And.left,
    hstrings.2.2.imp fun _ => And.left⟩

end Fields

/-! ## Results -/

section Results

variable (crypto : WebCrypto) (opening : EncryptedBytes → Opening) (blob password : JsString)

/-- What reading a blob and carrying out the opening it is given comes to. -/
def decodedAs : Except ErrorClass JsString :=
  match readBlob blob with
  | none => .error .corruptEnvelope
  | some parts => (opening parts.2).carryOut crypto password

theorem decodedAs_of_stringFields {fields : EncryptedBytes} (h : StringFields blob fields) :
    decodedAs crypto opening blob password = (opening fields).carryOut crypto password := by
  rw [decodedAs, h.readBlob]

/-- A result is corrupt exactly when nothing has been read. -/
theorem decodedAs_corrupt_iff :
    decodedAs crypto opening blob password = .error .corruptEnvelope ↔ readBlob blob = none := by
  unfold decodedAs
  cases hblob : readBlob blob with
  | none => exact iff_of_true rfl rfl
  | some parts => exact iff_of_false carryOut_ne_corrupt (Option.some_ne_none parts)

theorem decodedAs_classifies_iff :
    ClassifiesExactly crypto opening blob password (decodedAs crypto opening blob password) ↔
      CoercesNoField blob := by
  constructor
  · intro h
    refine coercesNoField_of_stringFields fun parts hblob => ?_
    by_contra hshape
    -- A blob that has been read is not reported as corrupt, so it has to be well shaped.
    have hnone := (decodedAs_corrupt_iff crypto opening blob password).1 (h.corrupt.2 hshape)
    cases hblob.symm.trans hnone
  · intro h
    refine ⟨?_, ?_, ?_⟩
    · rw [decodedAs_corrupt_iff]
      constructor
      · rintro hnone ⟨fields, hfields⟩
        cases hnone.symm.trans hfields.readBlob
      · intro hshape
        cases hblob : readBlob blob with
        | none => rfl
        | some parts => exact absurd ⟨parts.2, h.stringFields hblob⟩ hshape
    · intro fields hfields
      rw [decodedAs_of_stringFields crypto opening blob password hfields]
      exact carryOut_wrongPassword_iff
    · intro fields hfields hfails
      rw [decodedAs_of_stringFields crypto opening blob password hfields]
      exact carryOut_otherwise hfails

/-- The opening that the two dispatchers choose by the marker. -/
def markedOpening (fields : EncryptedBytes) : Opening :=
  openingOf (V2.isEncryptedV2 blob, fields)

theorem decoded_eq_decodedAs :
    decoded crypto blob password = decodedAs crypto (markedOpening blob) blob password := by
  unfold decoded decodedAs
  cases hblob : readBlob blob with
  | none => rfl
  | some parts =>
      rcases readBlob_some hblob with ⟨_, _, _, hmarker⟩
      dsimp only
      rw [markedOpening, hmarker]

end Results

section Decryptors

variable {crypto : WebCrypto} {opening : Opening} {blob password : JsString}
  {x : CryptoM JsString}

theorem CarriesOut.outcome_eq (h : CarriesOut crypto opening password x)
    (t : Traced.Trace ModuleState CryptoEvent) :
    outcome x t = opening.carryOut crypto password := by
  have hpost := h _ t rfl
  unfold outcome
  rcases hrun : Traced.run x t with ⟨r, t'⟩
  rw [hrun] at hpost
  cases r with
  | error e => exact hpost.1.symm
  | ok text => exact hpost.1.symm

theorem outcome_decryptString (t : Traced.Trace ModuleState CryptoEvent) :
    outcome (V1.decryptString crypto blob password) t =
      decodedAs crypto legacyOpening blob password := by
  unfold decodedAs
  cases hblob : readBlob blob with
  | none =>
      rcases decryptString_corrupt crypto password hblob with ⟨message, hthrow⟩
      rw [hthrow]
      rfl
  | some parts => exact (decryptString_carriesOut crypto password hblob).outcome_eq t

end Decryptors

/-- Each decryptor classifies a blob exactly when `atob` coerces no field of it. -/
theorem decryptors_classify_iff (crypto : WebCrypto) (blob password : JsString)
    (t : Traced.Trace ModuleState CryptoEvent) :
    (ClassifiesExactly crypto (markedOpening blob) blob password
        (outcome (V2.decryptStringV2 crypto blob password) t) ↔ CoercesNoField blob) ∧
      (ClassifiesExactly crypto legacyOpening blob password
        (outcome (V1.decryptString crypto blob password) t) ↔ CoercesNoField blob) ∧
      (ClassifiesExactly crypto (markedOpening blob) blob password
        (outcome (V2.smartDecrypt crypto blob password) t) ↔ CoercesNoField blob) := by
  refine ⟨?_, ?_, ?_⟩
  · rw [(decryptStringV2_decodes crypto password).outcome_eq t, decoded_eq_decodedAs]
    exact decodedAs_classifies_iff crypto (markedOpening blob) blob password
  · rw [outcome_decryptString t]
    exact decodedAs_classifies_iff crypto legacyOpening blob password
  · rw [(smartDecrypt_decodes crypto password).outcome_eq t, decoded_eq_decodedAs]
    exact decodedAs_classifies_iff crypto (markedOpening blob) blob password

/-- `btoa` of an envelope in the current format whose three fields are `null`. -/
def nullFields : JsString :=
  js "eyJ2IjoyLCJjaXBoZXJ0ZXh0IjpudWxsLCJpdiI6bnVsbCwic2FsdCI6bnVsbH0="

/-- A platform that rejects a ciphertext which is shorter than a tag. -/
def tagChecking : WebCrypto where
  KeyMaterial := Bytes
  CryptoKey := Bytes
  importKey raw := .ok raw
  deriveKey _ keyMaterial _ := .ok keyMaterial
  encrypt _ _ data := .ok (data ++ List.replicate 16 0)
  decrypt _ _ ciphertext :=
    if ciphertext.length < 16 then .error ⟨js "OperationError"⟩
    else .ok (ciphertext.take (ciphertext.length - 16))

theorem parseEnvelope_nullFields :
    parseEnvelope nullFields = some (.obj [(js "v", .num V2.versionMarker),
      (js "ciphertext", .null), (js "iv", .null), (js "salt", .null)]) := by
  rfl

/-- An envelope of `null`s is badly shaped, and reported as a wrong password. -/
theorem nullFields_wrongPassword :
    (∀ fields, ¬ StringFields nullFields fields) ∧
      (∀ password t, outcome (V2.decryptStringV2 tagChecking nullFields password) t =
        .error .wrongPassword) ∧
      ¬ ∀ (crypto : WebCrypto) (blob password : JsString)
        (t : Traced.Trace ModuleState CryptoEvent),
        ClassifiesExactly crypto (markedOpening blob) blob password
          (outcome (V2.decryptStringV2 crypto blob password) t) := by
  have hshape : ∀ fields, ¬ StringFields nullFields fields := by
    rintro fields ⟨members, hparse, ⟨text, htext, _⟩, _⟩
    have hmembers := Option.some.inj (parseEnvelope_nullFields.symm.trans hparse)
    rw [← hmembers] at htext
    cases htext
  have hresult : ∀ password t,
      outcome (V2.decryptStringV2 tagChecking nullFields password) t = .error .wrongPassword := by
    intro password t
    rw [(decryptStringV2_decodes tagChecking password).outcome_eq t]
    have hblob : readBlob nullFields = some (true, ⟨[158, 233, 101], [158, 233, 101],
        [158, 233, 101]⟩) := by
      decide +kernel
    rw [decoded, hblob]
    rfl
  refine ⟨hshape, hresult, fun hexact => ?_⟩
  -- An exact classification would make the result of a badly shaped blob corrupt.
  have hclassified := hexact tagChecking nullFields [] ⟨{}, []⟩
  have hcorrupt := hclassified.corrupt.2 (not_exists.2 hshape)
  rw [hresult] at hcorrupt
  cases hcorrupt

end Crypto
end StoaCore
