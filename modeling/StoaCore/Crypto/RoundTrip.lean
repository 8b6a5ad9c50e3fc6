import StoaCore.Crypto.Decoding
import StoaCore.Library.Js.JsonRoundTrip

/-!
# RoundTrip — decrypting what has been encrypted

Every layer of an envelope is undone by its counterpart, up to the text decoder, which drops a
byte order mark at the start of the plaintext.
-/

namespace StoaCore
namespace Crypto

open Library
open Library.Js
open Library.Traced (Returns)

/-! ## Bytes and text -/

theorem toNat_ofNat_toNat (b : UInt8) : (UInt16.ofNat b.toNat).toNat = b.toNat := by
  have hlt := b.toNat_lt
  rw [UInt16.toNat_ofNat_of_lt']
  exact Nat.lt_trans hlt (by decide)

theorem isBinary_binaryString (bytes : Bytes) : IsBinary (binaryString bytes) := by
  intro c hc
  rcases List.mem_map.1 hc with ⟨b, hb, rfl⟩
  rw [toNat_ofNat_toNat]
  exact b.toNat_lt

/-- The text denotes the bytes. -/
def EncodesBytes (base64 : JsString) (bytes : Bytes) : Prop :=
  btoa (binaryString bytes) = some base64

theorem EncodesBytes.toArrayBuffer {base64 : JsString} {bytes : Bytes}
    (h : EncodesBytes base64 bytes) : base64ToArrayBuffer (.str base64) = some bytes := by
  have hbytes : (binaryString bytes).map (fun c => UInt8.ofNat c.toNat) = bytes := by
    simp [binaryString, Function.comp_def]
  calc base64ToArrayBuffer (.str base64)
      = (atob base64).map fun binary => binary.map fun c => UInt8.ofNat c.toNat := by
        rw [base64ToArrayBuffer, Value.template_str]
    _ = some ((binaryString bytes).map fun c => UInt8.ofNat c.toNat) := by
        rw [atob_btoa h, Option.map_some]
    _ = some bytes := by rw [hbytes]

theorem returns_btoaOrThrow {text : JsString} (h : IsBinary text) :
    Returns (btoaOrThrow text) fun encoded => btoa text = some encoded := by
  rcases btoa_of_isBinary h with ⟨encoded, hencoded⟩
  unfold btoaOrThrow
  rw [hencoded]
  exact Returns.pure rfl

theorem returns_arrayBufferToBase64 (buffer : Bytes) :
    Returns (arrayBufferToBase64 buffer) fun base64 => EncodesBytes base64 buffer :=
  returns_btoaOrThrow (isBinary_binaryString buffer)

/-! ## Envelopes -/

/-- The envelope of either format. -/
def envelopeData (marked : Bool) (ciphertext iv salt : JsString) : Value :=
  if marked then V2.encryptedData ciphertext iv salt else V1.encryptedData ciphertext iv salt

section Envelope

variable (marked : Bool) {ciphertext iv salt : JsString}

theorem isBinary_envelope {text : JsString} (hciphertext : IsBinary ciphertext)
    (hiv : IsBinary iv) (hsalt : IsBinary salt)
    (h : stringify (envelopeData marked ciphertext iv salt) [] = some text) : IsBinary text := by
  have hct := isBinary_quote hciphertext
  have hiv' := isBinary_quote hiv
  have hsalt' := isBinary_quote hsalt
  have hkeys : IsBinary (js "ciphertext") ∧ IsBinary (js "iv") ∧ IsBinary (js "salt") := by decide
  have hfields : ∀ m ∈ [(js "ciphertext", Value.str ciphertext), (js "iv", .str iv),
      (js "salt", .str salt)], IsBinary m.1 ∧ IsBinary (printValue [] [] m.2) := by
    intro m hm
    simp only [List.mem_cons, List.not_mem_nil, or_false] at hm
    rcases hm with rfl | rfl | rfl
    · exact ⟨hkeys.1, hct⟩
    · exact ⟨hkeys.2.1, hiv'⟩
    · exact ⟨hkeys.2.2, hsalt'⟩
  cases marked with
  | false => exact isBinary_stringify_obj hfields h
  | true =>
      refine isBinary_stringify_obj ?_ h
      intro m hm
      rcases List.mem_cons.1 hm with rfl | hm
      · exact ⟨by decide, by decide⟩
      · exact hfields m hm

theorem normalizeValue_envelope :
    normalizeValue (envelopeData marked ciphertext iv salt) =
      envelopeData marked ciphertext iv salt := by
  cases marked <;> rfl

theorem hasMarker_envelope : V2.hasMarker (envelopeData marked ciphertext iv salt) = marked := by
  cases marked with
  | false => rfl
  | true =>
      change Value.strictEq (.num V2.versionMarker) (.num V2.versionMarker) = true
      exact decide_eq_true rfl

theorem readFields_envelope {fields : EncryptedBytes}
    (hciphertext : EncodesBytes ciphertext fields.ciphertext) (hiv : EncodesBytes iv fields.iv)
    (hsalt : EncodesBytes salt fields.salt) :
    V1.readFields (envelopeData marked ciphertext iv salt) = some fields := by
  have hsalt' : (envelopeData marked ciphertext iv salt).optionalGet (js "salt") = .str salt := by
    cases marked <;> rfl
  have hiv' : (envelopeData marked ciphertext iv salt).optionalGet (js "iv") = .str iv := by
    cases marked <;> rfl
  have hct : (envelopeData marked ciphertext iv salt).optionalGet (js "ciphertext") =
      .str ciphertext := by
    cases marked <;> rfl
  simp only [V1.readFields, hsalt', hiv', hct, hsalt.toArrayBuffer, hiv.toArrayBuffer,
    hciphertext.toArrayBuffer]
  rfl

/-- Reading an envelope gives back its format and its bytes. -/
theorem returns_encodeEnvelope (fields : EncryptedBytes)
    (hciphertext : EncodesBytes ciphertext fields.ciphertext) (hiv : EncodesBytes iv fields.iv)
    (hsalt : EncodesBytes salt fields.salt) :
    Returns (encodeEnvelope (envelopeData marked ciphertext iv salt))
      fun blob => readBlob blob = some (marked, fields) := by
  have htext : stringify (envelopeData marked ciphertext iv salt) [] =
      some (printValue [] [] (envelopeData marked ciphertext iv salt)) := by
    cases marked <;> rfl
  have hbinary := isBinary_envelope marked (isBinary_btoa hciphertext) (isBinary_btoa hiv)
    (isBinary_btoa hsalt) htext
  -- The envelope has no undefined member, so it is read back as it was printed.
  have hparse := parse_stringify (fun c hc => by cases hc) htext
  rw [normalizeValue_envelope] at hparse
  have hobject : isObject (envelopeData marked ciphertext iv salt) = true := by
    cases marked <;> rfl
  unfold encodeEnvelope
  rw [htext, Option.getD_some]
  apply (returns_btoaOrThrow hbinary).mono
  intro blob hblob
  have henvelope : parseEnvelope blob = some (envelopeData marked ciphertext iv salt) := by
    rw [parseEnvelope, atob_btoa hblob, Option.bind_some, hparse]
  rw [readBlob_of_parse henvelope, if_pos hobject, readFields_envelope marked hciphertext hiv hsalt,
    hasMarker_envelope, Option.map_some]

end Envelope

/-! ## The assumption on WebCrypto -/

/-- Keys can be derived and texts be sealed under them, and what has been sealed under a key and an
IV opens under the key derived in the same way and the same IV.  No text that fits into a string
reaches the length limit of AES-GCM. -/
structure WebCrypto.Inverts (crypto : WebCrypto) : Prop where
  imports : ∀ raw, ∃ keyMaterial, crypto.importKey raw = .ok keyMaterial
  derives : ∀ params keyMaterial usage, 0 < params.iterations → params.iterations < 2 ^ 32 →
    ∃ key, crypto.deriveKey params keyMaterial usage = .ok key
  seals : ∀ params keyMaterial key iv data,
    crypto.deriveKey params keyMaterial .encrypt = .ok key → iv.length = 12 →
    ∃ ciphertext, crypto.encrypt iv key data = .ok ciphertext
  opens : ∀ params keyMaterial sealing opening iv data ciphertext,
    crypto.deriveKey params keyMaterial .encrypt = .ok sealing →
    crypto.deriveKey params keyMaterial .decrypt = .ok opening →
    crypto.encrypt iv sealing data = .ok ciphertext →
    crypto.decrypt iv opening ciphertext = .ok data

section Inverts

variable {crypto : WebCrypto} (hcrypto : crypto.Inverts)

include hcrypto

/-- A sealed text opens, under the same parameters, to what the text coders leave of it. -/
theorem returns_sealText {params : Pbkdf2Params} (hpositive : 0 < params.iterations)
    (hbound : params.iterations < 2 ^ 32) (draw : Draw) (plaintext password : JsString) :
    Returns (sealText crypto params draw.iv plaintext password) fun ciphertext =>
      Opening.carryOut crypto { params := params, iv := draw.iv, ciphertext := ciphertext }
        password = .ok (textDecode (textEncode plaintext)) := by
  -- Both directions derive from the same password and parameters, for different usages.
  rcases hcrypto.imports (textEncode password) with ⟨keyMaterial, himport⟩
  rcases hcrypto.derives params keyMaterial .encrypt hpositive hbound with ⟨sealing, hsealing⟩
  rcases hcrypto.derives params keyMaterial .decrypt hpositive hbound with ⟨opening, hopening⟩
  rcases hcrypto.seals _ _ _ draw.iv (textEncode plaintext) hsealing draw.iv_length with
    ⟨ciphertext, hseal⟩
  have hopen := hcrypto.opens _ _ _ _ _ _ _ hsealing hopening hseal
  have hderived : derivation crypto params password .decrypt = .ok opening := by
    rw [derivation, himport]
    exact hopening
  have hcarry : Opening.carryOut crypto
      { params := params, iv := draw.iv, ciphertext := ciphertext } password =
        .ok (textDecode (textEncode plaintext)) := by
    simp only [Opening.carryOut, hderived, hopen]
  unfold sealText deriveKey
  rw [himport]
  refine Returns.bind (P := fun key => key = sealing) ?_ ?_
  · refine Returns.bind (Returns.pure (P := fun km => km = keyMaterial) rfl) ?_
    rintro _ rfl
    apply Returns.bind (Returns.emit _)
    intro _ _
    rw [hsealing]
    exact Returns.pure rfl
  · rintro _ rfl
    rw [hseal]
    exact Returns.pure hcarry

end Inverts

/-! ## The encryptors -/

/-- What both encryptors do, up to the `try` around the legacy one. -/
def writeEnvelope (crypto : WebCrypto) (marked : Bool) (params : Pbkdf2Params)
    (plaintext password : JsString) (draw : Draw) : CryptoM JsString := do
  let encrypted ← sealText crypto params draw.iv plaintext password
  let ciphertext ← arrayBufferToBase64 encrypted
  let iv ← arrayBufferToBase64 draw.iv
  let salt ← arrayBufferToBase64 draw.salt
  encodeEnvelope (envelopeData marked ciphertext iv salt)

section Inverts

variable {crypto : WebCrypto} (hcrypto : crypto.Inverts)

include hcrypto

theorem returns_writeEnvelope (marked : Bool) (params : Pbkdf2Params)
    (hpositive : 0 < params.iterations) (hbound : params.iterations < 2 ^ 32)
    (plaintext password : JsString) (draw : Draw)
    (hopening : ∀ ciphertext, openingOf (marked, ⟨ciphertext, draw.iv, draw.salt⟩) =
      { params := params, iv := draw.iv, ciphertext := ciphertext }) :
    Returns (writeEnvelope crypto marked params plaintext password draw) fun blob =>
      V2.isEncryptedV2 blob = marked ∧
        decoded crypto blob password = .ok (textDecode (textEncode plaintext)) := by
  unfold writeEnvelope
  apply (returns_sealText hcrypto hpositive hbound draw plaintext password).bind
  intro encrypted hcarry
  refine (returns_arrayBufferToBase64 encrypted).bind fun ciphertext hciphertext => ?_
  refine (returns_arrayBufferToBase64 draw.iv).bind fun iv hiv => ?_
  refine (returns_arrayBufferToBase64 draw.salt).bind fun salt hsalt => ?_
  refine (returns_encodeEnvelope marked ⟨encrypted, draw.iv, draw.salt⟩ hciphertext hiv
    hsalt).mono ?_
  intro blob hblob
  rcases readBlob_some hblob with ⟨_, _, _, hmarker⟩
  refine ⟨hmarker, ?_⟩
  calc decoded crypto blob password
      = (openingOf (marked, ⟨encrypted, draw.iv, draw.salt⟩)).carryOut crypto password := by
        rw [decoded, hblob]
    _ = .ok (textDecode (textEncode plaintext)) := by rw [hopening, hcarry]

/-- The blob has the format that the schema version asks for, and denotes the plaintext as far as
the text coders keep it. -/
theorem returns_smartEncrypt (plaintext password : JsString) (schemaVersion : Option JsString)
    (draw : Draw) :
    Returns (V2.smartEncrypt crypto plaintext password schemaVersion draw) fun blob =>
      V2.isEncryptedV2 blob = V2.isCodexUpgraded schemaVersion ∧
        decoded crypto blob password = .ok (textDecode (textEncode plaintext)) := by
  have hcurrent : 0 < 600000 ∧ 600000 < 2 ^ 32 := by decide
  have hlegacy : 0 < 10000 ∧ 10000 < 2 ^ 32 := by decide
  unfold V2.smartEncrypt
  cases V2.isCodexUpgraded schemaVersion with
  | true =>
      exact returns_writeEnvelope hcrypto true (V2.pbkdf2Params draw.salt) hcurrent.1 hcurrent.2
        plaintext password draw fun _ => rfl
  | false =>
      refine Returns.tryCatch (returns_writeEnvelope hcrypto false (V1.pbkdf2Params draw.salt)
        hlegacy.1 hlegacy.2 plaintext password draw ?_)
      intro ciphertext
      -- The decoder cuts salt and IV to lengths that the draw has anyway.
      have hsalt : draw.salt.take 16 = draw.salt := List.take_of_length_le draw.salt_length.le
      have hiv : draw.iv.take 12 = draw.iv := List.take_of_length_le draw.iv_length.le
      simp only [openingOf, legacyOpening, V1.pbkdf2Params, hsalt, hiv]

end Inverts

/-! ## Writing and reading one blob -/

/-- The blob that is written has the format asked for, and both decryptors give the plaintext
back. -/
def RoundTrips (crypto : WebCrypto) (plaintext password : JsString)
    (schemaVersion : Option JsString) (draw : Draw) : Prop :=
  Returns (V2.smartEncrypt crypto plaintext password schemaVersion draw) fun blob =>
    V2.isEncryptedV2 blob = V2.isCodexUpgraded schemaVersion ∧
      Returns (V2.smartDecrypt crypto blob password) (· = plaintext) ∧
      Returns (V2.decryptStringV2 crypto blob password) (· = plaintext)

/-- The blob denotes the plaintext. -/
def Holds (crypto : WebCrypto) (password blob plaintext : JsString) : Prop :=
  decoded crypto blob password = .ok plaintext

theorem Decodes.returns {crypto : WebCrypto} {blob password plaintext : JsString}
    {x : CryptoM JsString} (h : Decodes crypto blob password x)
    (hblob : Holds crypto password blob plaintext) : Returns x (· = plaintext) := by
  intro t
  have houtcome := h.outcome_eq t
  rw [hblob] at houtcome
  unfold outcome at houtcome
  cases hrun : (Traced.run x t).1 with
  | error e =>
      rw [hrun] at houtcome
      cases houtcome
  | ok text =>
      rw [hrun] at houtcome
      cases houtcome
      exact ⟨plaintext, rfl, rfl⟩

/-- The state of the module before the first call. -/
def initialTrace : Traced.Trace ModuleState CryptoEvent := ⟨{}, []⟩

section Inverts

variable {crypto : WebCrypto} (hcrypto : crypto.Inverts)

include hcrypto

theorem returns_smartEncrypt_holds {plaintext : JsString} (h : isWellFormed plaintext = true)
    (password : JsString) (schemaVersion : Option JsString) (draw : Draw) :
    Returns (V2.smartEncrypt crypto plaintext password schemaVersion draw) fun blob =>
      V2.isEncryptedV2 blob = V2.isCodexUpgraded schemaVersion ∧
        Holds crypto password blob (stripBom plaintext) := by
  have hwrite := returns_smartEncrypt hcrypto plaintext password schemaVersion draw
  rw [textDecode_textEncode h] at hwrite
  exact hwrite

theorem roundTrips_iff {plaintext : JsString} (h : isWellFormed plaintext = true)
    (password : JsString) (schemaVersion : Option JsString) (draw : Draw) :
    RoundTrips crypto plaintext password schemaVersion draw ↔ ¬ BeginsWithBom plaintext := by
  refine Returns.iff_of initialTrace
    (returns_smartEncrypt_holds hcrypto h password schemaVersion draw) ?_
  rintro blob ⟨hformat, hblob⟩
  have hsmart := (smartDecrypt_decodes crypto password).returns hblob
  have hcurrent := (decryptStringV2_decodes crypto password).returns hblob
  constructor
  · rintro ⟨-, hback, -⟩ hbom
    rcases hback initialTrace with ⟨plaintext, htext, rfl⟩
    rcases hsmart initialTrace with ⟨_, hstripped, rfl⟩
    have heq : plaintext = stripBom plaintext := by simpa [htext] using hstripped
    -- Decryption succeeds in either case; it is the text that is one code unit short.
    have hlt := length_stripBom_lt hbom
    rw [← heq] at hlt
    exact Nat.lt_irrefl _ hlt
  · intro hbom
    rw [stripBom_of_not hbom] at hsmart hcurrent
    exact ⟨hformat, hsmart, hcurrent⟩

end Inverts

end Crypto
end StoaCore
