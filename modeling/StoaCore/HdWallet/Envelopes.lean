import StoaCore.Crypto.Reencryption
import StoaCore.HdWallet.KadenaEncryption
import StoaCore.Library.Js.DecimalText

/-!
# Envelopes — what an envelope opens to

An envelope is read back as its parts, however it was handed out and whatever parts follow the
fourth.  What has been encrypted opens under its password to the message, and it still does after
any number of changes of the password.
-/

namespace StoaCore
namespace HdWallet

open Library.Js
open Crypto (WebCrypto PlatformError KeyUsage Draw)

/-! ## The parts of an envelope -/

theorem isSurrogate_base64Digit {n : Nat} (h : n < 64) :
    isSurrogate (base64Digit n) = false ∧ base64Digit n ≠ unit '.' := by
  revert n
  decide

/-- Neither a surrogate nor a dot occurs in a Base64 text. -/
theorem plain_bufferToBase64 {bytes : Bytes} {c : CodeUnit} (h : c ∈ bufferToBase64 bytes) :
    isSurrogate c = false ∧ c ≠ unit '.' := by
  rcases mem_bufferToBase64 h with ⟨n, hn, rfl⟩ | rfl
  · exact isSurrogate_base64Digit hn
  · decide

/-- What occurs in joined texts is the separator or occurs in one of them. -/
theorem mem_intercalate {sep c : CodeUnit} {texts : List JsString}
    (h : c ∈ [sep].intercalate texts) : c = sep ∨ ∃ text ∈ texts, c ∈ text := by
  induction texts with
  | nil => simp at h
  | cons text texts ih =>
      by_cases hnil : texts = []
      · subst hnil
        exact Or.inr ⟨text, List.mem_cons_self, by simpa using h⟩
      · rw [List.intercalate_cons_of_ne_nil hnil, List.mem_append, List.mem_append] at h
        rcases h with (hfirst | hsep) | hrest
        · exact Or.inr ⟨text, List.mem_cons_self, hfirst⟩
        · exact Or.inl (List.mem_singleton.1 hsep)
        · rcases ih hrest with hsep | ⟨other, hother, hc⟩
          · exact Or.inl hsep
          · exact Or.inr ⟨other, List.mem_cons_of_mem _ hother, hc⟩

theorem isWellFormed_envelope (parts : List Bytes) : isWellFormed (envelope parts) = true := by
  apply isWellFormed_of_forall
  intro c hc
  rcases mem_intercalate hc with rfl | ⟨text, htext, hc⟩
  · decide
  · rcases List.mem_map.1 htext with ⟨bytes, -, rfl⟩
    exact (plain_bufferToBase64 hc).1

theorem splitOn_envelope {parts : List Bytes} (h : parts ≠ []) :
    (envelope parts).splitOn (unit '.') = parts.map bufferToBase64 := by
  apply List.splitOn_intercalate
  · intro part hpart hdot
    rcases List.mem_map.1 hpart with ⟨bytes, -, rfl⟩
    exact (plain_bufferToBase64 hdot).2 rfl
  · simpa using h

theorem envelopeText_encodeAs (parts : List Bytes) (encode : Encode) :
    envelopeText (encodeAs encode (envelope parts)) = envelope parts := by
  have htext := bufferToText_textEncode (isWellFormed_envelope parts)
  cases encode with
  | base64 => rw [encodeAs, envelopeText, bufferFromBase64_bufferToBase64, htext]
  | buffer => rw [encodeAs, envelopeText, htext]

/-- An envelope is read back as its parts. -/
theorem partsOf_encodeAs {parts : List Bytes} (h : parts ≠ []) (encode : Encode) :
    partsOf (encodeAs encode (envelope parts)) = parts.map bufferToBase64 := by
  rw [partsOf, envelopeText_encodeAs, splitOn_envelope h]

/-- Joining one part more. -/
theorem envelope_append {parts : List Bytes} (h : parts ≠ []) (part : Bytes) :
    envelope (parts ++ [part]) = envelope parts ++ unit '.' :: bufferToBase64 part := by
  induction parts with
  | nil => exact absurd rfl h
  | cons first parts ih =>
      by_cases hnil : parts = []
      · subst hnil
        simp [envelope]
      · have hmore : (parts ++ [part]).map bufferToBase64 ≠ [] := by simp
        have hrest : parts.map bufferToBase64 ≠ [] := by simpa using hnil
        have htail := ih hnil
        rw [envelope] at htail ⊢
        rw [List.cons_append, List.map_cons, List.intercalate_cons_of_ne_nil hmore, htail]
        rw [envelope, envelope, List.map_cons, List.intercalate_cons_of_ne_nil hrest]
        simp

/-! ## Opening -/

theorem bufferToBase64_eq_nil {bytes : Bytes} : bufferToBase64 bytes = [] ↔ bytes = [] := by
  constructor
  · intro h
    rw [← bufferFromBase64_bufferToBase64 bytes, h]
    rfl
  · rintro rfl
    rfl

/-- The number of iterations that is said behind the ciphertext. -/
def iterationsOf : List Bytes → Option JsString
  | [] => none
  | part :: _ => if part = [] then none else some (bufferToText part)

theorem partIterations_map (rest : List Bytes) :
    partIterations (rest.map bufferToBase64)[0]? = iterationsOf rest := by
  cases rest with
  | nil => rfl
  | cons part rest =>
      rw [List.map_cons, List.getElem?_cons_zero, partIterations, iterationsOf,
        bufferFromBase64_bufferToBase64]
      simp only [bufferToBase64_eq_nil]

section Opening

variable (crypto : WebCrypto)

/-- An envelope opens as its parts say, and parts behind the fourth do not matter. -/
theorem kadenaDecrypt_envelope (password : BinaryLike) (salt iv cipherText : Bytes)
    (rest : List Bytes) (encode : Encode) :
    kadenaDecrypt crypto password
        (encodeAs encode (envelope (salt :: iv :: cipherText :: rest))) =
      match decrypt crypto cipherText iv (iterationsOf rest) password salt with
      | .ok decrypted => .ok decrypted
      | .error _ => .error (newError (js "Decryption failed")) := by
  have hparts := @partsOf_encodeAs (salt :: iv :: cipherText :: rest) (List.cons_ne_nil _ _) encode
  have hnonempty : encodeAs encode (envelope (salt :: iv :: cipherText :: rest)) ≠ .text [] := by
    intro hempty
    rw [hempty] at hparts
    have hlength := congrArg List.length hparts
    have hone : (partsOf (.text [])).length = 1 := rfl
    rw [hone, List.length_map, List.length_cons, List.length_cons] at hlength
    omega
  rw [kadenaDecrypt, if_neg hnonempty, hparts, ← partIterations_map]
  simp only [List.map_cons, List.getElem?_cons_zero, List.getElem?_cons_succ, partBytes,
    bufferFromBase64_bufferToBase64]
  rfl

variable {crypto} (hcrypto : crypto.Inverts)

include hcrypto

/-- What is sealed under a key opens under the key for the same password, salt and number of
iterations. -/
theorem sealed_opens (text : Bytes) (password : BinaryLike) (draw : Draw) {iterations : Nat}
    (hpositive : 0 < iterations) (hbound : iterations < 2 ^ 32) :
    ∃ sealing opening cipherText,
      deriveKey crypto password draw.salt iterations .encrypt = .ok sealing ∧
        crypto.encrypt draw.iv sealing text = .ok cipherText ∧
        deriveKey crypto password draw.salt iterations .decrypt = .ok opening ∧
        crypto.decrypt draw.iv opening cipherText = .ok text := by
  rcases hcrypto.imports password.raw with ⟨keyMaterial, himport⟩
  rcases hcrypto.derives ⟨.sha256, iterations, draw.salt⟩ keyMaterial .encrypt hpositive hbound with
    ⟨sealing, hsealing⟩
  rcases hcrypto.derives ⟨.sha256, iterations, draw.salt⟩ keyMaterial .decrypt hpositive hbound with
    ⟨opening, hopening⟩
  rcases hcrypto.seals _ _ _ draw.iv text hsealing draw.iv_length with ⟨cipherText, hseal⟩
  refine ⟨sealing, opening, cipherText, ?_, hseal, ?_,
    hcrypto.opens _ _ _ _ _ _ _ hsealing hopening hseal⟩
  · rw [deriveKey, himport]
    exact hsealing
  · rw [deriveKey, himport]
    exact hopening

/-- A ciphertext opens under the parameters it was made with. -/
theorem encrypt_opens (text : Bytes) (password : BinaryLike) (draw : Draw) :
    ∃ cipherText, encrypt crypto text password draw =
        .ok ⟨cipherText, draw.iv, decimalText defaultIterations⟩ ∧
      decrypt crypto cipherText draw.iv (some (decimalText defaultIterations)) password draw.salt =
        .ok text := by
  have hrange : 0 < defaultIterations ∧ defaultIterations < 2 ^ 32 := by decide
  rcases sealed_opens hcrypto text password draw hrange.1 hrange.2 with
    ⟨sealing, opening, cipherText, hsealing, hseal, hopening, hopen⟩
  refine ⟨cipherText, ?_, ?_⟩
  · rw [encrypt, hsealing]
    change (crypto.encrypt draw.iv sealing text >>= _) = _
    rw [hseal]
    rfl
  · have hnumber : enforceRange (parseInt10 (decimalText defaultIterations)) =
        .ok defaultIterations := by
      decide
    rw [decrypt]
    dsimp only
    rw [hnumber]
    change (deriveKey crypto password draw.salt defaultIterations .decrypt >>= _) = _
    rw [hopening]
    exact hopen

/-- The parts of an envelope that has just been made, and what it opens to. -/
theorem kadenaEncrypt_spec (password message : BinaryLike) (encode : Encode) (draw : Draw) :
    ∃ cipherText, kadenaEncrypt crypto password message encode draw =
        .ok (encodeAs encode (envelope [draw.salt, draw.iv, cipherText,
          textEncode (decimalText defaultIterations)])) ∧
      ∀ more encode', kadenaDecrypt crypto password (encodeAs encode' (envelope
        (draw.salt :: draw.iv :: cipherText :: textEncode (decimalText defaultIterations) ::
          more))) = .ok message.raw := by
  rcases encrypt_opens hcrypto message.raw password draw with ⟨cipherText, hencrypt, hopen⟩
  refine ⟨cipherText, ?_, fun more encode' => ?_⟩
  · rw [kadenaEncrypt, hencrypt]
    rfl
  · have hiterations :
        iterationsOf (textEncode (decimalText defaultIterations) :: more) =
          some (decimalText defaultIterations) := by
      have hne : textEncode (decimalText defaultIterations) ≠ [] := by decide
      have htext : isWellFormed (decimalText defaultIterations) = true := by decide
      rw [iterationsOf, if_neg hne, bufferToText_textEncode htext]
    rw [kadenaDecrypt_envelope, hiterations, hopen]

theorem kadenaEncrypt_opens (password message : BinaryLike) (encode : Encode) (draw : Draw) :
    ∃ data, kadenaEncrypt crypto password message encode draw = .ok data ∧
      kadenaDecrypt crypto password data = .ok message.raw := by
  rcases kadenaEncrypt_spec hcrypto password message encode draw with ⟨cipherText, hdata, hopens⟩
  exact ⟨_, hdata, hopens [] encode⟩

/-- An envelope from before the number of iterations was part of it. -/
theorem oldEnvelope_opens (text : Bytes) (password : BinaryLike) (draw : Draw) :
    ∃ cipherText,
      (do let key ← deriveKey crypto password draw.salt 1000 .encrypt
          crypto.encrypt draw.iv key text) = .ok cipherText ∧
      ∀ encode, kadenaDecrypt crypto password
        (encodeAs encode (envelope [draw.salt, draw.iv, cipherText])) = .ok text := by
  rcases sealed_opens hcrypto text password draw (Nat.succ_pos 999) (by omega) with
    ⟨sealing, opening, cipherText, hsealing, hseal, hopening, hopen⟩
  refine ⟨cipherText, ?_, fun encode => ?_⟩
  · rw [hsealing]
    exact hseal
  · have hdecrypt : decrypt crypto cipherText draw.iv none password draw.salt = .ok text := by
      rw [decrypt]
      change (deriveKey crypto password draw.salt 1000 .decrypt >>= _) = _
      rw [hopening]
      exact hopen
    rw [kadenaDecrypt_envelope, iterationsOf, hdecrypt]

end Opening

/-! ## Changing the password -/

/-- A call of `kadenaChangePassword` by the owner of an envelope. -/
structure PasswordChange where
  newPassword : BinaryLike
  encode : Encode
  draw : Draw

/-- The calls one after the other.  After a refused one the owner keeps what there is; the errors
are in the order of the calls. -/
def changePasswords (crypto : WebCrypto) (password data : BinaryLike) :
    List PasswordChange → (BinaryLike × BinaryLike) × List (Option WalletError)
  | [] => ((password, data), [])
  | change :: rest =>
      match kadenaChangePassword crypto password data change.newPassword change.encode
        change.draw with
      | .ok newData =>
          let later := changePasswords crypto change.newPassword newData rest
          (later.1, none :: later.2)
      | .error e =>
          let later := changePasswords crypto password data rest
          (later.1, some e :: later.2)

/-- The password that is left, and why new ones were refused. -/
def passwordsTaken (password : BinaryLike) :
    List BinaryLike → BinaryLike × List (Option JsString)
  | [] => (password, [])
  | newPassword :: rest =>
      match refusal password newPassword with
      | none =>
          let later := passwordsTaken newPassword rest
          (later.1, none :: later.2)
      | some message =>
          let later := passwordsTaken password rest
          (later.1, some message :: later.2)

section Changes

variable {crypto : WebCrypto} (hcrypto : crypto.Inverts)

include hcrypto

/-- A change goes through unless the passwords alone forbid it, and what is inside stays. -/
theorem kadenaChangePassword_spec {password data newPassword : BinaryLike} {message : Bytes}
    (hdata : kadenaDecrypt crypto password data = .ok message) (encode : Encode) (draw : Draw) :
    match refusal password newPassword with
    | some reason => kadenaChangePassword crypto password data newPassword encode draw =
        .error (.thrown (newError reason))
    | none => ∃ newData, kadenaChangePassword crypto password data newPassword encode draw =
        .ok newData ∧ kadenaDecrypt crypto newPassword newData = .ok message := by
  rw [kadenaChangePassword]
  cases refusal password newPassword with
  | some reason => rfl
  | none =>
      rcases kadenaEncrypt_opens hcrypto newPassword (.bytes message) encode draw with
        ⟨newData, hnew, hopens⟩
      refine ⟨newData, ?_, hopens⟩
      dsimp only
      rw [hdata]
      dsimp only
      rw [hnew]
      rfl

theorem changePasswords_spec {message : Bytes} (changes : List PasswordChange) :
    ∀ {password data : BinaryLike}, kadenaDecrypt crypto password data = .ok message →
      (changePasswords crypto password data changes).1.1 =
          (passwordsTaken password (changes.map PasswordChange.newPassword)).1 ∧
        kadenaDecrypt crypto (changePasswords crypto password data changes).1.1
          (changePasswords crypto password data changes).1.2 = .ok message ∧
        (changePasswords crypto password data changes).2 =
          (passwordsTaken password (changes.map PasswordChange.newPassword)).2.map
            (Option.map fun reason => .thrown (newError reason)) := by
  induction changes with
  | nil => exact fun hdata => ⟨rfl, hdata, rfl⟩
  | cons change rest ih =>
      intro password data hdata
      have hchange := @kadenaChangePassword_spec _ hcrypto password data change.newPassword message
        hdata change.encode change.draw
      rw [List.map_cons, changePasswords, passwordsTaken]
      cases hrefusal : refusal password change.newPassword with
      | some reason =>
          rw [hrefusal] at hchange
          dsimp only at hchange
          rw [hchange]
          rcases ih hdata with ⟨hlast, hopens, herrors⟩
          exact ⟨hlast, hopens, congrArg (some _ :: ·) herrors⟩
      | none =>
          rw [hrefusal] at hchange
          rcases hchange with ⟨newData, hchange, hnew⟩
          rw [hchange]
          rcases ih hnew with ⟨hlast, hopens, herrors⟩
          exact ⟨hlast, hopens, congrArg (none :: ·) herrors⟩

/-- However often the password of an envelope is changed, and in whichever encodings, the envelope
opens under the last password that was taken, to the message; a change is refused only for what the
two passwords are, with the error for that. -/
theorem changed_passwords_open (password message : BinaryLike) (encode : Encode) (draw : Draw)
    (changes : List PasswordChange) :
    ∃ data, kadenaEncrypt crypto password message encode draw = .ok data ∧
      let owner := changePasswords crypto password data changes
      let taken := passwordsTaken password (changes.map PasswordChange.newPassword)
      owner.1.1 = taken.1 ∧ kadenaDecrypt crypto taken.1 owner.1.2 = .ok message.raw ∧
        owner.2 = taken.2.map (Option.map fun reason => .thrown (newError reason)) := by
  rcases kadenaEncrypt_opens hcrypto password message encode draw with ⟨data, hdata, hopens⟩
  rcases changePasswords_spec hcrypto changes hopens with ⟨hlast, hdecrypt, herrors⟩
  exact ⟨data, hdata, hlast, hlast ▸ hdecrypt, herrors⟩

end Changes

/-! ## Recorded encryptions -/

section Recorded

open Crypto (Recording Pbkdf2Params countingDraw)

/-- The recording is of this key with this IV. -/
def isUnder (iv : Bytes) (key : Pbkdf2Params × Bytes) (r : Recording) : Bool :=
  decide (iv = r.iv ∧ key = (r.params, r.password))

/-- A `crypto.subtle` that performs the recorded encryptions, and any other one by appending a tag
of zeros. -/
def replayCrypto (recordings : List Recording) : WebCrypto where
  KeyMaterial := Bytes
  CryptoKey := Pbkdf2Params × Bytes
  importKey raw := .ok raw
  deriveKey params password _ := .ok (params, password)
  encrypt iv key data :=
    match recordings.find? fun r => isUnder iv key r && data == r.data with
    | some r => .ok r.ciphertext
    | none => .ok (data ++ List.replicate 16 0)
  decrypt iv key ciphertext :=
    match recordings.find? fun r => isUnder iv key r && ciphertext == r.ciphertext with
    | some r => .ok r.data
    | none =>
        if ciphertext.drop (ciphertext.length - 16) = List.replicate 16 0 then
          .ok (ciphertext.take (ciphertext.length - 16))
        else .error ⟨js "OperationError"⟩

/-- No two recordings use the same IV. -/
theorem replayCrypto_inverts {recordings : List Recording}
    (hdistinct : (recordings.map Recording.iv).Nodup) : (replayCrypto recordings).Inverts where
  imports raw := ⟨raw, rfl⟩
  derives params keyMaterial _ _ _ := ⟨(params, keyMaterial), rfl⟩
  seals _ _ key iv data _ _ := by
    unfold replayCrypto
    dsimp only
    split
    · exact ⟨_, rfl⟩
    · exact ⟨_, rfl⟩
  opens params keyMaterial sealing opening iv data ciphertext hsealing hopening hencrypt := by
    cases hsealing
    cases hopening
    unfold replayCrypto at hencrypt ⊢
    dsimp only at hencrypt ⊢
    split at hencrypt
    case h_1 r hfound =>
      cases hencrypt
      have hr : isUnder iv (params, keyMaterial) r = true ∧ data = r.data := by
        simpa using List.find?_some hfound
      have hiv : iv = r.iv := (of_decide_eq_true hr.1).1
      rcases List.append_of_mem (List.mem_of_find?_eq_some hfound) with ⟨before, after, hsplit⟩
      have hagain : recordings.find? (fun r' => isUnder iv (params, keyMaterial) r' &&
          r.ciphertext == r'.ciphertext) = some r := by
        rw [List.find?_eq_some_iff_append]
        refine ⟨by simp [hr.1], before, after, hsplit, fun r' hr' => ?_⟩
        have hne : r'.iv ≠ r.iv := by
          rw [hsplit, List.map_append, List.map_cons, List.nodup_append] at hdistinct
          exact hdistinct.2.2 _ (List.mem_map_of_mem hr') _ List.mem_cons_self
        have hother : isUnder iv (params, keyMaterial) r' = false :=
          decide_eq_false fun h => hne (h.1.symm.trans hiv)
        simp [hother]
      rw [hagain, hr.2]
    case h_2 =>
      cases hencrypt
      have hnone : recordings.find? (fun r => isUnder iv (params, keyMaterial) r &&
          data ++ List.replicate 16 0 == r.ciphertext) = none := by
        rw [List.find?_eq_none]
        intro r _ h
        rw [Bool.and_eq_true, beq_iff_eq] at h
        exact r.ne_zeroTag data h.2
      have hlength : (data ++ List.replicate 16 (0 : UInt8)).length - 16 = data.length := by simp
      rw [hnone]
      dsimp only
      rw [hlength, List.drop_left, if_pos rfl, List.take_left]

def secondDraw : Draw where
  salt := [16, 17, 18, 19, 20, 21, 22, 23, 24, 25, 26, 27, 28, 29, 30, 31]
  iv := [16, 17, 18, 19, 20, 21, 22, 23, 24, 25, 26, 27]
  salt_length := rfl
  iv_length := rfl

/-- The message `seed`, under the password `pw` and then under `new`. -/
def seedRecordings : List Recording :=
  [{ params := { hash := .sha256, iterations := 310000, salt := countingDraw.salt }
     password := textEncode (js "pw")
     iv := countingDraw.iv
     data := textEncode (js "seed")
     ciphertext := [134, 85, 196, 36, 142, 0, 75, 3, 210, 76, 51, 54, 20, 100, 215, 198, 161, 187,
       89, 183]
     tag_ne := by decide },
   { params := { hash := .sha256, iterations := 310000, salt := secondDraw.salt }
     password := textEncode (js "new")
     iv := secondDraw.iv
     data := textEncode (js "seed")
     ciphertext := [253, 38, 100, 201, 60, 53, 93, 82, 126, 195, 121, 218, 230, 209, 82, 65, 86,
       169, 174, 240]
     tag_ne := by decide }]

end Recorded

/-- A change that is refused, and one that goes through. -/
def seedChanges : List PasswordChange :=
  [⟨.text (js "pw"), .base64, secondDraw⟩, ⟨.text (js "new"), .buffer, secondDraw⟩]

theorem changed_passwords_open_seed :
    ∃ data, kadenaEncrypt (replayCrypto seedRecordings) (.text (js "pw")) (.text (js "seed"))
        .base64 Crypto.countingDraw = .ok data ∧
      kadenaDecrypt (replayCrypto seedRecordings) (.text (js "new"))
        (changePasswords (replayCrypto seedRecordings) (.text (js "pw")) data seedChanges).1.2 =
          .ok (textEncode (js "seed")) := by
  have hcrypto : (replayCrypto seedRecordings).Inverts := replayCrypto_inverts (by decide)
  rcases changed_passwords_open hcrypto (.text (js "pw")) (.text (js "seed")) .base64
      Crypto.countingDraw seedChanges with ⟨data, hdata, -, hopens, -⟩
  have htaken : (passwordsTaken (.text (js "pw"))
      (seedChanges.map PasswordChange.newPassword)).1 = .text (js "new") := by decide
  rw [htaken] at hopens
  exact ⟨data, hdata, hopens⟩

end HdWallet
end StoaCore
