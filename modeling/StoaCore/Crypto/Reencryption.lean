import StoaCore.Crypto.RoundTrip

/-!
# Reencryption — a codex over any number of upgrades

An upgrade decrypts every blob of a codex and encrypts it again, in the format that the schema
version asks for at that time.  A plaintext survives it exactly if it does not begin with a byte
order mark.
-/

namespace StoaCore
namespace Crypto

open Library
open Library.Js
open Library.Traced (Returns)

/-! ## Re-encrypting a codex -/

/-- How one blob is written: the schema version at that time and what is drawn. -/
structure Write where
  schemaVersion : Option JsString
  draw : Draw

section Rounds

variable (crypto : WebCrypto) (password : JsString)

/-- Decrypts every blob and encrypts it again; `round` says how the blob at each place is
written. -/
def reencryptAll : (Nat → Write) → List JsString → CryptoM (List JsString)
  | _, [] => pure []
  | round, blob :: blobs => do
      let plaintext ← V2.smartDecrypt crypto blob password
      let written ← V2.smartEncrypt crypto plaintext password (round 0).schemaVersion (round 0).draw
      let rest ← reencryptAll (fun place => round (place + 1)) blobs
      pure (written :: rest)

def reencryptRounds : List (Nat → Write) → List JsString → CryptoM (List JsString)
  | [], blobs => pure blobs
  | round :: rounds, blobs => do
      let written ← reencryptAll crypto password round blobs
      reencryptRounds rounds written

def decryptAll (blobs : List JsString) : CryptoM (List JsString) :=
  blobs.mapM fun blob => V2.smartDecrypt crypto blob password

/-- After the rounds every blob still decrypts to its plaintext. -/
def KeepsPlaintexts (rounds : List (Nat → Write)) (blobs plaintexts : List JsString) : Prop :=
  Returns (reencryptRounds crypto password rounds blobs) fun written =>
    Returns (decryptAll crypto password written) (· = plaintexts)

end Rounds

section Inverts

variable {crypto : WebCrypto} {password : JsString} {blobs plaintexts : List JsString}

theorem returns_decryptAll (h : List.Forall₂ (Holds crypto password) blobs plaintexts) :
    Returns (decryptAll crypto password blobs) (· = plaintexts) := by
  induction h with
  | nil => exact Returns.pure rfl
  | cons hblob hblobs ih =>
      unfold decryptAll
      rw [List.mapM_cons]
      apply ((smartDecrypt_decodes crypto password).returns hblob).bind
      rintro _ rfl
      apply ih.bind
      rintro _ rfl
      exact Returns.pure rfl

theorem Decodes.fails {crypto : WebCrypto} {blob password : JsString} {x : CryptoM JsString}
    {c : ErrorClass} (h : Decodes crypto blob password x)
    (hblob : decoded crypto blob password = .error c) : Traced.Fails x := by
  intro t
  have houtcome := h.outcome_eq t
  rw [hblob] at houtcome
  unfold outcome at houtcome
  cases hrun : (Traced.run x t).1 with
  | error e => exact ⟨e, rfl⟩
  | ok text =>
      rw [hrun] at houtcome
      cases houtcome

/-- Either every blob denotes a plaintext, or decrypting the codex fails. -/
theorem holds_or_fails (crypto : WebCrypto) (password : JsString) (blobs : List JsString) :
    (∃ plaintexts, List.Forall₂ (Holds crypto password) blobs plaintexts) ∨
      Traced.Fails (decryptAll crypto password blobs) := by
  induction blobs with
  | nil => exact Or.inl ⟨[], List.Forall₂.nil⟩
  | cons blob blobs ih =>
      have hdecodes : Decodes crypto blob password (V2.smartDecrypt crypto blob password) :=
        smartDecrypt_decodes crypto password
      unfold decryptAll
      rw [List.mapM_cons]
      -- The first blob that denotes no plaintext makes the whole loop fail.
      cases hdecoded : decoded crypto blob password with
      | error c => exact Or.inr (hdecodes.fails hdecoded).bind_left
      | ok plaintext =>
          rcases ih with ⟨plaintexts, hblobs⟩ | hfails
          · exact Or.inl ⟨plaintext :: plaintexts, List.Forall₂.cons hdecoded hblobs⟩
          · exact Or.inr (Traced.Fails.bind_right fun _ => hfails.bind_left)

theorem forall₂_holds (h : Returns (decryptAll crypto password blobs) (· = plaintexts)) :
    List.Forall₂ (Holds crypto password) blobs plaintexts := by
  rcases holds_or_fails crypto password blobs with ⟨texts, hblobs⟩ | hfails
  · rcases h initialTrace with ⟨plaintexts, hrun, rfl⟩
    rcases returns_decryptAll hblobs initialTrace with ⟨texts, hrun', rfl⟩
    have heq : plaintexts = texts := by simpa [hrun] using hrun'
    rw [heq]
    exact hblobs
  · exact absurd h (hfails.not_returns initialTrace)

variable (hcrypto : crypto.Inverts)

include hcrypto

/-- One round takes one byte order mark from every plaintext that begins with one. -/
theorem returns_reencryptAll (h : List.Forall₂ (Holds crypto password) blobs plaintexts)
    (hwell : ∀ plaintext ∈ plaintexts, isWellFormed plaintext = true) (round : Nat → Write) :
    Returns (reencryptAll crypto password round blobs) fun written =>
      List.Forall₂ (Holds crypto password) written (plaintexts.map stripBom) := by
  -- The rounds are indexed by place, so the tail of the codex takes the shifted round.
  induction h generalizing round with
  | nil => exact Returns.pure List.Forall₂.nil
  | cons hblob hblobs ih =>
      unfold reencryptAll
      apply ((smartDecrypt_decodes crypto password).returns hblob).bind
      rintro _ rfl
      apply (returns_smartEncrypt_holds hcrypto (hwell _ List.mem_cons_self) password _ _).bind
      rintro written ⟨-, hwritten⟩
      have hrest := ih (fun p hp => hwell p (List.mem_cons_of_mem _ hp))
        fun place => round (place + 1)
      apply hrest.bind
      intro rest hrest
      exact Returns.pure (List.Forall₂.cons hwritten hrest)

/-- A number of rounds takes as many byte order marks. -/
theorem returns_reencryptRounds (rounds : List (Nat → Write))
    (h : List.Forall₂ (Holds crypto password) blobs plaintexts)
    (hwell : ∀ plaintext ∈ plaintexts, isWellFormed plaintext = true) :
    Returns (reencryptRounds crypto password rounds blobs) fun written =>
      List.Forall₂ (Holds crypto password) written (plaintexts.map stripBom^[rounds.length]) := by
  induction rounds generalizing blobs plaintexts with
  | nil =>
      rw [List.length_nil, Function.iterate_zero, List.map_id]
      exact Returns.pure h
  | cons round rounds ih =>
      unfold reencryptRounds
      -- The round leaves plaintexts that are well-formed again, which the next one needs.
      apply (returns_reencryptAll hcrypto h hwell round).bind
      intro written hwritten
      have hstripped : ∀ p ∈ plaintexts.map stripBom, isWellFormed p = true := by
        intro p hp
        rcases List.mem_map.1 hp with ⟨plaintext, hplaintext, rfl⟩
        exact isWellFormed_stripBom (hwell plaintext hplaintext)
      have hrounds := ih hwritten hstripped
      rw [List.map_map, ← Function.iterate_succ] at hrounds
      exact hrounds

theorem keepsPlaintexts_iff (rounds : List (Nat → Write))
    (h : Returns (decryptAll crypto password blobs) (· = plaintexts))
    (hwell : ∀ plaintext ∈ plaintexts, isWellFormed plaintext = true) :
    KeepsPlaintexts crypto password rounds blobs plaintexts ↔
      rounds = [] ∨ ∀ plaintext ∈ plaintexts, ¬ BeginsWithBom plaintext := by
  have hrounds := returns_reencryptRounds hcrypto rounds (forall₂_holds h) hwell
  apply Returns.iff_of initialTrace hrounds
  intro written hwritten
  have hdecrypt := returns_decryptAll hwritten
  have hiff : Returns (decryptAll crypto password written) (· = plaintexts) ↔
      plaintexts.map stripBom^[rounds.length] = plaintexts := by
    apply Returns.iff_of initialTrace hdecrypt
    rintro _ rfl
    exact Iff.rfl
  rw [hiff]
  -- A list is kept by a map exactly if every element is.
  have hmap := List.map_inj_left (l := plaintexts) (f := stripBom^[rounds.length]) (g := id)
  rw [List.map_id] at hmap
  calc plaintexts.map stripBom^[rounds.length] = plaintexts
      ↔ ∀ p ∈ plaintexts, stripBom^[rounds.length] p = p := hmap
    _ ↔ ∀ p ∈ plaintexts, rounds = [] ∨ ¬ BeginsWithBom p := by
        simp only [stripBom_iterate_eq_iff, List.length_eq_zero_iff]
    _ ↔ rounds = [] ∨ ∀ p ∈ plaintexts, ¬ BeginsWithBom p := by
        simp only [forall_or_left]

end Inverts

/-! ## A recorded encryption -/

/-- One encryption as AES-GCM performs it; the tag at the end of the ciphertext is not zero. -/
structure Recording where
  params : Pbkdf2Params
  password : Bytes
  iv : Bytes
  data : Bytes
  ciphertext : Bytes
  tag_ne : ciphertext.getLast? ≠ some 0

/-- A `crypto.subtle` that performs the recorded encryption, and any other one by appending a tag
of zeros. -/
def recordedCrypto (recording : Recording) : WebCrypto where
  KeyMaterial := Bytes
  CryptoKey := Pbkdf2Params × Bytes
  importKey raw := .ok raw
  deriveKey params password _ := .ok (params, password)
  encrypt iv key data :=
    if iv = recording.iv ∧ key = (recording.params, recording.password) ∧ data = recording.data then
      .ok recording.ciphertext
    else .ok (data ++ List.replicate 16 0)
  decrypt iv key ciphertext :=
    if iv = recording.iv ∧ key = (recording.params, recording.password) ∧
        ciphertext = recording.ciphertext then .ok recording.data
    else if ciphertext.drop (ciphertext.length - 16) = List.replicate 16 0 then
      .ok (ciphertext.take (ciphertext.length - 16))
    else .error ⟨js "OperationError"⟩

theorem Recording.ne_zeroTag (recording : Recording) (data : Bytes) :
    data ++ List.replicate 16 0 ≠ recording.ciphertext := by
  intro h
  apply recording.tag_ne
  rw [← h, List.getLast?_append]
  rfl

theorem recordedCrypto_inverts (recording : Recording) : (recordedCrypto recording).Inverts where
  imports raw := ⟨raw, rfl⟩
  derives params keyMaterial _ _ _ := ⟨(params, keyMaterial), rfl⟩
  seals _ _ key iv data _ _ := by
    unfold recordedCrypto
    dsimp only
    split
    · exact ⟨_, rfl⟩
    · exact ⟨_, rfl⟩
  opens params keyMaterial sealing opening iv data ciphertext hsealing hopening hencrypt := by
    cases hsealing
    cases hopening
    unfold recordedCrypto at hencrypt ⊢
    dsimp only at hencrypt ⊢
    split at hencrypt
    case isTrue hrecorded =>
      cases hencrypt
      rw [if_pos ⟨hrecorded.1, hrecorded.2.1, rfl⟩, hrecorded.2.2]
    case isFalse =>
      cases hencrypt
      have hlength : (data ++ List.replicate 16 (0 : UInt8)).length - 16 = data.length := by simp
      rw [if_neg fun h => recording.ne_zeroTag data h.2.2, hlength, List.drop_left, if_pos rfl,
        List.take_left]

def countingDraw : Draw where
  salt := [0, 1, 2, 3, 4, 5, 6, 7, 8, 9, 10, 11, 12, 13, 14, 15]
  iv := [0, 1, 2, 3, 4, 5, 6, 7, 8, 9, 10, 11]
  salt_length := rfl
  iv_length := rfl

/-- The plaintext `seed` under the password `pw`. -/
def seedRecording : Recording where
  params := V2.pbkdf2Params countingDraw.salt
  password := textEncode (js "pw")
  iv := countingDraw.iv
  data := textEncode (js "seed")
  ciphertext := [157, 112, 125, 31, 42, 163, 35, 171, 109, 51, 180, 64, 184, 128, 157, 24, 84, 89,
    123, 63]
  tag_ne := by decide

/-- The blob that holds it. -/
def seedBlob : JsString :=
  js ("eyJ2IjoyLCJjaXBoZXJ0ZXh0IjoiblhCOUh5cWpJNnR0TTdSQXVJQ2RHRlJaZXo4PSIsIml2IjoiQUFFQ0F3UUZC" ++
    "Z2NJQ1FvTCIsInNhbHQiOiJBQUVDQXdRRkJnY0lDUW9MREEwT0R3PT0ifQ==")

def markedSeed : JsString :=
  byteOrderMark :: js "seed"

/-- The same with a byte order mark before the plaintext. -/
def markedSeedRecording : Recording where
  params := V2.pbkdf2Params countingDraw.salt
  password := textEncode (js "pw")
  iv := countingDraw.iv
  data := textEncode markedSeed
  ciphertext := [1, 174, 167, 8, 239, 9, 205, 214, 189, 67, 223, 229, 174, 141, 25, 36, 40, 126,
    162, 203, 187, 247, 5]
  tag_ne := by decide

/-! ## The round trip -/

/-- A plaintext with a byte order mark comes back without it. -/
theorem roundTrip_drops_bom :
    (recordedCrypto markedSeedRecording).Inverts ∧ isWellFormed markedSeed = true ∧
      ¬ RoundTrips (recordedCrypto markedSeedRecording) markedSeed (js "pw") (some (js "1"))
        countingDraw ∧
      Returns (V2.smartEncrypt (recordedCrypto markedSeedRecording) markedSeed (js "pw")
        (some (js "1")) countingDraw) fun blob =>
          Returns (V2.smartDecrypt (recordedCrypto markedSeedRecording) blob (js "pw"))
            (· = js "seed") := by
  have hcrypto := recordedCrypto_inverts markedSeedRecording
  have hwell : isWellFormed markedSeed = true := by decide
  refine ⟨hcrypto, hwell, ?_, ?_⟩
  · rw [roundTrips_iff hcrypto hwell]
    exact not_not_intro rfl
  · apply (returns_smartEncrypt_holds hcrypto hwell (js "pw") (some (js "1")) countingDraw).mono
    rintro blob ⟨-, hblob⟩
    have hstripped : stripBom markedSeed = js "seed" := rfl
    rw [hstripped] at hblob
    exact (smartDecrypt_decodes _ _).returns hblob

/-- A plaintext survives encryption, and any number of re-encryptions, exactly if it does not begin
with a byte order mark. -/
theorem codex_roundTrip_iff (crypto : WebCrypto) (hcrypto : crypto.Inverts) (password : JsString) :
    (∀ plaintext schemaVersion draw, isWellFormed plaintext = true →
      (RoundTrips crypto plaintext password schemaVersion draw ↔ ¬ BeginsWithBom plaintext)) ∧
    ∀ rounds blobs plaintexts, Returns (decryptAll crypto password blobs) (· = plaintexts) →
      (∀ plaintext ∈ plaintexts, isWellFormed plaintext = true) →
      (KeepsPlaintexts crypto password rounds blobs plaintexts ↔
        rounds = [] ∨ ∀ plaintext ∈ plaintexts, ¬ BeginsWithBom plaintext) := by
  constructor
  · intro plaintext schemaVersion draw hwell
    exact roundTrips_iff hcrypto hwell password schemaVersion draw
  · intro rounds blobs plaintexts hblobs hwell
    exact keepsPlaintexts_iff hcrypto rounds hblobs hwell

theorem codex_roundTrip_iff_seed :
    RoundTrips (recordedCrypto seedRecording) (js "seed") (js "pw") (some (js "1")) countingDraw ∧
      KeepsPlaintexts (recordedCrypto seedRecording) (js "pw")
        [fun _ => ⟨none, countingDraw⟩, fun _ => ⟨some (js "1"), countingDraw⟩] [seedBlob]
        [js "seed"] := by
  have hcrypto := recordedCrypto_inverts seedRecording
  have hblob : Holds (recordedCrypto seedRecording) (js "pw") seedBlob (js "seed") := by
    unfold Holds
    decide +kernel
  have hdecrypt := returns_decryptAll (List.Forall₂.cons hblob List.Forall₂.nil)
  have hround := codex_roundTrip_iff _ hcrypto (js "pw")
  refine ⟨(hround.1 (js "seed") (some (js "1")) countingDraw (by decide)).2 (by decide),
    (hround.2 _ _ _ hdecrypt ?_).2 (Or.inr ?_)⟩
  · intro plaintext hplaintext
    rw [List.mem_singleton.1 hplaintext]
    decide
  · intro plaintext hplaintext
    rw [List.mem_singleton.1 hplaintext]
    decide

end Crypto
end StoaCore
