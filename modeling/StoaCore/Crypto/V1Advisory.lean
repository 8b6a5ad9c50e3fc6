import StoaCore.Crypto.Interleaved
import StoaCore.Crypto.Reencryption

/-!
# V1Advisory — the one-shot warning over whole runs of a process

Any number of decryptor calls run interleaved in one process and share the flag of the module.  The
V1 fallback of `decryptStringV2` warns once it has opened the blob; `smartDecrypt` warns before it
tries to.
-/

namespace StoaCore
namespace Crypto
namespace Interleaved

open Library
open Library.Js
open Library.Tasks
open Library.Transition

/-! ## Calls -/

inductive Entry
  | decryptStringV2
  | decryptStringV2WithDetails
  | smartDecrypt
  | smartDecryptWithDetails
  deriving DecidableEq

structure Call where
  entry : Entry
  encrypted : JsString
  password : JsString
  deriving DecidableEq

inductive Answer
  | plaintext (text : JsString)
  | details (result : V2.DecryptResultWithDetails)

/-- The entry points that route a legacy blob to `V1`. -/
def Call.isSmart (c : Call) : Bool :=
  c.entry = .smartDecrypt || c.entry = .smartDecryptWithDetails

def Call.isLegacy (c : Call) : Bool :=
  !V2.isEncryptedV2 c.encrypted

def Call.code (crypto : WebCrypto) (c : Call) : CryptoTask Answer :=
  match c.entry with
  | .decryptStringV2 => do
      let text ← decryptStringV2 crypto c.encrypted c.password
      pure (.plaintext text)
  | .decryptStringV2WithDetails => do
      let result ← decryptStringV2WithDetails crypto c.encrypted c.password
      pure (.details result)
  | .smartDecrypt => do
      let text ← smartDecrypt crypto c.encrypted c.password
      pure (.plaintext text)
  | .smartDecryptWithDetails => do
      let result ← smartDecryptWithDetails crypto c.encrypted c.password
      pure (.details result)

/-- The call as `V2` makes it. -/
def Call.alone (crypto : WebCrypto) (c : Call) : CryptoM Answer :=
  match c.entry with
  | .decryptStringV2 => do
      let text ← V2.decryptStringV2 crypto c.encrypted c.password
      pure (.plaintext text)
  | .decryptStringV2WithDetails => do
      let result ← V2.decryptStringV2WithDetails crypto c.encrypted c.password
      pure (.details result)
  | .smartDecrypt => do
      let text ← V2.smartDecrypt crypto c.encrypted c.password
      pure (.plaintext text)
  | .smartDecryptWithDetails => do
      let result ← V2.smartDecryptWithDetails crypto c.encrypted c.password
      pure (.details result)

/-- A call that nothing runs beside is the call of `V2`. -/
theorem toProg_code (crypto : WebCrypto) (c : Call) : (c.code crypto).toProg = c.alone crypto := by
  rcases c with ⟨entry, encrypted, password⟩
  cases entry with
  | decryptStringV2 =>
      dsimp only [Call.code, Call.alone]
      rw [Task.toProg_bind, toProg_decryptStringV2]
      rfl
  | decryptStringV2WithDetails =>
      dsimp only [Call.code, Call.alone]
      rw [Task.toProg_bind, toProg_decryptStringV2WithDetails]
      rfl
  | smartDecrypt =>
      dsimp only [Call.code, Call.alone]
      rw [Task.toProg_bind, toProg_smartDecrypt]
      rfl
  | smartDecryptWithDetails =>
      dsimp only [Call.code, Call.alone]
      rw [Task.toProg_bind, toProg_smartDecryptWithDetails]
      rfl

abbrev CryptoPool := Pool Call CryptoError ModuleState CryptoEvent Answer

def process (crypto : WebCrypto) : System CryptoPool (Action Call) Unit :=
  pool (Call.code crypto) {}

/-- The blob of the call opens under its password. -/
def Call.Opens (crypto : WebCrypto) (c : Call) : Prop :=
  ∃ text, decoded crypto c.encrypted c.password = .ok text

/-! ## What the decryptors do with the flag -/

section Behaviour

variable (crypto : WebCrypto)

theorem silent_await {α : Type} (promise : Except PlatformError α) :
    v1Advisory.Silent (fun _ => True) (await promise) :=
  trivial

theorem silent_emit {e : CryptoEvent} (h : ∀ message, e ≠ .warned message) :
    v1Advisory.Silent (fun _ => True) (emit e) :=
  ⟨h _, trivial⟩

theorem silent_deriveKey (params : Pbkdf2Params) (password : JsString) (usage : KeyUsage) :
    v1Advisory.Silent (fun _ => True) (deriveKey crypto params password usage) := by
  apply OneShot.silent_bind (silent_await _)
  · intro keyMaterial _
    have hderived : v1Advisory.Silent (fun _ => True) (emit (.derived params)) :=
      silent_emit fun _ h => (nomatch h)
    apply OneShot.silent_bind hderived
    · intro _ _
      exact silent_await _
    · exact fun _ _ => trivial
  · exact fun _ _ => trivial

theorem silent_fail {α : Type} (e : CryptoError) :
    v1Advisory.Silent (fun _ => True) (fail e : CryptoTask α) :=
  trivial

theorem announces_fail {α : Type} {Q : Except CryptoError α → Prop} (e : CryptoError) :
    v1Advisory.Announces Q (fail e : CryptoTask α) :=
  ⟨e, rfl⟩

theorem silent_openText (params : Pbkdf2Params) (iv ciphertext : Bytes)
    (password unexpected : JsString) :
    v1Advisory.Silent (fun _ => True)
      (openText crypto params iv ciphertext password (pure ()) unexpected) := by
  apply OneShot.silent_bind (silent_deriveKey crypto params password .decrypt)
  · intro key _
    rw [OneShot.Silent]
    cases crypto.decrypt iv key ciphertext with
    | ok decrypted => exact ⟨fun h => (nomatch h), trivial⟩
    | error e =>
        dsimp only
        split
        · exact silent_fail _
        · exact silent_fail _
  · exact fun _ _ => trivial

/-- With the warning behind the opening, whoever warns has opened the blob. -/
theorem announces_openText (params : Pbkdf2Params) (iv ciphertext : Bytes)
    (password unexpected : JsString) :
    v1Advisory.Announces (fun outcome => ∃ text, outcome = .ok text)
      (openText crypto params iv ciphertext password emitV1WarningOnce unexpected) := by
  apply OneShot.announces_bind_of_silent (silent_deriveKey crypto params password .decrypt)
  intro key _
  rw [OneShot.Announces]
  cases crypto.decrypt iv key ciphertext with
  | ok decrypted =>
      dsimp only
      have hopened : v1Advisory.Silent (fun _ => True) (emit (.opened params iv)) :=
        silent_emit fun _ h => (nomatch h)
      apply OneShot.announces_bind_of_silent hopened
      intro _ _
      apply OneShot.announces_bind OneShot.announces_announce
      · exact fun _ _ => ⟨_, rfl⟩
      · exact fun _ h => (nomatch h)
  | error e =>
      dsimp only
      split
      · exact announces_fail _
      · exact announces_fail _

theorem silent_decryptString (blob password : JsString) :
    v1Advisory.Silent (fun _ => True) (decryptString crypto blob password) := by
  unfold decryptString
  cases parseEnvelope blob with
  | none => exact silent_fail _
  | some parsed =>
      dsimp only
      split
      case isFalse => exact silent_fail _
      case isTrue =>
        cases V1.readFields parsed with
        | none => exact silent_fail _
        | some fields => exact silent_openText crypto _ _ _ _ _

theorem silent_decryptStringV2 {blob : JsString} (h : V2.isEncryptedV2 blob = true)
    (password : JsString) :
    v1Advisory.Silent (fun _ => True) (decryptStringV2 crypto blob password) := by
  unfold decryptStringV2
  cases hparse : parseEnvelope blob with
  | none => exact silent_fail _
  | some envelope =>
      rw [isEncryptedV2_of_parse hparse] at h
      dsimp only
      split
      case isFalse => exact silent_fail _
      case isTrue =>
        cases V1.readFields envelope with
        | none => exact silent_fail _
        | some fields => exact silent_openText crypto _ _ _ _ _

theorem announces_decryptStringV2 {blob : JsString} (h : V2.isEncryptedV2 blob = false)
    (password : JsString) :
    v1Advisory.Announces (fun outcome => ∃ text, outcome = .ok text)
      (decryptStringV2 crypto blob password) := by
  unfold decryptStringV2
  cases hparse : parseEnvelope blob with
  | none => exact announces_fail _
  | some envelope =>
      rw [isEncryptedV2_of_parse hparse] at h
      dsimp only
      split
      case isFalse => exact announces_fail _
      case isTrue =>
        rw [h, if_neg Bool.false_ne_true]
        cases V2.readFieldsV1 envelope with
        | none => exact announces_fail _
        | some fields => exact announces_openText crypto _ _ _ _ _

/-- The legacy decoder succeeds exactly if the blob opens. -/
theorem outcome_decryptString {blob : JsString} (h : V2.isEncryptedV2 blob = false)
    (password : JsString) :
    v1Advisory.Silent (fun outcome => (∃ text, outcome = .ok text) ↔
      ∃ text, decoded crypto blob password = .ok text) (decryptString crypto blob password) := by
  apply (OneShot.silent_outcome (silent_decryptString crypto blob password) initialTrace).imp
  rintro outcome rfl
  have hdecoded := (decryptString_decodes crypto password h).outcome_eq initialTrace
  rw [toProg_decryptString, ← hdecoded, Crypto.outcome]
  cases (Traced.run (V1.decryptString crypto blob password) initialTrace).1 with
  | ok text => exact ⟨fun _ => ⟨text, rfl⟩, fun _ => ⟨text, rfl⟩⟩
  | error e =>
      constructor
      · rintro ⟨text, h⟩
        cases h
      · rintro ⟨text, h⟩
        cases h

/-- `smartDecrypt` warns about a legacy blob, and then tries to open it. -/
theorem announces_smartDecrypt {blob : JsString} (h : V2.isEncryptedV2 blob = false)
    (password : JsString) :
    v1Advisory.Announces (fun outcome => (∃ text, outcome = .ok text) ↔
      ∃ text, decoded crypto blob password = .ok text) (smartDecrypt crypto blob password) := by
  unfold smartDecrypt
  rw [h, if_neg Bool.false_ne_true]
  apply OneShot.announces_bind OneShot.announces_announce
  · exact fun _ _ => outcome_decryptString crypto h password
  · exact fun _ h => (nomatch h)

end Behaviour

/-! ## What the calls do with the flag -/

section Calls

variable (crypto : WebCrypto)

/-- The outcomes of a legacy call that has announced: `decryptStringV2` has opened the blob by then,
`smartDecrypt` has not tried to. -/
def Call.Outcome (c : Call) (outcome : Except CryptoError Answer) : Prop :=
  (∃ answer, outcome = .ok answer) ↔ (c.isSmart = true → c.Opens crypto)

theorem Call.isEncryptedV2_of_legacy {c : Call} (h : ¬ c.isLegacy = false) :
    V2.isEncryptedV2 c.encrypted = false := by
  unfold isLegacy at h
  simpa using h

theorem silent_withDetails {blob : JsString} {decrypt : CryptoTask JsString}
    (h : v1Advisory.Silent (fun _ => True) decrypt) :
    v1Advisory.Silent (fun _ => True) (withDetails blob decrypt) := by
  apply OneShot.silent_bind h
  · exact fun _ _ => trivial
  · exact fun _ _ => trivial

theorem announces_withDetails {P : Prop} {blob : JsString} {decrypt : CryptoTask JsString}
    (h : v1Advisory.Announces (fun outcome => (∃ text, outcome = .ok text) ↔ P) decrypt) :
    v1Advisory.Announces (fun outcome => (∃ result, outcome = .ok result) ↔ P)
      (withDetails blob decrypt) := by
  apply OneShot.announces_bind h
  · intro text hok
    exact ⟨fun _ => hok.1 ⟨text, rfl⟩, fun _ => ⟨_, rfl⟩⟩
  · intro e herror
    constructor
    · rintro ⟨result, h⟩
      cases h
    · intro hP
      rcases herror.2 hP with ⟨text, h⟩
      cases h

/-- The answer of a call is that of its decryptor. -/
theorem announces_answer {α : Type} {c : Call} {task : CryptoTask α} (answer : α → Answer)
    (h : v1Advisory.Announces (fun outcome => (∃ a, outcome = .ok a) ↔
      (c.isSmart = true → c.Opens crypto)) task) :
    v1Advisory.Announces (c.Outcome crypto) (task >>= fun a => pure (answer a)) := by
  apply OneShot.announces_bind h
  · intro a hok
    exact ⟨fun _ => hok.1 ⟨a, rfl⟩, fun _ => ⟨_, rfl⟩⟩
  · intro e herror
    constructor
    · rintro ⟨result, h⟩
      cases h
    · intro hopens
      rcases herror.2 hopens with ⟨a, h⟩
      cases h

/-- The decryptor behind the entry point. -/
def Call.decrypt (c : Call) : CryptoTask JsString :=
  if c.isSmart then smartDecrypt crypto c.encrypted c.password
  else decryptStringV2 crypto c.encrypted c.password

theorem silent_code {c : Call} (h : v1Advisory.Silent (fun _ => True) (c.decrypt crypto)) :
    v1Advisory.Silent (fun _ => True) (c.code crypto) := by
  rcases c with ⟨entry, encrypted, password⟩
  cases entry with
  | decryptStringV2 => exact OneShot.silent_bind h (fun _ _ => trivial) fun _ _ => trivial
  | decryptStringV2WithDetails =>
      exact OneShot.silent_bind (silent_withDetails h) (fun _ _ => trivial) fun _ _ => trivial
  | smartDecrypt => exact OneShot.silent_bind h (fun _ _ => trivial) fun _ _ => trivial
  | smartDecryptWithDetails =>
      exact OneShot.silent_bind (silent_withDetails h) (fun _ _ => trivial) fun _ _ => trivial

theorem announces_code {c : Call} (h : v1Advisory.Announces (fun outcome =>
    (∃ text, outcome = .ok text) ↔ (c.isSmart = true → c.Opens crypto)) (c.decrypt crypto)) :
    v1Advisory.Announces (c.Outcome crypto) (c.code crypto) := by
  rcases c with ⟨entry, encrypted, password⟩
  cases entry with
  | decryptStringV2 => exact announces_answer crypto .plaintext h
  | decryptStringV2WithDetails =>
      exact announces_answer crypto .details (announces_withDetails h)
  | smartDecrypt => exact announces_answer crypto .plaintext h
  | smartDecryptWithDetails => exact announces_answer crypto .details (announces_withDetails h)

/-- Silent on V2 blobs; otherwise `decryptStringV2` announces late and `smartDecrypt` at once. -/
theorem advises_code : v1Advisory.Advises (Call.code crypto) (fun c => c.isLegacy = false)
    (fun c => c.isSmart = true) (Call.Outcome crypto) where
  of_silent := by
    intro c h
    have hmarked : V2.isEncryptedV2 c.encrypted = true := by
      unfold Call.isLegacy at h
      simpa using h
    have hsmart : smartDecrypt crypto c.encrypted c.password =
        decryptStringV2 crypto c.encrypted c.password := if_pos hmarked
    apply silent_code
    unfold Call.decrypt
    rw [hsmart, ite_self]
    exact silent_decryptStringV2 crypto hmarked c.password
  of_late := by
    intro c h
    have hlegacy := Call.isEncryptedV2_of_legacy h
    apply announces_code
    unfold Call.decrypt
    split
    case isTrue heager =>
      apply (announces_smartDecrypt crypto hlegacy c.password).imp
      intro outcome hiff
      have hopens : (c.isSmart = true → c.Opens crypto) ↔ c.Opens crypto :=
        ⟨fun h => h heager, fun h _ => h⟩
      exact hiff.trans hopens.symm
    case isFalse hlate =>
      apply (announces_decryptStringV2 crypto hlegacy c.password).imp
      intro outcome hok
      exact iff_of_true hok fun heager => absurd heager hlate
  of_eager := by
    intro c hsmart h
    have hlegacy := Call.isEncryptedV2_of_legacy h
    have hact : ∃ f next, smartDecrypt crypto c.encrypted c.password = .act f next := by
      unfold smartDecrypt
      rw [hlegacy, if_neg Bool.false_ne_true]
      exact ⟨_, _, rfl⟩
    rcases c with ⟨entry, encrypted, password⟩
    cases entry with
    | decryptStringV2 => cases hsmart
    | decryptStringV2WithDetails => cases hsmart
    | smartDecrypt => exact Task.exists_act_bind hact _
    | smartDecryptWithDetails => exact Task.exists_act_bind (Task.exists_act_bind hact _) _

end Calls

/-! ## The advisory -/

/-- The calls that have warned. -/
def warners (p : CryptoPool) : List Nat :=
  v1Advisory.noters p.log

/-- Some call has decrypted a blob that is not V2. -/
def DecryptedLegacy (p : CryptoPool) : Prop :=
  ∃ c answer, (c, .settled (.ok answer)) ∈ p.calls ∧ c.isLegacy = true

/-- What the advisory promises: at most one warning, none by a call that rejects, and one exactly if
a legacy blob has been decrypted, once the calls have come to their ends. -/
structure Advisory (p : CryptoPool) : Prop where
  once : (warners p).length ≤ 1
  rejected : ∀ i c e, p.calls[i]? = some (c, .settled (.error e)) → i ∉ warners p
  decrypted : p.Settled → (warners p ≠ [] ↔ DecryptedLegacy p)

/-- A call that routes a legacy blob to `V1` before the warning has been given opens it. -/
def StartsOpening (crypto : WebCrypto) (r : Record CryptoPool (Action Call) Unit) : Prop :=
  ∀ c, r.event = .start c → c.isSmart = true → c.isLegacy = true →
    r.pre.world.v1WarningEmitted = false → c.Opens crypto

section Process

variable {crypto : WebCrypto} {p : CryptoPool}
  {trace : List (Record CryptoPool (Action Call) Unit)}

theorem startsOpening_iff (r : Record CryptoPool (Action Call) Unit) :
    StartsOpening crypto r ↔ v1Advisory.StartsGood (fun c : Call => c.isLegacy = false)
      (fun c => c.isSmart = true) (Call.Opens crypto) r := by
  unfold StartsOpening OneShot.StartsGood
  apply forall_congr'
  intro c
  rw [Bool.not_eq_false]
  rfl

abbrev Standing (crypto : WebCrypto) (p : CryptoPool) : Prop :=
  v1Advisory.Held (fun c => c.isLegacy = false) (fun c => c.isSmart = true)
    (Call.Outcome crypto) p

abbrev WarnerOpens (crypto : WebCrypto) (p : CryptoPool) : Prop :=
  v1Advisory.NoterGood (fun c => c.isLegacy = false) (fun c => c.isSmart = true)
    (Call.Opens crypto) p

variable (hheld : Standing crypto p)

include hheld

/-- The warning and the flag go together. -/
theorem warned_iff_flag : warners p ≠ [] ↔ p.world.v1WarningEmitted = true := by
  constructor
  · intro hwarned
    by_contra hunset
    exact hwarned (hheld.unset (Bool.eq_false_of_not_eq_true hunset))
  · intro hset
    rcases hheld.set hset with ⟨i, -, hone⟩
    unfold warners
    rw [hone]
    exact List.cons_ne_nil i []

theorem warners_length : (warners p).length ≤ 1 := by
  unfold warners
  cases hset : p.world.v1WarningEmitted with
  | false =>
      rw [hheld.unset hset]
      exact Nat.zero_le 1
  | true =>
      rcases hheld.set hset with ⟨i, -, hone⟩
      rw [hone]
      exact Nat.le_refl 1

/-- Whoever decrypts a legacy blob finds the warning given. -/
theorem warned_of_decrypted (h : DecryptedLegacy p) : warners p ≠ [] := by
  rcases h with ⟨c, answer, hmem, hlegacy⟩
  rcases List.getElem?_of_mem hmem with ⟨i, hi⟩
  rw [warned_iff_flag hheld]
  cases hheld.standing i c _ hi with
  | silent hsilent _ _ => exact absurd (hlegacy.symm.trans hsilent) (by decide)
  | waiting _ _ htask _ =>
      -- A call that has not announced can only have failed.
      rcases htask with ⟨e, he⟩
      cases he
  | announced _ _ hset => exact hset

/-- The standing of a call that has warned. -/
theorem standing_of_warner {i : Nat} {c : Call} {task : CryptoTask Answer}
    (hi : p.calls[i]? = some (c, task)) (hwarner : i ∈ warners p) :
    c.isLegacy = true ∧ v1Advisory.Silent (c.Outcome crypto) task := by
  cases hheld.standing i c task hi with
  | silent _ _ hnot => exact absurd hwarner hnot
  | waiting _ _ _ hnot => exact absurd hwarner hnot
  | announced hlate htask _ => exact ⟨Bool.eq_true_of_not_eq_false hlate, htask⟩

/-- The advisory holds where a `smartDecrypt` call that has warned opens its blob. -/
theorem advisory_of_warnerOpens (hopens : WarnerOpens crypto p) : Advisory p := by
  have hwarner : ∀ i c task, p.calls[i]? = some (c, task) → i ∈ warners p →
      c.isSmart = true → c.Opens crypto := by
    intro i c task hi hmem hsmart
    have hlegacy := (standing_of_warner hheld hi hmem).1
    exact hopens i c task hi hsmart (fun h => absurd (hlegacy.symm.trans h) (by decide)) hmem
  refine ⟨warners_length hheld, ?_, fun hsettled => ⟨?_, warned_of_decrypted hheld⟩⟩
  · intro i c e hi hmem
    have hiff : c.Outcome crypto (.error e) := (standing_of_warner hheld hi hmem).2
    rcases hiff.2 (hwarner i c _ hi hmem) with ⟨answer, h⟩
    cases h
  · intro hwarned
    rcases List.exists_mem_of_ne_nil _ hwarned with ⟨i, hmem⟩
    have hlt : i < p.calls.length := by
      rcases hheld.set ((warned_iff_flag hheld).1 hwarned) with ⟨k, hk, hone⟩
      have hik : i = k := List.mem_singleton.1 (hone ▸ hmem)
      rw [hik]
      exact hk
    rcases hcall : p.calls[i] with ⟨c, task⟩
    have hi : p.calls[i]? = some (c, task) := by rw [List.getElem?_eq_getElem hlt, hcall]
    rcases standing_of_warner hheld hi hmem with ⟨hlegacy, htask⟩
    rcases hsettled c task (List.mem_of_getElem? hi) with ⟨outcome, rfl⟩
    have hiff : c.Outcome crypto outcome := htask
    rcases hiff.2 (hwarner i c _ hi hmem) with ⟨answer, rfl⟩
    exact ⟨c, answer, List.mem_of_getElem? hi, hlegacy⟩

/-- Once all calls have come to their ends, the advisory holds only there. -/
theorem warnerOpens_of_advisory (hsettled : p.Settled) (hadvisory : Advisory p) :
    WarnerOpens crypto p := by
  intro i c task hi hsmart _ hmem
  have htask := (standing_of_warner hheld hi hmem).2
  rcases hsettled c task (List.mem_of_getElem? hi) with ⟨outcome, rfl⟩
  have hiff : c.Outcome crypto outcome := htask
  cases outcome with
  | ok answer => exact hiff.1 ⟨answer, rfl⟩ hsmart
  | error e => exact absurd hmem (hadvisory.rejected i c e hi)

end Process

section Runs

variable {crypto : WebCrypto} {p : CryptoPool}
  {trace : List (Record CryptoPool (Action Call) Unit)}

/-- In every run of a process, whatever calls it starts and however they interleave, the warning is
given at most once, and it has been given when a legacy blob has been decrypted.  The advisory holds
if every `smartDecrypt` of a legacy blob that starts before the warning opens it, and where all
calls have come to their ends only then. -/
theorem v1_advisory (hrun : Run (process crypto) (process crypto).init trace p) :
    ((warners p).length ≤ 1 ∧ (warners p ≠ [] ↔ p.world.v1WarningEmitted = true) ∧
      (DecryptedLegacy p → warners p ≠ [])) ∧
    ((∀ r ∈ trace, StartsOpening crypto r) → Advisory p) ∧
    (p.Settled → (Advisory p ↔ ∀ r ∈ trace, StartsOpening crypto r)) := by
  have hheld : Standing crypto p := (OneShot.held_run (advises_code crypto) rfl hrun).1
  have hiff : (∀ r ∈ trace, StartsOpening crypto r) ↔ WarnerOpens crypto p := by
    rw [WarnerOpens, ← OneShot.startsGood_iff (advises_code crypto) rfl hrun]
    exact forall₂_congr fun r _ => startsOpening_iff r
  refine ⟨⟨warners_length hheld, warned_iff_flag hheld, warned_of_decrypted hheld⟩, ?_, ?_⟩
  · intro hstarts
    exact advisory_of_warnerOpens hheld (hiff.1 hstarts)
  · intro hsettled
    constructor
    · intro hadvisory
      exact hiff.2 (warnerOpens_of_advisory hheld hsettled hadvisory)
    · intro hstarts
      exact advisory_of_warnerOpens hheld (hiff.1 hstarts)

end Runs

/-! ## A legacy blob under two passwords -/

/-- The plaintext `seed` under the password `pw`, as `V1` encrypts it. -/
def legacyRecording : Recording where
  params := V1.pbkdf2Params countingDraw.salt
  password := textEncode (js "pw")
  iv := countingDraw.iv
  data := textEncode (js "seed")
  ciphertext := [92, 231, 96, 249, 19, 157, 123, 231, 201, 86, 122, 152, 124, 125, 104, 224, 28,
    219, 119, 136]
  tag_ne := by decide

/-- The blob that holds it. -/
def legacyBlob : JsString :=
  js ("eyJjaXBoZXJ0ZXh0IjoiWE9kZytST2RlK2ZKVm5xWWZIMW80QnpiZDRnPSIsIml2IjoiQUFFQ0F3UUZCZ2NJQ1Fv" ++
    "TCIsInNhbHQiOiJBQUVDQXdRRkJnY0lDUW9MREEwT0R3PT0ifQ==")

abbrev legacyProcess : System CryptoPool (Action Call) Unit :=
  process (recordedCrypto legacyRecording)

/-- Two calls on the blob that take turns. -/
def legacyActions : List (Action Call) :=
  [.start ⟨.smartDecryptWithDetails, legacyBlob, js "pw"⟩,
    .start ⟨.decryptStringV2, legacyBlob, js "pw"⟩,
    .resume 1, .resume 0, .resume 1, .resume 0, .resume 0, .resume 1, .resume 0, .resume 0]

theorem v1_advisory_legacy : Advisory (legacyProcess.final legacyProcess.init legacyActions) := by
  have hsome : (legacyProcess.exec legacyProcess.init legacyActions).isSome = true := by
    decide +kernel
  refine (v1_advisory (run_of_events legacyActions hsome)).2.1 fun r hr c hevent _ _ _ => ?_
  have hmem : Action.start c ∈ legacyActions := by
    rw [← events_of_trace hsome, ← hevent]
    exact List.mem_map_of_mem hr
  have hcall : c.encrypted = legacyBlob ∧ c.password = js "pw" := by
    simp only [legacyActions, List.mem_cons, Action.start.injEq, List.not_mem_nil, reduceCtorEq,
      or_false] at hmem
    rcases hmem with rfl | rfl
    · simp only [and_self]
    · simp only [and_self]
  rcases hcall with ⟨hblob, hpassword⟩
  unfold Call.Opens
  rw [hblob, hpassword]
  exact ⟨js "seed", by decide +kernel⟩

def wrongActions : List (Action Call) :=
  [.start ⟨.smartDecrypt, legacyBlob, js "wrong"⟩, .resume 0, .resume 0, .resume 0, .resume 0]

/-- The only call has rejected, and the warning has been given. -/
def rejectedAlone (p : CryptoPool) : Bool :=
  match p.calls with
  | [(_, Task.settled (.error _))] => p.world.v1WarningEmitted
  | _ => false

/-- Nobody but the rejecting call can have warned. -/
theorem Advisory.rejectedAlone_eq {crypto : WebCrypto} {p : CryptoPool}
    (hheld : Standing crypto p) (h : Advisory p) : rejectedAlone p = false := by
  unfold rejectedAlone
  split
  case h_2 => rfl
  case h_1 c e hcalls =>
    apply Bool.eq_false_of_not_eq_true
    intro hset
    rcases hheld.set hset with ⟨i, hlt, hone⟩
    have hi : i = 0 := by
      rw [hcalls] at hlt
      exact Nat.lt_one_iff.1 hlt
    have hwarner : 0 ∈ warners p := by
      unfold warners
      rw [hone, hi]
      exact List.mem_singleton_self 0
    have hcall : p.calls[0]? = some (c, .settled (.error e)) := by
      rw [hcalls]
      rfl
    exact h.rejected 0 c e hcall hwarner

/-- The password is wrong, and `smartDecrypt` has warned before it rejects. -/
theorem rejecting_call_warns :
    ¬ ∀ (crypto : WebCrypto) (p : CryptoPool) (trace : List (Record CryptoPool (Action Call) Unit)),
      Run (process crypto) (process crypto).init trace p → Advisory p := by
  intro h
  have hsome : (legacyProcess.exec legacyProcess.init wrongActions).isSome = true := by
    decide +kernel
  have hrun := run_of_events _ hsome
  have hheld := (OneShot.held_run (advises_code _) rfl hrun).1
  have hwarned : rejectedAlone (legacyProcess.final legacyProcess.init wrongActions) = true := by
    decide +kernel
  have hquiet := (h _ _ _ hrun).rejectedAlone_eq hheld
  exact absurd (hquiet.symm.trans hwarned) Bool.false_ne_true

end Interleaved
end Crypto
end StoaCore
