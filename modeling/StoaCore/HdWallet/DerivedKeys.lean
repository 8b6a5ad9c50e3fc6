import StoaCore.HdWallet.Envelopes
import StoaCore.HdWallet.Slip10
import StoaCore.Library.Fallible

/-!
# DerivedKeys — what belongs to one seed

The public keys that are shown are those of the keys that are generated, and a generated key signs
as the seed does at its index, however often the password of its envelope has been changed.
-/

namespace StoaCore
namespace HdWallet

open Library Library.Js
open Library.Fallible (ok_bind bind_eq_ok bind_pure_eq_map map_eq_ok mapM_eq_ok)
open Crypto (WebCrypto Draw)
open Cryptography (Ed25519 signHash base64UrlDecodeArr)

variable {α : Type}

/-! ## Paths -/

theorem derivationPath_inj {template : JsString}
    (htemplate : isDerivationPathTemplateValid template = true) {i j : Int}
    (h : derivationPath template i = derivationPath template j) : i = j :=
  replaceText_integerText_inj htemplate h

theorem fromThrown_eq_ok {x : Except Thrown α} {a : α} : fromThrown x = .ok a ↔ x = .ok a := by
  cases x with
  | ok b => exact ⟨fun h => congrArg _ (Except.ok.inj h), fun h => congrArg _ (Except.ok.inj h)⟩
  | error e => exact ⟨fun h => (nomatch h), fun h => (nomatch h)⟩

theorem requireTemplate_of_valid {template : JsString}
    (htemplate : isDerivationPathTemplateValid template = true) :
    requireTemplate template = .ok () :=
  if_pos htemplate

theorem requireTemplate_of_invalid {template : JsString}
    (htemplate : isDerivationPathTemplateValid template = false) :
    requireTemplate template = .error (.thrown invalidTemplate) :=
  if_neg (by simp [htemplate])

theorem requireSeed_ok {seed envelope : BinaryLike} (h : requireSeed (some seed) = .ok envelope) :
    envelope = seed := by
  rw [requireSeed] at h
  split at h
  · cases h
  · exact (Except.ok.inj h).symm

theorem requireSeed_of_opens {crypto : WebCrypto} {password seed : BinaryLike} {seedBuffer : Bytes}
    (hseed : kadenaDecrypt crypto password seed = .ok seedBuffer) :
    requireSeed (some seed) = .ok seed := by
  apply if_neg
  rintro rfl
  cases hseed

/-- A range from its first to its last index. -/
theorem getElem?_indices (startIndex endIndex : Int) (k : Nat) :
    (indices startIndex endIndex)[k]? =
      if startIndex + k ≤ endIndex then some (startIndex + k) else none := by
  rw [indices, List.getElem?_map]
  by_cases hk : startIndex + k ≤ endIndex
  · rw [if_pos hk, List.getElem?_range (by omega)]
    rfl
  · rw [if_neg hk, List.getElem?_eq_none (by rw [List.length_range]; omega)]
    rfl

theorem indices_ne_nil {startIndex endIndex : Int} (h : ¬ endIndex < startIndex) :
    indices startIndex endIndex ≠ [] := by
  intro hnil
  have hfirst := getElem?_indices startIndex endIndex 0
  rw [hnil, if_pos (by simpa using h)] at hfirst
  cases hfirst

/-- The indices that a call is about. -/
def IndexOrRange.indices : IndexOrRange → List Int
  | .index i => [i]
  | .range startIndex endIndex => HdWallet.indices startIndex endIndex
  | .other => []

def OneOrMany.toList : OneOrMany α → List α
  | .one a => [a]
  | .many as => as

/-! ## One key -/

section Generated

variable {crypto : WebCrypto} {hdKeys : HDKeys}

/-- The pair is the derived one, with the private key in an envelope. -/
structure Exports (crypto : WebCrypto) (hdKeys : HDKeys) (password : BinaryLike)
    (seedBuffer : Bytes) (template : JsString) (index : Int) (key : JsString × BinaryLike) :
    Prop where
  derived : ∃ pair, deriveKeyPair hdKeys seedBuffer (derivationPath template index) = .ok pair ∧
    key.1 = pair.publicKey ∧
    kadenaDecrypt crypto password key.2 = .ok (bufferFromHex pair.privateKey)

variable (hcrypto : crypto.Inverts)

include hcrypto

/-- A key is generated exactly if it can be derived. -/
theorem genKeypairFromSeed_spec {template : JsString}
    (htemplate : isDerivationPathTemplateValid template = true) (password : BinaryLike)
    (seedBuffer : Bytes) (index : Int) (draw : Draw) :
    match deriveKeyPair hdKeys seedBuffer (derivationPath template index) with
    | .error e => genKeypairFromSeed crypto hdKeys password seedBuffer index template draw =
        .error (.thrown e)
    | .ok pair => ∃ key,
        genKeypairFromSeed crypto hdKeys password seedBuffer index template draw =
          .ok (pair.publicKey, key) ∧
        kadenaDecrypt crypto password key = .ok (bufferFromHex pair.privateKey) := by
  rw [genKeypairFromSeed, requireTemplate_of_valid htemplate, ok_bind]
  cases deriveKeyPair hdKeys seedBuffer (derivationPath template index) with
  | error e => rfl
  | ok pair =>
      rcases kadenaEncrypt_opens hcrypto password (.bytes (bufferFromHex pair.privateKey)) .base64
        draw with ⟨key, hkey, hopens⟩
      refine ⟨key, ?_, hopens⟩
      dsimp only [fromThrown]
      rw [ok_bind, hkey]
      rfl

/-- Its public key is the one that is shown for the index. -/
theorem genKeypairFromSeed_publicKey {template : JsString}
    (htemplate : isDerivationPathTemplateValid template = true) (password : BinaryLike)
    (seedBuffer : Bytes) (index : Int) (draw : Draw) :
    (genKeypairFromSeed crypto hdKeys password seedBuffer index template draw).map Prod.fst =
      genPublicKeyFromSeed hdKeys seedBuffer index template := by
  have hspec := @genKeypairFromSeed_spec _ hdKeys hcrypto _ htemplate password seedBuffer
    index draw
  rw [genPublicKeyFromSeed, requireTemplate_of_valid htemplate, ok_bind]
  cases hpair : deriveKeyPair hdKeys seedBuffer (derivationPath template index) with
  | error e =>
      rw [hpair] at hspec
      rw [hspec]
      rfl
  | ok pair =>
      rw [hpair] at hspec
      rcases hspec with ⟨key, hkey, -⟩
      rw [hkey]
      rfl

theorem genKeypairFromSeed_exports {template : JsString}
    (htemplate : isDerivationPathTemplateValid template = true) {password : BinaryLike}
    {seedBuffer : Bytes} {index : Int} {draw : Draw} {key : JsString × BinaryLike}
    (h : genKeypairFromSeed crypto hdKeys password seedBuffer index template draw = .ok key) :
    Exports crypto hdKeys password seedBuffer template index key := by
  have hspec := @genKeypairFromSeed_spec _ hdKeys hcrypto _ htemplate password seedBuffer
    index draw
  cases hpair : deriveKeyPair hdKeys seedBuffer (derivationPath template index) with
  | error e =>
      rw [hpair] at hspec
      cases h.symm.trans hspec
  | ok pair =>
      rw [hpair] at hspec
      rcases hspec with ⟨data, hkey, hopens⟩
      obtain rfl : key = (pair.publicKey, data) := Except.ok.inj (h.symm.trans hkey)
      exact ⟨pair, hpair, rfl, hopens⟩

/-! ## A range of keys -/

theorem genKeypairs_publicKeys {template : JsString}
    (htemplate : isDerivationPathTemplateValid template = true) (password : BinaryLike)
    (seedBuffer : Bytes) (range : List Int) (draws : Nat → Draw) :
    (genKeypairs crypto hdKeys password seedBuffer template draws range).map (List.map Prod.fst) =
      range.mapM fun index => genPublicKeyFromSeed hdKeys seedBuffer index template := by
  induction range generalizing draws with
  | nil => rfl
  | cons index rest ih =>
      have hfirst := @genKeypairFromSeed_publicKey _ hdKeys hcrypto _ htemplate password
        seedBuffer index (draws 0)
      rw [List.mapM_cons, genKeypairs, ← hfirst, ← ih fun k => draws (k + 1)]
      cases genKeypairFromSeed crypto hdKeys password seedBuffer index template (draws 0) with
      | error e => rfl
      | ok key =>
          cases genKeypairs crypto hdKeys password seedBuffer template (fun k => draws (k + 1))
            rest with
          | error e => rfl
          | ok keys => rfl

theorem genKeypairs_exports {template : JsString}
    (htemplate : isDerivationPathTemplateValid template = true) {password : BinaryLike}
    {seedBuffer : Bytes} {range : List Int} {draws : Nat → Draw}
    {keys : List (JsString × BinaryLike)}
    (h : genKeypairs crypto hdKeys password seedBuffer template draws range = .ok keys) :
    List.Forall₂ (Exports crypto hdKeys password seedBuffer template) range keys := by
  induction range generalizing draws keys with
  | nil =>
      cases h
      exact List.Forall₂.nil
  | cons index rest ih =>
      rw [genKeypairs] at h
      rcases bind_eq_ok.1 h with ⟨key, hfirst, h⟩
      rcases bind_eq_ok.1 h with ⟨later, hrest, hkeys⟩
      cases hkeys
      exact List.Forall₂.cons (genKeypairFromSeed_exports hcrypto htemplate hfirst) (ih hrest)

/-! ## A call -/

/-- With a template that has the placeholder, the keys that are shown are those that are generated,
and the same goes wrong. -/
theorem kadenaGetPublic_eq {template : JsString}
    (htemplate : isDerivationPathTemplateValid template = true) (password : BinaryLike)
    (seed : Option BinaryLike) (which : IndexOrRange) (draws : Nat → Draw) :
    kadenaGetPublic crypto hdKeys password seed which template =
      (kadenaGenKeypairFromSeed crypto hdKeys password seed which draws template).map
        (OneOrMany.map Prod.fst) := by
  rw [kadenaGetPublic, kadenaGenKeypairFromSeed]
  cases requireSeed seed with
  | error e => rfl
  | ok envelope =>
      rw [ok_bind, ok_bind, requireTemplate_of_valid htemplate, ok_bind]
      cases fromThrown (kadenaDecrypt crypto password envelope) with
      | error e => rfl
      | ok seedBuffer =>
          rw [ok_bind, ok_bind]
          cases which with
          | index i =>
              have hkey := @genKeypairFromSeed_publicKey _ hdKeys hcrypto _ htemplate password
                seedBuffer i (draws 0)
              dsimp only
              rw [← hkey]
              cases genKeypairFromSeed crypto hdKeys password seedBuffer i template (draws 0) with
              | error e => rfl
              | ok key => rfl
          | range startIndex endIndex =>
              have hkeys := @genKeypairs_publicKeys _ hdKeys hcrypto _ htemplate password seedBuffer
                (indices startIndex endIndex) draws
              dsimp only
              rw [← hkeys]
              by_cases hlt : endIndex < startIndex
              · rw [if_pos hlt, if_pos hlt]
                rfl
              · rw [if_neg hlt, if_neg hlt]
                cases genKeypairs crypto hdKeys password seedBuffer template draws
                  (indices startIndex endIndex) with
                | error e => rfl
                | ok keys => rfl
          | other => rfl

/-- What a call hands out is derived from the seed, index by index. -/
theorem kadenaGenKeypairFromSeed_exports {password seed : BinaryLike} {seedBuffer : Bytes}
    (hseed : kadenaDecrypt crypto password seed = .ok seedBuffer) {which : IndexOrRange}
    {draws : Nat → Draw} {template : JsString} {keys : OneOrMany (JsString × BinaryLike)}
    (h : kadenaGenKeypairFromSeed crypto hdKeys password (some seed) which draws template =
      .ok keys) :
    isDerivationPathTemplateValid template = true ∧
      List.Forall₂ (Exports crypto hdKeys password seedBuffer template) which.indices
        keys.toList := by
  rw [kadenaGenKeypairFromSeed] at h
  rcases bind_eq_ok.1 h with ⟨envelope, hrequire, hopened⟩
  rcases bind_eq_ok.1 hopened with ⟨⟨⟩, htemplate, hmade⟩
  have hvalid : isDerivationPathTemplateValid template = true := by
    rw [requireTemplate] at htemplate
    split at htemplate
    · assumption
    · cases htemplate
  rw [requireSeed_ok hrequire, hseed, fromThrown, ok_bind] at hmade
  refine ⟨hvalid, ?_⟩
  cases which with
  | index i =>
      rcases bind_eq_ok.1 hmade with ⟨key, hkey, hkeys⟩
      cases hkeys
      exact List.Forall₂.cons (genKeypairFromSeed_exports hcrypto hvalid hkey) List.Forall₂.nil
  | range startIndex endIndex =>
      dsimp only at hmade
      split at hmade
      · cases hmade
      · rcases bind_eq_ok.1 hmade with ⟨list, hlist, hkeys⟩
        cases hkeys
        exact genKeypairs_exports hcrypto hvalid hlist
  | other => cases hmade

/-- A seed that opens and a path that leads to a key. -/
theorem kadenaGenKeypairFromSeed_index {password seed : BinaryLike} {seedBuffer : Bytes}
    (hseed : kadenaDecrypt crypto password seed = .ok seedBuffer) {template : JsString}
    (htemplate : isDerivationPathTemplateValid template = true) {index : Int} {pair : DerivedPair}
    (hpair : deriveKeyPair hdKeys seedBuffer (derivationPath template index) = .ok pair)
    (draws : Nat → Draw) :
    ∃ key, kadenaGenKeypairFromSeed crypto hdKeys password (some seed) (.index index) draws
      template = .ok (.one (pair.publicKey, key)) := by
  have hspec := @genKeypairFromSeed_spec _ hdKeys hcrypto _ htemplate password seedBuffer index
    (draws 0)
  rw [hpair] at hspec
  rcases hspec with ⟨key, hkey, -⟩
  refine ⟨key, ?_⟩
  rw [kadenaGenKeypairFromSeed, requireSeed_of_opens hseed, ok_bind,
    requireTemplate_of_valid htemplate, ok_bind, hseed, fromThrown, ok_bind]
  dsimp only
  rw [hkey]
  rfl

/-- The envelope of a mnemonic opens to its seed. -/
theorem kadenaMnemonicToSeed_opens {bip39 : Bip39} {password : BinaryLike} {mnemonic : JsString}
    {encode : Encode} {draw : Draw} {data : BinaryLike}
    (h : kadenaMnemonicToSeed crypto bip39 password mnemonic encode draw = .ok data) :
    ∃ seed, bip39.mnemonicToSeed mnemonic = .ok seed ∧
      kadenaDecrypt crypto password data = .ok seed := by
  rw [kadenaMnemonicToSeed] at h
  split at h
  · rcases bind_eq_ok.1 h with ⟨seed, hseed, hdata⟩
    rcases kadenaEncrypt_opens hcrypto password (.bytes seed) encode draw with
      ⟨made, hmade, hopens⟩
    rw [hmade] at hdata
    cases hdata
    exact ⟨seed, fromThrown_eq_ok.1 hseed, hopens⟩
  · cases h

end Generated

/-- A call that hands out keys has opened its seed. -/
theorem kadenaDecrypt_of_generated {crypto : WebCrypto} {hdKeys : HDKeys}
    {password seed : BinaryLike} {which : IndexOrRange} {draws : Nat → Draw} {template : JsString}
    {keys : OneOrMany (JsString × BinaryLike)}
    (h : kadenaGenKeypairFromSeed crypto hdKeys password (some seed) which draws template =
      .ok keys) :
    ∃ seedBuffer, kadenaDecrypt crypto password seed = .ok seedBuffer := by
  rw [kadenaGenKeypairFromSeed] at h
  rcases bind_eq_ok.1 h with ⟨envelope, hrequire, hopened⟩
  rcases bind_eq_ok.1 hopened with ⟨⟨⟩, -, hmade⟩
  rcases bind_eq_ok.1 hmade with ⟨seedBuffer, hdecrypt, -⟩
  rw [requireSeed_ok hrequire] at hdecrypt
  exact ⟨seedBuffer, fromThrown_eq_ok.1 hdecrypt⟩

/-! ## The public keys of a seed -/

section Shown

variable {crypto : WebCrypto} {hdKeys : HDKeys} {password : BinaryLike} {seed : Option BinaryLike}
  {template : JsString}

theorem genPublicKeyFromSeed_of_invalid (htemplate : isDerivationPathTemplateValid template = false)
    (seedBuffer : Bytes) (index : Int) :
    genPublicKeyFromSeed hdKeys seedBuffer index template = .error (.thrown invalidTemplate) := by
  rw [genPublicKeyFromSeed, requireTemplate_of_invalid htemplate]
  rfl

/-- A call fails on its seed, or it shows the keys of the opened one. -/
theorem kadenaGetPublic_spec :
    (∃ e, ∀ which, kadenaGetPublic crypto hdKeys password seed which template = .error e) ∨
      ∃ seedBuffer,
        (∀ index, kadenaGetPublic crypto hdKeys password seed (.index index) template =
          (genPublicKeyFromSeed hdKeys seedBuffer index template).map .one) ∧
        (∀ startIndex endIndex,
          kadenaGetPublic crypto hdKeys password seed (.range startIndex endIndex) template =
            if endIndex < startIndex then .error rangeError
            else ((indices startIndex endIndex).mapM fun index =>
              genPublicKeyFromSeed hdKeys seedBuffer index template).map .many) ∧
        kadenaGetPublic crypto hdKeys password seed .other template = .error indexError := by
  simp only [kadenaGetPublic]
  cases requireSeed seed with
  | error e => exact Or.inl ⟨e, fun which => rfl⟩
  | ok envelope =>
      simp only [ok_bind]
      cases fromThrown (kadenaDecrypt crypto password envelope) with
      | error e => exact Or.inl ⟨e, fun which => rfl⟩
      | ok seedBuffer =>
          simp only [ok_bind, bind_pure_eq_map]
          exact Or.inr ⟨seedBuffer, fun index => rfl, fun startIndex endIndex => rfl, trivial⟩

/-- Without the placeholder no call succeeds. -/
theorem kadenaGetPublic_of_invalid (htemplate : isDerivationPathTemplateValid template = false)
    (which : IndexOrRange) :
    ∃ e, kadenaGetPublic crypto hdKeys password seed which template = .error e := by
  rcases @kadenaGetPublic_spec crypto hdKeys password seed template with
    ⟨e, hfails⟩ | ⟨seedBuffer, hindex, hrange, hother⟩
  · exact ⟨e, hfails which⟩
  · cases which with
    | index i =>
        rw [hindex, genPublicKeyFromSeed_of_invalid htemplate]
        exact ⟨_, rfl⟩
    | range startIndex endIndex =>
        rw [hrange]
        by_cases hlt : endIndex < startIndex
        · exact ⟨_, if_pos hlt⟩
        · rcases List.exists_cons_of_ne_nil (indices_ne_nil hlt) with ⟨first, rest, hindices⟩
          rw [if_neg hlt, hindices, List.mapM_cons, genPublicKeyFromSeed_of_invalid htemplate]
          exact ⟨_, rfl⟩
    | other => exact ⟨_, hother⟩

theorem kadenaGenKeypairFromSeed_of_invalid
    (htemplate : isDerivationPathTemplateValid template = false) (which : IndexOrRange)
    (draws : Nat → Draw) :
    ∃ e, kadenaGenKeypairFromSeed crypto hdKeys password seed which draws template = .error e := by
  rw [kadenaGenKeypairFromSeed]
  cases requireSeed seed with
  | error e => exact ⟨e, rfl⟩
  | ok envelope =>
      rw [ok_bind, requireTemplate_of_invalid htemplate]
      exact ⟨_, rfl⟩

/-- A range shows what its indices show one by one. -/
theorem kadenaGetPublic_range {startIndex endIndex : Int} {publicKeys : List JsString} :
    kadenaGetPublic crypto hdKeys password seed (.range startIndex endIndex) template =
        .ok (.many publicKeys) ↔
      startIndex ≤ endIndex ∧ List.Forall₂ (fun index publicKey =>
        kadenaGetPublic crypto hdKeys password seed (.index index) template = .ok (.one publicKey))
          (indices startIndex endIndex) publicKeys := by
  have hone : Function.Injective (@OneOrMany.one JsString) := fun a b h => OneOrMany.one.inj h
  have hmany : Function.Injective (@OneOrMany.many JsString) := fun a b h => OneOrMany.many.inj h
  rcases @kadenaGetPublic_spec crypto hdKeys password seed template with
    ⟨e, hfails⟩ | ⟨seedBuffer, hindex, hrange, -⟩
  · simp only [hfails]
    refine ⟨fun h => (nomatch h), fun ⟨hle, hall⟩ => ?_⟩
    rcases List.exists_cons_of_ne_nil (indices_ne_nil (Int.not_lt.2 hle)) with ⟨i, rest, heq⟩
    rw [heq] at hall
    cases hall with
    | cons hfirst hrest => cases hfirst
  · simp only [hindex, hrange, map_eq_ok hone, ← mapM_eq_ok]
    by_cases hlt : endIndex < startIndex
    · rw [if_pos hlt]
      exact ⟨fun h => (nomatch h), fun h => absurd h.1 (Int.not_le.2 hlt)⟩
    · rw [if_neg hlt, and_iff_right (Int.not_lt.1 hlt), map_eq_ok hmany]

/-- The keys that are shown are the public keys of those that are generated, for an index and for a
range, whatever is drawn; each index has a path of its own. -/
theorem shown_keys (hcrypto : crypto.Inverts) :
    (∀ which draws,
      (isDerivationPathTemplateValid template = true →
        kadenaGetPublic crypto hdKeys password seed which template =
          (kadenaGenKeypairFromSeed crypto hdKeys password seed which draws template).map
            (OneOrMany.map Prod.fst)) ∧
      (isDerivationPathTemplateValid template = false →
        (∃ e, kadenaGetPublic crypto hdKeys password seed which template = .error e) ∧
        ∃ e, kadenaGenKeypairFromSeed crypto hdKeys password seed which draws template =
          .error e)) ∧
    (∀ startIndex endIndex publicKeys,
      kadenaGetPublic crypto hdKeys password seed (.range startIndex endIndex) template =
          .ok (.many publicKeys) ↔
        startIndex ≤ endIndex ∧ List.Forall₂ (fun index publicKey =>
          kadenaGetPublic crypto hdKeys password seed (.index index) template =
            .ok (.one publicKey)) (indices startIndex endIndex) publicKeys) ∧
    (isDerivationPathTemplateValid template = true →
      Function.Injective (derivationPath template)) :=
  ⟨fun which draws => ⟨fun htemplate =>
      kadenaGetPublic_eq hcrypto htemplate password seed which draws,
      fun htemplate => ⟨kadenaGetPublic_of_invalid htemplate which,
        kadenaGenKeypairFromSeed_of_invalid htemplate which draws⟩⟩,
    fun _ _ _ => kadenaGetPublic_range,
    fun htemplate _ _ => derivationPath_inj htemplate⟩

end Shown

/-! ## Signing with a generated key -/

section Signs

variable {crypto : WebCrypto} {hdKeys : HDKeys} {E : Ed25519}

/-- Every derived key is one of Ed25519: 32 bytes, and the public key behind a zero byte. -/
structure DerivesEd25519 (hdKeys : HDKeys) (E : Ed25519) : Prop where
  derived : ∀ seed path key, hdKeys seed path = .ok key → key.privateKey.length = 32 ∧
    ∃ pair, E.fromSeed key.privateKey = .ok pair ∧ key.publicKey = 0 :: pair.publicKey

/-- The text of a key holds its bytes. -/
theorem bufferToHex_uint8ArrayToHex (array : Bytes) :
    bufferToHex (bufferFromHex (uint8ArrayToHex array)) = uint8ArrayToHex array := by
  rw [uint8ArrayToHex, bufferFromHex_bufferToHex]

theorem privateKey_of_deriveKeyPair {seed : Bytes} {path : JsString} {pair : DerivedPair}
    (h : deriveKeyPair hdKeys seed path = .ok pair) :
    bufferToHex (bufferFromHex pair.privateKey) = pair.privateKey := by
  rcases bind_eq_ok.1 h with ⟨key, -, hpair⟩
  cases hpair
  exact bufferToHex_uint8ArrayToHex key.privateKey

/-- An envelope that holds a generated key signs as the seed does. -/
theorem Exports.signs {password : BinaryLike} {seedBuffer : Bytes} {template : JsString}
    {index : Int} {key : JsString × BinaryLike}
    (h : Exports crypto hdKeys password seedBuffer template index key)
    {newPassword data : BinaryLike}
    (hdata : kadenaDecrypt crypto newPassword data = kadenaDecrypt crypto password key.2)
    (hash : JsString) :
    kadenaSignWithKeyPair crypto E newPassword key.1 data hash =
      signWithSeed hdKeys E seedBuffer (derivationPath template index) hash := by
  rcases h.derived with ⟨pair, hpair, hpublic, hopens⟩
  rw [kadenaSignWithKeyPair, hdata, hopens, signWithSeed, hpair, hpublic]
  simp only [fromThrown, ok_bind]
  rw [privateKey_of_deriveKeyPair hpair]

/-- A derived pair signs every hash that can be decoded, and the signature verifies. -/
theorem signWithSeed_verifies (hE : E.Documented) (hkeys : DerivesEd25519 hdKeys E) {seed : Bytes}
    {path : JsString} {pair : DerivedPair} (hpair : deriveKeyPair hdKeys seed path = .ok pair)
    {hash : JsString} {hashBytes : Bytes} (hdecode : base64UrlDecodeArr hash = .ok hashBytes) :
    ∃ sig, signWithSeed hdKeys E seed path hash = .ok ⟨sig, pair.publicKey⟩ ∧
      kadenaVerify E (.bytes hashBytes) pair.publicKey sig = .ok true := by
  have hderived := hpair
  rcases bind_eq_ok.1 hderived with ⟨key, hkey, heq⟩
  rcases hkeys.derived seed path key hkey with ⟨hlength, made, hmade, hpublic⟩
  have hprivate : pair.privateKey = bufferToHex key.privateKey := by
    cases heq
    exact congrArg bufferToHex (if_neg fun h => by rw [hlength] at h; omega)
  have hseed : E.fromSeed (bufferFromHex pair.privateKey) = .ok made := by
    rw [hprivate, bufferFromHex_bufferToHex, hmade]
  have hpub : bufferFromHex pair.publicKey = made.publicKey := by
    rcases hE.fromSeed_ok _ hlength with ⟨other, hother, hsize, -⟩
    obtain rfl : made = other := Except.ok.inj (hmade.symm.trans hother)
    have hbytes : bufferFromHex (uint8ArrayToHex key.publicKey) = made.publicKey := by
      rw [uint8ArrayToHex, bufferFromHex_bufferToHex, hpublic]
      exact if_pos ⟨by rw [List.length_cons, hsize], rfl⟩
    cases heq
    exact hbytes
  have hdigits : pair.privateKey.length = 64 := by
    rw [hprivate, length_bufferToHex, hlength]
  rcases Cryptography.signHash_seed hE hdigits hseed hpub hdecode with
    ⟨sigBin, hsign, -, hverify⟩
  refine ⟨bufferToHex sigBin, ?_, ?_⟩
  · rw [signWithSeed, hpair, fromThrown, ok_bind, signWithKeyPair, hsign]
    rfl
  · rw [kadenaVerify, bufferFromHex_bufferToHex]
    exact hverify

/-- Signing with a seed that opens. -/
theorem kadenaSignWithSeed_one {password seed : BinaryLike} {seedBuffer : Bytes}
    (hseed : kadenaDecrypt crypto password seed = .ok seedBuffer) {template : JsString}
    (htemplate : isDerivationPathTemplateValid template = true) (index : Int) (hash : JsString) :
    kadenaSignWithSeed crypto hdKeys E password seed (.one index) hash template =
      (signWithSeed hdKeys E seedBuffer (derivationPath template index) hash).map .one := by
  rw [kadenaSignWithSeed, requireTemplate_of_valid htemplate, hseed]
  simp only [ok_bind, fromThrown, bind_pure_eq_map]

/-- Every generated key, after any changes of the password of its envelope, signs each hash as the
seed does at its index; a hash that can be decoded gets a signature that verifies under the public
key of the pair. -/
theorem generated_keys_sign (hcrypto : crypto.Inverts) (hE : E.Documented)
    (hderives : DerivesEd25519 hdKeys E) {password seed : BinaryLike} {which : IndexOrRange}
    {draws : Nat → Draw} {template : JsString} {keys : OneOrMany (JsString × BinaryLike)}
    (hkeys : kadenaGenKeypairFromSeed crypto hdKeys password (some seed) which draws template =
      .ok keys) :
    List.Forall₂ (fun index key => ∀ changes,
      let owner := (changePasswords crypto password key.2 changes).1
      ∀ hash,
        (kadenaSignWithKeyPair crypto E owner.1 key.1 owner.2 hash).map .one =
          kadenaSignWithSeed crypto hdKeys E password seed (.one index) hash template ∧
        ∀ hashBytes, base64UrlDecodeArr hash = .ok hashBytes →
          ∃ sig, kadenaSignWithKeyPair crypto E owner.1 key.1 owner.2 hash = .ok ⟨sig, key.1⟩ ∧
            kadenaVerify E (.bytes hashBytes) key.1 sig = .ok true)
      which.indices keys.toList := by
  rcases kadenaDecrypt_of_generated hkeys with ⟨seedBuffer, hseed⟩
  rcases kadenaGenKeypairFromSeed_exports hcrypto hseed hkeys with ⟨htemplate, hexports⟩
  refine hexports.imp fun index key hexport changes hash => ?_
  rcases hexport.derived with ⟨pair, hpair, hpublic, hopens⟩
  rcases changePasswords_spec hcrypto changes hopens with ⟨-, hchanged, -⟩
  have hsigns := @Exports.signs _ _ E _ _ _ _ _ hexport _ _ (hchanged.trans hopens.symm) hash
  rw [hsigns]
  refine ⟨(kadenaSignWithSeed_one hseed htemplate index hash).symm, fun hashBytes hdecode => ?_⟩
  rw [hpublic]
  exact signWithSeed_verifies hE hderives hpair hdecode

end Signs

/-! ## A recorded key -/

section Recorded

open Cryptography (SignKeyPair)
open Crypto (Recording countingDraw)

/-- A key of Ed25519 and its signature of one message. -/
structure RecordedKey where
  seed : Bytes
  publicKey : Bytes
  message : Bytes
  signature : Bytes
  publicKey_length : publicKey.length = 32
  signature_length : signature.length = 64

def RecordedKey.publicKeyOf (key : RecordedKey) (seed : Bytes) : Bytes :=
  if seed = key.seed then key.publicKey else List.replicate 32 0

def RecordedKey.signatureOf (key : RecordedKey) (msg publicKey : Bytes) : Bytes :=
  if msg = key.message ∧ publicKey = key.publicKey then key.signature else List.replicate 64 0

theorem RecordedKey.length_publicKeyOf (key : RecordedKey) (seed : Bytes) :
    (key.publicKeyOf seed).length = 32 := by
  unfold RecordedKey.publicKeyOf
  split
  · exact key.publicKey_length
  · rfl

theorem RecordedKey.length_signatureOf (key : RecordedKey) (msg publicKey : Bytes) :
    (key.signatureOf msg publicKey).length = 64 := by
  unfold RecordedKey.signatureOf
  split
  · exact key.signature_length
  · rfl

/-- The libraries on the values of a recorded key, with their length checks. -/
def replayEd25519 (key : RecordedKey) : Ed25519 where
  fromSeed seed :=
    if seed.length ≠ 32 then .error (js "bad seed size")
    else .ok ⟨key.publicKeyOf seed, seed ++ key.publicKeyOf seed⟩
  detached msg secretKey :=
    if secretKey.length ≠ 64 then .error (js "bad secret key size")
    else .ok (key.signatureOf msg (secretKey.drop 32))
  verify msg sig publicKey := .ok (decide (sig = key.signatureOf msg publicKey))
  multiplyBase _ := .ok (List.replicate 32 0)

theorem fromSeed_replayEd25519_ok (key : RecordedKey) {seed : Bytes} (h : seed.length = 32) :
    (replayEd25519 key).fromSeed seed =
      .ok ⟨key.publicKeyOf seed, seed ++ key.publicKeyOf seed⟩ :=
  if_neg (not_not.2 h)

theorem fromSeed_replayEd25519 {key : RecordedKey} {seed : Bytes} {pair : SignKeyPair}
    (h : (replayEd25519 key).fromSeed seed = .ok pair) :
    seed.length = 32 ∧ pair = ⟨key.publicKeyOf seed, seed ++ key.publicKeyOf seed⟩ := by
  by_cases hlength : seed.length = 32
  · rw [fromSeed_replayEd25519_ok key hlength] at h
    exact ⟨hlength, (Except.ok.inj h).symm⟩
  · have herror : (replayEd25519 key).fromSeed seed = .error (js "bad seed size") := if_pos hlength
    rw [herror] at h
    cases h

theorem documented_replayEd25519 (key : RecordedKey) : (replayEd25519 key).Documented where
  fromSeed_ok seed hseed :=
    ⟨_, fromSeed_replayEd25519_ok key hseed, key.length_publicKeyOf seed, rfl⟩
  fromSeed_error seed hseed := if_pos hseed
  detached_ok msg secretKey hkey :=
    ⟨_, if_neg (not_not.2 hkey), key.length_signatureOf msg (secretKey.drop 32)⟩
  detached_error msg secretKey hkey := if_pos hkey
  verify_detached seed pair msg sig hpair hsig := by
    rcases fromSeed_replayEd25519 hpair with ⟨hlength, rfl⟩
    have hsecret : (seed ++ key.publicKeyOf seed).length = 64 := by
      rw [List.length_append, hlength, key.length_publicKeyOf]
    have hdrop : (seed ++ key.publicKeyOf seed).drop 32 = key.publicKeyOf seed := by
      rw [← hlength, List.drop_left]
    have hmade : (replayEd25519 key).detached msg (seed ++ key.publicKeyOf seed) =
        .ok (key.signatureOf msg ((seed ++ key.publicKeyOf seed).drop 32)) :=
      if_neg (not_not.2 hsecret)
    rw [hdrop] at hmade
    obtain rfl := Except.ok.inj (hsig.symm.trans hmade)
    exact congrArg Except.ok (decide_eq_true rfl)
  multiplyBase_length scalar point hpoint := by
    cases hpoint
    rfl

/-- The first test seed of SLIP-0010, and its key at `m/44'/626'/0'`. -/
def slip10Seed : Bytes := [0, 1, 2, 3, 4, 5, 6, 7, 8, 9, 10, 11, 12, 13, 14, 15]

def slip10Key : RecordedKey where
  seed := bufferFromHex
    (hexText 64 0xcae03c0090f3277773fac477db8083cbb40f6d4b5648dafcb9019bbe19589df0)
  publicKey := bufferFromHex
    (hexText 64 0x07ae36cb8ab6721216fd89145ef2772e5ef07c88baa555eab4a1d210f3dda71c)
  message := (List.range 32).map UInt8.ofNat
  signature := bufferFromHex
    (hexText 64 0x867b5617bc6b309b5a32fdf30b20113f9c56439e502ffaaf7919aac64c04dc95 ++
      hexText 64 0xe563cd0572b4559b10df9916cd8a910e91b59a7fc8efe7a9a05bd63e2e2b4f0a)
  publicKey_length := by decide +kernel
  signature_length := by decide +kernel

def slip10Keys : HDKeys := fun seed path =>
  if seed = slip10Seed ∧ path = js "m'/44'/626'/0'" then
    .ok { privateKey := slip10Key.seed, publicKey := 0 :: slip10Key.publicKey }
  else .error (newError (js "not recorded"))

theorem derivesEd25519_slip10Keys : DerivesEd25519 slip10Keys (replayEd25519 slip10Key) where
  derived seed path key h := by
    rw [slip10Keys] at h
    split at h
    · cases h
      have hlength : slip10Key.seed.length = 32 := by decide +kernel
      have hpublic : slip10Key.publicKeyOf slip10Key.seed = slip10Key.publicKey := if_pos rfl
      have hpair := fromSeed_replayEd25519_ok slip10Key hlength
      rw [hpublic] at hpair
      exact ⟨hlength, _, hpair, rfl⟩
    · cases h

def thirdDraw : Draw where
  salt := [32, 33, 34, 35, 36, 37, 38, 39, 40, 41, 42, 43, 44, 45, 46, 47]
  iv := [32, 33, 34, 35, 36, 37, 38, 39, 40, 41, 42, 43]
  salt_length := rfl
  iv_length := rfl

/-- The seed under `pw`, the key under `pw`, and the key under `new`. -/
def slip10Recordings : List Recording :=
  [{ params := { hash := .sha256, iterations := 310000, salt := countingDraw.salt }
     password := textEncode (js "pw")
     iv := countingDraw.iv
     data := slip10Seed
     ciphertext := [245, 49, 163, 67, 92, 79, 18, 21, 230, 104, 240, 139, 56, 171, 16, 181, 128, 88,
       236, 142, 154, 140, 205, 41, 252, 224, 180, 37, 72, 160, 81, 251]
     tag_ne := by decide },
   { params := { hash := .sha256, iterations := 310000, salt := secondDraw.salt }
     password := textEncode (js "pw")
     iv := secondDraw.iv
     data := slip10Key.seed
     ciphertext := [212, 130, 204, 216, 34, 72, 209, 167, 253, 189, 112, 229, 171, 98, 183, 170,
       161, 251, 147, 254, 123, 189, 251, 122, 181, 82, 151, 218, 252, 197, 21, 189, 181, 37, 117,
       19, 109, 60, 171, 65, 147, 103, 50, 216, 150, 220, 135, 160]
     tag_ne := by decide },
   { params := { hash := .sha256, iterations := 310000, salt := thirdDraw.salt }
     password := textEncode (js "new")
     iv := thirdDraw.iv
     data := slip10Key.seed
     ciphertext := [179, 5, 22, 219, 225, 199, 97, 13, 133, 198, 185, 105, 123, 157, 15, 252, 138,
       130, 111, 30, 225, 29, 200, 42, 48, 78, 218, 247, 98, 132, 237, 247, 129, 154, 234, 54, 104,
       173, 252, 254, 85, 128, 56, 32, 118, 112, 42, 228]
     tag_ne := by decide }]

theorem slip10Recordings_inverts : (replayCrypto slip10Recordings).Inverts :=
  replayCrypto_inverts (by decide)

/-- The envelope of the seed, and what opens it. -/
theorem exists_slip10Envelope :
    ∃ seed, kadenaEncrypt (replayCrypto slip10Recordings) (.text (js "pw")) (.bytes slip10Seed)
        .base64 countingDraw = .ok seed ∧
      kadenaDecrypt (replayCrypto slip10Recordings) (.text (js "pw")) seed = .ok slip10Seed :=
  kadenaEncrypt_opens slip10Recordings_inverts (.text (js "pw")) (.bytes slip10Seed) .base64
    countingDraw

/-- The keys of the seed at `m'/44'/626'/0'` and `m'/44'/626'/1'`. -/
def shownKeys : HDKeys := fun seed path =>
  if seed = slip10Seed ∧ path = js "m'/44'/626'/1'" then
    .ok
      { privateKey := bufferFromHex
          (hexText 64 0xc32d7cbdfa27eb688367fcd307f70cb5b688c020b3cf571e2323ad17bafe26a9)
        publicKey := 0 :: bufferFromHex
          (hexText 64 0xd19fb3ee359db0ccf8f80b0eaa310df49baa8e4eb40fab00f6f8f741bd87fecf) }
  else slip10Keys seed path

def shownPublicKeys : List JsString :=
  [hexText 64 0x07ae36cb8ab6721216fd89145ef2772e5ef07c88baa555eab4a1d210f3dda71c,
    hexText 64 0xd19fb3ee359db0ccf8f80b0eaa310df49baa8e4eb40fab00f6f8f741bd87fecf]

/-- The seed and both keys under `pw`. -/
def shownRecordings : List Recording :=
  slip10Recordings.take 2 ++
  [{ params := { hash := .sha256, iterations := 310000, salt := thirdDraw.salt }
     password := textEncode (js "pw")
     iv := thirdDraw.iv
     data := bufferFromHex
       (hexText 64 0xc32d7cbdfa27eb688367fcd307f70cb5b688c020b3cf571e2323ad17bafe26a9)
     ciphertext := [129, 229, 190, 248, 243, 36, 81, 71, 55, 183, 237, 129, 99, 239, 137, 114, 214,
       41, 99, 29, 122, 5, 249, 130, 24, 200, 195, 168, 253, 141, 227, 184, 144, 65, 164, 196, 65,
       67, 207, 230, 43, 189, 176, 86, 161, 208, 174, 16]
     tag_ne := by decide }]

theorem shownRecordings_inverts : (replayCrypto shownRecordings).Inverts :=
  replayCrypto_inverts (by decide)

theorem shown_keys_slip10 :
    ∃ seed, kadenaEncrypt (replayCrypto shownRecordings) (.text (js "pw")) (.bytes slip10Seed)
        .base64 countingDraw = .ok seed ∧
      kadenaGetPublic (replayCrypto shownRecordings) shownKeys (.text (js "pw")) (some seed)
        (.range 0 1) = .ok (.many shownPublicKeys) ∧
      (kadenaGenKeypairFromSeed (replayCrypto shownRecordings) shownKeys (.text (js "pw"))
        (some seed) (.range 0 1) fun k => if k = 0 then secondDraw else thirdDraw).map
          (OneOrMany.map Prod.fst) = .ok (.many shownPublicKeys) := by
  rcases kadenaEncrypt_opens shownRecordings_inverts (.text (js "pw")) (.bytes slip10Seed) .base64
    countingDraw with ⟨seed, hseed, hopens⟩
  have hshown (index : Int) : kadenaGetPublic (replayCrypto shownRecordings) shownKeys
      (.text (js "pw")) (some seed) (.index index) =
        (genPublicKeyFromSeed shownKeys slip10Seed index defaultTemplate).map .one := by
    rw [kadenaGetPublic, requireSeed_of_opens hopens, ok_bind, hopens, fromThrown, ok_bind]
    exact bind_pure_eq_map _ _
  have hkeys := @shown_keys _ shownKeys (.text (js "pw")) (some seed) defaultTemplate
    shownRecordings_inverts
  have hrange := (hkeys.2.1 0 1 shownPublicKeys).2 ⟨by decide, by
    refine .cons ((hshown 0).trans ?_) (.cons ((hshown 1).trans ?_) .nil)
    · decide +kernel
    · decide +kernel⟩
  have htemplate : isDerivationPathTemplateValid defaultTemplate = true := by decide
  exact ⟨seed, hseed, hrange, ((hkeys.1 (.range 0 1) _).1 htemplate).symm.trans hrange⟩

theorem generated_keys_sign_slip10 :
    ∃ seed key,
      kadenaEncrypt (replayCrypto slip10Recordings) (.text (js "pw")) (.bytes slip10Seed) .base64
        countingDraw = .ok seed ∧
      kadenaGenKeypairFromSeed (replayCrypto slip10Recordings) slip10Keys (.text (js "pw"))
        (some seed) (.index 0) (fun _ => secondDraw) = .ok (.one key) ∧
      let owner := (changePasswords (replayCrypto slip10Recordings) (.text (js "pw")) key.2
        [⟨.text (js "new"), .buffer, thirdDraw⟩]).1
      ∃ sig, kadenaSignWithKeyPair (replayCrypto slip10Recordings) (replayEd25519 slip10Key) owner.1
          key.1 owner.2 (js "AAECAwQFBgcICQoLDA0ODxAREhMUFRYXGBkaGxwdHh8") = .ok ⟨sig, key.1⟩ ∧
        kadenaVerify (replayEd25519 slip10Key) (.bytes slip10Key.message) key.1 sig = .ok true := by
  rcases exists_slip10Envelope with ⟨seed, hseed, hopens⟩
  have hpath : derivationPath defaultTemplate 0 = js "m'/44'/626'/0'" := by decide
  have hpair : deriveKeyPair slip10Keys slip10Seed (derivationPath defaultTemplate 0) =
      .ok ⟨uint8ArrayToHex slip10Key.seed, uint8ArrayToHex (0 :: slip10Key.publicKey)⟩ := by
    rw [hpath]
    rfl
  rcases kadenaGenKeypairFromSeed_index slip10Recordings_inverts hopens (by decide) hpair
    (fun _ => secondDraw) with ⟨key, hkey⟩
  have hsigns := generated_keys_sign slip10Recordings_inverts (documented_replayEd25519 slip10Key)
    derivesEd25519_slip10Keys hkey
  have hdecode : base64UrlDecodeArr (js "AAECAwQFBgcICQoLDA0ODxAREhMUFRYXGBkaGxwdHh8") =
      .ok slip10Key.message := by
    decide +kernel
  refine ⟨seed, _, hseed, hkey, ?_⟩
  cases hsigns with
  | cons hfirst hrest => exact (hfirst _ _).2 _ hdecode

end Recorded

end HdWallet
end StoaCore
