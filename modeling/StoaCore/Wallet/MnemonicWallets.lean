import StoaCore.HdWallet.ChainweaverKeys
import StoaCore.Wallet.KadenaWalletBuilder

/-!
# MnemonicWallets — the keys that a mnemonic leads back to

The wallet builder over the functions of the `hd-wallet` package.  The public key of a pair depends
on the mnemonic, the index and the family of the seed type, so a wallet that is built again, with
whatever password and draws, has its keys back; and a pair signs the hash of every command.
-/

namespace StoaCore
namespace Wallet

open Library.Js
open Library.Fallible (ok_bind bind_eq_ok mapError_eq_ok)
open Crypto (WebCrypto)
open Cryptography (Ed25519 hashBin base64UrlDigit base64UrlEncodeArr_eq)
open StoaCore.HdWallet
open StoaCore.HdWallet.Chainweaver (KeySemantics Delivers)

/-! ## The package under the builder -/

/-- What the package itself rests on; the two families have a `bip39` each. -/
structure Libraries where
  crypto : WebCrypto
  wasm : KadenaWasm
  hdKeys : HDKeys
  bip39 : Bip39
  kadenaBip39 : Bip39

/-- What the library answers is what the functions of the package answer, whatever they draw. -/
structure Libraries.Backs (L : Libraries) (lib : Wallet.HdWallet) : Prop where
  kadenaMnemonicToRootKeypair : ∀ {password mnemonic seed},
    lib.kadenaMnemonicToRootKeypair password mnemonic = .ok seed →
      ∃ draw, Chainweaver.kadenaMnemonicToRootKeypair L.crypto L.wasm L.kadenaBip39
        (.text password) mnemonic .base64 draw = .ok (.text seed)
  kadenaGenKeypair : ∀ {password seed} {index : Int} {pair},
    lib.kadenaGenKeypair password seed (some (.finite index)) = .ok pair →
      ∃ draws, Chainweaver.kadenaGenKeypair L.crypto L.wasm (.text password) (.text seed)
        (.index index) draws = .ok (.one ⟨pair.publicKey, .text pair.secretKey⟩)
  kadenaMnemonicToSeed : ∀ {password mnemonic seed},
    lib.kadenaMnemonicToSeed password mnemonic = .ok seed →
      ∃ draw, StoaCore.HdWallet.kadenaMnemonicToSeed L.crypto L.bip39 (.text password) mnemonic
        .base64 draw = .ok (.text seed)
  kadenaGenKeypairFromSeed : ∀ {password seed} {index : Int} {keys},
    lib.kadenaGenKeypairFromSeed password seed (some (.finite index)) = .ok keys →
      ∃ draws, StoaCore.HdWallet.kadenaGenKeypairFromSeed L.crypto L.hdKeys (.text password)
        (some (.text seed)) (.index index) draws = .ok (.one (keys.1, .text keys.2))

/-- The seed type has a root key, and not a seed. -/
def SeedType.hasRootKey : SeedType → Bool
  | .chainweaver | .eckowallet => true
  | .koala | .stoic => false

variable {lib : Wallet.HdWallet} {α : Type}

theorem fromLibrary_eq_ok {call : Except lib.LibraryError α} {a : α} :
    fromLibrary call = .ok a ↔ call = .ok a := by
  cases call with
  | ok b => exact ⟨fun h => congrArg _ (Except.ok.inj h), fun h => congrArg _ (Except.ok.inj h)⟩
  | error e => exact ⟨fun h => (nomatch h), fun h => (nomatch h)⟩

/-! ## What a pair is -/

section Pairs

variable {L : Libraries} (hlib : L.Backs lib) (hcrypto : L.crypto.Inverts)
  {password mnemonic : JsString} {index : Int} {t : SeedType} {pair : WalletPair}

include hlib hcrypto

/-- A pair of the older wallets is derived from the root key of the mnemonic. -/
theorem delivers_of_rootKey (S : KeySemantics L.wasm) (ht : t.hasRootKey = true)
    (h : createWalletPairFromMnemonic lib password mnemonic (some (.finite index)) t = .ok pair) :
    ∃ root, S.mnemonicRoot L.kadenaBip39 mnemonic = some root ∧
      Delivers L.crypto S (.text password) (S.key root index)
        ⟨pair.publicKey, .text pair.secretKey⟩ := by
  have hchain : createWalletPairFromMnemonic lib password mnemonic (some (.finite index))
      .chainweaver = .ok pair := by
    cases t with
    | chainweaver => exact h
    | eckowallet => exact h
    | koala => cases ht
    | stoic => cases ht
  rw [createWalletPairFromMnemonic] at hchain
  split at hchain
  · cases hchain
  · rcases bind_eq_ok.1 hchain with ⟨seed, hseed, hkeys⟩
    rcases hlib.kadenaMnemonicToRootKeypair (fromLibrary_eq_ok.1 hseed) with ⟨draw, hroot⟩
    rcases hlib.kadenaGenKeypair (fromLibrary_eq_ok.1 hkeys) with ⟨draws, hpair⟩
    rcases @Chainweaver.kadenaMnemonicToRootKeypair_opens _ _ S hcrypto _ _ _ _ _ _ hroot with
      ⟨root, hmnemonic, hopens⟩
    refine ⟨root, hmnemonic, ?_⟩
    have hdelivers := Chainweaver.kadenaGenKeypair_delivers hcrypto hopens (.index index) draws
    rw [hpair] at hdelivers
    split at hdelivers
    · cases hdelivers
    · rcases hdelivers with ⟨pairs, hpairs, hall⟩
      cases hpairs
      cases hall with
      | cons hfirst hrest => exact hfirst

/-- Any other pair is derived from the seed of the mnemonic. -/
theorem exports_of_seed (ht : t.hasRootKey = false)
    (h : createWalletPairFromMnemonic lib password mnemonic (some (.finite index)) t = .ok pair) :
    ∃ seed, L.bip39.mnemonicToSeed mnemonic = .ok seed ∧
      Exports L.crypto L.hdKeys (.text password) seed defaultTemplate index
        (pair.publicKey, .text pair.secretKey) := by
  have hkoala : createWalletPairFromMnemonic lib password mnemonic (some (.finite index))
      .koala = .ok pair := by
    cases t with
    | chainweaver => cases ht
    | eckowallet => cases ht
    | koala => exact h
    | stoic => exact h
  rw [createWalletPairFromMnemonic] at hkoala
  split at hkoala
  · cases hkoala
  · rcases bind_eq_ok.1 hkoala with ⟨standardSeed, hseed, hmade⟩
    rcases bind_eq_ok.1 hmade with ⟨⟨publicKey, secretKey⟩, hkeys, heq⟩
    cases heq
    rcases hlib.kadenaMnemonicToSeed (fromLibrary_eq_ok.1 hseed) with ⟨draw, henvelope⟩
    rcases hlib.kadenaGenKeypairFromSeed (fromLibrary_eq_ok.1 hkeys) with ⟨draws, hpair⟩
    rcases kadenaMnemonicToSeed_opens hcrypto henvelope with ⟨seed, hmnemonic, hopens⟩
    rcases kadenaGenKeypairFromSeed_exports hcrypto hopens hpair with ⟨-, hall⟩
    refine ⟨seed, hmnemonic, ?_⟩
    cases hall with
    | cons hfirst hrest => exact hfirst

/-- A wallet that is built again, whatever the password and the draws of the two libraries, has its
public keys back. -/
theorem publicKey_recovered (S : KeySemantics L.wasm) {lib' : Wallet.HdWallet}
    (hlib' : L.Backs lib') {password' : JsString} {t' : SeedType} {pair' : WalletPair}
    (hfamily : t.hasRootKey = t'.hasRootKey)
    (h : createWalletPairFromMnemonic lib password mnemonic (some (.finite index)) t = .ok pair)
    (h' : createWalletPairFromMnemonic lib' password' mnemonic (some (.finite index)) t' =
      .ok pair') :
    pair.publicKey = pair'.publicKey := by
  cases ht : t.hasRootKey with
  | true =>
      rcases delivers_of_rootKey hlib hcrypto S ht h with ⟨root, hroot, hpair⟩
      rcases delivers_of_rootKey hlib' hcrypto S (hfamily ▸ ht) h' with ⟨root', hroot', hpair'⟩
      obtain rfl : root = root' := Option.some.inj (hroot.symm.trans hroot')
      exact hpair.publicKey.trans hpair'.publicKey.symm
  | false =>
      rcases exports_of_seed hlib hcrypto ht h with ⟨seed, hseed, hpair⟩
      rcases exports_of_seed hlib' hcrypto (hfamily ▸ ht) h' with ⟨seed', hseed', hpair'⟩
      obtain rfl : seed = seed' := Except.ok.inj (hseed.symm.trans hseed')
      rcases hpair.derived with ⟨derived, hderived, hpublic, -⟩
      rcases hpair'.derived with ⟨derived', hderived', hpublic', -⟩
      obtain rfl : derived = derived' := Except.ok.inj (hderived.symm.trans hderived')
      exact hpublic.trans hpublic'.symm

end Pairs

/-! ## The hash of a command -/

theorem bufferBase64Value_urlDigit {n : Nat} (h : n < 64) :
    bufferBase64Value (base64UrlDigit n) = some n := by
  revert n
  decide

/-- `Buffer.from` reads a hash as the digest it was written from. -/
theorem bufferFromBase64_hash {blake2b : Bytes → Bytes} {cmd text : JsString}
    (h : Cryptography.hash blake2b cmd = .ok text) :
    bufferFromBase64 text = hashBin blake2b cmd := by
  rw [Cryptography.hash, base64UrlEncodeArr_eq] at h
  cases h
  have hread := bufferFromBase64_digits (fun _ h => bufferBase64Value_urlDigit h)
    (fun _ h => Cryptography.base64UrlDigit_ne_pad h) (hashBin blake2b cmd) 0
  rw [List.replicate_zero, List.append_nil] at hread
  exact hread

/-! ## Signing -/

/-- The pair signs the hash, and the signature of its bytes verifies under the public key. -/
def SignsHash (L : Libraries) (E : Ed25519) (password : JsString) (pair : WalletPair)
    (hasRootKey : Bool) (hash : JsString) (hashBytes : Bytes) : Prop :=
  if hasRootKey then
    ∃ sig, Chainweaver.kadenaSign L.crypto L.wasm (.text password) hash (.text pair.secretKey) =
        .ok sig ∧
      Vendor.kadenaVerify L.wasm hashBytes (bufferFromHex pair.publicKey) sig = .ok true
  else
    ∃ sig, kadenaSignWithKeyPair L.crypto E (.text password) pair.publicKey
        (.text pair.secretKey) hash = .ok ⟨sig, pair.publicKey⟩ ∧
      kadenaVerify E (.bytes hashBytes) pair.publicKey sig = .ok true

/-- A pair of any seed type signs every command, and is the pair of its mnemonic: a wallet of the
same family that is built again, whatever the password and the draws, has the same public key. -/
theorem mnemonic_wallets_sign {L : Libraries} (hlib : L.Backs lib) (hcrypto : L.crypto.Inverts)
    {E : Ed25519} (hE : E.Documented) (hderives : DerivesEd25519 L.hdKeys E)
    (S : KeySemantics L.wasm) {password mnemonic : JsString} {index : Int} {t : SeedType}
    {pair : WalletPair}
    (h : createWalletPairFromMnemonic lib password mnemonic (some (.finite index)) t =
      .ok pair) :
    (∀ (lib' : Wallet.HdWallet), L.Backs lib' → ∀ password' t' pair',
      t.hasRootKey = t'.hasRootKey →
        createWalletPairFromMnemonic lib' password' mnemonic (some (.finite index)) t' = .ok pair' →
          pair.publicKey = pair'.publicKey) ∧
    ∀ blake2b cmd, ∃ hash, Cryptography.hash blake2b cmd = .ok hash ∧
      SignsHash L E password pair t.hasRootKey hash (hashBin blake2b cmd) := by
  refine ⟨fun lib' hlib' password' t' pair' hfamily h' =>
    publicKey_recovered hlib hcrypto S hlib' hfamily h h', fun blake2b cmd => ?_⟩
  rcases Cryptography.hash_spec blake2b cmd with ⟨hash, hhash, hdecode⟩
  refine ⟨hash, hhash, ?_⟩
  cases ht : t.hasRootKey with
  | true =>
      rcases delivers_of_rootKey hlib hcrypto S ht h with ⟨root, -, hpair⟩
      rcases hpair.opens with ⟨secret, -, hholds⟩
      -- The hex text of the pair stands for the public key of the plain key.
      have hpublic : bufferFromHex pair.publicKey = S.publicKey (S.key root index) :=
        (congrArg bufferFromHex hpair.publicKey).trans (bufferFromHex_bufferToHex _)
      refine ⟨_, Chainweaver.kadenaSign_eq hpair.opens hash, ?_⟩
      rw [hpublic, bufferFromBase64_hash hhash]
      exact Chainweaver.kadenaVerify_signature hholds (hashBin blake2b cmd)
  | false =>
      rcases exports_of_seed hlib hcrypto ht h with ⟨seed, -, hpair⟩
      rcases hpair.derived with ⟨derived, hderived, hpublic, -⟩
      rcases signWithSeed_verifies hE hderives hderived hdecode with ⟨sig, hsign, hverify⟩
      refine ⟨sig, ?_, ?_⟩
      · rw [Exports.signs hpair rfl hash, hsign, ← hpublic]
      · rw [← hpublic] at hverify
        exact hverify

/-! ## The library of a recorded wallet -/

open Crypto (Draw countingDraw)

/-- The functions of the package with given draws, for indices that are integers. -/
def Libraries.library (L : Libraries) (seedDraw keyDraw : Draw) : Wallet.HdWallet where
  LibraryError := Unit
  kadenaCheckMnemonic := L.kadenaBip39.validateMnemonic
  validateMnemonic := L.bip39.validateMnemonic
  kadenaMnemonicToRootKeypair password mnemonic :=
    match Chainweaver.kadenaMnemonicToRootKeypair L.crypto L.wasm L.kadenaBip39 (.text password)
      mnemonic .base64 seedDraw with
    | .ok (.text seed) => .ok seed
    | _ => .error ()
  kadenaGenKeypair password seed index :=
    match index with
    | some (.finite q) =>
        match Chainweaver.kadenaGenKeypair L.crypto L.wasm (.text password) (.text seed)
          (.index q.num) fun _ => keyDraw with
        | .ok (.one ⟨publicKey, .text secretKey⟩) => .ok ⟨publicKey, secretKey⟩
        | _ => .error ()
    | _ => .error ()
  kadenaMnemonicToSeed password mnemonic :=
    match StoaCore.HdWallet.kadenaMnemonicToSeed L.crypto L.bip39 (.text password) mnemonic .base64
      seedDraw with
    | .ok (.text seed) => .ok seed
    | _ => .error ()
  kadenaGenKeypairFromSeed password seed index :=
    match index with
    | some (.finite q) =>
        match StoaCore.HdWallet.kadenaGenKeypairFromSeed L.crypto L.hdKeys (.text password)
          (some (.text seed)) (.index q.num) fun _ => keyDraw with
        | .ok (.one (publicKey, .text secretKey)) => .ok (publicKey, secretKey)
        | _ => .error ()
    | _ => .error ()

theorem library_backs (L : Libraries) (seedDraw keyDraw : Draw) :
    L.Backs (L.library seedDraw keyDraw) where
  kadenaMnemonicToRootKeypair {password mnemonic seed} h := by
    refine ⟨seedDraw, ?_⟩
    dsimp only [Libraries.library] at h
    split at h
    · cases h
      assumption
    · cases h
  kadenaGenKeypair {password seed index pair} h := by
    refine ⟨fun _ => keyDraw, ?_⟩
    dsimp only [Libraries.library] at h
    rw [Rat.num_intCast] at h
    split at h
    · cases h
      assumption
    · cases h
  kadenaMnemonicToSeed {password mnemonic seed} h := by
    refine ⟨seedDraw, ?_⟩
    dsimp only [Libraries.library] at h
    split at h
    · cases h
      assumption
    · cases h
  kadenaGenKeypairFromSeed {password seed index keys} h := by
    refine ⟨fun _ => keyDraw, ?_⟩
    dsimp only [Libraries.library] at h
    rw [Rat.num_intCast] at h
    split at h
    · cases h
      assumption
    · cases h

/-- An envelope in Base64 is a text. -/
theorem text_of_kadenaEncrypt {crypto : WebCrypto} {password message data : BinaryLike}
    {draw : Draw} (h : kadenaEncrypt crypto password message .base64 draw = .ok data) :
    ∃ s, data = .text s := by
  rcases bind_eq_ok.1 h with ⟨result, -, hdata⟩
  cases hdata
  exact ⟨_, rfl⟩

theorem text_of_kadenaGenKeypair {crypto : WebCrypto} {W : KadenaWasm}
    {password rootKey : BinaryLike} {i : Int} {draws : Nat → Draw}
    {pairs : OneOrMany Chainweaver.KeyPair}
    (h : Chainweaver.kadenaGenKeypair crypto W password rootKey (.index i) draws = .ok pairs) :
    ∃ publicKey s, pairs = .one ⟨publicKey, .text s⟩ := by
  rcases bind_eq_ok.1 h with ⟨decrypted, -, hgenerate⟩
  rcases bind_eq_ok.1 hgenerate with ⟨pair, hpair, hpairs⟩
  cases hpairs
  rw [Chainweaver.kadenaGenOneKeypair] at hpair
  split at hpair
  · cases hpair
  · rcases bind_eq_ok.1 hpair with ⟨keyPair, -, hencrypt⟩
    rcases bind_eq_ok.1 hencrypt with ⟨secretKey, hsecret, heq⟩
    rcases bind_eq_ok.1 hsecret with ⟨encrypted, -, hdata⟩
    cases heq
    cases hdata
    exact ⟨_, _, rfl⟩

def recordedLibraries : Libraries where
  crypto := replayCrypto Chainweaver.walletRecordings
  wasm := Chainweaver.recordedWasm
  hdKeys := slip10Keys
  bip39 := Chainweaver.recordedBip39
  kadenaBip39 := Chainweaver.recordedBip39

/-- The package makes a pair of the recorded mnemonic, whatever it draws for the root key. -/
theorem exists_recordedPair (seedDraw : Draw) {t : SeedType} (ht : t.hasRootKey = true) :
    ∃ pair, createWalletPairFromMnemonic (recordedLibraries.library seedDraw secondDraw) []
      Chainweaver.recordedMnemonic (some (.finite ((1 : Int) : Rat))) t = .ok pair := by
  rcases Chainweaver.exists_recordedRootKey seedDraw with ⟨rootKey, hroot, hopens⟩
  rcases bind_eq_ok.1 hroot with ⟨key, -, hencrypt⟩
  rcases text_of_kadenaEncrypt (mapError_eq_ok.1 hencrypt) with ⟨seed, rfl⟩
  have hholds : Chainweaver.Opens (replayCrypto Chainweaver.walletRecordings)
      Chainweaver.recordedSemantics (.text []) (.text seed) Chainweaver.recordedRoot :=
    ⟨_, hopens, rfl, Chainweaver.length_recorded.2.1⟩
  have hmade := Chainweaver.kadenaGenKeypair_delivers Chainweaver.walletRecordings_inverts hholds
    (.index 1) fun _ => secondDraw
  rw [if_neg (by decide)] at hmade
  rcases hmade with ⟨pairs, hpairs, -⟩
  rcases text_of_kadenaGenKeypair hpairs with ⟨publicKey, secretKey, rfl⟩
  refine ⟨⟨publicKey, secretKey⟩, ?_⟩
  have hvalid : (recordedLibraries.library seedDraw secondDraw).kadenaCheckMnemonic
      Chainweaver.recordedMnemonic = true :=
    (decide_eq_true rfl : decide (Chainweaver.recordedMnemonic = _) = true)
  have hseed : (recordedLibraries.library seedDraw secondDraw).kadenaMnemonicToRootKeypair []
      Chainweaver.recordedMnemonic = .ok seed := by
    simp only [Libraries.library, recordedLibraries, hroot]
  have hkeys : (recordedLibraries.library seedDraw secondDraw).kadenaGenKeypair [] seed
      (some (.finite ((1 : Int) : Rat))) = .ok ⟨publicKey, secretKey⟩ := by
    simp only [Libraries.library, recordedLibraries, Rat.num_intCast, hpairs]
  cases t with
  | chainweaver | eckowallet =>
      simp only [createWalletPairFromMnemonic, hvalid, hseed, fromLibrary, ok_bind, hkeys]
      rfl
  | koala | stoic => cases ht

/-- The wallet of the recorded mnemonic is built twice, as one of each of the older wallets and with
another draw; the pair at index 1 signs a command. -/
theorem mnemonic_wallets_sign_recorded :
    ∃ pair again,
      createWalletPairFromMnemonic (recordedLibraries.library countingDraw secondDraw) []
        Chainweaver.recordedMnemonic (some (.finite ((1 : Int) : Rat))) .chainweaver = .ok pair ∧
      createWalletPairFromMnemonic (recordedLibraries.library thirdDraw secondDraw) []
        Chainweaver.recordedMnemonic (some (.finite ((1 : Int) : Rat))) .eckowallet = .ok again ∧
      pair.publicKey = again.publicKey ∧
      ∃ hash, Cryptography.hash (fun _ => Chainweaver.recordedCommand) (js "command") = .ok hash ∧
        SignsHash recordedLibraries (replayEd25519 slip10Key) [] pair true hash
          Chainweaver.recordedCommand := by
  rcases @exists_recordedPair countingDraw .chainweaver rfl with ⟨pair, hpair⟩
  rcases @exists_recordedPair thirdDraw .eckowallet rfl with ⟨again, hagain⟩
  have hsigns := mnemonic_wallets_sign (library_backs recordedLibraries countingDraw secondDraw)
    Chainweaver.walletRecordings_inverts (documented_replayEd25519 slip10Key)
    derivesEd25519_slip10Keys Chainweaver.recordedSemantics hpair
  have hrecovered := hsigns.1 _ (library_backs recordedLibraries thirdDraw secondDraw) [] _ again
    rfl hagain
  exact ⟨pair, again, hpair, hagain, hrecovered,
    hsigns.2 (fun _ => Chainweaver.recordedCommand) (js "command")⟩

end Wallet
end StoaCore
