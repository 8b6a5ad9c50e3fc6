import StoaCore.HdWallet.Chainweaver
import StoaCore.HdWallet.DerivedKeys
import StoaCore.Library.Transition

/-!
# ChainweaverKeys — what the envelopes of the older wallets hold

An envelope opens to the key it was made of, and tells its public key to anyone.  Which key that is
depends on the mnemonic and the index alone: the passwords of the root key and of the derived keys
may be changed in any order, and every key still signs as the root key does at its index.
-/

namespace StoaCore
namespace HdWallet
namespace Chainweaver

open Library Library.Js
open Library.Fallible (ok_bind bind_eq_ok findSome?_related)
open Crypto (WebCrypto Draw)
open Transition (System Run)

/-! ## A recorded wallet -/

section Recorded

open Crypto (Recording countingDraw)

/-- 32 bytes, written as a number. -/
def word (n : Nat) : Bytes :=
  bufferFromHex (hexText 64 n)

def recordedMnemonic : JsString :=
  js "mammal east oxygen romance wheel chimney frequent brain spawn owner announce sell"

/-- The seed of the mnemonic. -/
def recordedSeed : Bytes :=
  word 0x26d2da501e4bec13c201e90c3042aec01af56bbf6ac6e50ddabf64a2393166f4 ++
    word 0x862238222c4a2c8e361d0574ec92bd08f449d410810f5791de95c36653820309

/-- The first digest of the seed that is tried. -/
def recordedDigest : Bytes :=
  word 0x1c7958de971093476f086160b8d21e9fd4199f6d511911ba83077c0a6e96dda3 ++
    word 0x7cf126abfb4469940fb9a2bc7d11eda619698f23e4839ef140304e9e32e05aeb

/-- The root key, under the empty password. -/
def recordedRoot : Bytes :=
  word 0xe87817c9edc70273c130ab44e9f97e7bc6c27357679a22116a5ecf338439554b ++
    word 0x5f8b8b16177db68c31f8c015bcb69dfe2c9f382c7a6398d5d413c9e7b47b303a ++
    word 0x4fba62f6cace2510bc6f7688271816da405528fa856a58cf149ffdf01354d6a4 ++
    word 0x7cf126abfb4469940fb9a2bc7d11eda619698f23e4839ef140304e9e32e05aeb

/-- The key at the hardened index 1, under the empty password. -/
def recordedChild : Bytes :=
  word 0xf808a8fe7aeedfe1f4bb5bc6822ef18a5a9ba111358fe83298942b228739554b ++
    word 0xa0932b7e98ca7bb531568e35652e25a71482f48f002cd8aa2746bd5066e3238f ++
    word 0x83a185400b2fdaaacf44afe93e126ba528900ec66cd31a9e5b104ffe92d96976 ++
    word 0x20d2b56d37b951f5fad9f0a3d0c227313e924851a9d33de9681675c2b39eb4a8

/-- The key at the index 0, which is not hardened, under the empty password. -/
def recordedSoft : Bytes :=
  word 0x50ea47477dd18bb4cc0c99131734e6a7aece4e87c6abe75b60fb190b8c39554b ++
    word 0xd5947434179dce311f74f7a0c02495ba93572aef38db5af82e6d55675ec5ec95 ++
    word 0x7a86adeea7a8be4de87f231631c6036103ec1ba01ff790797a63e6b7817a8c78 ++
    word 0x0401f4bd79934d4f1a3ef87c3222b911a266fa9691a259d28130489427eaddc4

/-- The digest of the command `command`. -/
def recordedCommand : Bytes :=
  word 0xcbe8b5a5fe1f946cd0220aa53ab26aaafe93e14fcec6635bb2db1f50f8d5fbe7

/-- Its signatures of two messages: what the Base64 text `abc` stands for, and that digest. -/
def recordedSignatures : List (Bytes × Bytes) :=
  [(bufferFromBase64 (js "abc"),
      word 0xbedd0722d330f063266b4b72b2987856c9c7bc0f5f894eb490541441c59bf4c2 ++
        word 0x1dba3d35e5214050c90e727b16617c885cb74b2d3fbcd0ebb723f524c8679805),
    (recordedCommand,
      word 0xe4e918661819443f4833f6e37151eb51d7a9f8c0c69c50c9c5e9685356986242 ++
        word 0x5f8e8b7f4f18c9436f550e6268d89e7d94a04e8da16ac5ba131528a3f6df8701)]

def fourthDraw : Draw where
  salt := [48, 49, 50, 51, 52, 53, 54, 55, 56, 57, 58, 59, 60, 61, 62, 63]
  iv := [48, 49, 50, 51, 52, 53, 54, 55, 56, 57, 58, 59]
  salt_length := rfl
  iv_length := rfl

/-- The root key twice, with different draws, and the two derived keys. -/
def walletRecordings : List Recording :=
  [{ params := { hash := .sha256, iterations := 310000, salt := countingDraw.salt }
     password := []
     iv := countingDraw.iv
     data := recordedRoot
     ciphertext :=
       word 0x10f9d2041bfc1ba3b3fbfd3d4d5d1d6bbd78b5afc4a4202c2e59b51cba6f1ddd ++
         word 0x62613017b4d6e7f6ab7c4e80dc0d7b096884c2dbf1d5c43ad93f75044d0c6e76 ++
         word 0xfcc26c17efbe2a0f1d825e97f2a585f1fed96ebf765557ea15e48e08b16ed018 ++
         word 0x0e0ece99fff6707c8f1d5096f84385237e3d20c7d32d9d5034362c9120a51b22 ++
         bufferFromHex (hexText 32 0x939c45bfabdc80cc25adfdb601694772)
     tag_ne := by decide +kernel },
   { params := { hash := .sha256, iterations := 310000, salt := thirdDraw.salt }
     password := []
     iv := thirdDraw.iv
     data := recordedRoot
     ciphertext :=
       word 0x2fb2bb8e6ebfc92d2653402c78c63ec747fa8880455a8c3e2924bf4b19d070b4 ++
         word 0x73addb7f2cf507dc7a59af56faf682ec094e4c5eed5950b68ea28a50da709ce9 ++
         word 0xe454f4913c06b8d5b1ea0a7f122d7afa65670e24a51b265a9df2d1a784275c42 ++
         word 0x8520bb875c9fedcca84f5d0e02eea629edcd6d6e6a3f6e384cdbc21e27f29a89 ++
         bufferFromHex (hexText 32 0x3b140c99a54875b961d8149d4a6d989f)
     tag_ne := by decide +kernel },
   { params := { hash := .sha256, iterations := 310000, salt := secondDraw.salt }
     password := []
     iv := secondDraw.iv
     data := recordedChild
     ciphertext :=
       word 0xf670f63b3ae37be0fca7759e335948c02d6b02c2ac3be966044617fe049b449d ++
         word 0x4abfd475a5c5999c672143759d3aac5393a91d13bb0693001a3d89c98fcd2d35 ++
         word 0x24176d80a2d7a6f83bb89a3ac495af6e0da2260d53b5260dcb5a3eea00bf1050 ++
         word 0x36babf0e21eced41916ce4816a6c57207a7ff0e8c5e1521068c792ad5e2cc9d7 ++
         bufferFromHex (hexText 32 0xd3231ac575b637410dd2ee57377b5d26)
     tag_ne := by decide +kernel },
   { params := { hash := .sha256, iterations := 310000, salt := fourthDraw.salt }
     password := []
     iv := fourthDraw.iv
     data := recordedSoft
     ciphertext :=
       word 0xe324a64fa37f9e294323316b4835ee26613ae0f5a836544f43b1d14e1b4369e2 ++
         word 0x8d0c7a7706e7d1b21da98142919e0720ba11b5f7a7c44eb85bb2ffdcea82f6e3 ++
         word 0xd0634b2fd7b9be7bbc4de72f29f5d22b407cafe9743cf62e107915b09ce79e7b ++
         word 0xe4dc444500321a54554ae074b1d38200394905610983b0b48c213f71456dec11 ++
         bufferFromHex (hexText 32 0x4e8c4c2977c26e4fecab9615410882c9)
     tag_ne := by decide +kernel }]

theorem walletRecordings_inverts : (replayCrypto walletRecordings).Inverts :=
  replayCrypto_inverts (by decide)

theorem length_recorded :
    recordedDigest.length = 64 ∧ recordedRoot.length = 128 ∧ recordedChild.length = 128 ∧
      recordedSoft.length = 128 ∧ ∀ entry ∈ recordedSignatures, entry.2.length = 64 := by
  decide +kernel

/-- The root key under `pw`, and under `new`. -/
def envelopeRecordings : List Recording :=
  [{ params := { hash := .sha256, iterations := 310000, salt := countingDraw.salt }
     password := textEncode (js "pw")
     iv := countingDraw.iv
     data := recordedRoot
     ciphertext :=
       word 0x1d48b689b58d16612f5151c4dd5f60c1b99e394fe0eaf82df6bdcf2e6d56f097 ++
         word 0x46546f357b3c773825623ff952584706dee99f7802af6d063c614566059917a3 ++
         word 0x1b7b5b9884537d41594e602f5a432ef6ca3a056c4145503df5a5ee9f0d91cf9e ++
         word 0x81db7b458b33df53932535d2aab483019371602b60c1f2bd13ee36a255f640a5 ++
         bufferFromHex (hexText 32 0x413c2abdbc89b4df9189d61cba231eca)
     tag_ne := by decide +kernel },
   { params := { hash := .sha256, iterations := 310000, salt := secondDraw.salt }
     password := textEncode (js "new")
     iv := secondDraw.iv
     data := recordedRoot
     ciphertext :=
       word 0x663b16647f1cbfaa35d8be491dea860ad05b5bbc6f6e709f29e9c6202ec5e4df ++
         word 0xccef083d6b24c1e7e2eaaf963f3cb028c78391b55ea3c34470dc23506d53f1c9 ++
         word 0xc9bc4da322605fb336818eb90e260cd081d9dbb7f793a545f54b997d20580a04 ++
         word 0xd0e51d79ee0b16d629ee76a69e6d52e1af6f869e1bb4c9bae80db22599277c67 ++
         bufferFromHex (hexText 32 0x2ad78712dea9809061b23fb2aa18a5a5)
     tag_ne := by decide +kernel }]

theorem envelopeRecordings_inverts : (replayCrypto envelopeRecordings).Inverts :=
  replayCrypto_inverts (by decide)

end Recorded

/-! ## Envelopes with a public key -/

theorem length_publicPart {key : Bytes} (h : key.length = 128) : (publicPart key).length = 32 := by
  rw [publicPart, List.length_take, List.length_drop, h]
  rfl

/-- The public key that an envelope tells is its last part. -/
theorem kadenaGetPublic_envelope (parts : List Bytes) (last : Bytes) (encode : Encode) :
    kadenaGetPublic (encodeAs encode (envelope (parts ++ [last]))) = bufferToHex last := by
  have hparts := @partsOf_encodeAs (parts ++ [last]) (by simp) encode
  rw [kadenaGetPublic, getPublicKeyFromLegacySecretKey, hparts, List.map_append, List.map_cons,
    List.map_nil, List.getLastD_eq_getLast?, List.getLast?_append, List.getLast?_singleton]
  exact congrArg bufferToHex (bufferFromBase64_bufferToBase64 last)

section Envelopes

variable {crypto : WebCrypto} (hcrypto : crypto.Inverts)

include hcrypto

theorem encryptLegacySecretKey_spec (password : BinaryLike) (secretKey : Bytes) (draw : Draw) :
    ∃ data, encryptLegacySecretKey crypto password secretKey draw = .ok data ∧
      kadenaDecrypt crypto password data = .ok secretKey ∧
      kadenaGetPublic data = bufferToHex (publicPart secretKey) := by
  rcases kadenaEncrypt_spec hcrypto password (.bytes secretKey) .base64 draw with
    ⟨cipherText, hencrypt, hopens⟩
  have htext := @envelope_append [draw.salt, draw.iv, cipherText,
    textEncode (decimalText defaultIterations)] (List.cons_ne_nil _ _) (publicPart secretKey)
  refine ⟨encodeAs .base64 (envelope ([draw.salt, draw.iv, cipherText,
    textEncode (decimalText defaultIterations)] ++ [publicPart secretKey])), ?_, ?_, ?_⟩
  · rw [encryptLegacySecretKey, hencrypt, htext]
    dsimp only [Except.mapError]
    rw [ok_bind, envelopeText_encodeAs]
    rfl
  · exact hopens [publicPart secretKey] .base64
  · exact kadenaGetPublic_envelope _ _ _

/-- An envelope without a public key tells the number of iterations in its place. -/
theorem kadenaGetPublic_kadenaEncrypt {password message : BinaryLike} {encode : Encode}
    {draw : Draw} {data : BinaryLike}
    (h : kadenaEncrypt crypto password message encode draw = .ok data) :
    kadenaGetPublic data = bufferToHex (textEncode (decimalText defaultIterations)) := by
  rcases kadenaEncrypt_spec hcrypto password message encode draw with ⟨cipherText, hencrypt, -⟩
  obtain rfl := Except.ok.inj (h.symm.trans hencrypt)
  exact kadenaGetPublic_envelope [draw.salt, draw.iv, cipherText] _ encode

/-- The envelope of a key opens to it and tells its public key.  The change of password that knows
nothing of these envelopes keeps the key, but the new envelope tells a number instead. -/
theorem legacy_envelope (password : BinaryLike) (secretKey : Bytes) (draw : Draw) :
    ∃ data, encryptLegacySecretKey crypto password secretKey draw = .ok data ∧
      kadenaDecrypt crypto password data = .ok secretKey ∧
      kadenaGetPublic data = bufferToHex (publicPart secretKey) ∧
      ∀ newPassword encode draw' newData,
        HdWallet.kadenaChangePassword crypto password data newPassword encode draw' = .ok newData →
          kadenaDecrypt crypto newPassword newData = .ok secretKey ∧
          kadenaGetPublic newData = js "333130303030" := by
  rcases encryptLegacySecretKey_spec hcrypto password secretKey draw with
    ⟨data, hdata, hopens, hpublic⟩
  refine ⟨data, hdata, hopens, hpublic, fun newPassword encode draw' newData hchange => ?_⟩
  have hspec := @kadenaChangePassword_spec _ hcrypto _ _ newPassword _ hopens encode draw'
  rw [HdWallet.kadenaChangePassword] at hchange hspec
  cases hrefusal : refusal password newPassword with
  | some reason =>
      rw [hrefusal] at hchange
      cases hchange
  | none =>
      -- The change opens the envelope and encrypts again, which writes four parts and no fifth.
      rw [hrefusal] at hchange hspec
      rw [hopens] at hchange hspec
      rcases hspec with ⟨newData', hchange', hnew⟩
      obtain rfl : newData = newData' := Except.ok.inj (hchange.symm.trans hchange')
      refine ⟨hnew, ?_⟩
      dsimp only at hchange
      cases hencrypt : kadenaEncrypt crypto newPassword (.bytes secretKey) encode draw' with
      | error e =>
          rw [hencrypt] at hchange
          cases hchange
      | ok made =>
          rw [hencrypt] at hchange
          cases hchange
          have hdigits : bufferToHex (textEncode (decimalText defaultIterations)) =
              js "333130303030" := by
            decide
          rw [kadenaGetPublic_kadenaEncrypt hcrypto hencrypt, hdigits]

end Envelopes

/-- The recorded root key under `pw`; then the password is changed to `new`. -/
theorem legacy_envelope_root :
    ∃ data newData,
      encryptLegacySecretKey (replayCrypto envelopeRecordings) (.text (js "pw")) recordedRoot
        Crypto.countingDraw = .ok data ∧
      kadenaDecrypt (replayCrypto envelopeRecordings) (.text (js "pw")) data = .ok recordedRoot ∧
      kadenaGetPublic data = bufferToHex (publicPart recordedRoot) ∧
      HdWallet.kadenaChangePassword (replayCrypto envelopeRecordings) (.text (js "pw")) data
        (.text (js "new")) .base64 secondDraw = .ok newData ∧
      kadenaDecrypt (replayCrypto envelopeRecordings) (.text (js "new")) newData =
        .ok recordedRoot ∧
      kadenaGetPublic newData = js "333130303030" := by
  rcases legacy_envelope envelopeRecordings_inverts (.text (js "pw")) recordedRoot
    Crypto.countingDraw with ⟨data, hdata, hopens, hpublic, hchanged⟩
  have hrefusal : refusal (.text (js "pw")) (.text (js "new")) = none := by decide
  have hspec := @kadenaChangePassword_spec _ envelopeRecordings_inverts _ _ (.text (js "new")) _
    hopens .base64 secondDraw
  rw [hrefusal] at hspec
  rcases hspec with ⟨newData, hchange, -⟩
  rcases hchanged _ _ _ _ hchange with ⟨hnew, hlost⟩
  exact ⟨data, newData, hdata, hopens, hpublic, hchange, hnew, hlost⟩

/-! ## What the compiled module computes -/

/-- The documented meaning of the stored bytes: they hold a plain key under a password.  Deriving,
signing and changing the password work on the plain key, which the password does not enter. -/
structure KeySemantics (W : KadenaWasm) where
  Plain : Type
  Holds : Bytes → Bytes → Plain → Prop
  root : Bytes → Bytes → Plain
  child : Plain → UInt32 → Plain
  publicKey : Plain → Bytes
  signature : Plain → Bytes → Bytes
  holds_root : ∀ {pwd seed chainCode key}, W.secretFromSeed pwd seed chainCode = some key →
    Holds pwd key (root seed chainCode)
  /-- Whether a seed makes a key does not depend on the password. -/
  isSome_secretFromSeed : ∀ pwd pwd' seed chainCode,
    (W.secretFromSeed pwd seed chainCode).isSome = (W.secretFromSeed pwd' seed chainCode).isSome
  holds_child : ∀ {pwd key plain} index, Holds pwd key plain →
    Holds pwd (W.derivePrivate pwd key index 2) (child plain index)
  holds_changePass : ∀ {pwd key plain} newPwd, Holds pwd key plain →
    Holds newPwd (W.changePass key pwd newPwd) plain
  publicPart_eq : ∀ {pwd key plain}, Holds pwd key plain →
    key.length = 128 ∧ publicPart key = publicKey plain
  sign_eq : ∀ {pwd key plain} msg, Holds pwd key plain → W.sign pwd key msg = signature plain msg
  verify_signature : ∀ plain msg, W.verify msg (publicKey plain) (signature plain msg) = true

def notHardened : WalletError :=
  .thrown (newError (js "Index must be hardened"))

theorem kadenaGenOneKeypair_negative {crypto : WebCrypto} {W : KadenaWasm} {index : Int}
    (h : index < 0) (password : BinaryLike) (rootKey : Bytes) (draw : Draw) :
    kadenaGenOneKeypair crypto W password rootKey (harden index) draw = .error notHardened := by
  apply if_pos
  rw [harden]
  omega

theorem validateBuffer_of_length {input : Bytes} {n : Nat} (h : input.length = n) :
    Vendor.validateBuffer input n = .ok () :=
  if_neg (not_not.2 h)

section Derived

variable {crypto : WebCrypto} {W : KadenaWasm} {password data : BinaryLike} {rootKey : Bytes}

/-- The public key at any index is a part of what the module derives there. -/
theorem kadenaGetPublicFromRootKey_of_opens
    (hopens : kadenaDecrypt crypto password data = .ok rootKey) (hlength : rootKey.length = 128)
    (index : Int) :
    kadenaGetPublicFromRootKey crypto W password data index =
      .ok (publicPart (W.derivePrivate password.raw rootKey (toUint32 index) 2)) := by
  rw [kadenaGetPublicFromRootKey, hopens, fromThrown, ok_bind, Vendor.kadenaGenKeypair,
    validateBuffer_of_length hlength]
  rfl

/-- An index that is not negative passes the check, and the key is what the module derives there. -/
theorem kadenaGenOneKeypair_spec (hcrypto : crypto.Inverts) (hlength : rootKey.length = 128)
    {index : Int} (hindex : 0 ≤ index) (draw : Draw) :
    let derived := W.derivePrivate password.raw rootKey (toUint32 (harden index)) 2
    ∃ secretKey, kadenaGenOneKeypair crypto W password rootKey (harden index) draw =
        .ok ⟨bufferToHex (publicPart derived), secretKey⟩ ∧
      kadenaDecrypt crypto password secretKey = .ok derived ∧
      kadenaGetPublic secretKey = bufferToHex (publicPart derived) := by
  intro derived
  rcases encryptLegacySecretKey_spec hcrypto password derived draw with
    ⟨secretKey, hsecret, hopened, hpublic⟩
  have hhardened : ¬ harden index < hardenedOffset := by
    rw [harden]
    omega
  refine ⟨secretKey, ?_, hopened, hpublic⟩
  rw [kadenaGenOneKeypair, if_neg hhardened, Vendor.kadenaGenKeypair,
    validateBuffer_of_length hlength, ok_bind]
  change (encryptLegacySecretKey crypto password derived draw >>= fun secretKey => _) = _
  rw [hsecret]
  rfl

end Derived

section Semantics

variable {crypto : WebCrypto} {W : KadenaWasm} {S : KeySemantics W}

/-- The envelope opens to the plain key. -/
def Opens (crypto : WebCrypto) (S : KeySemantics W) (password data : BinaryLike)
    (plain : S.Plain) : Prop :=
  ∃ key, kadenaDecrypt crypto password data = .ok key ∧ S.Holds password.raw key plain

/-- The key that is derived for an index of `kadenaGenKeypair`. -/
def KeySemantics.key (S : KeySemantics W) (root : S.Plain) (index : Int) : S.Plain :=
  S.child root (toUint32 (harden index))

/-- The plain root key of a seed: that of the first digest that makes a key. -/
def KeySemantics.seedRoot (S : KeySemantics W) (seed : Bytes) : Option S.Plain :=
  (List.range' 1 1000).findSome? fun i =>
    let digest := W.hmacSha512 seed (textEncode (js "Root Seed Chain " ++ decimalText i))
    let chainCode := (digest.drop 32).take 32
    if (W.secretFromSeed [] (digest.take 32) chainCode).isSome then
      some (S.root (digest.take 32) chainCode)
    else none

/-- The plain root key of a mnemonic; there is no password in it. -/
def KeySemantics.mnemonicRoot (S : KeySemantics W) (bip39 : Bip39) (mnemonic : JsString) :
    Option S.Plain :=
  match bip39.mnemonicToSeed mnemonic with
  | .ok seed => S.seedRoot seed
  | .error _ => none

/-- The loop over the digests takes the same one under every password. -/
theorem seedToKeypairV1_holds {pwd seed key : Bytes}
    (h : Vendor.seedToKeypairV1 W pwd seed = .ok key) :
    ∃ root, S.seedRoot seed = some root ∧ S.Holds pwd key root := by
  rw [Vendor.seedToKeypairV1] at h
  dsimp only at h
  split at h
  case h_2 => cases h
  case h_1 made hfound =>
    cases h
    refine findSome?_related ?_ ?_ hfound
    · intro i hnone
      dsimp only at hnone ⊢
      rw [S.isSome_secretFromSeed [] pwd, hnone]
      rfl
    · intro i found hsome
      dsimp only at hsome ⊢
      rw [S.isSome_secretFromSeed [] pwd, hsome]
      exact ⟨_, rfl, S.holds_root hsome⟩

theorem length_publicKey {pwd key : Bytes} {plain : S.Plain} (h : S.Holds pwd key plain) :
    (S.publicKey plain).length = 32 := by
  rw [← (S.publicPart_eq h).2]
  exact length_publicPart (S.publicPart_eq h).1

/-! ### Using a key -/

theorem kadenaSign_eq {password data : BinaryLike} {plain : S.Plain}
    (h : Opens crypto S password data plain) (hash : JsString) :
    kadenaSign crypto W password hash data = .ok (S.signature plain (bufferFromBase64 hash)) := by
  rcases h with ⟨key, hopens, hholds⟩
  rw [kadenaSign, hopens, fromThrown, ok_bind, Vendor.kadenaSign,
    validateBuffer_of_length (S.publicPart_eq hholds).1, ok_bind, S.sign_eq _ hholds]
  rfl

theorem kadenaGetPublicFromRootKey_eq {password data : BinaryLike} {plain : S.Plain}
    (h : Opens crypto S password data plain) (index : Int) :
    kadenaGetPublicFromRootKey crypto W password data index =
      .ok (S.publicKey (S.child plain (toUint32 index))) := by
  rcases h with ⟨key, hopens, hholds⟩
  have hchild := S.holds_child (toUint32 index) hholds
  rw [kadenaGetPublicFromRootKey_of_opens hopens (S.publicPart_eq hholds).1]
  exact congrArg Except.ok (S.publicPart_eq hchild).2

/-- A signature verifies under the public key it is made with. -/
theorem kadenaVerify_signature {pwd key : Bytes} {plain : S.Plain} (h : S.Holds pwd key plain)
    (msg : Bytes) :
    Vendor.kadenaVerify W msg (S.publicKey plain) (S.signature plain msg) = .ok true := by
  have hsize : (S.signature plain msg).length = 64 := by
    rw [← S.sign_eq msg h, W.length_sign]
  rw [Vendor.kadenaVerify, validateBuffer_of_length (length_publicKey h), ok_bind,
    validateBuffer_of_length hsize, ok_bind, S.verify_signature]
  rfl

/-! ### Making a key -/

variable (hcrypto : crypto.Inverts)

include hcrypto

/-- The envelope of a mnemonic opens to its root key. -/
theorem kadenaMnemonicToRootKeypair_opens {bip39 : Bip39} {password : BinaryLike}
    {mnemonic : JsString} {encode : Encode} {draw : Draw} {data : BinaryLike}
    (h : kadenaMnemonicToRootKeypair crypto W bip39 password mnemonic encode draw = .ok data) :
    ∃ root, S.mnemonicRoot bip39 mnemonic = some root ∧ Opens crypto S password data root := by
  rcases bind_eq_ok.1 h with ⟨key, hkey, hdata⟩
  rcases kadenaEncrypt_opens hcrypto password (.bytes key) encode draw with
    ⟨data', hencrypt, hopens⟩
  rw [hencrypt] at hdata
  cases hdata
  have hmade : Vendor.kadenaMnemonicToRootKeypair W bip39 password mnemonic = .ok key :=
    fromThrown_eq_ok.1 hkey
  rw [Vendor.kadenaMnemonicToRootKeypair] at hmade
  split at hmade
  case isFalse => cases hmade
  case isTrue =>
    rcases bind_eq_ok.1 hmade with ⟨seed, hseed, htried⟩
    rcases @seedToKeypairV1_holds _ S _ _ _ htried with ⟨root, hroot, hholds⟩
    refine ⟨root, ?_, key, hopens, hholds⟩
    rw [KeySemantics.mnemonicRoot, hseed]
    exact hroot

theorem kadenaChangePassword_opens {password data newPassword : BinaryLike} {plain : S.Plain}
    (h : Opens crypto S password data plain) (draw : Draw) :
    ∃ newData, kadenaChangePassword crypto W data password newPassword draw = .ok newData ∧
      Opens crypto S newPassword newData plain ∧
      kadenaGetPublic newData = bufferToHex (S.publicKey plain) := by
  rcases h with ⟨key, hopens, hholds⟩
  have hnew := S.holds_changePass newPassword.raw hholds
  rcases encryptLegacySecretKey_spec hcrypto newPassword
    (W.changePass key password.raw newPassword.raw) draw with ⟨newData, hdata, hopened, hpublic⟩
  refine ⟨newData, ?_, ⟨_, hopened, hnew⟩, (S.publicPart_eq hnew).2 ▸ hpublic⟩
  rw [kadenaChangePassword, hopens, fromThrown, ok_bind, Vendor.kadenaChangePassword,
    validateBuffer_of_length (S.publicPart_eq hholds).1, ok_bind]
  exact hdata

/-- A pair as it should be: its envelope opens, and both places tell the public key. -/
structure Delivers (crypto : WebCrypto) (S : KeySemantics W) (password : BinaryLike)
    (plain : S.Plain) (pair : KeyPair) : Prop where
  opens : Opens crypto S password pair.secretKey plain
  publicKey : pair.publicKey = bufferToHex (S.publicKey plain)
  told : kadenaGetPublic pair.secretKey = bufferToHex (S.publicKey plain)

theorem kadenaGenOneKeypair_delivers {password : BinaryLike} {rootKey : Bytes} {root : S.Plain}
    (h : S.Holds password.raw rootKey root) {index : Int} (hindex : 0 ≤ index) (draw : Draw) :
    ∃ pair, kadenaGenOneKeypair crypto W password rootKey (harden index) draw = .ok pair ∧
      Delivers crypto S password (S.key root index) pair := by
  have hchild := S.holds_child (toUint32 (harden index)) h
  have hpublicKey : publicPart (W.derivePrivate password.raw rootKey (toUint32 (harden index)) 2) =
      S.publicKey (S.key root index) := (S.publicPart_eq hchild).2
  rcases @kadenaGenOneKeypair_spec _ W password _ hcrypto (S.publicPart_eq h).1 _ hindex draw with
    ⟨data, hdata, hopens, hpublic⟩
  rw [hpublicKey] at hdata hpublic
  exact ⟨_, hdata, ⟨_, hopens, hchild⟩, rfl, hpublic⟩

/-- A loop over indices fails exactly if one of them is negative. -/
theorem genKeypairs_delivers {password : BinaryLike} {rootKey : Bytes} {root : S.Plain}
    (h : S.Holds password.raw rootKey root) (range : List Int) (draws : Nat → Draw) :
    if ∃ i ∈ range, i < 0 then
      genKeypairs crypto W password rootKey draws range = .error notHardened
    else ∃ pairs, genKeypairs crypto W password rootKey draws range = .ok pairs ∧
      List.Forall₂ (fun i pair => Delivers crypto S password (S.key root i) pair) range pairs := by
  -- On the range: what a key draws is gone for the keys behind it.
  induction range generalizing draws with
  | nil =>
      rw [if_neg (by simp)]
      exact ⟨[], rfl, List.Forall₂.nil⟩
  | cons i rest ih =>
      have hrest := ih fun k => draws (k + 1)
      by_cases hi : i < 0
      · rw [if_pos ⟨i, List.mem_cons_self, hi⟩, genKeypairs,
          kadenaGenOneKeypair_negative hi password rootKey]
        rfl
      · rcases kadenaGenOneKeypair_delivers hcrypto h (Int.not_lt.1 hi) (draws 0) with
          ⟨pair, hpair, hdelivers⟩
        rw [genKeypairs, hpair, ok_bind]
        by_cases hlater : ∃ j ∈ rest, j < 0
        -- The keys made so far are lost with the error of a later index.
        · rcases hlater with ⟨j, hj, hneg⟩
          rw [if_pos ⟨j, hj, hneg⟩] at hrest
          rw [if_pos ⟨j, List.mem_cons_of_mem i hj, hneg⟩, hrest]
          rfl
        · have hnone : ¬ ∃ j ∈ i :: rest, j < 0 := by
            rintro ⟨j, hj, hneg⟩
            rcases List.mem_cons.1 hj with rfl | hj
            · exact hi hneg
            · exact hlater ⟨j, hj, hneg⟩
          rw [if_neg hlater] at hrest
          rcases hrest with ⟨pairs, hpairs, hall⟩
          rw [if_neg hnone]
          refine ⟨pair :: pairs, ?_, List.Forall₂.cons hdelivers hall⟩
          rw [hpairs]
          rfl

/-- The indices that a call is about. -/
def KeyIndices.toList : KeyIndices → List Int
  | .index i => [i]
  | .range start last => indices start last

theorem kadenaGenKeypair_delivers {password data : BinaryLike} {root : S.Plain}
    (h : Opens crypto S password data root) (which : KeyIndices) (draws : Nat → Draw) :
    if ∃ i ∈ which.toList, i < 0 then
      kadenaGenKeypair crypto W password data which draws = .error notHardened
    else ∃ pairs, kadenaGenKeypair crypto W password data which draws = .ok pairs ∧
      List.Forall₂ (fun i pair => Delivers crypto S password (S.key root i) pair) which.toList
        pairs.toList := by
  rcases h with ⟨key, hopens, hholds⟩
  rw [kadenaGenKeypair, hopens, fromThrown, ok_bind]
  cases which with
  | index i =>
      by_cases hi : i < 0
      · rw [if_pos ⟨i, List.mem_cons_self, hi⟩]
        dsimp only
        rw [kadenaGenOneKeypair_negative hi password key]
        rfl
      · rcases kadenaGenOneKeypair_delivers hcrypto hholds (Int.not_lt.1 hi) (draws 0) with
          ⟨pair, hpair, hdelivers⟩
        have hnone : ¬ ∃ j ∈ [i], j < 0 := by simpa using hi
        rw [KeyIndices.toList, if_neg hnone]
        refine ⟨.one pair, ?_, List.Forall₂.cons hdelivers List.Forall₂.nil⟩
        dsimp only
        rw [hpair]
        rfl
  | range start last =>
      have hkeys := genKeypairs_delivers hcrypto hholds (indices start last) draws
      rw [KeyIndices.toList]
      by_cases hnegative : ∃ i ∈ indices start last, i < 0
      · rw [if_pos hnegative] at hkeys ⊢
        dsimp only
        rw [hkeys]
        rfl
      · rw [if_neg hnegative] at hkeys ⊢
        rcases hkeys with ⟨pairs, hpairs, hall⟩
        refine ⟨.many pairs, ?_, hall⟩
        dsimp only
        rw [hpairs]
        rfl

theorem kadenaSignFromRootKey_eq {password data : BinaryLike} {root : S.Plain}
    (h : Opens crypto S password data root) {index : Int} (hindex : 0 ≤ index) (hash : JsString)
    (draw : Draw) :
    kadenaSignFromRootKey crypto W password hash data index draw =
      .ok (S.signature (S.key root index) (bufferFromBase64 hash)) := by
  rcases h with ⟨key, hopens, hholds⟩
  rcases kadenaGenOneKeypair_delivers hcrypto hholds hindex draw with ⟨pair, hpair, hdelivers⟩
  rw [kadenaSignFromRootKey, hopens, fromThrown, ok_bind, hpair, ok_bind]
  exact kadenaSign_eq hdelivers.opens hash

end Semantics

/-! ## A wallet in use -/

/-- A key, the index it was made for, and the password of its envelope. -/
structure OwnedKey where
  index : Int
  password : BinaryLike
  pair : KeyPair

/-- What the owner of a wallet keeps. -/
structure LegacyWallet where
  rootPassword : BinaryLike
  rootKey : BinaryLike
  keys : List OwnedKey

/-- The calls an owner can make; a key is named by its place. -/
inductive Call
  | changeRootPassword (newPassword : BinaryLike) (draw : Draw)
  | generate (which : KeyIndices) (draws : Nat → Draw)
  | changeKeyPassword (place : Nat) (newPassword : BinaryLike) (draw : Draw)

/-- The call asks for a negative index. -/
def Call.Negative : Call → Prop
  | .generate which _ => ∃ i ∈ which.toList, i < 0
  | _ => False

instance (call : Call) : Decidable call.Negative := by
  cases call <;> unfold Call.Negative <;> infer_instance

section Wallet

variable (crypto : WebCrypto) (W : KadenaWasm)

/-- What the owner has after a call, and the error of the call. -/
def LegacyWallet.step (w : LegacyWallet) : Call → Option (LegacyWallet × Option WalletError)
  | .changeRootPassword newPassword draw =>
      match kadenaChangePassword crypto W w.rootKey w.rootPassword newPassword draw with
      | .ok data => some ({ w with rootPassword := newPassword, rootKey := data }, none)
      | .error e => some (w, some e)
  | .generate which draws =>
      match kadenaGenKeypair crypto W w.rootPassword w.rootKey which draws with
      | .ok pairs =>
          let made := (which.toList.zip pairs.toList).map fun (index, pair) =>
            { index := index, password := w.rootPassword, pair := pair }
          some ({ w with keys := w.keys ++ made }, none)
      | .error e => some (w, some e)
  | .changeKeyPassword place newPassword draw =>
      match w.keys[place]? with
      | none => none
      | some key =>
          match kadenaChangePassword crypto W key.pair.secretKey key.password newPassword draw with
          | .ok data =>
              let changed := { key with
                password := newPassword, pair := { key.pair with secretKey := data } }
              some ({ w with keys := w.keys.set place changed }, none)
          | .error e => some (w, some e)

def walletSystem (init : LegacyWallet) : System LegacyWallet Call (Option WalletError) where
  init := init
  step := LegacyWallet.step crypto W

variable {crypto W} in
theorem valid_of_step {init w w' : LegacyWallet} {call : Call} {e : Option WalletError}
    (h : w.step crypto W call = some (w', e)) :
    Transition.Record.Valid (walletSystem crypto W init) ⟨w, call, e, w'⟩ := h

/-- Every envelope of the wallet opens, under the password the owner has for it, to what the root
key and the index make of it. -/
structure Represents (S : KeySemantics W) (root : S.Plain) (w : LegacyWallet) : Prop where
  opens : Opens crypto S w.rootPassword w.rootKey root
  keys : ∀ key ∈ w.keys, 0 ≤ key.index ∧
    Delivers crypto S key.password (S.key root key.index) key.pair

variable {crypto W} {S : KeySemantics W} {root : S.Plain} (hcrypto : crypto.Inverts)

include hcrypto

/-- A call fails for a negative index alone, and then the wallet stays as it is. -/
theorem step_spec {w w' : LegacyWallet} {call : Call} {e : Option WalletError}
    (h : w.step crypto W call = some (w', e)) (hw : Represents crypto W S root w) :
    Represents crypto W S root w' ∧
      e = if call.Negative then some notHardened else none := by
  cases call with
  | changeRootPassword newPassword draw =>
      rcases kadenaChangePassword_opens hcrypto hw.opens draw with ⟨newData, hchange, hopens, -⟩
      rw [LegacyWallet.step, hchange] at h
      cases h
      exact ⟨⟨hopens, hw.keys⟩, rfl⟩
  | generate which draws =>
      have hmade := kadenaGenKeypair_delivers hcrypto hw.opens which draws
      by_cases hnegative : ∃ i ∈ which.toList, i < 0
      · rw [if_pos hnegative] at hmade
        rw [LegacyWallet.step, hmade] at h
        cases h
        exact ⟨hw, (if_pos hnegative).symm⟩
      · rw [if_neg hnegative] at hmade
        rcases hmade with ⟨pairs, hpairs, hall⟩
        rw [LegacyWallet.step, hpairs] at h
        cases h
        refine ⟨⟨hw.opens, fun key hkey => ?_⟩, (if_neg hnegative).symm⟩
        rcases List.mem_append.1 hkey with hold | hnew
        · exact hw.keys key hold
        -- A new key is paired with the index it was made for.
        · rcases List.mem_map.1 hnew with ⟨⟨index, pair⟩, hzip, rfl⟩
          have hindex : 0 ≤ index :=
            Int.not_lt.1 fun hlt => hnegative ⟨index, (List.of_mem_zip hzip).1, hlt⟩
          exact ⟨hindex, (List.forall₂_iff_zip.1 hall).2 hzip⟩
  | changeKeyPassword place newPassword draw =>
      rw [LegacyWallet.step] at h
      cases hkey : w.keys[place]? with
      | none =>
          rw [hkey] at h
          cases h
      | some key =>
          rcases hw.keys key (List.mem_of_getElem? hkey) with ⟨hindex, hdelivers⟩
          rcases kadenaChangePassword_opens hcrypto hdelivers.opens draw with
            ⟨newData, hchange, hopens, htold⟩
          rw [hkey] at h
          dsimp only at h
          rw [hchange] at h
          cases h
          refine ⟨⟨hw.opens, fun other hother => ?_⟩, rfl⟩
          rcases List.mem_or_eq_of_mem_set hother with hold | rfl
          · exact hw.keys other hold
          · exact ⟨hindex, hopens, hdelivers.publicKey, htold⟩

/-- Whatever an owner calls, in whichever order, only a negative index is refused.  A key is that of
the mnemonic and its index, tells its public key without a password and signs as the root key does
at its index, and its signatures verify under that public key. -/
theorem legacy_wallet_runs (S : KeySemantics W) {bip39 : Bip39} {password : BinaryLike}
    {mnemonic : JsString} {encode : Encode} {draw : Draw} {rootKey : BinaryLike}
    (hroot : kadenaMnemonicToRootKeypair crypto W bip39 password mnemonic encode draw =
      .ok rootKey)
    {trace : List (Transition.Record LegacyWallet Call (Option WalletError))} {w : LegacyWallet}
    (hrun : Run (walletSystem crypto W ⟨password, rootKey, []⟩) ⟨password, rootKey, []⟩ trace w) :
    (∀ r ∈ trace, r.out = if r.event.Negative then some notHardened else none) ∧
    ∃ root, S.mnemonicRoot bip39 mnemonic = some root ∧ ∀ key ∈ w.keys,
      key.pair.publicKey = bufferToHex (S.publicKey (S.key root key.index)) ∧
      kadenaGetPublic key.pair.secretKey = key.pair.publicKey ∧
      kadenaGetPublicFromRootKey crypto W w.rootPassword w.rootKey (harden key.index) =
        .ok (bufferFromHex key.pair.publicKey) ∧
      ∀ hash draw', ∃ sig,
        kadenaSign crypto W key.password hash key.pair.secretKey = .ok sig ∧
        kadenaSignFromRootKey crypto W w.rootPassword hash w.rootKey key.index draw' = .ok sig ∧
        Vendor.kadenaVerify W (bufferFromBase64 hash) (bufferFromHex key.pair.publicKey) sig =
          .ok true := by
  rcases @kadenaMnemonicToRootKeypair_opens _ _ S hcrypto _ _ _ _ _ _ hroot with
    ⟨root, hmnemonic, hopens⟩
  have hinit : Represents crypto W S root ⟨password, rootKey, []⟩ :=
    ⟨hopens, fun key hkey => by cases hkey⟩
  have hstep (r : Transition.Record LegacyWallet Call (Option WalletError))
      (hr : r.Valid (walletSystem crypto W ⟨password, rootKey, []⟩)) :
      r.pre.step crypto W r.event = some (r.post, r.out) := hr
  -- Every step keeps what the envelopes stand for, so the last wallet and every one before it do.
  have hkept := hrun.invariant_of_forall (Represents crypto W S root)
    (fun r hr hpre => (step_spec hcrypto (hstep r hr) hpre).1) hinit
  refine ⟨fun r hr => (step_spec hcrypto (hstep r (hrun.valid_of_mem r hr)) (hkept.2 r hr).1).2,
    root, hmnemonic, ?_⟩
  intro key hkey
  rcases hkept.1.keys key hkey with ⟨hindex, hdelivers⟩
  have hbytes : bufferFromHex key.pair.publicKey = S.publicKey (S.key root key.index) := by
    rw [hdelivers.publicKey, bufferFromHex_bufferToHex]
  refine ⟨hdelivers.publicKey, hdelivers.told.trans hdelivers.publicKey.symm, ?_,
    fun hash draw' => ?_⟩
  · rw [hbytes]
    exact kadenaGetPublicFromRootKey_eq hkept.1.opens (harden key.index)
  · rcases hdelivers.opens with ⟨secret, -, hholds⟩
    refine ⟨_, kadenaSign_eq hdelivers.opens hash,
      kadenaSignFromRootKey_eq hcrypto hkept.1.opens hindex hash draw', ?_⟩
    rw [hbytes]
    exact kadenaVerify_signature hholds (bufferFromBase64 hash)

end Wallet

/-- The signature of a public key for a message; it is right on the values of the recorded
wallet. -/
def recordedSigned (publicKey msg : Bytes) : Bytes :=
  match recordedSignatures.find? fun entry =>
      decide (publicKey = publicPart recordedChild ∧ msg = entry.1) with
  | some entry => entry.2
  | none => List.replicate 64 0

def recordedDerived (parent : Bytes) (index : UInt32) : Bytes :=
  if parent = recordedRoot ∧ index = 0x80000001 then recordedChild
  else if parent = recordedRoot ∧ index = 0 then recordedSoft
  else List.replicate 128 0

theorem recordedDerived_root : recordedDerived recordedRoot 0x80000001 = recordedChild := by
  rw [recordedDerived, if_pos ⟨rfl, rfl⟩]

theorem recordedDerived_soft : recordedDerived recordedRoot 0 = recordedSoft := by
  have hindex : ¬ (recordedRoot = recordedRoot ∧ (0 : UInt32) = 0x80000001) := fun h =>
    absurd h.2 (by decide)
  rw [recordedDerived, if_neg hindex, if_pos ⟨rfl, rfl⟩]

/-- The compiled module on the values of the recorded wallet.  The empty password encrypts
nothing. -/
def recordedWasm : KadenaWasm where
  hmacSha512 key input :=
    if key = recordedSeed ∧ input = textEncode (js "Root Seed Chain 1") then recordedDigest
    else List.replicate 64 0
  secretFromSeed _ seed chainCode :=
    if seed = recordedDigest.take 32 ∧ chainCode = recordedDigest.drop 32 then some recordedRoot
    else none
  derivePrivate _ parentKey index _ := recordedDerived parentKey index
  changePass key _ _ := (key ++ List.replicate 128 0).take 128
  sign _ keypair msg := recordedSigned (publicPart keypair) msg
  verify msg publicKey sig := decide (sig = recordedSigned publicKey msg)
  length_hmacSha512 key input := by
    split
    · exact length_recorded.1
    · rfl
  length_secretFromSeed pwd seed chainCode key h := by
    split at h
    · cases h
      exact length_recorded.2.1
    · cases h
  length_derivePrivate pwd parentKey index scheme := by
    unfold recordedDerived
    split
    · exact length_recorded.2.2.1
    · split
      · exact length_recorded.2.2.2.1
      · rfl
  length_changePass key oldPwd newPwd := by simp
  length_sign pwd keypair msg := by
    unfold recordedSigned
    split
    · exact length_recorded.2.2.2.2 _ (List.mem_of_find?_eq_some ‹_›)
    · rfl

theorem derivePrivate_recordedWasm (pwd parentKey : Bytes) (index : UInt32) (scheme : Nat) :
    recordedWasm.derivePrivate pwd parentKey index scheme = recordedDerived parentKey index := rfl

/-- The bytes are the plain key. -/
def recordedSemantics : KeySemantics recordedWasm where
  Plain := Bytes
  Holds _ key plain := key = plain ∧ key.length = 128
  root _ _ := recordedRoot
  child := recordedDerived
  publicKey := publicPart
  signature plain msg := recordedSigned (publicPart plain) msg
  holds_root {pwd seed chainCode key} h := by
    have hlength := recordedWasm.length_secretFromSeed _ _ _ _ h
    dsimp only [recordedWasm] at h
    split at h
    · exact ⟨(Option.some.inj h).symm, hlength⟩
    · cases h
  isSome_secretFromSeed _ _ _ _ := rfl
  holds_child {pwd key plain} index h :=
    ⟨congrArg (recordedDerived · index) h.1, recordedWasm.length_derivePrivate pwd key index 2⟩
  holds_changePass {pwd key plain} newPwd h := by
    refine ⟨?_, recordedWasm.length_changePass key pwd newPwd⟩
    rw [← h.1]
    exact List.take_left' h.2
  publicPart_eq h := ⟨h.2, congrArg publicPart h.1⟩
  sign_eq msg h := congrArg (fun key => recordedSigned (publicPart key) msg) h.1
  verify_signature plain msg := decide_eq_true rfl

def recordedBip39 : Bip39 where
  validateMnemonic mnemonic := decide (mnemonic = recordedMnemonic)
  mnemonicToSeed _ := .ok recordedSeed

theorem exists_recordedRootKey (draw : Draw) :
    ∃ rootKey, kadenaMnemonicToRootKeypair (replayCrypto walletRecordings) recordedWasm
        recordedBip39 (.text []) recordedMnemonic .base64 draw = .ok rootKey ∧
      kadenaDecrypt (replayCrypto walletRecordings) (.text []) rootKey = .ok recordedRoot := by
  have hmade : Vendor.kadenaMnemonicToRootKeypair recordedWasm recordedBip39 (.text [])
      recordedMnemonic = .ok recordedRoot := by
    decide +kernel
  rcases kadenaEncrypt_opens walletRecordings_inverts (.text []) (.bytes recordedRoot) .base64
    draw with ⟨rootKey, hencrypt, hopens⟩
  refine ⟨rootKey, ?_, hopens⟩
  rw [kadenaMnemonicToRootKeypair, hmade, fromThrown, ok_bind, hencrypt]
  rfl

/-- The password of the root key is changed to itself, which makes a new envelope; then the key at
index 1 is generated. -/
def recordedCalls : List Call :=
  [.changeRootPassword (.text []) thirdDraw, .generate (.index 1) fun _ => secondDraw]

theorem legacy_wallet_runs_recorded :
    ∃ rootKey trace w, ∃ key ∈ LegacyWallet.keys w, ∃ sig,
      kadenaMnemonicToRootKeypair (replayCrypto walletRecordings) recordedWasm recordedBip39
        (.text []) recordedMnemonic .base64 Crypto.countingDraw = .ok rootKey ∧
      Run (walletSystem (replayCrypto walletRecordings) recordedWasm ⟨.text [], rootKey, []⟩)
        ⟨.text [], rootKey, []⟩ trace w ∧
      trace.map Transition.Record.event = recordedCalls ∧
      kadenaSign (replayCrypto walletRecordings) recordedWasm key.password (js "abc")
        key.pair.secretKey = .ok sig ∧
      Vendor.kadenaVerify recordedWasm (bufferFromBase64 (js "abc"))
        (bufferFromHex key.pair.publicKey) sig = .ok true := by
  rcases exists_recordedRootKey Crypto.countingDraw with ⟨rootKey, hroot, hroots⟩
  have hopens : Opens (replayCrypto walletRecordings) recordedSemantics (.text []) rootKey
      recordedRoot := ⟨recordedRoot, hroots, rfl, length_recorded.2.1⟩
  rcases @kadenaChangePassword_opens _ _ recordedSemantics walletRecordings_inverts _ _ (.text [])
    _ hopens thirdDraw with ⟨newKey, hchange, hnew, -⟩
  have hmade := @kadenaGenKeypair_delivers _ _ recordedSemantics walletRecordings_inverts _ _ _ hnew
    (.index 1) fun _ => secondDraw
  rw [if_neg (by decide)] at hmade
  rcases hmade with ⟨pairs, hpairs, hall⟩
  rcases List.forall₂_cons_left_iff.1 hall with ⟨pair, none, -, hrest, hlist⟩
  rw [List.forall₂_nil_left_iff.1 hrest] at hlist
  -- What the owner has at first, after the change, and with the key.
  let w₀ : LegacyWallet := ⟨.text [], rootKey, []⟩
  let w₁ : LegacyWallet := ⟨.text [], newKey, []⟩
  let w₂ : LegacyWallet := ⟨.text [], newKey, [⟨1, .text [], pair⟩]⟩
  have hfirst : w₀.step (replayCrypto walletRecordings) recordedWasm
      (.changeRootPassword (.text []) thirdDraw) = some (w₁, Option.none) := by
    rw [LegacyWallet.step, hchange]
  have hsecond : w₁.step (replayCrypto walletRecordings) recordedWasm
      (.generate (.index 1) fun _ => secondDraw) = some (w₂, Option.none) := by
    rw [LegacyWallet.step, hpairs]
    dsimp only
    rw [hlist]
    rfl
  have hrun : Run (walletSystem (replayCrypto walletRecordings) recordedWasm w₀) w₀
      [⟨w₀, .changeRootPassword (.text []) thirdDraw, Option.none, w₁⟩,
        ⟨w₁, .generate (.index 1) fun _ => secondDraw, Option.none, w₂⟩] w₂ :=
    Run.cons (valid_of_step hfirst) (Run.cons (valid_of_step hsecond) (Run.nil w₂))
  rcases (legacy_wallet_runs walletRecordings_inverts recordedSemantics hroot hrun).2 with
    ⟨root, -, hkeys⟩
  rcases (hkeys ⟨1, .text [], pair⟩ List.mem_cons_self).2.2.2 (js "abc") Crypto.countingDraw with
    ⟨sig, hsign, -, hverify⟩
  exact ⟨rootKey, _, w₂, ⟨1, .text [], pair⟩, List.mem_cons_self, sig, hroot, hrun, rfl, hsign,
    hverify⟩

/-! ## Which indices are hardened -/

theorem toNat_toUint32 (n : Int) : ((toUint32 n).toNat : Int) = n % 2 ^ 32 := by
  have hlt : (n % 2 ^ 32).toNat < 2 ^ 32 := by omega
  rw [toUint32, UInt32.toNat_ofNat_of_lt' hlt]
  omega

/-- Numbers that agree in their low 32 bits are one index for the module. -/
theorem toUint32_congr {n m : Int} (h : n % 2 ^ 32 = m % 2 ^ 32) : toUint32 n = toUint32 m := by
  rw [toUint32, toUint32, h]

section Hardened

variable {crypto : WebCrypto} {W : KadenaWasm} (hcrypto : crypto.Inverts)

include hcrypto

/-- The check refuses exactly the negative indices.  From `2 ^ 31` on an index passes it, but what
the module gets is hardened only if the low 32 bits of the index are below `2 ^ 31`; otherwise the
key is the one at an index that is not hardened. -/
theorem hardened_indices {password data : BinaryLike} {rootKey : Bytes}
    (hopens : kadenaDecrypt crypto password data = .ok rootKey) (hlength : rootKey.length = 128)
    (draws : Nat → Draw) (index : Int) :
    if index < 0 then
      kadenaGenKeypair crypto W password data (.index index) draws = .error notHardened
    else ∃ publicKey secretKey,
      kadenaGenKeypair crypto W password data (.index index) draws =
        .ok (.one ⟨bufferToHex publicKey, secretKey⟩) ∧
      kadenaDecrypt crypto password secretKey =
        .ok (W.derivePrivate password.raw rootKey (toUint32 (harden index)) 2) ∧
      kadenaGetPublicFromRootKey crypto W password data (harden index) = .ok publicKey ∧
      (2 ^ 31 ≤ (toUint32 (harden index)).toNat ↔ index % 2 ^ 32 < 2 ^ 31) ∧
      (2 ^ 31 ≤ index % 2 ^ 32 →
        kadenaGetPublicFromRootKey crypto W password data (index % 2 ^ 32 - 2 ^ 31) =
          .ok publicKey) := by
  have hpublic := @kadenaGetPublicFromRootKey_of_opens _ W _ _ _ hopens hlength
  by_cases hindex : index < 0
  · rw [if_pos hindex, kadenaGenKeypair, hopens, fromThrown, ok_bind]
    dsimp only
    rw [kadenaGenOneKeypair_negative hindex password rootKey]
    rfl
  · rw [if_neg hindex]
    rcases @kadenaGenOneKeypair_spec _ W password _ hcrypto hlength _ (Int.not_lt.1 hindex)
      (draws 0) with ⟨secretKey, hmade, hopened, -⟩
    have htop := toNat_toUint32 (harden index)
    rw [harden, hardenedOffset] at htop
    refine ⟨_, secretKey, ?_, hopened, hpublic (harden index), ?_, fun hsoft => ?_⟩
    · rw [kadenaGenKeypair, hopens, fromThrown, ok_bind]
      dsimp only
      rw [hmade]
      rfl
    -- The offset flips the top bit of the low 32 bits, whatever is above them.
    · rw [harden, hardenedOffset]
      omega
    · rw [hpublic, toUint32_congr]
      rw [harden, hardenedOffset]
      omega

end Hardened

/-- The recorded root key, at the index 1 and at `2 ^ 31`. -/
theorem hardened_indices_recorded :
    ∃ rootKey publicKey secretKey softKey softSecret,
      kadenaMnemonicToRootKeypair (replayCrypto walletRecordings) recordedWasm recordedBip39
        (.text []) recordedMnemonic .base64 Crypto.countingDraw = .ok rootKey ∧
      kadenaGenKeypair (replayCrypto walletRecordings) recordedWasm (.text []) rootKey (.index 1)
        (fun _ => secondDraw) = .ok (.one ⟨bufferToHex publicKey, secretKey⟩) ∧
      kadenaDecrypt (replayCrypto walletRecordings) (.text []) secretKey = .ok recordedChild ∧
      kadenaGenKeypair (replayCrypto walletRecordings) recordedWasm (.text []) rootKey
        (.index 2147483648) (fun _ => fourthDraw) =
          .ok (.one ⟨bufferToHex softKey, softSecret⟩) ∧
      kadenaDecrypt (replayCrypto walletRecordings) (.text []) softSecret = .ok recordedSoft ∧
      kadenaGetPublicFromRootKey (replayCrypto walletRecordings) recordedWasm (.text []) rootKey 0 =
        .ok softKey := by
  rcases exists_recordedRootKey Crypto.countingDraw with ⟨rootKey, hroot, hopens⟩
  have hindex := @hardened_indices _ recordedWasm walletRecordings_inverts _ _ _ hopens
    length_recorded.2.1 (fun _ => secondDraw) 1
  rw [if_neg (by decide)] at hindex
  rcases hindex with ⟨publicKey, secretKey, hmade, hsecret, -⟩
  have hlow : toUint32 (harden 1) = 0x80000001 := by decide
  have hderived : recordedWasm.derivePrivate [] recordedRoot (toUint32 (harden 1)) 2 =
      recordedChild := by
    rw [hlow, derivePrivate_recordedWasm, recordedDerived_root]
  have hwrapped := @hardened_indices _ recordedWasm walletRecordings_inverts _ _ _ hopens
    length_recorded.2.1 (fun _ => fourthDraw) 2147483648
  rw [if_neg (by decide)] at hwrapped
  rcases hwrapped with ⟨softKey, softSecret, hsoftMade, hsoftSecret, -, -, hshown⟩
  -- `2 ^ 31 + 2 ^ 31` has no bit left of the 32 that the module reads
  have hzero : toUint32 (harden 2147483648) = 0 := by decide
  have hsoft : recordedWasm.derivePrivate [] recordedRoot (toUint32 (harden 2147483648)) 2 =
      recordedSoft := by
    rw [hzero, derivePrivate_recordedWasm, recordedDerived_soft]
  exact ⟨rootKey, publicKey, secretKey, softKey, softSecret, hroot, hmade,
    hsecret.trans (congrArg Except.ok hderived), hsoftMade,
    hsoftSecret.trans (congrArg Except.ok hsoft), hshown (by decide)⟩

end Chainweaver
end HdWallet
end StoaCore
