import StoaCore.Library.Js.Strings

/-!
# KadenaWalletBuilder — mnemonics and the keys derived from them

A mnemonic is checked twice: `isValidMnemonic` answers for a form field, and
`createWalletPairFromMnemonic` checks again before it derives.  Both dispatch on the seed type, each
with a default of its own, and a stoic seed, which has no mnemonic, falls into the default of one.
-/

namespace StoaCore
namespace Wallet

open Library.Js

/-- The derivation algorithm of a seed. -/
inductive SeedType
  | koala
  | chainweaver
  | eckowallet
  | stoic
  deriving DecidableEq

structure WalletPair where
  publicKey : JsString
  secretKey : JsString
  deriving DecidableEq

/-! ## The wallet libraries -/

/-- What `bip39` and the two `hd-wallet` packages offer.  Derivations answer or reject; an encrypted
seed is a text, and an index is any number, `none` for `NaN`. -/
structure HdWallet where
  LibraryError : Type
  kadenaCheckMnemonic : JsString → Bool
  /-- `bip39.validateMnemonic` against the English word list. -/
  validateMnemonic : JsString → Bool
  kadenaMnemonicToRootKeypair : JsString → JsString → Except LibraryError JsString
  kadenaGenKeypair : JsString → JsString → Option Number → Except LibraryError WalletPair
  kadenaMnemonicToSeed : JsString → JsString → Except LibraryError JsString
  kadenaGenKeypairFromSeed :
    JsString → JsString → Option Number → Except LibraryError (JsString × JsString)

variable (lib : HdWallet)

inductive WalletError
  /-- `MnemonicMismatchError` -/
  | mnemonicMismatch (message : JsString)
  | library (e : lib.LibraryError)

variable {lib} {α β : Type}

/-- `await` on a promise of a library. -/
def fromLibrary : Except lib.LibraryError α → Except (WalletError lib) α
  | .ok a => .ok a
  | .error e => .error (.library e)

/-! ## createWalletPairFromMnemonic -/

variable (lib)

def createWalletPairFromMnemonic (password mnemonic : JsString) (index : Option Number)
    (seedType : SeedType := .koala) : Except (WalletError lib) WalletPair :=
  match seedType with
  | .chainweaver | .eckowallet =>
      if !lib.kadenaCheckMnemonic mnemonic then
        .error (.mnemonicMismatch (js "Invalid 12-word Chainweaver mnemonic."))
      else do
        let chainweaverSeed ← fromLibrary (lib.kadenaMnemonicToRootKeypair password mnemonic)
        let wallet ← fromLibrary (lib.kadenaGenKeypair password chainweaverSeed index)
        return { publicKey := wallet.publicKey, secretKey := wallet.secretKey }
  -- `case "koala"` is also the default, which takes `"stoic"` too.
  | .koala | .stoic =>
      if !lib.validateMnemonic mnemonic then
        .error (.mnemonicMismatch (js "Invalid 24-word BIP39 mnemonic."))
      else do
        let standardSeed ← fromLibrary (lib.kadenaMnemonicToSeed password mnemonic)
        let (publicKey, secretKey) ←
          fromLibrary (lib.kadenaGenKeypairFromSeed password standardSeed index)
        return { publicKey := publicKey, secretKey := secretKey }

/-! ## isValidMnemonic -/

/-- `text.split(/\s+/)` -/
def splitWhiteSpace : JsString → List JsString
  | [] => [[]]
  | c :: rest =>
      let words := splitWhiteSpace rest
      if isStrWhiteSpace c then
        -- A run of white space is one separator.
        if rest.head?.any isStrWhiteSpace then words else [] :: words
      else (c :: words.headD []) :: words.tail

/-- Without a seed type the number of words decides; `none` is `undefined`. -/
def isValidMnemonic (mnemonic : JsString) (seedType : Option SeedType := none) : Bool :=
  match seedType with
  | some .chainweaver | some .eckowallet => lib.kadenaCheckMnemonic mnemonic
  | some .stoic => false
  | some .koala => lib.validateMnemonic mnemonic
  | none =>
      let mnemonicLength := (splitWhiteSpace (trim mnemonic)).length
      if mnemonicLength ≠ 12 ∧ mnemonicLength ≠ 24 then false
      else if mnemonicLength = 12 then lib.kadenaCheckMnemonic mnemonic
      else lib.validateMnemonic mnemonic

example : splitWhiteSpace (trim (js "  two\t\n words ")) = [js "two", js "words"] := by decide

/-! ## Who rejects a mnemonic -/

variable {lib}

/-- The call throws a `MnemonicMismatchError`. -/
def Mismatch (result : Except (WalletError lib) α) : Prop :=
  ∃ message, result = .error (.mnemonicMismatch message)

theorem mismatch_error (message : JsString) :
    Mismatch (.error (.mnemonicMismatch message) : Except (WalletError lib) α) :=
  ⟨message, rfl⟩

theorem not_mismatch_ok (a : α) : ¬Mismatch (.ok a : Except (WalletError lib) α) := by
  rintro ⟨message, h⟩
  cases h

/-- A library never throws the error of the validation. -/
theorem not_mismatch_fromLibrary (call : Except lib.LibraryError α) :
    ¬Mismatch (fromLibrary call) := by
  cases call with
  | ok a => exact not_mismatch_ok a
  | error e =>
      rintro ⟨message, heq⟩
      cases heq

theorem not_mismatch_bind {call : Except lib.LibraryError α}
    {next : α → Except (WalletError lib) β} (h : ∀ a, ¬Mismatch (next a)) :
    ¬Mismatch (fromLibrary call >>= next) := by
  cases call with
  | ok a => exact h a
  | error e =>
      rintro ⟨message, heq⟩
      cases heq

/-- The check that a call of `createWalletPairFromMnemonic` makes. -/
def derivationCheck (lib : HdWallet) (mnemonic : JsString) : SeedType → Bool
  | .chainweaver | .eckowallet => lib.kadenaCheckMnemonic mnemonic
  | .koala | .stoic => lib.validateMnemonic mnemonic

/-- The check alone decides whether a call throws the error of the validation. -/
theorem mismatch_iff (password mnemonic : JsString) (index : Option Number) (t : SeedType) :
    Mismatch (createWalletPairFromMnemonic lib password mnemonic index t) ↔
      derivationCheck lib mnemonic t = false := by
  have hchain (hcheck : lib.kadenaCheckMnemonic mnemonic = true) :
      ¬Mismatch (createWalletPairFromMnemonic lib password mnemonic index .chainweaver) := by
    simp only [createWalletPairFromMnemonic, hcheck, Bool.not_true, Bool.false_eq_true, if_false]
    exact not_mismatch_bind fun seed => not_mismatch_fromLibrary _
  have hstandard (hcheck : lib.validateMnemonic mnemonic = true) :
      ¬Mismatch (createWalletPairFromMnemonic lib password mnemonic index .koala) := by
    simp only [createWalletPairFromMnemonic, hcheck, Bool.not_true, Bool.false_eq_true, if_false]
    exact not_mismatch_bind fun seed => not_mismatch_bind fun keys => not_mismatch_ok _
  cases hcheck : derivationCheck lib mnemonic t with
  | true =>
      refine iff_of_false ?_ (by simp)
      cases t with
      | chainweaver => exact hchain hcheck
      | eckowallet => exact hchain hcheck
      | koala => exact hstandard hcheck
      | stoic => exact hstandard hcheck
  | false =>
      refine iff_of_true ?_ rfl
      cases t <;> simp only [derivationCheck] at hcheck <;>
        simp only [createWalletPairFromMnemonic, hcheck, Bool.not_false, if_true] <;>
        exact mismatch_error _

/-! ## Validation and derivation -/

/-- A mnemonic is called valid for a seed type when the derivation for it gets past its check. -/
def ValidationAgrees (lib : HdWallet) (password mnemonic : JsString) (index : Option Number)
    (t : SeedType) : Prop :=
  ¬Mismatch (createWalletPairFromMnemonic lib password mnemonic index t) ↔
    isValidMnemonic lib mnemonic (some t) = true

/-- Without a seed type only twelve words of one family and twenty-four of the other are valid. -/
def UntypedSound (lib : HdWallet) (mnemonic : JsString) : Prop :=
  isValidMnemonic lib mnemonic = true →
    (splitWhiteSpace (trim mnemonic)).length = 12 ∧
        isValidMnemonic lib mnemonic (some .chainweaver) = true ∨
      (splitWhiteSpace (trim mnemonic)).length = 24 ∧
        isValidMnemonic lib mnemonic (some .koala) = true

theorem untypedSound (mnemonic : JsString) : UntypedSound lib mnemonic := by
  intro hvalid
  simp only [isValidMnemonic] at hvalid ⊢
  by_cases htwelve : (splitWhiteSpace (trim mnemonic)).length = 12
  · simp [htwelve] at hvalid
    exact Or.inl ⟨htwelve, hvalid⟩
  · by_cases hlong : (splitWhiteSpace (trim mnemonic)).length = 24
    · simp [hlong] at hvalid
      exact Or.inr ⟨hlong, hvalid⟩
    · simp [htwelve, hlong] at hvalid

/-- The two checks part only where a stoic seed meets a text that BIP39 accepts. -/
theorem validation_agrees_iff (password mnemonic : JsString) (index : Option Number)
    (t : SeedType) :
    (ValidationAgrees lib password mnemonic index t ∧ UntypedSound lib mnemonic) ↔
      (t ≠ .stoic ∨ lib.validateMnemonic mnemonic = false) := by
  rw [and_iff_left (untypedSound mnemonic), ValidationAgrees, mismatch_iff]
  cases t with
  | koala => simp [derivationCheck, isValidMnemonic]
  | chainweaver => simp [derivationCheck, isValidMnemonic]
  | eckowallet => simp [derivationCheck, isValidMnemonic]
  | stoic => simp [derivationCheck, isValidMnemonic]

/-! ## A stoic seed that passes for a mnemonic -/

/-- The BIP39 mnemonic of zero entropy. -/
def zeroEntropy : JsString :=
  js ("abandon abandon abandon abandon abandon abandon abandon abandon abandon abandon abandon " ++
    "abandon abandon abandon abandon abandon abandon abandon abandon abandon abandon abandon " ++
    "abandon art")

/-- The libraries on that mnemonic, with the public key they derive from it at index zero. -/
def zeroEntropyLibrary : HdWallet where
  LibraryError := Empty
  kadenaCheckMnemonic mnemonic := mnemonic == zeroEntropy
  validateMnemonic mnemonic := mnemonic == zeroEntropy
  kadenaMnemonicToRootKeypair _ _ := .ok (js "root")
  kadenaGenKeypair _ _ _ := .ok ⟨js "public", js "secret"⟩
  kadenaMnemonicToSeed _ _ := .ok (js "seed")
  kadenaGenKeypairFromSeed _ _ _ :=
    .ok (js "cf9d5ec84d2d6c8b762a168018b7387790b0db53c3e7e21b9881777f4726032c", js "secret")

/-- The keys of a stoic seed are derived from a mnemonic that `isValidMnemonic` refuses for it. -/
theorem stoic_mnemonic_derived :
    ¬ValidationAgrees zeroEntropyLibrary (js "kadena") zeroEntropy (some (.finite 0)) .stoic ∧
    ¬Mismatch (createWalletPairFromMnemonic zeroEntropyLibrary (js "kadena") zeroEntropy
      (some (.finite 0)) .stoic) ∧
    isValidMnemonic zeroEntropyLibrary zeroEntropy (some .stoic) = false := by
  have haccepts : ∀ mnemonic, derivationCheck zeroEntropyLibrary mnemonic .stoic =
      (mnemonic == zeroEntropy) := fun _ => rfl
  have haccepted : derivationCheck zeroEntropyLibrary zeroEntropy .stoic = true :=
    (haccepts zeroEntropy).trans (beq_self_eq_true zeroEntropy)
  have hderived : ¬Mismatch (createWalletPairFromMnemonic zeroEntropyLibrary (js "kadena")
      zeroEntropy (some (.finite 0)) .stoic) := by
    rw [mismatch_iff, haccepted]
    simp
  refine ⟨?_, hderived, rfl⟩
  intro hagrees
  exact Bool.false_ne_true (hagrees.1 hderived)

end Wallet
end StoaCore
