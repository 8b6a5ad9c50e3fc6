import Mathlib.Logic.Function.Iterate
import StoaCore.Library.Js.Text

/-!
# Utf8 — `TextEncoder` and `TextDecoder`

The encoder reads a string as scalar values, with U+FFFD in the place of a lone surrogate, and
writes each as UTF-8.  The decoder replaces what is not UTF-8 by U+FFFD and, with its default
options, drops one byte order mark at the start.
-/

namespace Library
namespace Js

abbrev Bytes := List UInt8

/-! ## Scalar values -/

/-- The scalar value of a surrogate pair. -/
def pairValue (high low : CodeUnit) : Nat :=
  0x10000 + (high.toNat - 0xD800) * 0x400 + (low.toNat - 0xDC00)

/-- The scalar value of a code unit on its own. -/
def unitValue (c : CodeUnit) : Nat :=
  if isSurrogate c then 0xFFFD else c.toNat

def scalars : JsString → List Nat
  | [] => []
  | [c] => [unitValue c]
  | c :: d :: rest =>
      if isHighSurrogate c && isLowSurrogate d then pairValue c d :: scalars rest
      else unitValue c :: scalars (d :: rest)

/-- No lone surrogate. -/
def isWellFormed : JsString → Bool
  | [] => true
  | [c] => !isSurrogate c
  | c :: d :: rest =>
      if isHighSurrogate c && isLowSurrogate d then isWellFormed rest
      else !isSurrogate c && isWellFormed (d :: rest)

def IsScalar (n : Nat) : Prop :=
  n < 0x110000 ∧ (n < 0xD800 ∨ 0xDFFF < n)

/-! ## Encoding -/

/-- One scalar value in UTF-8. -/
def utf8 (n : Nat) : Bytes :=
  if n < 0x80 then [UInt8.ofNat n]
  else if n < 0x800 then [UInt8.ofNat (0xC0 + n / 0x40), UInt8.ofNat (0x80 + n % 0x40)]
  else if n < 0x10000 then
    [UInt8.ofNat (0xE0 + n / 0x1000), UInt8.ofNat (0x80 + n / 0x40 % 0x40),
      UInt8.ofNat (0x80 + n % 0x40)]
  else
    [UInt8.ofNat (0xF0 + n / 0x40000), UInt8.ofNat (0x80 + n / 0x1000 % 0x40),
      UInt8.ofNat (0x80 + n / 0x40 % 0x40), UInt8.ofNat (0x80 + n % 0x40)]

/-- `new TextEncoder().encode(text)` -/
def textEncode (text : JsString) : Bytes :=
  (scalars text).flatMap utf8

/-! ## Decoding -/

/-- The code point so far, how many bytes it still needs, and between which bounds the next one
has to lie. -/
structure Utf8State where
  codePoint : Nat := 0
  needed : Nat := 0
  lower : Nat := 0x80
  upper : Nat := 0xBF
  deriving DecidableEq

/-- A byte at the start of a sequence. -/
def leadByte (b : Nat) : Utf8State × JsString :=
  if b < 0x80 then ({}, [UInt16.ofNat b])
  else if 0xC2 ≤ b ∧ b ≤ 0xDF then ({ codePoint := b - 0xC0, needed := 1 }, [])
  else if 0xE0 ≤ b ∧ b ≤ 0xEF then
    ({ codePoint := b - 0xE0
       needed := 2
       lower := if b = 0xE0 then 0xA0 else 0x80
       upper := if b = 0xED then 0x9F else 0xBF }, [])
  else if 0xF0 ≤ b ∧ b ≤ 0xF4 then
    ({ codePoint := b - 0xF0
       needed := 3
       lower := if b = 0xF0 then 0x90 else 0x80
       upper := if b = 0xF4 then 0x8F else 0xBF }, [])
  else ({}, [0xFFFD])

/-- One byte: the state after it and what it completes. -/
def feed (st : Utf8State) (b : Nat) : Utf8State × JsString :=
  if st.needed = 0 then leadByte b
  else if st.lower ≤ b ∧ b ≤ st.upper then
    let codePoint := st.codePoint * 0x40 + (b - 0x80)
    if st.needed = 1 then ({}, utf16 codePoint)
    else ({ codePoint := codePoint, needed := st.needed - 1 }, [])
  else
    -- The sequence is broken off, and the byte starts a new one.
    ((leadByte b).1, 0xFFFD :: (leadByte b).2)

def decodeFrom : Utf8State → Bytes → JsString
  | st, [] => if st.needed = 0 then [] else [0xFFFD]
  | st, b :: bytes => (feed st b.toNat).2 ++ decodeFrom (feed st b.toNat).1 bytes

def byteOrderMark : CodeUnit := 0xFEFF

def stripBom : JsString → JsString
  | [] => []
  | c :: rest => if c = byteOrderMark then rest else c :: rest

/-- `new TextDecoder().decode(bytes)` -/
def textDecode (bytes : Bytes) : JsString :=
  stripBom (decodeFrom {} bytes)

/-! ## Round trip -/

theorem utf16_unitValue {c : CodeUnit} (h : isSurrogate c = false) : utf16 (unitValue c) = [c] := by
  have hlt : c.toNat < 0x10000 := c.toNat_lt
  simp [unitValue, h, utf16, hlt]

theorem isScalar_unitValue (c : CodeUnit) : IsScalar (unitValue c) := by
  have hlt := c.toNat_lt
  unfold unitValue IsScalar
  split
  case isTrue => omega
  case isFalse h =>
    simp only [isSurrogate, isHighSurrogate, isLowSurrogate, Bool.or_eq_true, Bool.and_eq_true,
      decide_eq_true_eq, UInt16.le_iff_toNat_le, UInt16.reduceToNat] at h
    omega

section Pair

variable {c d : CodeUnit} (h : (isHighSurrogate c && isLowSurrogate d) = true)

include h

theorem pair_bounds :
    0xD800 ≤ c.toNat ∧ c.toNat ≤ 0xDBFF ∧ 0xDC00 ≤ d.toNat ∧ d.toNat ≤ 0xDFFF := by
  simpa [isHighSurrogate, isLowSurrogate, UInt16.le_iff_toNat_le, and_assoc] using h

theorem isScalar_pairValue : IsScalar (pairValue c d) := by
  have hbounds := pair_bounds h
  unfold pairValue IsScalar
  omega

theorem utf16_pairValue : utf16 (pairValue c d) = [c, d] := by
  have hbounds := pair_bounds h
  have hge : ¬ pairValue c d < 0x10000 := by
    unfold pairValue
    omega
  have hhigh : 0xD800 + (pairValue c d - 0x10000) / 0x400 = c.toNat := by
    unfold pairValue
    omega
  have hlow : 0xDC00 + (pairValue c d - 0x10000) % 0x400 = d.toNat := by
    unfold pairValue
    omega
  rw [utf16, if_neg hge, hhigh, hlow, UInt16.ofNat_toNat, UInt16.ofNat_toNat]

end Pair

theorem isScalar_of_mem_scalars {text : JsString} {n : Nat} (h : n ∈ scalars text) :
    IsScalar n := by
  induction text using scalars.induct with
  | case1 => cases h
  | case2 c =>
      rw [List.mem_singleton.1 h]
      exact isScalar_unitValue c
  | case3 c d rest hpair ih =>
      rw [scalars, if_pos hpair] at h
      rcases List.mem_cons.1 h with heq | h
      · exact heq ▸ isScalar_pairValue hpair
      · exact ih h
  | case4 c d rest hpair ih =>
      rw [scalars, if_neg hpair] at h
      rcases List.mem_cons.1 h with rfl | h
      · exact isScalar_unitValue c
      · exact ih h

/-- A well-formed string is its scalar values. -/
theorem utf16_scalars {text : JsString} (h : isWellFormed text = true) :
    (scalars text).flatMap utf16 = text := by
  -- The cases are those of the encoder: a pair, or a code unit on its own.
  induction text using scalars.induct with
  | case1 => rfl
  | case2 c =>
      have hc : isSurrogate c = false := by simpa [isWellFormed] using h
      rw [scalars, List.flatMap_singleton, utf16_unitValue hc]
  | case3 c d rest hpair ih =>
      rw [isWellFormed, if_pos hpair] at h
      rw [scalars, if_pos hpair, List.flatMap_cons, utf16_pairValue hpair, ih h]
      rfl
  | case4 c d rest hpair ih =>
      rw [isWellFormed, if_neg hpair, Bool.and_eq_true, Bool.not_eq_true'] at h
      rw [scalars, if_neg hpair, List.flatMap_cons, utf16_unitValue h.1, ih h.2]
      rfl

section Decode

variable {n : Nat} (rest : Bytes)

theorem decodeFrom_ofNat (st : Utf8State) {b : Nat} (hb : b < 256) :
    decodeFrom st (UInt8.ofNat b :: rest) = (feed st b).2 ++ decodeFrom (feed st b).1 rest := by
  rw [decodeFrom, UInt8.toNat_ofNat_of_lt' hb]

/-- A lead byte, from between two sequences. -/
theorem decodeFrom_lead {b : Nat} (hb : b < 256) :
    decodeFrom {} (UInt8.ofNat b :: rest) = (leadByte b).2 ++ decodeFrom (leadByte b).1 rest :=
  decodeFrom_ofNat rest {} hb

/-- A continuation byte within the bounds that is not the last one. -/
theorem decodeFrom_continue {st : Utf8State} {b : Nat} (hb : b < 256) (hneeded : 2 ≤ st.needed)
    (hlower : st.lower ≤ b) (hupper : b ≤ st.upper) :
    decodeFrom st (UInt8.ofNat b :: rest) =
      decodeFrom { codePoint := st.codePoint * 0x40 + (b - 0x80), needed := st.needed - 1 }
        rest := by
  have hone : st.needed ≠ 1 := by omega
  have hzero : st.needed ≠ 0 := by omega
  rw [decodeFrom_ofNat rest st hb, feed, if_neg hzero, if_pos ⟨hlower, hupper⟩]
  dsimp only
  rw [if_neg hone]
  rfl

/-- The last continuation byte completes the code point. -/
theorem decodeFrom_last {st : Utf8State} {b : Nat} (hb : b < 256) (hneeded : st.needed = 1)
    (hlower : st.lower ≤ b) (hupper : b ≤ st.upper) :
    decodeFrom st (UInt8.ofNat b :: rest) =
      utf16 (st.codePoint * 0x40 + (b - 0x80)) ++ decodeFrom {} rest := by
  have hzero : st.needed ≠ 0 := by omega
  rw [decodeFrom_ofNat rest st hb, feed, if_neg hzero, if_pos ⟨hlower, hupper⟩]
  dsimp only
  rw [if_pos hneeded]

theorem decodeFrom_two (hlow : 0x80 ≤ n) (hhigh : n < 0x800) :
    decodeFrom {} (UInt8.ofNat (0xC0 + n / 0x40) :: UInt8.ofNat (0x80 + n % 0x40) :: rest) =
      utf16 n ++ decodeFrom {} rest := by
  -- The lead byte announces the length and carries the upper bits.
  have hlead : leadByte (0xC0 + n / 0x40) = ({ codePoint := n / 0x40, needed := 1 }, []) := by
    rw [leadByte, if_neg (by omega), if_pos (by omega), Nat.add_sub_cancel_left]
  have hvalue : n / 0x40 * 0x40 + (0x80 + n % 0x40 - 0x80) = n := by omega
  rw [decodeFrom_lead _ (by omega), hlead]
  dsimp only
  rw [List.nil_append, decodeFrom_last rest (by omega) rfl]
  · dsimp only
    rw [hvalue]
  · dsimp only
    omega
  · dsimp only
    omega

theorem decodeFrom_three (hlow : 0x800 ≤ n) (hhigh : n < 0x10000) (h : IsScalar n) :
    decodeFrom {} (UInt8.ofNat (0xE0 + n / 0x1000) :: UInt8.ofNat (0x80 + n / 0x40 % 0x40) ::
        UInt8.ofNat (0x80 + n % 0x40) :: rest) =
      utf16 n ++ decodeFrom {} rest := by
  rcases h with ⟨-, hsurrogate⟩
  have hlead : leadByte (0xE0 + n / 0x1000) =
      ({ codePoint := n / 0x1000
         needed := 2
         lower := if 0xE0 + n / 0x1000 = 0xE0 then 0xA0 else 0x80
         upper := if 0xE0 + n / 0x1000 = 0xED then 0x9F else 0xBF }, []) := by
    rw [leadByte, if_neg (by omega), if_neg (by omega), if_pos (by omega),
      Nat.add_sub_cancel_left]
  have hvalue : (n / 0x1000 * 0x40 + (0x80 + n / 0x40 % 0x40 - 0x80)) * 0x40 +
      (0x80 + n % 0x40 - 0x80) = n := by omega
  rw [decodeFrom_lead _ (by omega), hlead]
  dsimp only
  rw [List.nil_append, decodeFrom_continue _ (by omega) (Nat.le_refl 2)]
  · rw [decodeFrom_last rest (by omega) rfl]
    · dsimp only
      rw [hvalue]
    · dsimp only
      omega
    · dsimp only
      omega
  -- The bounds of the second byte leave out overlong forms and surrogates.
  · dsimp only
    split <;> omega
  · dsimp only
    split <;> omega

theorem decodeFrom_four (hlow : 0x10000 ≤ n) (h : IsScalar n) :
    decodeFrom {} (UInt8.ofNat (0xF0 + n / 0x40000) :: UInt8.ofNat (0x80 + n / 0x1000 % 0x40) ::
        UInt8.ofNat (0x80 + n / 0x40 % 0x40) :: UInt8.ofNat (0x80 + n % 0x40) :: rest) =
      utf16 n ++ decodeFrom {} rest := by
  rcases h with ⟨hmax, -⟩
  have hlead : leadByte (0xF0 + n / 0x40000) =
      ({ codePoint := n / 0x40000
         needed := 3
         lower := if 0xF0 + n / 0x40000 = 0xF0 then 0x90 else 0x80
         upper := if 0xF0 + n / 0x40000 = 0xF4 then 0x8F else 0xBF }, []) := by
    rw [leadByte, if_neg (by omega), if_neg (by omega), if_neg (by omega), if_pos (by omega),
      Nat.add_sub_cancel_left]
  have hvalue : ((n / 0x40000 * 0x40 + (0x80 + n / 0x1000 % 0x40 - 0x80)) * 0x40 +
      (0x80 + n / 0x40 % 0x40 - 0x80)) * 0x40 + (0x80 + n % 0x40 - 0x80) = n := by omega
  rw [decodeFrom_lead _ (by omega), hlead]
  dsimp only
  rw [List.nil_append, decodeFrom_continue _ (by omega) (Nat.le_succ 2)]
  · rw [decodeFrom_continue _ (by omega) (Nat.le_refl 2)]
    · rw [decodeFrom_last rest (by omega) rfl]
      · dsimp only
        rw [hvalue]
      · dsimp only
        omega
      · dsimp only
        omega
    · dsimp only
      omega
    · dsimp only
      omega
  -- The bounds of the second byte leave out overlong forms and what lies above U+10FFFF.
  · dsimp only
    split <;> omega
  · dsimp only
    split <;> omega

/-- The sequence of a scalar value decodes to its code units. -/
theorem decodeFrom_utf8 (h : IsScalar n) :
    decodeFrom {} (utf8 n ++ rest) = utf16 n ++ decodeFrom {} rest := by
  unfold utf8
  split_ifs with h1 h2 h3
  · have hlt : n < 0x10000 := by omega
    rw [List.singleton_append, decodeFrom_lead rest (by omega), leadByte, if_pos h1, utf16,
      if_pos hlt]
  · exact decodeFrom_two rest (by omega) h2
  · exact decodeFrom_three rest (by omega) h3 h
  · exact decodeFrom_four rest (by omega) h

theorem decodeFrom_flatMap_utf8 {ns : List Nat} (h : ∀ n ∈ ns, IsScalar n) :
    decodeFrom {} (ns.flatMap utf8) = ns.flatMap utf16 := by
  induction ns with
  | nil => rfl
  | cons n ns ih =>
      have hrest := ih fun m hm => h m (List.mem_cons_of_mem _ hm)
      calc decodeFrom {} ((n :: ns).flatMap utf8)
          = decodeFrom {} (utf8 n ++ ns.flatMap utf8) := by rw [List.flatMap_cons]
        _ = utf16 n ++ decodeFrom {} (ns.flatMap utf8) := decodeFrom_utf8 _ (h n List.mem_cons_self)
        _ = utf16 n ++ ns.flatMap utf16 := by rw [hrest]
        _ = (n :: ns).flatMap utf16 := by rw [List.flatMap_cons]

end Decode

/-- A well-formed string comes back without the byte order mark it may start with. -/
theorem textDecode_textEncode {text : JsString} (h : isWellFormed text = true) :
    textDecode (textEncode text) = stripBom text := by
  have hdecode : decodeFrom {} (textEncode text) = (scalars text).flatMap utf16 :=
    decodeFrom_flatMap_utf8 fun n hn => isScalar_of_mem_scalars hn
  calc textDecode (textEncode text)
      = stripBom ((scalars text).flatMap utf16) := congrArg stripBom hdecode
    _ = stripBom text := by rw [utf16_scalars h]

/-- Only lone surrogates are lost in the encoding. -/
theorem textEncode_inj {a b : JsString} (ha : isWellFormed a = true) (hb : isWellFormed b = true)
    (h : textEncode a = textEncode b) : a = b := by
  have hdecode : ∀ text, decodeFrom {} (textEncode text) = (scalars text).flatMap utf16 :=
    fun text => decodeFrom_flatMap_utf8 fun n hn => isScalar_of_mem_scalars hn
  calc a = (scalars a).flatMap utf16 := (utf16_scalars ha).symm
    _ = (scalars b).flatMap utf16 := by rw [← hdecode, ← hdecode, h]
    _ = b := utf16_scalars hb

/-! ## The byte order mark -/

def BeginsWithBom (text : JsString) : Prop :=
  text.head? = some byteOrderMark

instance (text : JsString) : Decidable (BeginsWithBom text) :=
  inferInstanceAs (Decidable (text.head? = some byteOrderMark))

theorem length_stripBom_le (text : JsString) : (stripBom text).length ≤ text.length := by
  unfold stripBom
  split
  · exact Nat.le_refl _
  · split
    · exact Nat.le_succ _
    · exact Nat.le_refl _

theorem length_stripBom_iterate_le (n : Nat) (text : JsString) :
    (stripBom^[n] text).length ≤ text.length := by
  induction n generalizing text with
  | zero => exact Nat.le_refl _
  | succ n ih =>
      calc (stripBom^[n + 1] text).length
          = (stripBom^[n] (stripBom text)).length := by rw [Function.iterate_succ_apply]
        _ ≤ (stripBom text).length := ih (stripBom text)
        _ ≤ text.length := length_stripBom_le text

theorem stripBom_of_not {text : JsString} (h : ¬ BeginsWithBom text) : stripBom text = text := by
  cases text with
  | nil => rfl
  | cons c rest =>
      apply if_neg
      rintro rfl
      exact h rfl

theorem length_stripBom_lt {text : JsString} (h : BeginsWithBom text) :
    (stripBom text).length < text.length := by
  cases text with
  | nil => cases h
  | cons c rest =>
      obtain rfl : c = byteOrderMark := by simpa [BeginsWithBom] using h
      exact Nat.lt_succ_self _

/-- Decoding once or more often keeps a text exactly if there is no mark to drop. -/
theorem stripBom_iterate_eq_iff {n : Nat} {text : JsString} :
    stripBom^[n] text = text ↔ n = 0 ∨ ¬ BeginsWithBom text := by
  cases n with
  | zero => simp
  | succ n =>
      rw [Function.iterate_succ_apply]
      constructor
      · intro heq
        -- Dropping the mark shortens the text, and nothing afterwards makes it longer again.
        refine Or.inr fun hbom => ?_
        have hlt : (stripBom^[n] (stripBom text)).length < text.length :=
          calc (stripBom^[n] (stripBom text)).length
              ≤ (stripBom text).length := length_stripBom_iterate_le n (stripBom text)
            _ < text.length := length_stripBom_lt hbom
        rw [heq] at hlt
        exact Nat.lt_irrefl _ hlt
      · rintro (hzero | hbom)
        · cases hzero
        · rw [stripBom_of_not hbom]
          exact Function.iterate_fixed (stripBom_of_not hbom) n

theorem isWellFormed_stripBom {text : JsString} (h : isWellFormed text = true) :
    isWellFormed (stripBom text) = true := by
  by_cases hbom : BeginsWithBom text
  · cases text with
    | nil => cases hbom
    | cons c rest =>
        obtain rfl : c = byteOrderMark := by simpa [BeginsWithBom] using hbom
        cases rest with
        | nil => rfl
        | cons d rest =>
            -- The mark is no surrogate, so it is not half of a pair.
            have hpair : ¬ (isHighSurrogate byteOrderMark && isLowSurrogate d) = true := by
              have hhigh : isHighSurrogate byteOrderMark = false := by decide
              simp [hhigh]
            rw [isWellFormed, if_neg hpair, Bool.and_eq_true] at h
            exact h.2
  · rw [stripBom_of_not hbom]
    exact h

end Js
end Library
