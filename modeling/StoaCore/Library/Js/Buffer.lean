import StoaCore.Library.Js.Base64
import StoaCore.Library.Js.Hex

/-!
# Buffer — bytes as Base64 and as text

`Buffer.from(text, 'base64')` reads both alphabets, ends at the first pad character and skips what
is no digit.  `buffer.toString()` decodes UTF-8, and keeps a byte order mark.
-/

namespace Library
namespace Js

/-- `buffer.toString('base64')` -/
def bufferToBase64 (bytes : Bytes) : JsString :=
  (sextets (bytes.map UInt8.toNat)).map base64Digit ++
    List.replicate (paddingLength bytes.length) (unit '=')

/-- A digit of either alphabet. -/
def bufferBase64Value (c : CodeUnit) : Option Nat :=
  if c = unit '-' then some 62
  else if c = unit '_' then some 63
  else base64Value c

/-- `Buffer.from(text, 'base64')` -/
def bufferFromBase64 (text : JsString) : Bytes :=
  (octets ((text.takeWhile (· != unit '=')).filterMap bufferBase64Value)).map UInt8.ofNat

/-- `buffer.toString()` -/
def bufferToText (bytes : Bytes) : JsString :=
  decodeFrom {} bytes

/-! ## Round trips -/

theorem toNat_lt_of_mem {bytes : Bytes} : ∀ x ∈ bytes.map UInt8.toNat, x < 256 := by
  intro x hx
  rcases List.mem_map.1 hx with ⟨b, -, rfl⟩
  exact b.toNat_lt

theorem bufferBase64Value_digit {n : Nat} (h : n < 64) :
    bufferBase64Value (base64Digit n) = some n := by
  revert n
  decide

theorem filterMap_digits {digit : Nat → CodeUnit}
    (hdigit : ∀ n < 64, bufferBase64Value (digit n) = some n) {values : List Nat}
    (h : ∀ n ∈ values, n < 64) : (values.map digit).filterMap bufferBase64Value = values := by
  induction values with
  | nil => rfl
  | cons n values ih =>
      rw [List.map_cons, List.filterMap_cons, hdigit n (h n List.mem_cons_self)]
      dsimp only
      rw [ih fun m hm => h m (List.mem_cons_of_mem _ hm)]

/-- The decoder reads digits of either alphabet up to the padding. -/
theorem bufferFromBase64_digits {digit : Nat → CodeUnit}
    (hdigit : ∀ n < 64, bufferBase64Value (digit n) = some n)
    (hpad : ∀ n < 64, digit n ≠ unit '=') (bytes : Bytes) (padding : Nat) :
    bufferFromBase64 ((sextets (bytes.map UInt8.toNat)).map digit ++
      List.replicate padding (unit '=')) = bytes := by
  have hlt := sextets_lt (@toNat_lt_of_mem bytes)
  have hdigits : ∀ c ∈ (sextets (bytes.map UInt8.toNat)).map digit, (c != unit '=') = true := by
    intro c hc
    rcases List.mem_map.1 hc with ⟨n, hn, rfl⟩
    simpa using hpad n (hlt n hn)
  have htake : ((sextets (bytes.map UInt8.toNat)).map digit ++
      List.replicate padding (unit '=')).takeWhile (· != unit '=') =
        (sextets (bytes.map UInt8.toNat)).map digit := by
    rw [List.takeWhile_append_of_pos hdigits]
    cases padding with
    | zero => simp
    | succ k => simp [List.replicate_succ]
  rw [bufferFromBase64, htake, filterMap_digits hdigit hlt, octets_sextets toNat_lt_of_mem,
    List.map_map]
  simp [Function.comp_def]

/-- Decoding gives the encoded bytes back. -/
theorem bufferFromBase64_bufferToBase64 (bytes : Bytes) :
    bufferFromBase64 (bufferToBase64 bytes) = bytes :=
  bufferFromBase64_digits (fun _ h => bufferBase64Value_digit h)
    (fun _ h => (base64Digit_ne_pad h).2) bytes (paddingLength bytes.length)

/-- What occurs in a Base64 text. -/
theorem mem_bufferToBase64 {bytes : Bytes} {c : CodeUnit} (h : c ∈ bufferToBase64 bytes) :
    (∃ n, n < 64 ∧ c = base64Digit n) ∨ c = unit '=' := by
  rcases List.mem_append.1 h with hdigit | hpad
  · rcases List.mem_map.1 hdigit with ⟨n, hn, rfl⟩
    exact Or.inl ⟨n, sextets_lt toNat_lt_of_mem n hn, rfl⟩
  · exact Or.inr (List.eq_of_mem_replicate hpad)

/-- A text without surrogates is well-formed. -/
theorem isWellFormed_of_forall {text : JsString} (h : ∀ c ∈ text, isSurrogate c = false) :
    isWellFormed text = true := by
  induction text using isWellFormed.induct with
  | case1 => rfl
  | case2 c => simp [isWellFormed, h c]
  | case3 c d rest hpair ih =>
      rw [isWellFormed, if_pos hpair]
      exact ih fun e he => h e (by simp [he])
  | case4 c d rest hpair ih =>
      rw [isWellFormed, if_neg hpair, h c (by simp), ih fun e he => h e (List.mem_cons_of_mem _ he)]
      rfl

theorem bufferToText_textEncode {text : JsString} (h : isWellFormed text = true) :
    bufferToText (textEncode text) = text := by
  have hdecode : bufferToText (textEncode text) = (scalars text).flatMap utf16 :=
    decodeFrom_flatMap_utf8 fun n hn => isScalar_of_mem_scalars hn
  rw [hdecode, utf16_scalars h]

end Js
end Library
