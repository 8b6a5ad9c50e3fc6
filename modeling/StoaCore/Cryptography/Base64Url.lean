import Mathlib.Algebra.Group.Nat.Defs
import StoaCore.Library.Js.Base64
import StoaCore.Library.Js.Utf8

/-!
# Base64Url — the base64url coder of the legacy library

`base64UrlEncode` and `base64UrlDecode` walk over a binary string with a 32-bit block and a counter;
they write no padding and use `-` and `_`.  A throw is an `InvalidCharacterError`, of which only the
message is read.
-/

namespace StoaCore
namespace Cryptography

open Library.Js

/-- `chars`; the pad character is at index 64. -/
def base64UrlDigit (n : Nat) : CodeUnit :=
  if n = 62 then unit '-'
  else if n = 63 then unit '_'
  else if n = 64 then unit '='
  else base64Digit n

/-- `chars.indexOf(c)`, `none` for `-1`. -/
def base64UrlIndex (c : CodeUnit) : Option Nat :=
  if c = unit '-' then some 62
  else if c = unit '_' then some 63
  else if c = unit '=' then some 64
  else if c = unit '+' || c = unit '/' then none
  else base64Value c

theorem base64UrlIndex_digit {n : Nat} (h : n < 64) :
    base64UrlIndex (base64UrlDigit n) = some n := by
  revert n
  decide

/-! ## Encoding -/

def encodeErrorMessage : JsString :=
  js ("'btoa' failed: The string to be encoded contains characters outside of the Latin1 range.")

/-- The loop of `base64UrlEncode`.  `idx` counts quarters of the source's index: it advances by
`3 / 4` before a character is read, and the fraction says how far the block is shifted. -/
def encodeFrom (str : JsString) : Nat → Nat → Nat → Except JsString JsString
  | 0, _, _ => .ok []
  | fuel + 1, idx, block =>
      if idx / 4 < str.length then
        let idx := idx + 3
        -- Behind the end the code is `NaN`, which counts as zero.
        let charCode := (str[idx / 4]?.map UInt16.toNat).getD 0
        if 0xff < charCode then .error encodeErrorMessage
        else do
          let block := (block * 256 + charCode) % 2 ^ 32
          let output ← encodeFrom str fuel idx block
          pure (base64UrlDigit (block / 2 ^ (8 - idx % 4 * 2) % 64) :: output)
      else .ok []

def base64UrlEncode (str : JsString) : Except JsString JsString :=
  encodeFrom str (2 * str.length + 1) 0 0

/-- `uint8ArrayToStr(input)` -/
def uint8ArrayToStr (array : Bytes) : JsString :=
  array.map fun b => UInt16.ofNat b.toNat

def base64UrlEncodeArr (input : Bytes) : Except JsString JsString :=
  base64UrlEncode (uint8ArrayToStr input)

/-! ## Decoding -/

def decodeErrorMessage : JsString :=
  js ("'atob' failed: The string to be decoded is not correctly encoded.")

/-- `str.replace(/[=]+$/, '')` -/
def withoutPadding (str : JsString) : JsString :=
  (str.reverse.dropWhile fun c => c == unit '=').reverse

/-- The loop of `base64UrlDecode`.  Characters outside the table are skipped; every other one but
the first of each four gives a byte. -/
def decodeFrom : JsString → Nat → Nat → JsString
  | [], _, _ => []
  | c :: rest, bc, bs =>
      match base64UrlIndex c with
      | none => decodeFrom rest bc bs
      | some buffer =>
          if bc % 4 = 0 then decodeFrom rest (bc + 1) buffer
          else
            let bs := bs * 64 + buffer
            -- `(-2 * bc) & 6` for the counter after its increment.
            UInt16.ofNat (bs / 2 ^ ((8 - 2 * ((bc + 1) % 4)) % 8) % 256) ::
              decodeFrom rest (bc + 1) bs

def base64UrlDecode (str : JsString) : Except JsString JsString :=
  let newString := withoutPadding str
  if newString.length % 4 = 1 then .error decodeErrorMessage
  else .ok (decodeFrom newString 0 0)

/-- `strToUint8Array(str)`; an element keeps the low byte. -/
def strToUint8Array (str : JsString) : Bytes :=
  str.map fun c => UInt8.ofNat c.toNat

def base64UrlDecodeArr (input : JsString) : Except JsString Bytes :=
  (base64UrlDecode input).map strToUint8Array

/-! ## What the encoder writes -/

section Encode

variable (str : JsString) (fuel idx block : Nat) {c d : Nat}

/-- One turn of the loop writes one digit and leaves the character in the low byte of the block. -/
theorem encodeFrom_turn (hidx : idx / 4 < str.length)
    (hc : (str[(idx + 3) / 4]?.map UInt16.toNat).getD 0 = c) (hlt : c < 256)
    (hd : (block * 256 + c) % 2 ^ 32 / 2 ^ (8 - (idx + 3) % 4 * 2) % 64 = d) :
    ∃ block', block' % 256 = c ∧ encodeFrom str (fuel + 1) idx block =
      (encodeFrom str fuel (idx + 3) block').map (base64UrlDigit d :: ·) := by
  have hlatin : ¬ 0xff < c := by omega
  refine ⟨(block * 256 + c) % 2 ^ 32, by omega, ?_⟩
  rw [encodeFrom, if_pos hidx]
  dsimp only
  rw [hc, if_neg hlatin, hd]
  rfl

theorem encodeFrom_end (hidx : ¬ idx / 4 < str.length) :
    encodeFrom str fuel idx block = .ok [] := by
  cases fuel with
  | zero => rfl
  | succ fuel => rw [encodeFrom, if_neg hidx]

end Encode

section Digits

/-! The digit each of four turns selects; the block keeps the last character in its low byte. -/

variable {block g c low : Nat}

theorem first_digit (hc : c < 256) :
    (block * 256 + c) % 2 ^ 32 / 2 ^ (8 - (12 * g + 3) % 4 * 2) % 64 = c / 4 := by
  have hshift : 8 - (12 * g + 3) % 4 * 2 = 2 := by omega
  rw [hshift]
  omega

theorem second_digit (hlow : block % 256 = low) (hc : c < 256) :
    (block * 256 + c) % 2 ^ 32 / 2 ^ (8 - (12 * g + 3 + 3) % 4 * 2) % 64 =
      low % 4 * 16 + c / 16 := by
  have hshift : 8 - (12 * g + 3 + 3) % 4 * 2 = 4 := by omega
  rw [hshift]
  omega

theorem third_digit (hlow : block % 256 = low) (hc : c < 256) :
    (block * 256 + c) % 2 ^ 32 / 2 ^ (8 - (12 * g + 3 + 3 + 3) % 4 * 2) % 64 =
      low % 16 * 4 + c / 64 := by
  have hshift : 8 - (12 * g + 3 + 3 + 3) % 4 * 2 = 6 := by omega
  rw [hshift]
  omega

theorem fourth_digit (hlow : block % 256 = low) (hc : c < 256) :
    (block * 256 + c) % 2 ^ 32 / 2 ^ (8 - (12 * g + 3 + 3 + 3 + 3) % 4 * 2) % 64 = low % 64 := by
  have hshift : 8 - (12 * g + 3 + 3 + 3 + 3) % 4 * 2 = 8 := by omega
  rw [hshift]
  omega

end Digits

/-- The code read behind `front`. -/
theorem charCode_append {front rest : JsString} {i : Nat} (k : Nat) (hi : i = front.length + k) :
    ((front ++ rest)[i]?.map UInt16.toNat).getD 0 = (rest[k]?.map UInt16.toNat).getD 0 := by
  rw [hi, List.getElem?_append_right (Nat.le_add_right _ _), Nat.add_sub_cancel_left]

theorem charCode_lt {rest : JsString} (h : IsBinary rest) (k : Nat) :
    (rest[k]?.map UInt16.toNat).getD 0 < 256 := by
  cases hk : rest[k]? with
  | none => exact Nat.zero_lt_succ 255
  | some c => exact h c (List.mem_of_getElem? hk)

section Turns

variable {front rest : JsString} {g x y z : Nat} (hg : front.length = 3 * g)
  (hbinary : IsBinary rest) (hx : (rest[0]?.map UInt16.toNat).getD 0 = x)
  (hy : (rest[1]?.map UInt16.toNat).getD 0 = y)

include hg hbinary hx hy

/-- Two turns, from a character on that there is. -/
theorem encodeFrom_two (fuel block : Nat) (hlength : 1 ≤ rest.length) :
    ∃ block', block' % 256 = y ∧ encodeFrom (front ++ rest) (fuel + 2) (12 * g) block =
      (encodeFrom (front ++ rest) fuel (12 * g + 3 + 3) block').map fun output =>
        base64UrlDigit (x / 4) :: base64UrlDigit (x % 4 * 16 + y / 16) :: output := by
  have htotal : (front ++ rest).length = 3 * g + rest.length := by rw [List.length_append, hg]
  have hxlt : x < 256 := hx ▸ charCode_lt hbinary 0
  have hylt : y < 256 := hy ▸ charCode_lt hbinary 1
  rcases encodeFrom_turn (front ++ rest) (fuel + 1) (12 * g) block (by rw [htotal]; omega)
    ((charCode_append 0 (by omega)).trans hx) hxlt (first_digit hxlt) with ⟨block₁, hlow, hfirst⟩
  rcases encodeFrom_turn (front ++ rest) fuel (12 * g + 3) block₁ (by rw [htotal]; omega)
    ((charCode_append 1 (by omega)).trans hy) hylt (second_digit hlow hylt) with
      ⟨block₂, hlow₂, hsecond⟩
  refine ⟨block₂, hlow₂, ?_⟩
  rw [hfirst, hsecond]
  cases encodeFrom (front ++ rest) fuel (12 * g + 3 + 3) block₂ with
  | ok output => rfl
  | error e => rfl

/-- Three turns, where there are two characters left. -/
theorem encodeFrom_three (hz : (rest[2]?.map UInt16.toNat).getD 0 = z) (fuel block : Nat)
    (hlength : 2 ≤ rest.length) :
    ∃ block', block' % 256 = z ∧ encodeFrom (front ++ rest) (fuel + 3) (12 * g) block =
      (encodeFrom (front ++ rest) fuel (12 * g + 3 + 3 + 3) block').map fun output =>
        base64UrlDigit (x / 4) :: base64UrlDigit (x % 4 * 16 + y / 16) ::
          base64UrlDigit (y % 16 * 4 + z / 64) :: output := by
  have htotal : (front ++ rest).length = 3 * g + rest.length := by rw [List.length_append, hg]
  have hzlt : z < 256 := hz ▸ charCode_lt hbinary 2
  rcases encodeFrom_two hg hbinary hx hy (fuel + 1) block (Nat.le_of_succ_le hlength) with
    ⟨block₂, hlow₂, htwo⟩
  rcases encodeFrom_turn (front ++ rest) fuel (12 * g + 3 + 3) block₂ (by rw [htotal]; omega)
    ((charCode_append 2 (by omega)).trans hz) hzlt (third_digit hlow₂ hzlt) with
      ⟨block₃, hlow₃, hthird⟩
  refine ⟨block₃, hlow₃, ?_⟩
  rw [htwo, hthird]
  cases encodeFrom (front ++ rest) fuel (12 * g + 3 + 3 + 3) block₃ with
  | ok output => rfl
  | error e => rfl

end Turns

/-- From a multiple of three on, the loop writes the sextets of what is left, whatever the block
holds from before. -/
theorem encodeFrom_eq : ∀ (rest front : JsString) (g fuel block : Nat),
    front.length = 3 * g → IsBinary rest → 2 * rest.length ≤ fuel →
      encodeFrom (front ++ rest) fuel (12 * g) block =
        .ok ((sextets (rest.map UInt16.toNat)).map base64UrlDigit)
  | [], front, g, fuel, block, hg, _, _ => by
      apply encodeFrom_end
      rw [List.append_nil, hg]
      omega
  | [x], front, g, fuel, block, hg, hbinary, hfuel => by
      obtain ⟨fuel, rfl⟩ : ∃ n, fuel = n + 2 := Nat.exists_eq_add_of_le' hfuel
      rcases encodeFrom_two hg hbinary rfl rfl fuel block (Nat.le_refl 1) with ⟨block', -, htwo⟩
      have hlength : (front ++ [x]).length = 3 * g + 1 := by rw [List.length_append, hg]; rfl
      rw [htwo, encodeFrom_end _ _ _ _ (by omega)]
      simp [Except.map, sextets]
  | [x, y], front, g, fuel, block, hg, hbinary, hfuel => by
      obtain ⟨fuel, rfl⟩ : ∃ n, fuel = n + 3 :=
        Nat.exists_eq_add_of_le' (Nat.le_of_succ_le hfuel)
      rcases encodeFrom_three hg hbinary rfl rfl rfl fuel block (Nat.le_refl 2) with
        ⟨block', -, hthree⟩
      have hlength : (front ++ [x, y]).length = 3 * g + 2 := by rw [List.length_append, hg]; rfl
      rw [hthree, encodeFrom_end _ _ _ _ (by omega)]
      simp [Except.map, sextets]
  | x :: y :: z :: rest, front, g, fuel, block, hg, hbinary, hfuel => by
      obtain ⟨fuel, rfl⟩ : ∃ n, fuel = n + 4 :=
        Nat.exists_eq_add_of_le' (by simp only [List.length_cons] at hfuel; omega)
      have hlength : (front ++ x :: y :: z :: rest).length = 3 * g + (rest.length + 3) := by
        rw [List.length_append, hg]
        rfl
      have hw := charCode_lt hbinary 3
      rcases encodeFrom_three hg hbinary rfl rfl rfl (fuel + 1) block (by simp) with
        ⟨block₃, hlow₃, hthree⟩
      -- The fourth turn reads the next character already; the first one reads it again.
      rcases encodeFrom_turn (front ++ _) fuel (12 * g + 3 + 3 + 3) _ (by rw [hlength]; omega)
        (charCode_append 3 (by omega)) hw (fourth_digit hlow₃ hw) with ⟨block₄, -, hfourth⟩
      have hfuel' : 2 * rest.length ≤ fuel := by
        simp only [List.length_cons] at hfuel
        omega
      have hfront : (front ++ [x, y, z]).length = 3 * (g + 1) := by simp [hg]; omega
      have hrest := encodeFrom_eq rest (front ++ [x, y, z]) (g + 1) fuel block₄ hfront
        (fun c hc => hbinary c (by simp [hc])) hfuel'
      rw [List.append_assoc] at hrest
      have hidx : 12 * g + 3 + 3 + 3 + 3 = 12 * (g + 1) := by omega
      have hstr : front ++ x :: y :: z :: rest = front ++ ([x, y, z] ++ rest) := rfl
      rw [hthree, hfourth, hidx, hstr, hrest]
      rfl

/-- The encoder writes the sextets of a binary string. -/
theorem base64UrlEncode_eq {str : JsString} (h : IsBinary str) :
    base64UrlEncode str = .ok ((sextets (str.map UInt16.toNat)).map base64UrlDigit) :=
  encodeFrom_eq str [] 0 _ 0 rfl h (Nat.le_succ _)

theorem isBinary_uint8ArrayToStr (array : Bytes) : IsBinary (uint8ArrayToStr array) := by
  intro c hc
  rcases List.mem_map.1 hc with ⟨b, -, rfl⟩
  have hlt := b.toNat_lt
  rw [UInt16.toNat_ofNat']
  omega

theorem toNat_uint8ArrayToStr (array : Bytes) :
    (uint8ArrayToStr array).map UInt16.toNat = array.map UInt8.toNat := by
  unfold uint8ArrayToStr
  rw [List.map_map]
  apply List.map_congr_left
  intro b _
  have hlt := b.toNat_lt
  rw [Function.comp_apply, UInt16.toNat_ofNat']
  omega

/-- Bytes are always encoded. -/
theorem base64UrlEncodeArr_eq (bytes : Bytes) :
    base64UrlEncodeArr bytes = .ok ((sextets (bytes.map UInt8.toNat)).map base64UrlDigit) := by
  rw [base64UrlEncodeArr, base64UrlEncode_eq (isBinary_uint8ArrayToStr bytes),
    toNat_uint8ArrayToStr]

/-! ## Round trip -/

theorem base64UrlDigit_ne_pad {n : Nat} (h : n < 64) : base64UrlDigit n ≠ unit '=' := by
  revert n
  decide

theorem withoutPadding_eq {str : JsString} (h : ∀ c ∈ str, c ≠ unit '=') :
    withoutPadding str = str := by
  have hdrop : (str.reverse.dropWhile fun c => c == unit '=') = str.reverse := by
    cases hrev : str.reverse with
    | nil => rfl
    | cons c rest =>
        have hc : c ∈ str := List.mem_reverse.1 (hrev ▸ List.mem_cons_self)
        rw [List.dropWhile_cons_of_neg (by simpa using h c hc)]
  rw [withoutPadding, hdrop, List.reverse_reverse]

section Decode

variable {n bc : Nat} (rest : JsString) (bs : Nat)

theorem decodeFrom_first (hn : n < 64) (hbc : bc % 4 = 0) :
    decodeFrom (base64UrlDigit n :: rest) bc bs = decodeFrom rest (bc + 1) n := by
  rw [decodeFrom, base64UrlIndex_digit hn]
  exact if_pos hbc

theorem decodeFrom_next (k : Nat) (hn : n < 64) (hbc : bc % 4 ≠ 0)
    (hshift : (8 - 2 * ((bc + 1) % 4)) % 8 = k) :
    decodeFrom (base64UrlDigit n :: rest) bc bs =
      UInt16.ofNat ((bs * 64 + n) / 2 ^ k % 256) :: decodeFrom rest (bc + 1) (bs * 64 + n) := by
  rw [decodeFrom, base64UrlIndex_digit hn]
  dsimp only
  rw [if_neg hbc, hshift]

end Decode

/-- The decoder reads the octets back, four digits at a time. -/
theorem decodeFrom_digits {values : List Nat} (h : ∀ n ∈ values, n < 64) {bc : Nat} (bs : Nat)
    (hbc : bc % 4 = 0) :
    decodeFrom (values.map base64UrlDigit) bc bs = (octets values).map UInt16.ofNat := by
  -- Every first digit of a group overwrites the accumulated bits.
  induction values using octets.induct generalizing bc bs with
  | case1 a b c d rest ih =>
      have ha := h a (by simp)
      have hb := h b (by simp)
      have hc := h c (by simp)
      have hd := h d (by simp)
      have hbc' : (bc + 1 + 1 + 1 + 1) % 4 = 0 := by omega
      have hrest := ih (fun n hn => h n (by simp [hn])) (((a * 64 + b) * 64 + c) * 64 + d) hbc'
      have hfirst : (a * 64 + b) / 2 ^ 4 % 256 = a * 4 + b / 16 := by omega
      have hsecond : ((a * 64 + b) * 64 + c) / 2 ^ 2 % 256 = b % 16 * 16 + c / 4 := by omega
      have hthird : (((a * 64 + b) * 64 + c) * 64 + d) / 2 ^ 0 % 256 = c % 4 * 64 + d := by omega
      simp only [List.map_cons]
      rw [decodeFrom_first _ _ ha hbc, decodeFrom_next _ _ 4 hb (by omega) (by omega),
        decodeFrom_next _ _ 2 hc (by omega) (by omega),
        decodeFrom_next _ _ 0 hd (by omega) (by omega), hfirst, hsecond, hthird, hrest]
      rfl
  | case2 a b c =>
      have ha := h a (by simp)
      have hb := h b (by simp)
      have hc := h c (by simp)
      have hfirst : (a * 64 + b) / 2 ^ 4 % 256 = a * 4 + b / 16 := by omega
      have hsecond : ((a * 64 + b) * 64 + c) / 2 ^ 2 % 256 = b % 16 * 16 + c / 4 := by omega
      simp only [List.map_cons, List.map_nil]
      rw [decodeFrom_first _ _ ha hbc, decodeFrom_next _ _ 4 hb (by omega) (by omega),
        decodeFrom_next _ _ 2 hc (by omega) (by omega), hfirst, hsecond]
      rfl
  | case3 a b =>
      have ha := h a (by simp)
      have hb := h b (by simp)
      have hfirst : (a * 64 + b) / 2 ^ 4 % 256 = a * 4 + b / 16 := by omega
      simp only [List.map_cons, List.map_nil]
      rw [decodeFrom_first _ _ ha hbc, decodeFrom_next _ _ 4 hb (by omega) (by omega), hfirst]
      rfl
  | case4 values hfour hthree htwo =>
      match values with
      | [] => rfl
      | [a] => exact decodeFrom_first [] bs (h a (by simp)) hbc
      | [a, b] => exact absurd rfl (htwo a b)
      | [a, b, c] => exact absurd rfl (hthree a b c)
      | a :: b :: c :: d :: rest => exact absurd rfl (hfour a b c d rest)

/-- Decoding the encoding of any bytes gives them back. -/
theorem base64UrlDecodeArr_encodeArr {bytes : Bytes} {text : JsString}
    (h : base64UrlEncodeArr bytes = .ok text) : base64UrlDecodeArr text = .ok bytes := by
  rw [base64UrlEncodeArr_eq] at h
  cases h
  have hbytes : ∀ x ∈ bytes.map UInt8.toNat, x < 256 := by
    intro x hx
    rcases List.mem_map.1 hx with ⟨b, -, rfl⟩
    exact b.toNat_lt
  have hpad : ∀ c ∈ (sextets (bytes.map UInt8.toNat)).map base64UrlDigit, c ≠ unit '=' := by
    intro c hc
    rcases List.mem_map.1 hc with ⟨n, hn, rfl⟩
    exact base64UrlDigit_ne_pad (sextets_lt hbytes n hn)
  have hlength := sextets_length (bytes.map UInt8.toNat)
  have hcount := paddingLength_le (bytes.map UInt8.toNat).length
  have hmod : ¬ ((sextets (bytes.map UInt8.toNat)).map base64UrlDigit).length % 4 = 1 := by
    rw [List.length_map]
    omega
  unfold base64UrlDecodeArr base64UrlDecode
  rw [withoutPadding_eq hpad]
  dsimp only
  rw [if_neg hmod, decodeFrom_digits (sextets_lt hbytes) 0 rfl, octets_sextets hbytes]
  have hback : ∀ b ∈ bytes, UInt8.ofNat (UInt16.ofNat b.toNat).toNat = b := by
    intro b _
    have hlt := b.toNat_lt
    have hnat : (UInt16.ofNat b.toNat).toNat = b.toNat := by
      rw [UInt16.toNat_ofNat']
      omega
    rw [hnat, UInt8.ofNat_toNat]
  have hmap : strToUint8Array ((bytes.map UInt8.toNat).map UInt16.ofNat) = bytes := by
    unfold strToUint8Array
    rw [List.map_map, List.map_map]
    exact (List.map_congr_left hback).trans (List.map_id' bytes)
  exact congrArg Except.ok hmap

end Cryptography
end StoaCore
