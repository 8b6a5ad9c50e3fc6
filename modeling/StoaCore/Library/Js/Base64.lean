import StoaCore.Library.Js.Text

/-!
# Base64 — `btoa` and `atob`

Both work on binary strings: strings whose code units are below 256, each standing for a byte.
`atob` is the forgiving decoder, which skips white space and needs no padding.
-/

namespace Library
namespace Js

/-! ## The alphabet -/

def base64Digit (n : Nat) : CodeUnit :=
  if n < 26 then UInt16.ofNat (65 + n)
  else if n < 52 then UInt16.ofNat (71 + n)
  else if n < 62 then UInt16.ofNat (n - 4)
  else if n = 62 then unit '+'
  else unit '/'

def base64Value (c : CodeUnit) : Option Nat :=
  if unit 'A' ≤ c && c ≤ unit 'Z' then some (c.toNat - 65)
  else if unit 'a' ≤ c && c ≤ unit 'z' then some (c.toNat - 71)
  else if isDigit c then some (c.toNat + 4)
  else if c = unit '+' then some 62
  else if c = unit '/' then some 63
  else none

theorem base64Value_digit {n : Nat} (h : n < 64) : base64Value (base64Digit n) = some n := by
  revert n
  decide

/-! ## Groups of six and of eight bits -/

def sextets : List Nat → List Nat
  | x :: y :: z :: rest =>
      x / 4 :: (x % 4 * 16 + y / 16) :: (y % 16 * 4 + z / 64) :: z % 64 :: sextets rest
  | [x, y] => [x / 4, x % 4 * 16 + y / 16, y % 16 * 4]
  | [x] => [x / 4, x % 4 * 16]
  | [] => []

/-- The whole bytes; bits left over at the end are dropped. -/
def octets : List Nat → List Nat
  | a :: b :: c :: d :: rest =>
      (a * 4 + b / 16) :: (b % 16 * 16 + c / 4) :: (c % 4 * 64 + d) :: octets rest
  | [a, b, c] => [a * 4 + b / 16, b % 16 * 16 + c / 4]
  | [a, b] => [a * 4 + b / 16]
  | _ => []

theorem sextets_lt {bytes : List Nat} (h : ∀ x ∈ bytes, x < 256) : ∀ n ∈ sextets bytes, n < 64 := by
  induction bytes using sextets.induct with
  | case1 x y z rest ih =>
      have hx := h x (by simp)
      have hy := h y (by simp)
      have hz := h z (by simp)
      have hrest := ih fun w hw => h w (by simp [hw])
      intro n hn
      simp only [sextets, List.mem_cons] at hn
      rcases hn with rfl | rfl | rfl | rfl | hn
      · omega
      · omega
      · omega
      · omega
      · exact hrest n hn
  | case2 x y =>
      have hx := h x (by simp)
      have hy := h y (by simp)
      intro n hn
      simp only [sextets, List.mem_cons, List.not_mem_nil, or_false] at hn
      omega
  | case3 x =>
      have hx := h x (by simp)
      intro n hn
      simp only [sextets, List.mem_cons, List.not_mem_nil, or_false] at hn
      omega
  | case4 =>
      intro n hn
      cases hn

theorem octets_sextets {bytes : List Nat} (h : ∀ x ∈ bytes, x < 256) :
    octets (sextets bytes) = bytes := by
  induction bytes using sextets.induct with
  | case1 x y z rest ih =>
      have hx := h x (by simp)
      have hy := h y (by simp)
      have hz := h z (by simp)
      have hrest := ih fun w hw => h w (by simp [hw])
      have hfirst : x / 4 * 4 + (x % 4 * 16 + y / 16) / 16 = x := by omega
      have hsecond : (x % 4 * 16 + y / 16) % 16 * 16 + (y % 16 * 4 + z / 64) / 4 = y := by omega
      have hthird : (y % 16 * 4 + z / 64) % 4 * 64 + z % 64 = z := by omega
      rw [sextets, octets, hfirst, hsecond, hthird, hrest]
  | case2 x y =>
      have hx := h x (by simp)
      have hy := h y (by simp)
      have hfirst : x / 4 * 4 + (x % 4 * 16 + y / 16) / 16 = x := by omega
      have hsecond : (x % 4 * 16 + y / 16) % 16 * 16 + y % 16 * 4 / 4 = y := by omega
      rw [sextets, octets, hfirst, hsecond]
  | case3 x =>
      have hx := h x (by simp)
      have hfirst : x / 4 * 4 + x % 4 * 16 / 16 = x := by omega
      rw [sextets, octets, hfirst]
  | case4 => rfl

/-- How many pad characters complete the last group. -/
def paddingLength (count : Nat) : Nat :=
  (3 - count % 3) % 3

theorem sextets_length (bytes : List Nat) :
    ((sextets bytes).length + paddingLength bytes.length) % 4 = 0 := by
  induction bytes using sextets.induct with
  | case1 x y z rest ih =>
      have hpad : paddingLength (x :: y :: z :: rest).length = paddingLength rest.length := by
        simp only [paddingLength, List.length_cons]
        omega
      rw [hpad]
      simp only [sextets, List.length_cons]
      omega
  | case2 x y => simp [sextets, paddingLength]
  | case3 x => simp [sextets, paddingLength]
  | case4 => rfl

/-! ## btoa and atob -/

/-- `btoa(text)`; `none` where it throws an `InvalidCharacterError`. -/
def btoa (text : JsString) : Option JsString :=
  if text.all fun c => decide (c.toNat < 256) then
    some ((sextets (text.map UInt16.toNat)).map base64Digit ++
      List.replicate (paddingLength text.length) (unit '='))
  else none

def isBase64Whitespace (c : CodeUnit) : Bool :=
  c == 9 || c == 10 || c == 12 || c == 13 || c == 32

/-- Drops a pad character at the end. -/
def dropPad (data : JsString) : JsString :=
  if data.getLast? = some (unit '=') then data.dropLast else data

/-- Drops at most two pad characters at the end. -/
def stripPadding (data : JsString) : JsString :=
  dropPad (dropPad data)

/-- `atob(text)`; `none` where it throws an `InvalidCharacterError`. -/
def atob (text : JsString) : Option JsString :=
  let data := text.filter fun c => !isBase64Whitespace c
  -- Padding is only stripped where the length is a multiple of four.
  let data := if data.length % 4 = 0 then stripPadding data else data
  if data.length % 4 = 1 then none
  else (data.mapM base64Value).map fun values => (octets values).map UInt16.ofNat

theorem btoa_of_isBinary {text : JsString} (h : IsBinary text) :
    ∃ encoded, btoa text = some encoded := by
  refine ⟨_, if_pos (List.all_eq_true.2 ?_)⟩
  intro c hc
  exact decide_eq_true (h c hc)

theorem toNat_base64Digit_lt {n : Nat} (h : n < 64) : (base64Digit n).toNat < 256 := by
  revert n
  decide

/-! ## Round trip -/

theorem base64Digit_ne_pad {n : Nat} (h : n < 64) :
    isBase64Whitespace (base64Digit n) = false ∧ base64Digit n ≠ unit '=' := by
  revert n
  decide

theorem dropPad_append (body : JsString) : dropPad (body ++ [unit '=']) = body := by
  simp [dropPad]

theorem dropPad_of_ne {body : JsString} (hbody : ∀ c ∈ body, c ≠ unit '=') :
    dropPad body = body := by
  unfold dropPad
  apply if_neg
  intro hlast
  exact hbody _ (List.mem_of_getLast? hlast) rfl

theorem stripPadding_append {body : JsString} (hbody : ∀ c ∈ body, c ≠ unit '=') {count : Nat}
    (hcount : count ≤ 2) : stripPadding (body ++ List.replicate count (unit '=')) = body := by
  have hcases : count = 0 ∨ count = 1 ∨ count = 2 := by omega
  unfold stripPadding
  rcases hcases with rfl | rfl | rfl
  · rw [List.replicate_zero, List.append_nil, dropPad_of_ne hbody, dropPad_of_ne hbody]
  · rw [List.replicate_one, dropPad_append, dropPad_of_ne hbody]
  · rw [List.replicate_succ, List.replicate_one, ← List.singleton_append, ← List.append_assoc,
      dropPad_append, dropPad_append]

theorem mapM_base64Value {values : List Nat} (h : ∀ n ∈ values, n < 64) :
    (values.map base64Digit).mapM base64Value = some values := by
  induction values with
  | nil => rfl
  | cons n values ih =>
      rw [List.map_cons, List.mapM_cons, base64Value_digit (h n List.mem_cons_self),
        ih fun m hm => h m (List.mem_cons_of_mem _ hm)]
      rfl

theorem paddingLength_le (count : Nat) : paddingLength count ≤ 2 := by
  unfold paddingLength
  omega

theorem btoa_eq_some {text encoded : JsString} (h : btoa text = some encoded) :
    (∀ x ∈ text.map UInt16.toNat, x < 256) ∧
      encoded = (sextets (text.map UInt16.toNat)).map base64Digit ++
        List.replicate (paddingLength text.length) (unit '=') := by
  unfold btoa at h
  split at h
  case isFalse => cases h
  case isTrue hbytes =>
    cases h
    refine ⟨?_, rfl⟩
    intro x hx
    rcases List.mem_map.1 hx with ⟨c, hc, rfl⟩
    simpa using List.all_eq_true.1 hbytes c hc

theorem isBinary_btoa {text encoded : JsString} (h : btoa text = some encoded) :
    IsBinary encoded := by
  rcases btoa_eq_some h with ⟨hlt, rfl⟩
  refine isBinary_append.2 ⟨?_, ?_⟩
  · intro c hc
    rcases List.mem_map.1 hc with ⟨n, hn, rfl⟩
    exact toNat_base64Digit_lt (sextets_lt hlt n hn)
  · intro c hc
    rw [List.eq_of_mem_replicate hc]
    decide

/-- Decoding the encoding of a binary string gives it back. -/
theorem atob_btoa {text encoded : JsString} (h : btoa text = some encoded) :
    atob encoded = some text := by
  rcases btoa_eq_some h with ⟨hlt, rfl⟩
  have hbody : ∀ c ∈ (sextets (text.map UInt16.toNat)).map base64Digit,
      isBase64Whitespace c = false ∧ c ≠ unit '=' := by
    intro c hc
    rcases List.mem_map.1 hc with ⟨n, hn, rfl⟩
    exact base64Digit_ne_pad (sextets_lt hlt n hn)
  have hlength := sextets_length (text.map UInt16.toNat)
  rw [List.length_map] at hlength
  have hpad := paddingLength_le text.length
  -- No white space is skipped, and the padding is what is stripped.
  have hfilter : ((sextets (text.map UInt16.toNat)).map base64Digit ++
      List.replicate (paddingLength text.length) (unit '=')).filter
        (fun c => !isBase64Whitespace c) =
      (sextets (text.map UInt16.toNat)).map base64Digit ++
        List.replicate (paddingLength text.length) (unit '=') := by
    rw [List.filter_eq_self]
    intro c hc
    rcases List.mem_append.1 hc with hc | hc
    · rw [(hbody c hc).1]
      rfl
    · rw [List.eq_of_mem_replicate hc]
      rfl
  have hstrip := stripPadding_append (fun c hc => (hbody c hc).2) hpad
  have htext : (text.map UInt16.toNat).map UInt16.ofNat = text := by
    simp [Function.comp_def]
  have hmod : ((sextets (text.map UInt16.toNat)).map base64Digit).length % 4 ≠ 1 := by
    rw [List.length_map]
    omega
  have hzero : ((sextets (text.map UInt16.toNat)).map base64Digit ++
      List.replicate (paddingLength text.length) (unit '=')).length % 4 = 0 := by
    rw [List.length_append, List.length_map, List.length_replicate, hlength]
  unfold atob
  dsimp only
  rw [hfilter, if_pos hzero, hstrip, if_neg hmod, mapM_base64Value (sextets_lt hlt),
    Option.map_some, octets_sextets hlt, htext]

end Js
end Library
