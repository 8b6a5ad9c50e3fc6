import Mathlib.Data.List.Basic

/-!
# Text — JavaScript strings

A JavaScript string is a list of UTF-16 code units, lone surrogates included.  `js` writes a
Lean string as the code units JavaScript would hold for it.
-/

namespace Library
namespace Js

abbrev CodeUnit := UInt16

abbrev JsString := List CodeUnit

instance : LawfulBEq JsString := inferInstance

/-- The code unit of a character below U+10000. -/
def unit (c : Char) : CodeUnit :=
  UInt16.ofNat c.toNat

/-! ## Surrogates -/

def isHighSurrogate (c : CodeUnit) : Bool :=
  0xD800 ≤ c && c ≤ 0xDBFF

def isLowSurrogate (c : CodeUnit) : Bool :=
  0xDC00 ≤ c && c ≤ 0xDFFF

def isSurrogate (c : CodeUnit) : Bool :=
  isHighSurrogate c || isLowSurrogate c

/-- The code units of one scalar value. -/
def utf16 (n : Nat) : JsString :=
  if n < 0x10000 then [UInt16.ofNat n]
  else
    [UInt16.ofNat (0xD800 + (n - 0x10000) / 0x400), UInt16.ofNat (0xDC00 + (n - 0x10000) % 0x400)]

/-- A Lean string as a JavaScript string. -/
def js (text : String) : JsString :=
  text.toList.flatMap fun c => utf16 c.toNat

/-! ## Character classes -/

def isDigit (c : CodeUnit) : Bool :=
  unit '0' ≤ c && c ≤ unit '9'

def digitVal (c : CodeUnit) : Nat :=
  c.toNat - 48

/-- The lower-case hexadecimal digit of `d < 16`. -/
def hexDigit (d : Nat) : CodeUnit :=
  if d < 10 then UInt16.ofNat (48 + d) else UInt16.ofNat (87 + d)

def hexVal (c : CodeUnit) : Option Nat :=
  if isDigit c then some (digitVal c)
  else if unit 'a' ≤ c && c ≤ unit 'f' then some (c.toNat - 87)
  else if unit 'A' ≤ c && c ≤ unit 'F' then some (c.toNat - 55)
  else none

theorem hexVal_hexDigit {d : Nat} (h : d < 16) : hexVal (hexDigit d) = some d := by
  revert d
  decide

/-- The four hexadecimal digits of a code unit. -/
def hex4 (c : CodeUnit) : JsString :=
  [hexDigit (c.toNat / 4096), hexDigit (c.toNat / 256 % 16), hexDigit (c.toNat / 16 % 16),
    hexDigit (c.toNat % 16)]

/-- The `count` lowest hexadecimal digits of `n`. -/
def hexText : Nat → Nat → JsString
  | 0, _ => []
  | count + 1, n => hexText count (n / 16) ++ [hexDigit (n % 16)]

/-! ## Binary strings -/

/-- Every code unit stands for a byte. -/
def IsBinary (text : JsString) : Prop :=
  ∀ c ∈ text, c.toNat < 256

instance (text : JsString) : Decidable (IsBinary text) :=
  decidable_of_iff (text.all (fun c => decide (c.toNat < 256)) = true) (by simp [IsBinary])

theorem isBinary_nil : IsBinary [] := by
  intro c hc
  cases hc

theorem isBinary_cons {c : CodeUnit} {text : JsString} :
    IsBinary (c :: text) ↔ c.toNat < 256 ∧ IsBinary text := by
  simp [IsBinary]

theorem isBinary_append {front back : JsString} :
    IsBinary (front ++ back) ↔ IsBinary front ∧ IsBinary back := by
  simp [IsBinary, or_imp, forall_and]

theorem toNat_hexDigit_lt {d : Nat} (h : d < 16) : (hexDigit d).toNat < 256 := by
  revert d
  decide

theorem isBinary_hex4 (c : CodeUnit) : IsBinary (hex4 c) := by
  have hlt := c.toNat_lt
  simp only [hex4, isBinary_cons, isBinary_nil, and_true]
  refine ⟨?_, ?_, ?_, ?_⟩
  · exact toNat_hexDigit_lt (by omega)
  · exact toNat_hexDigit_lt (by omega)
  · exact toNat_hexDigit_lt (by omega)
  · exact toNat_hexDigit_lt (by omega)

end Js
end Library
