import Mathlib.Algebra.Order.Floor.Ring
import Mathlib.Data.Int.Log
import Mathlib.Data.Rat.Floor
import StoaCore.Library.Js.Text

/-!
# Number — JSON number literals and binary64 numbers

A number is kept as the JSON literal it is written with; what a comparison sees of it is the
binary64 number that the literal rounds to, and what a string conversion prints is the shortest
decimal that rounds to the same number.
-/

namespace Library
namespace Js

/-! ## Number literals -/

/-- The characters a JSON number is made of. -/
def isNumberUnit (c : CodeUnit) : Bool :=
  isDigit c || c == unit '-' || c == unit '+' || c == unit '.' || c == unit 'e' || c == unit 'E'

/-- Where the reader of a number literal stands. -/
inductive NumberState
  | start
  | minus
  | zero
  | whole
  | point
  | fraction
  | exponent
  | exponentSign
  | exponentDigits
  deriving DecidableEq

def NumberState.step : NumberState → CodeUnit → Option NumberState
  | .start, c =>
      if c = unit '-' then some .minus
      else if c = unit '0' then some .zero
      else if isDigit c then some .whole
      else none
  | .minus, c =>
      if c = unit '0' then some .zero
      else if isDigit c then some .whole
      else none
  | .zero, c =>
      if c = unit '.' then some .point
      else if c = unit 'e' ∨ c = unit 'E' then some .exponent
      else none
  | .whole, c =>
      if isDigit c then some .whole
      else if c = unit '.' then some .point
      else if c = unit 'e' ∨ c = unit 'E' then some .exponent
      else none
  | .point, c => if isDigit c then some .fraction else none
  | .fraction, c =>
      if isDigit c then some .fraction
      else if c = unit 'e' ∨ c = unit 'E' then some .exponent
      else none
  | .exponent, c =>
      if isDigit c then some .exponentDigits
      else if c = unit '-' ∨ c = unit '+' then some .exponentSign
      else none
  | .exponentSign, c => if isDigit c then some .exponentDigits else none
  | .exponentDigits, c => if isDigit c then some .exponentDigits else none

def NumberState.accepts : NumberState → Bool
  | .zero | .whole | .fraction | .exponentDigits => true
  | _ => false

def isNumberLiteral (text : JsString) : Bool :=
  (text.foldlM NumberState.step .start).any NumberState.accepts

/-- A JSON number literal. -/
structure NumberLiteral where
  text : JsString
  valid : isNumberLiteral text = true
  deriving DecidableEq

/-- Every character that a number literal can contain is a number character. -/
theorem isNumberUnit_of_step {s t : NumberState} {c : CodeUnit} (h : s.step c = some t) :
    isNumberUnit c = true := by
  have hzero : isDigit (unit '0') = true := by decide
  unfold isNumberUnit
  -- A letter or sign is only accepted where the grammar names it, else it is a digit.
  cases s <;> simp only [NumberState.step] at h <;> grind

theorem NumberLiteral.units (n : NumberLiteral) : ∀ c ∈ n.text, isNumberUnit c = true := by
  have hunits : ∀ (text : JsString) (s : NumberState),
      (text.foldlM NumberState.step s).isSome = true → ∀ c ∈ text, isNumberUnit c = true := by
    intro text
    induction text with
    | nil =>
        intro s _ c hc
        cases hc
    | cons d text ih =>
        intro s hsome c hc
        rw [List.foldlM_cons] at hsome
        cases hstep : s.step d with
        | none => simp [hstep] at hsome
        | some t =>
            rw [hstep] at hsome
            rcases List.mem_cons.1 hc with rfl | hc
            · exact isNumberUnit_of_step hstep
            · exact ih t hsome c hc
  have hvalid := n.valid
  unfold isNumberLiteral at hvalid
  apply hunits n.text .start
  cases hrun : n.text.foldlM NumberState.step .start with
  | none => simp [hrun] at hvalid
  | some s => rfl

theorem NumberLiteral.text_ne_nil (n : NumberLiteral) : n.text ≠ [] := by
  intro hnil
  have hvalid := n.valid
  simp [hnil, isNumberLiteral, NumberState.accepts] at hvalid

/-! ## The number a literal denotes -/

def decimalDigits (digits : JsString) : Nat :=
  digits.foldl (fun n c => 10 * n + digitVal c) 0

def decimalExponent (digits : JsString) : Int :=
  match digits with
  | [] => 0
  | c :: rest =>
      if c = unit '-' then -(decimalDigits rest)
      else if c = unit '+' then decimalDigits rest
      else decimalDigits digits

/-- The exact value of the number literal `text`. -/
def literalToRat (text : JsString) : Rat :=
  let unsigned := text.dropWhile (· == unit '-')
  let mantissa := unsigned.takeWhile fun c => c != unit 'e' && c != unit 'E'
  let exponent := decimalExponent (unsigned.drop (mantissa.length + 1))
  let whole := mantissa.takeWhile (· != unit '.')
  let fraction := mantissa.drop (whole.length + 1)
  let magnitude : Rat :=
    decimalDigits (whole ++ fraction) * (10 : Rat) ^ (exponent - fraction.length)
  if text.head? = some (unit '-') then -magnitude else magnitude

def NumberLiteral.toRat (n : NumberLiteral) : Rat :=
  literalToRat n.text

/-- Rounds to the nearest integer, ties to even. -/
def roundHalfEven (q : Rat) : Int :=
  let low := ⌊q⌋
  if q - low < 1 / 2 then low
  else if 1 / 2 < q - low then low + 1
  else if low % 2 = 0 then low
  else low + 1

/-- A binary64 number other than NaN. -/
inductive Number
  | finite (value : Rat)
  | infinity (negative : Bool)
  deriving DecidableEq

/-- The distance of neighbouring binary64 numbers around `q`. -/
def binary64Spacing (q : Rat) : Rat :=
  (2 : Rat) ^ max (Int.log 2 |q| - 52) (-1074)

/-- The binary64 number nearest to `q`, in a format without a largest number. -/
def nearestBinary64 (q : Rat) : Rat :=
  roundHalfEven (q / binary64Spacing q) * binary64Spacing q

/-- The binary64 number nearest to `q`. -/
def Number.round (q : Rat) : Number :=
  if |nearestBinary64 q| < (2 : Rat) ^ (1024 : Int) then .finite (nearestBinary64 q)
  else .infinity (decide (q < 0))

def NumberLiteral.toNumber (n : NumberLiteral) : Number :=
  Number.round n.toRat

/-! ## The text of a number -/

def decimalText (n : Nat) : JsString :=
  (Nat.toDigits 10 n).map unit

/-- A decimal `0.ddd · 10 ^ point` by its digits. -/
structure Decimal where
  digits : JsString
  point : Int

/-- Of the decimals with `count` digits that round to `v`, the one nearest to `v`; the number `v`
is positive and its decimal point stands at `point`. -/
def decimalOfLength (v : Rat) (point : Int) (count : Nat) : Option Decimal :=
  let scaled := v * (10 : Rat) ^ (count - point)
  let low := ⌊scaled⌋.toNat
  let high := ⌈scaled⌉.toNat
  let roundsBack := fun n : Nat => Number.round (n * (10 : Rat) ^ (point - count)) = .finite v
  -- The standard asks for the nearest such decimal, and for the even one of two.
  let nearLow := scaled - low < high - scaled ∨ (scaled - low = high - scaled ∧ low % 2 = 0)
  if roundsBack low ∧ (nearLow ∨ ¬ roundsBack high) then some ⟨decimalText low, point⟩
  else if roundsBack high then
    if high = 10 ^ count then some ⟨[unit '1'], point + 1⟩ else some ⟨decimalText high, point⟩
  else none

/-- The shortest decimal that rounds to `v`; seventeen digits are always enough. -/
def shortestDecimal (v : Rat) : Decimal :=
  let point := Int.log 10 v + 1
  let shortest := (List.range' 1 17).findSome? (decimalOfLength v point)
  shortest.getD ⟨decimalText ⌊v * (10 : Rat) ^ (17 - point)⌋.toNat, point⟩

def Decimal.text (d : Decimal) : JsString :=
  let count : Int := d.digits.length
  if count ≤ d.point ∧ d.point ≤ 21 then
    d.digits ++ List.replicate (d.point - count).toNat (unit '0')
  else if 0 < d.point ∧ d.point ≤ 21 then
    d.digits.take d.point.toNat ++ unit '.' :: d.digits.drop d.point.toNat
  else if -6 < d.point ∧ d.point ≤ 0 then
    js "0." ++ List.replicate (-d.point).toNat (unit '0') ++ d.digits
  else
    let exponent := (if 0 < d.point then unit '+' else unit '-') ::
      decimalText (d.point - 1).natAbs
    match d.digits with
    | [digit] => digit :: unit 'e' :: exponent
    | digits => digits.take 1 ++ unit '.' :: digits.drop 1 ++ unit 'e' :: exponent

/-- `String(x)` -/
def Number.text : Number → JsString
  | .infinity false => js "Infinity"
  | .infinity true => js "-Infinity"
  | .finite v =>
      if v = 0 then js "0"
      else if v < 0 then unit '-' :: (shortestDecimal (-v)).text
      else (shortestDecimal v).text

example : (Number.round (literalToRat (js "-0.00150e-4"))).text = js "-1.5e-7" := by
  decide +kernel

/-! ## Reading an integer -/

/-- White space and line terminators. -/
def isStrWhiteSpace (c : CodeUnit) : Bool :=
  c == 0x20 || (9 ≤ c && c ≤ 13) || c == 0xA0 || c == 0x1680 || (0x2000 ≤ c && c ≤ 0x200A) ||
    c == 0x2028 || c == 0x2029 || c == 0x202F || c == 0x205F || c == 0x3000 || c == 0xFEFF

/-- `parseInt(text, 10)` before it is rounded to binary64; `none` is NaN. -/
def parseInt10 (text : JsString) : Option Int :=
  let trimmed := text.dropWhile isStrWhiteSpace
  let negative := decide (trimmed.head? = some (unit '-'))
  let unsigned := if negative ∨ trimmed.head? = some (unit '+') then trimmed.tail else trimmed
  let digits := unsigned.takeWhile isDigit
  if digits = [] then none
  else some (if negative then -(decimalDigits digits) else decimalDigits digits)

end Js
end Library
