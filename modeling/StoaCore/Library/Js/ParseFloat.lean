import StoaCore.Library.Js.Rounding
import StoaCore.Library.Js.Strings

/-!
# ParseFloat — reading a number at the front of a text

`parseFloat` reads the longest decimal literal that a text begins with and ignores what follows.
-/

namespace Library
namespace Js

/-- The exponent part at the front of `text`; zero when there is none. -/
def exponentPart (text : JsString) : Int :=
  match text with
  | [] => 0
  | c :: rest =>
      if c = unit 'e' ∨ c = unit 'E' then
        let sign := rest.takeWhile fun d => d == unit '-' || d == unit '+'
        let digits := (rest.drop sign.length).takeWhile isDigit
        if digits = [] ∨ 1 < sign.length then 0
        else if sign = [unit '-'] then -(decimalDigits digits)
        else decimalDigits digits
      else 0

/-- `parseFloat` of an unsigned text; `none` is NaN. -/
def parseUnsigned (text : JsString) : Option Rat :=
  let whole := text.takeWhile isDigit
  let rest := text.dropWhile isDigit
  let behind := if rest.head? = some (unit '.') then rest.tail else []
  let fraction := behind.takeWhile isDigit
  if whole = [] ∧ fraction = [] then none
  else
    let exponent :=
      exponentPart (if rest.head? = some (unit '.') then behind.dropWhile isDigit else rest)
    some (decimalDigits (whole ++ fraction) * (10 : Rat) ^ (exponent - fraction.length))

/-- `parseFloat(text)`; `none` is NaN, and zero has one sign. -/
def parseFloat (text : JsString) : Option Number :=
  let trimmed := text.dropWhile isStrWhiteSpace
  let negative := decide (trimmed.head? = some (unit '-'))
  let unsigned := if negative ∨ trimmed.head? = some (unit '+') then trimmed.tail else trimmed
  if js "Infinity" <+: unsigned then some (.infinity negative)
  else (parseUnsigned unsigned).map fun q => Number.round (if negative then -q else q)

example : parseFloat (js " -12.5e1 $") = some (.finite (-125)) := by
  decide +kernel

/-- Nothing in `rest` continues the digits in front of it. -/
def EndsDigits (rest : JsString) : Prop :=
  ∀ c, rest.head? = some c → isDigit c = false ∧ c ≠ unit 'e' ∧ c ≠ unit 'E'

theorem endsDigits_nil : EndsDigits [] := by
  intro c hc
  cases hc

theorem endsDigits_cons {c : CodeUnit} {rest : JsString} :
    EndsDigits (c :: rest) ↔ isDigit c = false ∧ c ≠ unit 'e' ∧ c ≠ unit 'E' := by
  simp [EndsDigits]

theorem exponentPart_of_endsDigits {rest : JsString} (h : EndsDigits rest) :
    exponentPart rest = 0 := by
  cases rest with
  | nil => rfl
  | cons c rest =>
      have hc := h c rfl
      simp [exponentPart, hc.2.1, hc.2.2]

theorem takeWhile_isDigit_of_endsDigits {digits rest : JsString} (hdigits : IsDigits digits)
    (h : EndsDigits rest) :
    (digits ++ rest).takeWhile isDigit = digits ∧ (digits ++ rest).dropWhile isDigit = rest := by
  cases rest with
  | nil =>
      rw [List.append_nil]
      exact takeWhile_isDigit_self hdigits
  | cons c rest => exact takeWhile_isDigit hdigits (h c rfl).1 rest

/-- A text that begins with a digit has no sign. -/
theorem parseFloat_of_isDigit {c : CodeUnit} (h : isDigit c = true) (rest : JsString) :
    parseFloat (c :: rest) = (parseUnsigned (c :: rest)).map Number.round := by
  have hspace := isStrWhiteSpace_of_isDigit h
  have hminus : c ≠ unit '-' := by rintro rfl; exact absurd h (by decide)
  have hplus : c ≠ unit '+' := by rintro rfl; exact absurd h (by decide)
  have hinfinity : ¬js "Infinity" <+: c :: rest := by
    intro hprefix
    rcases List.cons_prefix_cons.1 hprefix with ⟨rfl, -⟩
    exact absurd h (by decide)
  simp [parseFloat, hspace, hminus, hplus, hinfinity]

theorem parseFloat_append {digits : JsString} (h : IsDigits digits) (hne : digits ≠ [])
    (rest : JsString) :
    parseFloat (digits ++ rest) = (parseUnsigned (digits ++ rest)).map Number.round := by
  cases digits with
  | nil => exact absurd rfl hne
  | cons c digits => exact parseFloat_of_isDigit (h c List.mem_cons_self) _

theorem parseFloat_whole {whole rest : JsString} (h : IsDigits whole) (hne : whole ≠ [])
    (hrest : EndsDigits rest) (hperiod : rest.head? ≠ some (unit '.')) :
    parseFloat (whole ++ rest) = some (Number.round (decimalDigits whole)) := by
  have hread := takeWhile_isDigit_of_endsDigits h hrest
  rw [parseFloat_append h hne]
  simp [parseUnsigned, hread.1, hread.2, hperiod, hne, exponentPart_of_endsDigits hrest]

theorem parseFloat_decimal {whole fraction rest : JsString} (h : IsDigits whole)
    (hne : whole ≠ []) (hfraction : IsDigits fraction) (hrest : EndsDigits rest) :
    parseFloat (whole ++ unit '.' :: (fraction ++ rest)) =
      some (Number.round (decimalValue whole fraction)) := by
  have hread := takeWhile_isDigit h (c := unit '.') (by decide) (fraction ++ rest)
  have hbehind := takeWhile_isDigit_of_endsDigits hfraction hrest
  rw [parseFloat_append h hne]
  simp [parseUnsigned, hread.1, hread.2, hbehind.1, hbehind.2, hne,
    exponentPart_of_endsDigits hrest, decimalValue, div_eq_mul_inv]

/-! ## Numbers far apart are told apart -/

theorem round_of_lt {v : Rat} (hv : 0 ≤ v) (hlt : v < 10 ^ 6) :
    Number.round v = .finite (nearestBinary64 v) := by
  have hle : nearestBinary64 v ≤ v + (v / 2 ^ 52 + 1 / 1000) / 2 := Rounding.binary64.round_le hv
  have hge : v - (v / 2 ^ 52 + 1 / 1000) / 2 ≤ nearestBinary64 v := Rounding.binary64.le_round hv
  have hlarge : (2 : Rat) ^ (30 : Int) ≤ 2 ^ (1024 : Int) :=
    zpow_le_zpow_right₀ (by norm_num) (by norm_num)
  have habs : |nearestBinary64 v| < (2 : Rat) ^ (1024 : Int) := by
    refine lt_of_lt_of_le ?_ hlarge
    rw [abs_lt]
    constructor
    · norm_num at hge ⊢
      linarith
    · norm_num at hle hlt ⊢
      linarith
  unfold Number.round
  rw [if_pos habs]

/-- A number of at least one, and a thousandth of it or less, are not rounded to one number. -/
theorem round_ne_round {v n : Rat} (hv : 0 ≤ v) (hlt : v < 10 ^ 6) (hn : 1 ≤ n)
    (hle : 1000 * v ≤ n) : Number.round v ≠ Number.round n := by
  intro heq
  rw [round_of_lt hv hlt] at heq
  unfold Number.round at heq
  split at heq
  case isFalse => cases heq
  case isTrue =>
    have hsame : nearestBinary64 v = nearestBinary64 n := Number.finite.inj heq
    have hhigh : nearestBinary64 v ≤ v + (v / 2 ^ 52 + 1 / 1000) / 2 :=
      Rounding.binary64.round_le hv
    have hlow : n - (n / 2 ^ 52 + 1 / 1000) / 2 ≤ nearestBinary64 n :=
      Rounding.binary64.le_round (by linarith)
    norm_num at hhigh hlow
    linarith

end Js
end Library
