import Mathlib.Tactic.FieldSimp
import StoaCore.Gas.GasUtils
import StoaCore.Library.Js.DecimalText

/-!
# AnuConversion — amounts of gas money in its two units

One STOA is `10 ^ 12` ANU.  `anuToStoaNumber` writes the ANU as the decimals of a number below one,
padded to twelve places.  More than twelve digits stay more than twelve decimals.
-/

namespace StoaCore
namespace Gas

open Library.Js

/-! ## anuToStoa, stoaToAnu -/

def anuPerStoa : Rat := 1000000000000

section Arithmetic

variable (fl : Rounding)

def anuToStoa (anu : Rat) : Rat :=
  fl.round (anu / anuPerStoa)

def stoaToAnu (stoa : Rat) : Rat :=
  fl.round (stoa * anuPerStoa)

theorem stoaToAnu_anuToStoa_exact (anu : Rat) :
    stoaToAnu Rounding.exact (anuToStoa Rounding.exact anu) = anu := by
  unfold stoaToAnu anuToStoa
  exact div_mul_cancel₀ anu (by norm_num [anuPerStoa])

end Arithmetic

/-! ## The literal of anuToStoaNumber -/

/-- `"0." + String(anu).padStart(12, "0")` -/
def stoaLiteral (anu : Nat) : JsString :=
  js "0." ++ padStart (js (toString anu)) 12

/-- The number that the literal denotes. -/
def stoaValue (anu : Nat) : Rat :=
  literalToRat (stoaLiteral anu)

theorem anuToStoaNumber_eq (anu : Nat) : anuToStoaNumber anu = Number.round (stoaValue anu) :=
  rfl

theorem length_padStart (text : JsString) (width : Nat) :
    (padStart text width).length = max width text.length := by
  rw [padStart, List.length_append, List.length_replicate]
  omega

theorem isDigits_padStart {text : JsString} (h : IsDigits text) (width : Nat) :
    IsDigits (padStart text width) := by
  refine isDigits_append.2 ⟨fun c hc => ?_, h⟩
  rw [List.eq_of_mem_replicate hc]
  decide

theorem decimalDigits_padStart (text : JsString) (width : Nat) :
    decimalDigits (padStart text width) = decimalDigits text :=
  decimalDigits_replicate_zero _ _

/-- The decimals are the digits of the amount, at least twelve of them. -/
theorem stoaValue_eq (anu : Nat) :
    stoaValue anu = anu / 10 ^ max 12 (decimalText anu).length := by
  have hdigits := isDigits_padStart (isDigits_decimalText anu) 12
  have hzero : IsDigits [unit '0'] := by decide
  calc stoaValue anu
      = literalToRat ([unit '0'] ++ unit '.' :: padStart (decimalText anu) 12) := by
        rw [stoaValue, stoaLiteral, js_toString]
        rfl
    _ = decimalValue [unit '0'] (padStart (decimalText anu) 12) :=
        literalToRat_point (List.cons_ne_nil _ _) hzero hdigits
    _ = decimalDigits (padStart (decimalText anu) 12) / 10 ^ max 12 (decimalText anu).length := by
        have hleading := decimalDigits_replicate_zero 1 (padStart (decimalText anu) 12)
        rw [decimalValue, ← length_padStart, ← hleading]
        rfl
    _ = anu / 10 ^ max 12 (decimalText anu).length := by
        rw [decimalDigits_padStart, decimalDigits_decimalText]

theorem stoaValue_of_lt {anu : Nat} (h : anu < 10 ^ 12) : stoaValue anu = anu / anuPerStoa := by
  have hlength : (decimalText anu).length ≤ 12 := (length_decimalText_le_iff (by decide)).2 h
  rw [stoaValue_eq, max_eq_left hlength]
  norm_num [anuPerStoa]

/-- A thirteenth digit makes the value ten times too small. -/
theorem stoaValue_lt_of_le {anu : Nat} (h : 10 ^ 12 ≤ anu) : stoaValue anu < anu / anuPerStoa := by
  have hlength : 12 < (decimalText anu).length :=
    not_le.1 fun hle => not_lt.2 h ((length_decimalText_le_iff (by decide)).1 hle)
  have hpos : (0 : Rat) < anu := by
    have : 0 < anu := lt_of_lt_of_le (by norm_num) h
    exact_mod_cast this
  have hpow : anuPerStoa < (10 : Rat) ^ (decimalText anu).length :=
    calc anuPerStoa
        < (10 : Rat) ^ 13 := by norm_num [anuPerStoa]
      _ ≤ (10 : Rat) ^ (decimalText anu).length := pow_le_pow_right₀ (by norm_num) hlength
  rw [stoaValue_eq, max_eq_right hlength.le]
  exact div_lt_div_of_pos_left hpos (by norm_num [anuPerStoa]) hpow

/-! ## Exactness -/

/-- The literal denotes the amount in STOA, which is the exact quotient and leads back to it; the
number is the nearest to it. -/
structure ExactConversion (anu : Nat) : Prop where
  literal : stoaValue anu = anu * (10 : Rat) ^ (-12 : Int)
  back : stoaToAnu Rounding.exact (stoaValue anu) = anu
  quotient : stoaValue anu = anuToStoa Rounding.exact anu
  number : anuToStoaNumber anu = Number.round (anu * (10 : Rat) ^ (-12 : Int))

/-- The literals of two amounts differ as the amounts do, and their values have the same order. -/
structure OrderKept (anu other : Nat) : Prop where
  distinct : stoaLiteral anu = stoaLiteral other ↔ anu = other
  order : stoaValue anu < stoaValue other ↔ anu < other

theorem exactConversion_iff (anu : Nat) : ExactConversion anu ↔ anu < 10 ^ 12 := by
  have hquotient : (anu : Rat) / anuPerStoa = anu * (10 : Rat) ^ (-12 : Int) := by
    norm_num [anuPerStoa, div_eq_mul_inv]
  constructor
  · intro h
    by_contra hlarge
    exact absurd h.quotient (stoaValue_lt_of_le (not_lt.1 hlarge)).ne
  · intro hlt
    have hvalue := stoaValue_of_lt hlt
    refine ⟨hvalue.trans hquotient, ?_, hvalue, ?_⟩
    · rw [hvalue]
      exact stoaToAnu_anuToStoa_exact anu
    · rw [anuToStoaNumber_eq, hvalue, hquotient]

theorem orderKept_of_lt {anu other : Nat} (hanu : anu < 10 ^ 12) (hother : other < 10 ^ 12) :
    OrderKept anu other := by
  have hpos : 0 < anuPerStoa := by norm_num [anuPerStoa]
  constructor
  · refine ⟨fun h => ?_, congrArg stoaLiteral⟩
    have hvalue : stoaValue anu = stoaValue other := congrArg literalToRat h
    rw [stoaValue_of_lt hanu, stoaValue_of_lt hother, div_left_inj' hpos.ne'] at hvalue
    exact_mod_cast hvalue
  · rw [stoaValue_of_lt hanu, stoaValue_of_lt hother, div_lt_div_iff_of_pos_right hpos]
    exact Nat.cast_lt

/-- Up to the first thirteen-digit amount, and no further, the conversion is exact.  The amounts are
those that `String` writes in full, all safe integers among them. -/
theorem anuToStoaNumber_exact_iff (anu other : Nat) :
    (ExactConversion anu ∧ ExactConversion other ∧ OrderKept anu other) ↔
      (anu < 10 ^ 12 ∧ other < 10 ^ 12) := by
  rw [exactConversion_iff, exactConversion_iff]
  constructor
  · rintro ⟨hanu, hother, -⟩
    exact ⟨hanu, hother⟩
  · rintro ⟨hanu, hother⟩
    exact ⟨hanu, hother, orderKept_of_lt hanu hother⟩

/-- One STOA in ANU is written as a tenth. -/
theorem oneStoa_not_exact :
    ¬ExactConversion (10 ^ 12) ∧ 10 ^ 12 ≤ 2 ^ 53 - 1 ∧
      stoaLiteral (10 ^ 12) = js "0.1000000000000" ∧ stoaValue (10 ^ 12) = 1 / 10 ∧
      anuToStoa Rounding.exact ((10 ^ 12 : Nat) : Rat) = 1 := by
  have hliteral : stoaLiteral (10 ^ 12) = js "0.1000000000000" := by decide +kernel
  refine ⟨?_, by norm_num, hliteral, ?_, ?_⟩
  · rw [exactConversion_iff]
    exact lt_irrefl _
  · rw [stoaValue, hliteral]
    decide +kernel
  · norm_num [anuToStoa, anuPerStoa, Rounding.exact]

end Gas
end StoaCore
