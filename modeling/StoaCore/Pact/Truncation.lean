import StoaCore.Pact.DecimalLiterals

/-!
# Truncation — the value of a formatted amount

The formatter rounds down to the allowed number of decimals: the value of its result is the largest
multiple of the last decimal place that does not exceed the amount.
-/

namespace StoaCore
namespace Pact

open Library
open Library.Js

/-- One unit in the `d`-th decimal place. -/
def lastPlace (d : Nat) : Rat :=
  ((10 : Rat) ^ d)⁻¹

theorem lastPlace_pos (d : Nat) : 0 < lastPlace d :=
  inv_pos.2 (pow_pos (by norm_num) d)

/-- What is kept of a number of decimals `v`. -/
theorem exceeds_finite {v : Rat} (hv : 1 ≤ v) (n : Nat) :
    exceeds n (.finite v) = true ↔ ⌊v⌋.toNat < n := by
  have hfloor : 1 ≤ ⌊v⌋ := Int.le_floor.2 (by simpa using hv)
  have hlt : v < n ↔ ⌊v⌋ < (n : Int) := by
    rw [Int.floor_lt, Int.cast_natCast]
  simp only [exceeds, decide_eq_true_eq, hlt]
  omega

/-- A row of digits cut off behind `d` decimals. -/
theorem down_decimalDigits {digits : JsString} (h : IsDigits digits) {n d : Nat} (hd : d ≤ n)
    (hlength : n ≤ digits.length) :
    Grid.down (lastPlace d) (decimalDigits digits / 10 ^ n) =
      decimalDigits (digits.take (digits.length - (n - d))) / 10 ^ d := by
  have hscale : (decimalDigits digits : Rat) / 10 ^ n / lastPlace d =
      (decimalDigits digits : Rat) / ((10 ^ (n - d) : Nat) : Rat) := by
    have hpow : (10 : Rat) ^ n = 10 ^ (n - d) * 10 ^ d := by rw [← pow_add, Nat.sub_add_cancel hd]
    rw [lastPlace, div_inv_eq_mul, hpow, Nat.cast_pow, Nat.cast_ofNat]
    field_simp
  have hdrop : (digits.drop (digits.length - (n - d))).length = n - d := by
    rw [List.length_drop]
    omega
  rw [Grid.down, hscale, Rat.floor_natCast_div_natCast, ← Int.natCast_ediv, Int.cast_natCast,
    decimalDigits_take h, hdrop, lastPlace, ← div_eq_mul_inv]

/-! ## The amount that is written -/

namespace Amount

variable (a : Amount)

/-- The decimals that are written. -/
def kept (maxDecimals : Number) : JsString :=
  match a.tail with
  | none => js "0"
  | some (_, fraction) =>
      if exceeds fraction.length maxDecimals then substringTo fraction maxDecimals else fraction

theorem isDigits_kept (maxDecimals : Number) : IsDigits (a.kept maxDecimals) := by
  unfold kept
  cases htail : a.tail with
  | none => exact show IsDigits (js "0") by decide
  | some t =>
      have hdigits : IsDigits t.2 := (a.separated t htail).2
      dsimp only
      split
      · exact hdigits.substringTo _
      · exact hdigits

/-- The formatted amount, read again. -/
def result (maxDecimals : Number) : Amount where
  whole := a.whole
  tail := some (unit '.', a.kept maxDecimals)
  digits := a.digits
  nonempty := a.nonempty
  separated := by
    rintro t ⟨⟩
    exact ⟨Or.inl rfl, a.isDigits_kept maxDecimals⟩

theorem text_result (maxDecimals : Number) :
    (a.result maxDecimals).text = a.formatted maxDecimals := by
  cases htail : a.tail with
  | none =>
      have hzero : unit '.' :: js "0" = js ".0" := by decide
      simp [text, result, kept, formatted, htail, hzero]
  | some t => simp [text, result, kept, formatted, htail]

theorem value_result_eq (maxDecimals : Number) :
    (a.result maxDecimals).value = decimalValue a.whole (a.kept maxDecimals) :=
  rfl

variable {v : Rat}

theorem kept_of_le (h : a.fraction.length ≤ ⌊v⌋.toNat) (hv : 1 ≤ v) :
    a.kept (.finite v) = match a.tail with
      | none => js "0"
      | some _ => a.fraction := by
  cases htail : a.tail with
  | none => simp [kept, htail]
  | some t =>
      have hfraction : a.fraction = t.2 := by simp [fraction, htail]
      have hshort : ¬exceeds t.2.length (.finite v) = true := by
        rw [exceeds_finite hv, ← hfraction]
        omega
      simp [kept, htail, hshort, hfraction]

theorem kept_of_lt (h : ⌊v⌋.toNat < a.fraction.length) (hv : 1 ≤ v) :
    a.kept (.finite v) = a.fraction.take ⌊v⌋.toNat := by
  cases htail : a.tail with
  | none => simp [fraction, htail] at h
  | some t =>
      have hfraction : a.fraction = t.2 := by simp [fraction, htail]
      have hlong : exceeds t.2.length (.finite v) = true := by
        rw [exceeds_finite hv, ← hfraction]
        exact h
      simp [kept, htail, hlong, hfraction, substringTo]

/-- No digit is lost as long as there are no more than are allowed. -/
theorem value_result_of_le (h : a.fraction.length ≤ ⌊v⌋.toNat) (hv : 1 ≤ v) :
    (a.result (.finite v)).value = a.value := by
  rw [value_result_eq, a.kept_of_le h hv]
  cases htail : a.tail with
  | none =>
      have hzero : decimalDigits (js "0") = 0 := by decide
      have hfraction : a.fraction = [] := by simp [fraction, htail]
      rw [value, hfraction, decimalValue, decimalDigits_append, hzero]
      simp [js, decimalValue]
  | some t => rfl

theorem value_mem_multiples {d : Nat} (h : a.fraction.length ≤ d) :
    a.value ∈ Grid.multiples (lastPlace d) := by
  refine ⟨decimalDigits (a.whole ++ a.fraction) * 10 ^ (d - a.fraction.length), ?_⟩
  have hpow : (10 : Rat) ^ d = 10 ^ (d - a.fraction.length) * 10 ^ a.fraction.length := by
    rw [← pow_add, Nat.sub_add_cancel h]
  rw [value, decimalValue, lastPlace, hpow]
  push_cast
  field_simp

theorem value_result {v : Rat} (hv : 1 ≤ v) :
    (a.result (.finite v)).value = Grid.down (lastPlace ⌊v⌋.toNat) a.value := by
  by_cases h : a.fraction.length ≤ ⌊v⌋.toNat
  · rw [a.value_result_of_le h hv, Grid.down_eq_self (lastPlace_pos _) (a.value_mem_multiples h)]
  · have hlt : ⌊v⌋.toNat < a.fraction.length := by omega
    have hdigits : IsDigits (a.whole ++ a.fraction) :=
      isDigits_append.2 ⟨a.digits, a.isDigits_fraction⟩
    have hlength : a.fraction.length ≤ (a.whole ++ a.fraction).length := by simp
    have htake : (a.whole ++ a.fraction).take
        ((a.whole ++ a.fraction).length - (a.fraction.length - ⌊v⌋.toNat)) =
        a.whole ++ a.fraction.take ⌊v⌋.toNat := by
      have hcount : (a.whole ++ a.fraction).length - (a.fraction.length - ⌊v⌋.toNat) =
          a.whole.length + ⌊v⌋.toNat := by
        rw [List.length_append]
        omega
      rw [hcount, List.take_length_add_append]
    calc (a.result (.finite v)).value
        = decimalDigits (a.whole ++ a.fraction.take ⌊v⌋.toNat) / 10 ^ ⌊v⌋.toNat := by
          rw [value_result_eq, a.kept_of_lt hlt hv, decimalValue, List.length_take_of_le hlt.le]
      _ = Grid.down (lastPlace ⌊v⌋.toNat) a.value := by
          rw [value, decimalValue, down_decimalDigits hdigits hlt.le hlength, htake]

/-- No white space is left to trim. -/
theorem trim_text : trim a.text = a.text := by
  have hspace : ∀ c ∈ a.text, isStrWhiteSpace c = false := by
    have hwhole : ∀ c ∈ a.whole, isStrWhiteSpace c = false :=
      fun c hc => isStrWhiteSpace_of_isDigit (a.digits c hc)
    unfold text
    cases htail : a.tail with
    | none => exact hwhole
    | some t =>
        have hseparated := a.separated t htail
        have hseparator : isStrWhiteSpace t.1 = false := by
          rcases hseparated.1 with h | h
          · rw [h]; decide
          · rw [h]; decide
        intro c hc
        rcases List.mem_append.1 hc with hc | hc
        · exact hwhole c hc
        · rcases List.mem_cons.1 hc with rfl | hc
          · exact hseparator
          · exact isStrWhiteSpace_of_isDigit (hseparated.2 c hc)
  exact trim_eq_self (fun c hc => hspace c (List.mem_of_head? hc))
    fun c hc => hspace c (List.mem_of_getLast? hc)

/-- What was formatted once is formatted already. -/
theorem formatted_result {v : Rat} (hv : 1 ≤ v) :
    (a.result (.finite v)).formatted (.finite v) = a.formatted (.finite v) := by
  have hfloor : 1 ≤ ⌊v⌋ := Int.le_floor.2 (by simpa using hv)
  have hshort : (a.kept (.finite v)).length ≤ ⌊v⌋.toNat := by
    by_cases h : a.fraction.length ≤ ⌊v⌋.toNat
    · rw [a.kept_of_le h hv]
      cases htail : a.tail with
      | none =>
          have hone : (js "0").length = 1 := rfl
          simp only [hone]
          omega
      | some t => exact h
    · rw [a.kept_of_lt (by omega) hv, List.length_take]
      omega
  have hnot : ¬exceeds (a.kept (.finite v)).length (.finite v) = true := by
    rw [exceeds_finite hv]
    omega
  rw [← a.text_result]
  simp [formatted, text, result, hnot]

end Amount

/-! ## Truncation -/

/-- Every result is the text of an amount rounded down. -/
theorem exists_amount_of_ok {amount result : JsString} {maxDecimals : Number}
    (h : formatDecimalForPact amount maxDecimals = .ok result) :
    ∃ a : Amount, a.text = trim amount ∧ result = (a.result maxDecimals).text := by
  by_cases hamount : IsAmount (trim amount)
  · rcases hamount with ⟨a, ha⟩
    rw [formatDecimalForPact_amount ha, Except.ok.injEq] at h
    exact ⟨a, ha, h ▸ (a.text_result maxDecimals).symm⟩
  · simp [formatDecimalForPact_error hamount] at h

theorem valueOf_ok {amount result : JsString} {v : Rat} (hv : 1 ≤ v)
    (h : formatDecimalForPact amount (.finite v) = .ok result) :
    valueOf result = Grid.down (lastPlace ⌊v⌋.toNat) (valueOf (trim amount)) := by
  rcases exists_amount_of_ok h with ⟨a, ha, rfl⟩
  rw [← ha, Amount.valueOf_text, Amount.valueOf_text, a.value_result hv]

/-- The formatter rounds down to the last allowed place, loses nothing in front of it, keeps the
order of amounts, and leaves its own results alone. -/
theorem formatDecimalForPact_truncates {v : Rat} (hv : 1 ≤ v) {amount result : JsString}
    (h : formatDecimalForPact amount (.finite v) = .ok result) :
    (⌊v⌋.toNat < (fractionOf (trim amount)).length →
      IsGreatest {m ∈ Grid.multiples (lastPlace ⌊v⌋.toNat) | m ≤ valueOf (trim amount)}
        (valueOf result)) ∧
    ((fractionOf (trim amount)).length ≤ ⌊v⌋.toNat →
      valueOf result = valueOf (trim amount) ∧ wholeOf result = wholeOf (trim amount) ∧
        fractionOf (trim amount) <+: fractionOf result) ∧
    valueOf result ≤ valueOf (trim amount) ∧
    valueOf (trim amount) - valueOf result < lastPlace ⌊v⌋.toNat ∧
    (∀ amount' result', formatDecimalForPact amount' (.finite v) = .ok result' →
      valueOf (trim amount) ≤ valueOf (trim amount') → valueOf result ≤ valueOf result') ∧
    formatDecimalForPact result (.finite v) = .ok result := by
  have hdown := valueOf_ok hv h
  have hstep := lastPlace_pos ⌊v⌋.toNat
  refine ⟨fun _ => ?_, fun hshort => ?_, ?_, ?_, fun amount' result' h' hle => ?_, ?_⟩
  · exact hdown ▸ Grid.isGreatest_down hstep
  · rcases exists_amount_of_ok h with ⟨a, ha, rfl⟩
    rw [← ha, a.wholeOf_text.2] at hshort
    have hread := (a.result (.finite v)).wholeOf_text
    rw [← ha, Amount.valueOf_text, Amount.valueOf_text, a.wholeOf_text.1, a.wholeOf_text.2,
      hread.1, hread.2]
    refine ⟨a.value_result_of_le hshort hv, rfl, ?_⟩
    have hkept : (a.result (.finite v)).fraction = a.kept (.finite v) := rfl
    rw [hkept, a.kept_of_le hshort hv]
    cases htail : a.tail with
    | none => simp [Amount.fraction, htail]
    | some t => exact List.prefix_rfl
  · exact hdown ▸ Grid.down_le hstep
  · exact hdown ▸ Grid.sub_down_lt hstep
  · rw [hdown, valueOf_ok hv h']
    exact Grid.down_mono hstep hle
  · rcases exists_amount_of_ok h with ⟨a, ha, rfl⟩
    have htrim : (a.result (.finite v)).text = trim (a.result (.finite v)).text :=
      (Amount.trim_text _).symm
    rw [formatDecimalForPact_amount htrim, a.formatted_result hv, a.text_result]

theorem formatDecimalForPact_truncates_at_two :
    valueOf (js "1.12") ≤ valueOf (trim (js " 1,129")) ∧
    formatDecimalForPact (js "1.12") (.finite 2) = .ok (js "1.12") :=
  have hok : formatDecimalForPact (js " 1,129") (.finite 2) = .ok (js "1.12") := by decide +kernel
  have h := formatDecimalForPact_truncates (by norm_num) hok
  ⟨h.2.2.1, h.2.2.2.2.2⟩

end Pact
end StoaCore
