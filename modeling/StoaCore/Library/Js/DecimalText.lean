import Mathlib.Tactic.IntervalCases
import StoaCore.Library.Js.Strings

/-!
# DecimalText — whole numbers in decimal notation

The decimal text of a natural number, its length and its value, and the value of the number literal
that a row of digits with a point makes.
-/

namespace Library
namespace Js

/-! ## The text of a natural number -/

theorem toNat_of_mem_toDigits {n : Nat} {c : Char} (h : c ∈ Nat.toDigits 10 n) :
    48 ≤ c.toNat ∧ c.toNat ≤ 57 := by
  have hdigit := Nat.isDigit_of_mem_toDigits (by decide) (by decide) h
  simp only [Char.isDigit, Bool.and_eq_true, decide_eq_true_eq] at hdigit
  exact hdigit

theorem toNat_unit {c : Char} (h : c.toNat ≤ 57) : (unit c).toNat = c.toNat :=
  UInt16.toNat_ofNat_of_lt' (lt_of_le_of_lt h (by decide))

/-- Lean writes a number as JavaScript does. -/
theorem js_toString (n : Nat) : js (toString n) = decimalText n := by
  have hunit : ∀ c ∈ Nat.toDigits 10 n, utf16 c.toNat = [unit c] := by
    intro c hc
    have hle := (toNat_of_mem_toDigits hc).2
    exact if_pos (by omega)
  rw [js, decimalText, Nat.toString_eq_repr, Nat.toList_repr, List.flatMap_congr hunit,
    ← List.map_eq_flatMap]

theorem isDigits_decimalText (n : Nat) : IsDigits (decimalText n) := by
  intro c hc
  rcases List.mem_map.1 hc with ⟨d, hd, rfl⟩
  have hbounds := toNat_of_mem_toDigits hd
  unfold isDigit
  rw [Bool.and_eq_true, decide_eq_true_iff, decide_eq_true_iff, UInt16.le_iff_toNat_le,
    UInt16.le_iff_toNat_le, toNat_unit hbounds.2]
  exact hbounds

theorem length_decimalText_le_iff {n k : Nat} (hk : 0 < k) :
    (decimalText n).length ≤ k ↔ n < 10 ^ k := by
  rw [decimalText, List.length_map]
  exact Nat.length_toDigits_le_iff (by decide) hk

/-- Reading the text of a number gives it back. -/
theorem decimalDigits_decimalText (n : Nat) : decimalDigits (decimalText n) = n := by
  have hfold : ∀ chars : List Char, (∀ c ∈ chars, c.toNat ≤ 57) → ∀ acc,
      (chars.map unit).foldl (fun m c => 10 * m + digitVal c) acc =
        Nat.ofDigitChars 10 chars acc := by
    intro chars
    induction chars with
    | nil => intro _ acc; rfl
    | cons c chars ih =>
        intro hle acc
        rw [List.map_cons, List.foldl_cons, Nat.ofDigitChars_cons, digitVal,
          toNat_unit (hle c (List.mem_cons_self ..))]
        exact ih (fun d hd => hle d (List.mem_cons_of_mem c hd)) _
  calc decimalDigits (decimalText n)
      = Nat.ofDigitChars 10 (Nat.toDigits 10 n) 0 :=
        hfold _ (fun c hc => (toNat_of_mem_toDigits hc).2) 0
    _ = n := Nat.ofDigitChars_ten_toDigits

/-- A digit more, for a number that has one already. -/
theorem decimalText_of_le {n : Nat} (h : 10 ≤ n) :
    decimalText n = decimalText (n / 10) ++ decimalText (n % 10) := by
  have hlt : n % 10 < 10 := Nat.mod_lt n (by decide)
  rw [decimalText, Nat.toDigits_of_base_le (by decide) h, List.map_append]
  rw [decimalText, decimalText, Nat.toDigits_of_lt_base hlt]

/-- The text of a positive number has no leading zero. -/
theorem read_decimalText {n : Nat} (h : 0 < n) :
    (decimalText n).foldlM NumberState.step .start = some .whole := by
  induction n using Nat.strongRecOn with
  | ind n ih =>
      by_cases hten : 10 ≤ n
      · have hdigit : isDigit (unit (Nat.digitChar (n % 10))) = true := by
          have hlt : n % 10 < 10 := Nat.mod_lt n (by decide)
          revert hlt
          generalize n % 10 = d
          intro hlt
          interval_cases d <;> decide
        have hfront := ih (n / 10) (by omega) (by omega)
        have hlast : decimalText (n % 10) = [unit (Nat.digitChar (n % 10))] := by
          rw [decimalText, Nat.toDigits_of_lt_base (Nat.mod_lt n (by decide)), List.map_singleton]
        rw [decimalText_of_le hten, List.foldlM_append, hfront, hlast]
        simp [NumberState.step, hdigit]
      · have hlt : n < 10 := by omega
        interval_cases n <;> decide

/-- The literal of a natural number. -/
def natLiteral (n : Nat) : NumberLiteral where
  text := decimalText n
  valid := by
    unfold isNumberLiteral
    rcases Nat.eq_zero_or_pos n with rfl | hpos
    · decide
    · rw [read_decimalText hpos]
      rfl

/-! ## Literals with a point -/

/-- Leading zeros count for nothing. -/
theorem decimalDigits_replicate_zero (k : Nat) (digits : JsString) :
    decimalDigits (List.replicate k (unit '0') ++ digits) = decimalDigits digits := by
  have hzeros : decimalDigits (List.replicate k (unit '0')) = 0 := by
    induction k with
    | zero => rfl
    | succ k ih =>
        have hzero : decimalDigits [unit '0'] = 0 := by decide
        rw [List.replicate_succ', decimalDigits_append, ih, hzero]
        simp
  rw [decimalDigits_append, hzeros, Nat.zero_mul, Nat.zero_add]

theorem ne_of_isDigit {c d : CodeUnit} (hc : isDigit c = true) (hd : isDigit d = false) :
    (c != d) = true := by
  rw [bne_iff_ne]
  rintro rfl
  exact Bool.false_ne_true (hd.symm.trans hc)

/-- A literal without sign and exponent denotes its digits, divided by a power of ten. -/
theorem literalToRat_point {whole fraction : JsString} (hne : whole ≠ [])
    (hwhole : IsDigits whole) (hfraction : IsDigits fraction) :
    literalToRat (whole ++ unit '.' :: fraction) = decimalValue whole fraction := by
  have hunsigned : (whole ++ unit '.' :: fraction).head? ≠ some (unit '-') ∧
      (whole ++ unit '.' :: fraction).dropWhile (· == unit '-') =
        whole ++ unit '.' :: fraction := by
    cases whole with
    | nil => exact absurd rfl hne
    | cons c rest =>
        have hminus := ne_of_isDigit (isDigits_cons.1 hwhole).1 (d := unit '-') (by decide)
        rw [bne_iff_ne] at hminus
        simp [hminus]
  -- There is no exponent, and the point stands behind the first digits.
  have hletter : ∀ c ∈ whole ++ unit '.' :: fraction,
      (c != unit 'e' && c != unit 'E') = true := by
    intro c hc
    rw [List.mem_append, List.mem_cons] at hc
    rw [Bool.and_eq_true]
    rcases hc with hc | rfl | hc
    · exact ⟨ne_of_isDigit (hwhole c hc) (by decide), ne_of_isDigit (hwhole c hc) (by decide)⟩
    · decide
    · exact ⟨ne_of_isDigit (hfraction c hc) (by decide),
        ne_of_isDigit (hfraction c hc) (by decide)⟩
  have hpoint : ∀ c ∈ whole, (c != unit '.') = true := fun c hc =>
    ne_of_isDigit (hwhole c hc) (by decide)
  have hfront : (whole ++ unit '.' :: fraction).takeWhile (· != unit '.') = whole := by
    rw [List.takeWhile_append_of_pos hpoint, List.takeWhile_cons_of_neg (by simp),
      List.append_nil]
  have hback : (whole ++ unit '.' :: fraction).drop (whole.length + 1) = fraction := by
    rw [List.drop_append, List.drop_eq_nil_of_le (Nat.le_succ _), Nat.add_sub_cancel_left]
    rfl
  unfold literalToRat
  dsimp only
  rw [if_neg hunsigned.1, hunsigned.2, List.takeWhile_eq_self_iff.2 hletter, hfront, hback,
    List.drop_eq_nil_of_le (Nat.le_succ _), decimalExponent, zero_sub, zpow_neg, zpow_natCast,
    ← div_eq_mul_inv]
  rfl

end Js
end Library
