import Mathlib.Data.List.DropRight
import StoaCore.Library.Js.Number

/-!
# Strings — string methods

`trim`, `replace` with one character for another, and what is left of a text when a character is
removed from it.
-/

namespace Library
namespace Js

/-- `text.trim()` -/
def trim (text : JsString) : JsString :=
  (text.dropWhile isStrWhiteSpace).rdropWhile isStrWhiteSpace

/-- `text.replace(c, d)` for single characters: only the first one is replaced. -/
def replaceFirst (c d : CodeUnit) : JsString → JsString
  | [] => []
  | e :: rest => if e = c then d :: rest else e :: replaceFirst c d rest

/-- `text.replace(/c/g, "")` -/
def removeAll (c : CodeUnit) (text : JsString) : JsString :=
  text.filter (· != c)

/-- `n > limit` -/
def exceeds (n : Nat) : Number → Bool
  | .finite v => decide (v < n)
  | .infinity negative => negative

/-- `text.substring(0, limit)` -/
def substringTo (text : JsString) : Number → JsString
  | .finite v => text.take ⌊v⌋.toNat
  | .infinity negative => if negative then [] else text

/-- A text that does not begin or end with white space. -/
theorem trim_eq_self {text : JsString}
    (hhead : ∀ c, text.head? = some c → isStrWhiteSpace c = false)
    (hlast : ∀ c, text.getLast? = some c → isStrWhiteSpace c = false) : trim text = text := by
  have hdrop : text.dropWhile isStrWhiteSpace = text := by
    cases text with
    | nil => rfl
    | cons c rest => simp [hhead c rfl]
  unfold trim
  rw [hdrop, List.rdropWhile_eq_self_iff]
  intro hne
  simpa using hlast _ (List.getLast?_eq_some_getLast hne)

theorem replaceFirst_append {c : CodeUnit} {front : JsString} (h : c ∉ front) (d : CodeUnit)
    (rest : JsString) : replaceFirst c d (front ++ c :: rest) = front ++ d :: rest := by
  induction front with
  | nil => simp [replaceFirst]
  | cons e front ih =>
      rw [List.mem_cons, not_or] at h
      simp [replaceFirst, Ne.symm h.1, ih h.2]

theorem removeAll_append (c : CodeUnit) (front rest : JsString) :
    removeAll c (front ++ rest) = removeAll c front ++ removeAll c rest :=
  List.filter_append front rest

theorem removeAll_of_not_mem {c : CodeUnit} {text : JsString} (h : c ∉ text) :
    removeAll c text = text := by
  unfold removeAll
  rw [List.filter_eq_self]
  intro d hd
  simpa using fun heq : d = c => h (heq ▸ hd)

/-! ## Limits -/

theorem exceeds_mono {n m : Nat} (h : n ≤ m) {limit : Number} (hn : exceeds n limit = true) :
    exceeds m limit = true := by
  cases limit with
  | finite v =>
      have hlt : v < n := of_decide_eq_true hn
      exact decide_eq_true (hlt.trans_le (by exact_mod_cast h))
  | infinity negative => exact hn

theorem substringTo_nil (limit : Number) : substringTo [] limit = [] := by
  cases limit with
  | finite v => exact List.take_nil
  | infinity negative => cases negative <;> rfl

/-- Something is left of the decimals as long as one of them is allowed. -/
theorem substringTo_ne_nil {text : JsString} (h : text ≠ []) {limit : Number}
    (hlong : exceeds text.length limit = true) :
    substringTo text limit ≠ [] ↔ exceeds 1 limit = false := by
  cases limit with
  | finite v =>
      have hfloor : ⌊v⌋.toNat = 0 ↔ v < 1 := by
        rw [Int.toNat_eq_zero, ← Int.lt_add_one_iff, zero_add, Int.floor_lt, Int.cast_one]
      simp [substringTo, exceeds, h, hfloor]
  | infinity negative =>
      cases negative
      · simp [exceeds] at hlong
      · simp [substringTo, exceeds]

/-! ## Digits -/

/-- Every code unit is a decimal digit. -/
def IsDigits (text : JsString) : Prop :=
  ∀ c ∈ text, isDigit c = true

instance (text : JsString) : Decidable (IsDigits text) :=
  decidable_of_iff (text.all isDigit = true) List.all_eq_true

theorem isDigits_append {front rest : JsString} :
    IsDigits (front ++ rest) ↔ IsDigits front ∧ IsDigits rest := by
  simp [IsDigits, or_imp, forall_and]

theorem isDigits_cons {c : CodeUnit} {rest : JsString} :
    IsDigits (c :: rest) ↔ isDigit c = true ∧ IsDigits rest := by
  simp [IsDigits]

theorem IsDigits.take {text : JsString} (h : IsDigits text) (n : Nat) : IsDigits (text.take n) :=
  fun c hc => h c (List.mem_of_mem_take hc)

theorem IsDigits.substringTo {text : JsString} (h : IsDigits text) (limit : Number) :
    IsDigits (Js.substringTo text limit) := by
  cases limit with
  | finite v => exact h.take _
  | infinity negative =>
      cases negative
      · exact h
      · exact fun c hc => absurd hc List.not_mem_nil

theorem IsDigits.not_mem {text : JsString} (h : IsDigits text) {c : CodeUnit}
    (hc : isDigit c = false) : c ∉ text :=
  fun hmem => absurd ((h c hmem).symm.trans hc) (by decide)

theorem digit_toNat {c : CodeUnit} (h : isDigit c = true) : 48 ≤ c.toNat ∧ c.toNat ≤ 57 := by
  unfold isDigit at h
  rw [Bool.and_eq_true, decide_eq_true_iff, decide_eq_true_iff, UInt16.le_iff_toNat_le,
    UInt16.le_iff_toNat_le] at h
  exact h

theorem digitVal_lt {c : CodeUnit} (h : isDigit c = true) : digitVal c < 10 := by
  have hbounds := digit_toNat h
  unfold digitVal
  omega

theorem isStrWhiteSpace_of_isDigit {c : CodeUnit} (h : isDigit c = true) :
    isStrWhiteSpace c = false := by
  have hbounds := digit_toNat h
  simp only [isStrWhiteSpace, Bool.or_eq_false_iff, Bool.and_eq_false_iff, beq_eq_false_iff_ne,
    decide_eq_false_iff_not, UInt16.le_iff_toNat_le, ← UInt16.toNat_inj, ne_eq]
  simp
  omega

/-- The digits of a text read up to a character that is none. -/
theorem takeWhile_isDigit {whole : JsString} (h : IsDigits whole) {c : CodeUnit}
    (hc : isDigit c = false) (rest : JsString) :
    (whole ++ c :: rest).takeWhile isDigit = whole ∧
      (whole ++ c :: rest).dropWhile isDigit = c :: rest := by
  rw [List.takeWhile_append_of_pos h, List.dropWhile_append_of_pos h,
    List.takeWhile_cons_of_neg (by simp [hc]), List.dropWhile_cons_of_neg (by simp [hc]),
    List.append_nil]
  exact ⟨rfl, rfl⟩

theorem takeWhile_isDigit_self {whole : JsString} (h : IsDigits whole) :
    whole.takeWhile isDigit = whole ∧ whole.dropWhile isDigit = [] :=
  ⟨List.takeWhile_eq_self_iff.2 h, List.dropWhile_eq_nil_iff.2 h⟩

/-! ## The value of a row of digits -/

/-- The exact value of the decimal `whole.fraction`. -/
def decimalValue (whole fraction : JsString) : Rat :=
  decimalDigits (whole ++ fraction) / 10 ^ fraction.length

theorem decimalDigits_append (front rest : JsString) :
    decimalDigits (front ++ rest) =
      decimalDigits front * 10 ^ rest.length + decimalDigits rest := by
  have hfold : ∀ (rest : JsString) (n : Nat),
      rest.foldl (fun n c => 10 * n + digitVal c) n =
        n * 10 ^ rest.length + decimalDigits rest := by
    intro rest
    induction rest with
    | nil => intro n; simp [decimalDigits]
    | cons c rest ih =>
        intro n
        have hcons : decimalDigits (c :: rest) =
            (10 * 0 + digitVal c) * 10 ^ rest.length + decimalDigits rest :=
          ih (10 * 0 + digitVal c)
        rw [List.foldl_cons, ih, hcons, List.length_cons]
        ring
  rw [decimalDigits, List.foldl_append]
  exact hfold rest _

theorem decimalDigits_lt {digits : JsString} (h : IsDigits digits) :
    decimalDigits digits < 10 ^ digits.length := by
  induction digits using List.reverseRecOn with
  | nil => exact Nat.one_pos
  | append_singleton front c ih =>
      rcases isDigits_append.1 h with ⟨hfront, hc⟩
      have hlt := ih hfront
      have hdigit : decimalDigits [c] < 10 := by
        simpa [decimalDigits] using digitVal_lt (hc c (List.mem_singleton_self c))
      rw [decimalDigits_append, List.length_append, List.length_singleton, pow_succ]
      omega

/-- Cutting off digits divides. -/
theorem decimalDigits_take {digits : JsString} (h : IsDigits digits) (n : Nat) :
    decimalDigits (digits.take n) = decimalDigits digits / 10 ^ (digits.drop n).length := by
  have hrest : IsDigits (digits.drop n) := fun c hc => h c (List.mem_of_mem_drop hc)
  have hsplit := decimalDigits_append (digits.take n) (digits.drop n)
  rw [List.take_append_drop] at hsplit
  rw [hsplit, Nat.mul_comm, Nat.mul_add_div (Nat.pow_pos (by decide)),
    Nat.div_eq_of_lt (decimalDigits_lt hrest), Nat.add_zero]

end Js
end Library
