import Mathlib.Data.List.Infix
import StoaCore.Library.Js.DecimalText

/-!
# Replace — a placeholder in a text

`text.replace(part, replacement)` puts a text in the place of the first occurrence of another.  The
decimal texts of two integers in the same place make different texts.
-/

namespace Library
namespace Js

/-- `text.includes(part)` -/
def includesText (part text : JsString) : Bool :=
  decide (part <:+: text)

/-- `text.replace(part, replacement)` for a replacement without `$`. -/
def replaceText (part replacement : JsString) : JsString → JsString
  | [] => if part = [] then replacement else []
  | c :: rest =>
      if part <+: c :: rest then replacement ++ (c :: rest).drop part.length
      else c :: replaceText part replacement rest

/-- `String(n)` for an integer below `10 ^ 21`. -/
def integerText : Int → JsString
  | .ofNat n => decimalText n
  | .negSucc n => unit '-' :: decimalText (n + 1)

example : replaceText (js "<i>") (integerText (-12)) (js "a/<i>/<i>") = js "a/-12/<i>" := by decide

/-! ## What stands around the placeholder -/

/-- The same texts stand before and behind whatever is put in. -/
theorem replaceText_splits {part text : JsString} (h : includesText part text = true) :
    ∃ front rest, ∀ replacement,
      replaceText part replacement text = front ++ replacement ++ rest := by
  induction text with
  | nil =>
      have hpart : part = [] := List.infix_nil.1 (of_decide_eq_true h)
      exact ⟨[], [], fun replacement => by simp [replaceText, hpart]⟩
  | cons c text ih =>
      by_cases hprefix : part <+: c :: text
      · exact ⟨[], (c :: text).drop part.length, fun replacement => by
          rw [replaceText, if_pos hprefix, List.nil_append]⟩
      · have hlater : part <:+: text :=
          (List.infix_cons_iff.1 (of_decide_eq_true h)).resolve_left hprefix
        rcases ih (decide_eq_true hlater) with ⟨front, rest, hsplit⟩
        exact ⟨c :: front, rest, fun replacement => by
          rw [replaceText, if_neg hprefix, hsplit, List.cons_append, List.cons_append]⟩

theorem decimalText_inj {n m : Nat} (h : decimalText n = decimalText m) : n = m :=
  calc n = decimalDigits (decimalText n) := (decimalDigits_decimalText n).symm
    _ = decimalDigits (decimalText m) := congrArg decimalDigits h
    _ = m := decimalDigits_decimalText m

/-- No decimal text begins with a sign. -/
theorem decimalText_ne_minus (n : Nat) (rest : JsString) : decimalText n ≠ unit '-' :: rest := by
  intro h
  have hminus : isDigit (unit '-') = true :=
    isDigits_decimalText n _ (h ▸ List.mem_cons_self)
  exact absurd hminus (by decide)

theorem integerText_inj {i j : Int} (h : integerText i = integerText j) : i = j := by
  cases i with
  | ofNat n =>
      cases j with
      | ofNat m => rw [decimalText_inj h]
      | negSucc m => exact absurd h (decimalText_ne_minus n _)
  | negSucc n =>
      cases j with
      | ofNat m => exact absurd h.symm (decimalText_ne_minus m _)
      | negSucc m =>
          have htail := decimalText_inj (List.cons.inj h).2
          rw [Nat.succ.inj htail]

/-- Different integers make different texts of one template. -/
theorem replaceText_integerText_inj {part text : JsString} (h : includesText part text = true)
    {i j : Int}
    (heq : replaceText part (integerText i) text = replaceText part (integerText j) text) :
    i = j := by
  rcases replaceText_splits h with ⟨front, rest, hsplit⟩
  rw [hsplit, hsplit, List.append_left_inj, List.append_right_inj] at heq
  exact integerText_inj heq

end Js
end Library
