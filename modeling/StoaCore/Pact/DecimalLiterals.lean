import StoaCore.Library.Grid
import StoaCore.Pact.Format

/-!
# DecimalLiterals — what becomes of a written amount

An amount is a row of digits, possibly with a separator and further digits.  The formatter keeps
its digits, up to the number of decimals, and puts a period where the separator was.
-/

namespace StoaCore
namespace Pact

open Library
open Library.Js

/-! ## Amounts -/

/-- A written amount: digits, then possibly a separator and further digits. -/
structure Amount where
  whole : JsString
  tail : Option (CodeUnit × JsString)
  digits : IsDigits whole
  nonempty : whole ≠ []
  separated : ∀ t ∈ tail, (t.1 = unit '.' ∨ t.1 = unit ',') ∧ IsDigits t.2

namespace Amount

def text (a : Amount) : JsString :=
  match a.tail with
  | none => a.whole
  | some (separator, fraction) => a.whole ++ separator :: fraction

def fraction (a : Amount) : JsString :=
  (a.tail.map Prod.snd).getD []

def value (a : Amount) : Rat :=
  decimalValue a.whole a.fraction

/-- What the formatter makes of the amount. -/
def formatted (a : Amount) (maxDecimals : Number) : JsString :=
  match a.tail with
  | none => a.whole ++ js ".0"
  | some (_, fraction) =>
      a.whole ++ unit '.' ::
        if exceeds fraction.length maxDecimals then substringTo fraction maxDecimals else fraction

end Amount

def IsAmount (text : JsString) : Prop :=
  ∃ a : Amount, a.text = text

/-- The digits in front of a separator. -/
def wholeOf (text : JsString) : JsString :=
  text.takeWhile isDigit

/-- The digits behind it. -/
def fractionOf (text : JsString) : JsString :=
  (text.dropWhile isDigit).tail

/-- The exact number that an amount denotes. -/
def valueOf (text : JsString) : Rat :=
  decimalValue (wholeOf text) (fractionOf text)

/-- What Pact reads as a decimal. -/
def IsPactDecimal (text : JsString) : Prop :=
  ∃ whole fraction, whole ≠ [] ∧ fraction ≠ [] ∧ IsDigits whole ∧ IsDigits fraction ∧
    text = whole ++ unit '.' :: fraction

theorem isDigit_separator {c : CodeUnit} (h : c = unit '.' ∨ c = unit ',') : isDigit c = false := by
  rcases h with rfl | rfl
  · decide
  · decide

namespace Amount

variable (a : Amount)

theorem wholeOf_text : wholeOf a.text = a.whole ∧ fractionOf a.text = a.fraction := by
  rcases a with ⟨whole, tail, hwhole, hne, htail⟩
  cases tail with
  | none =>
      have hdigits := takeWhile_isDigit_self hwhole
      exact ⟨hdigits.1, congrArg List.tail hdigits.2⟩
  | some t =>
      rcases t with ⟨separator, fraction⟩
      have hdigits := takeWhile_isDigit hwhole (isDigit_separator (htail _ rfl).1) fraction
      exact ⟨hdigits.1, congrArg List.tail hdigits.2⟩

theorem valueOf_text : valueOf a.text = a.value := by
  unfold valueOf value
  rw [a.wholeOf_text.1, a.wholeOf_text.2]

theorem isDigits_fraction : IsDigits a.fraction := by
  rcases a with ⟨whole, tail, hwhole, hne, htail⟩
  cases tail with
  | none => exact fun c hc => absurd hc List.not_mem_nil
  | some t => exact (htail t rfl).2

/-- An amount is written in one way. -/
theorem tail_eq_of_text {b : Amount} (h : a.text = b.text) : a.tail = b.tail := by
  have hwhole : a.whole = b.whole := by rw [← a.wholeOf_text.1, h, b.wholeOf_text.1]
  rcases a with ⟨whole, tail, hdigits, hne, htail⟩
  rcases b with ⟨whole', tail', hdigits', hne', htail'⟩
  cases hwhole
  cases tail with
  | none =>
      cases tail' with
      | none => rfl
      | some t' => simp [text] at h
  | some t =>
      cases tail' with
      | none => simp [text] at h
      | some t' => simpa [text, Prod.ext_iff] using h

end Amount

/-! ## The formatter on amounts -/

theorem isDecimalFormat_iff {text : JsString} :
    isDecimalFormat text = true ↔
      ∃ a : Amount, a.text = text ∧ ∀ t ∈ a.tail, t.1 = unit '.' := by
  constructor
  · intro h
    unfold isDecimalFormat at h
    rw [Bool.and_eq_true] at h
    rcases h with ⟨hne, hrest⟩
    have hdigits : IsDigits (text.takeWhile isDigit) := fun c hc => List.mem_takeWhile_imp hc
    have hsplit := List.takeWhile_append_dropWhile (p := isDigit) (l := text)
    cases hdrop : text.dropWhile isDigit with
    | nil =>
        rw [hdrop, List.append_nil] at hsplit
        exact ⟨⟨text.takeWhile isDigit, none, hdigits, by simpa using hne, by simp⟩, hsplit,
          by simp⟩
    | cons c rest =>
        rw [hdrop] at hrest hsplit
        simp only [Bool.and_eq_true, beq_iff_eq, List.all_eq_true] at hrest
        refine ⟨⟨text.takeWhile isDigit, some (c, rest), hdigits, by simpa using hne, ?_⟩,
          hsplit, ?_⟩
        · rintro t ⟨⟩
          exact ⟨Or.inl hrest.1, hrest.2⟩
        · rintro t ⟨⟩
          exact hrest.1
  · rintro ⟨⟨whole, tail, hdigits, hne, htail⟩, rfl, hperiod⟩
    unfold isDecimalFormat
    cases tail with
    | none =>
        have hread := takeWhile_isDigit_self hdigits
        simp [Amount.text, hread.1, hread.2, hne]
    | some t =>
        rcases t with ⟨separator, fraction⟩
        have hread := takeWhile_isDigit hdigits (isDigit_separator (htail _ rfl).1) fraction
        have hfraction : ∀ c ∈ fraction, isDigit c = true := (htail _ rfl).2
        have hseparator : separator = unit '.' := hperiod _ rfl
        have htext : Amount.text ⟨whole, some (separator, fraction), hdigits, hne, htail⟩ =
            whole ++ separator :: fraction := rfl
        rw [htext, hread.1, hread.2]
        simpa [hne, hseparator] using hfraction

/-- The amount with a period as its separator. -/
def Amount.withPeriod (a : Amount) : Amount where
  whole := a.whole
  tail := a.tail.map fun t => (unit '.', t.2)
  digits := a.digits
  nonempty := a.nonempty
  separated := by
    intro t ht
    rcases Option.mem_map.1 ht with ⟨u, hu, rfl⟩
    exact ⟨Or.inl rfl, (a.separated u hu).2⟩

namespace Amount

variable (a : Amount)

/-- The comma of an amount becomes a period. -/
theorem normalizeComma_text : normalizeComma a.text = .ok a.withPeriod.text := by
  have hperiod : unit '.' ∉ a.whole := a.digits.not_mem (by decide)
  have hcomma : unit ',' ∉ a.whole := a.digits.not_mem (by decide)
  have hother : unit ',' ≠ unit '.' := by decide
  unfold normalizeComma
  rcases a with ⟨whole, tail, hdigits, hne, htail⟩
  cases tail with
  | none => simp [text, withPeriod, List.count_eq_zero.2 hcomma]
  | some t =>
      rcases t with ⟨separator, fraction⟩
      have hperiod' : unit '.' ∉ fraction := (htail _ rfl).2.not_mem (by decide)
      have hcomma' : unit ',' ∉ fraction := (htail _ rfl).2.not_mem (by decide)
      rcases (htail _ rfl).1 with rfl | rfl
      · simp [text, withPeriod, List.count_eq_zero.2 hcomma, List.count_eq_zero.2 hcomma',
          hother.symm]
      · simp [text, withPeriod, List.count_eq_zero.2 hcomma, List.count_eq_zero.2 hcomma',
          hperiod, hperiod', hother.symm, replaceFirst_append hcomma]

end Amount

/-- Only amounts pass both checks. -/
theorem isAmount_of_normalized {text trimmed : JsString} (h : normalizeComma text = .ok trimmed)
    (hformat : isDecimalFormat trimmed = true) : IsAmount text := by
  rcases isDecimalFormat_iff.1 hformat with ⟨a, rfl, -⟩
  unfold normalizeComma at h
  dsimp only at h
  split at h
  case isFalse =>
    split at h
    case isTrue => cases h
    case isFalse =>
      cases h
      exact ⟨a, rfl⟩
  case isTrue hsingle =>
    have hmem : unit ',' ∈ text := List.count_pos_iff.1 (by omega)
    rcases List.append_of_mem hmem with ⟨front, rest, rfl⟩
    have hfront : unit ',' ∉ front := by
      intro hfront
      have hpos := List.count_pos_iff.2 hfront
      rw [List.count_append, List.count_cons_self] at hsingle
      omega
    have hperiod : unit '.' ∉ front := fun hmem => hsingle.2 (List.mem_append_left _ hmem)
    rw [replaceFirst_append hfront, Except.ok.injEq] at h
    -- The amount that passes the second check has its period where the comma was.
    rcases a with ⟨whole, tail, hdigits, hne, htail⟩
    have hwhole : unit '.' ∉ whole := hdigits.not_mem (by decide)
    cases tail with
    | none =>
        have htext : front ++ unit '.' :: rest = whole := h
        exact absurd (htext ▸ List.mem_append_right front List.mem_cons_self) hwhole
    | some t =>
        have htext : front ++ unit '.' :: rest = whole ++ t.1 :: t.2 := h
        have hbehind : unit '.' ∉ t.2 := (htail t rfl).2.not_mem (by decide)
        have hseparator : t.1 = unit '.' := by
          have hmem : unit '.' ∈ whole ++ t.1 :: t.2 := htext ▸ by simp
          simpa [hwhole, hbehind, eq_comm] using hmem
        rw [hseparator] at htext
        rcases (List.append_cons_inj_of_notMem hwhole hbehind).1 htext.symm with ⟨hfront, -, hrest⟩
        refine ⟨⟨whole, some (unit ',', t.2), hdigits, hne, ?_⟩, ?_⟩
        · rintro u ⟨⟩
          exact ⟨Or.inr rfl, (htail t rfl).2⟩
        · rw [← hfront, ← hrest]
          rfl

/-! ## What the formatter returns -/

/-- An amount is accepted, and its digits are kept. -/
theorem formatDecimalForPact_amount {amount : JsString} {a : Amount} (h : a.text = trim amount)
    (maxDecimals : Number) :
    formatDecimalForPact amount maxDecimals = .ok (a.formatted maxDecimals) := by
  have hperiod : ∀ t ∈ a.withPeriod.tail, t.1 = unit '.' := by
    intro t ht
    rcases Option.mem_map.1 ht with ⟨u, -, rfl⟩
    rfl
  have hformat : isDecimalFormat a.withPeriod.text = true :=
    isDecimalFormat_iff.2 ⟨a.withPeriod, rfl, hperiod⟩
  unfold formatDecimalForPact
  rw [← h, a.normalizeComma_text]
  simp only [hformat, if_true]
  have hwhole : unit '.' ∉ a.whole := a.digits.not_mem (by decide)
  cases htail : a.tail with
  | none =>
      have htext : a.withPeriod.text = a.whole := by simp [Amount.text, Amount.withPeriod, htail]
      simp [htext, List.splitOn_eq_singleton hwhole, Amount.formatted, htail]
  | some t =>
      have htext : a.withPeriod.text = a.whole ++ unit '.' :: t.2 := by
        simp [Amount.text, Amount.withPeriod, htail]
      have hfraction : unit '.' ∉ t.2 := (a.separated t htail).2.not_mem (by decide)
      rw [htext, List.splitOn_append_cons_self_of_not_mem hwhole,
        List.splitOn_eq_singleton hfraction]
      by_cases hlong : exceeds t.2.length maxDecimals = true
      · simp [Amount.formatted, htail, hlong]
      · simp [Amount.formatted, htail, hlong]

/-- Everything else is refused. -/
theorem formatDecimalForPact_error {amount : JsString} (h : ¬IsAmount (trim amount))
    (maxDecimals : Number) :
    formatDecimalForPact amount maxDecimals = .error invalidDecimalFormat := by
  unfold formatDecimalForPact
  cases hnormalized : normalizeComma (trim amount) with
  | error message =>
      unfold normalizeComma at hnormalized
      dsimp only at hnormalized
      split at hnormalized
      · cases hnormalized
      · split at hnormalized
        · exact hnormalized.symm
        · cases hnormalized
  | ok trimmed =>
      by_cases hformat : isDecimalFormat trimmed = true
      · exact absurd (isAmount_of_normalized hnormalized hformat) h
      · simp [hformat]

/-! ## Which results are decimals -/

theorem isPactDecimal_none {whole : JsString} (h : IsDigits whole) (hne : whole ≠ []) :
    IsPactDecimal (whole ++ js ".0") :=
  ⟨whole, js "0", hne, by decide, h, by decide, rfl⟩

theorem isPactDecimal_period {whole fraction : JsString} (h : IsDigits whole) (hne : whole ≠ [])
    (hfraction : IsDigits fraction) :
    IsPactDecimal (whole ++ unit '.' :: fraction) ↔ fraction ≠ [] := by
  constructor
  · rintro ⟨whole', fraction', -, hne', hdigits', hdigits, heq⟩
    have hinj := (List.append_cons_inj_of_notMem (h.not_mem (by decide))
      (hfraction.not_mem (by decide))).1 heq
    rwa [hinj.2.2]
  · intro hne'
    exact ⟨whole, fraction, hne, hne', h, hfraction, rfl⟩

namespace Amount

variable (a : Amount)

theorem isPactDecimal_formatted_iff (maxDecimals : Number) :
    IsPactDecimal (a.formatted maxDecimals) ↔
      ∀ t ∈ a.tail, t.2 ≠ [] ∧ exceeds 1 maxDecimals = false := by
  rcases a with ⟨whole, tail, hwhole, hne, htail⟩
  cases tail with
  | none => simpa [formatted] using isPactDecimal_none hwhole hne
  | some t =>
      rcases t with ⟨separator, fraction⟩
      have hfraction : IsDigits fraction := (htail _ rfl).2
      by_cases hlong : exceeds fraction.length maxDecimals = true
      · have hformatted : formatted ⟨whole, some (separator, fraction), hwhole, hne, htail⟩
            maxDecimals = whole ++ unit '.' :: substringTo fraction maxDecimals := by
          simp [formatted, hlong]
        rw [hformatted, isPactDecimal_period hwhole hne (hfraction.substringTo _)]
        by_cases hnil : fraction = []
        · simp [hnil, substringTo_nil]
        · simpa [hnil] using substringTo_ne_nil hnil hlong
      · have hformatted : formatted ⟨whole, some (separator, fraction), hwhole, hne, htail⟩
            maxDecimals = whole ++ unit '.' :: fraction := by
          simp [formatted, hlong]
        rw [hformatted, isPactDecimal_period hwhole hne hfraction]
        simp only [Option.mem_def, Option.some.injEq, forall_eq']
        refine ⟨fun hnil => ⟨hnil, ?_⟩, And.left⟩
        rw [Bool.eq_false_iff]
        exact fun hone => hlong (exceeds_mono (List.length_pos_iff.2 hnil) hone)

end Amount

/-- Refused is exactly what is no amount; the result is a decimal for every other text, except when
nothing is left behind the separator. -/
theorem formatDecimalForPact_iff (amount : JsString) (maxDecimals : Number) :
    (∀ message, formatDecimalForPact amount maxDecimals = .error message ↔
      message = invalidDecimalFormat ∧ ¬IsAmount (trim amount)) ∧
    ((∀ text, formatDecimalForPact amount maxDecimals = .ok text → IsPactDecimal text) ↔
      ∀ a : Amount, a.text = trim amount →
        ∀ t ∈ a.tail, t.2 ≠ [] ∧ exceeds 1 maxDecimals = false) := by
  by_cases hamount : IsAmount (trim amount)
  · rcases hamount with ⟨a, ha⟩
    have hresult := formatDecimalForPact_amount ha maxDecimals
    refine ⟨fun message => ?_, ?_⟩
    · have hyes : IsAmount (trim amount) := ⟨a, ha⟩
      simp [hresult, hyes]
    · have hdecimal := a.isPactDecimal_formatted_iff maxDecimals
      constructor
      · intro hall b hb
        rw [b.tail_eq_of_text (hb.trans ha.symm)]
        exact hdecimal.1 (hall _ hresult)
      · intro hall text htext
        rw [hresult, Except.ok.injEq] at htext
        exact htext ▸ hdecimal.2 (hall a ha)
  · have hresult := formatDecimalForPact_error hamount maxDecimals
    refine ⟨fun message => ?_, ?_⟩
    · simp [hresult, hamount, eq_comm]
    · refine ⟨fun _ a ha => absurd ⟨a, ha⟩ hamount, fun _ text htext => ?_⟩
      simp [hresult] at htext

/-- A separator at the end stays there, and so does one whose decimals are all cut off. -/
theorem formatDecimalForPact_not_decimal :
    formatDecimalForPact (js "1.") defaultMaxDecimals = .ok (js "1.") ∧
    formatDecimalForPact (js "1.5") (.finite 0) = .ok (js "1.") ∧
    IsAmount (trim (js "1.")) ∧ IsAmount (trim (js "1.5")) ∧ ¬IsPactDecimal (js "1.") := by
  refine ⟨by decide +kernel, by decide +kernel, ?_, ?_, ?_⟩
  · exact ⟨⟨js "1", some (unit '.', []), by decide, by decide, by decide⟩, by decide⟩
  · exact ⟨⟨js "1", some (unit '.', js "5"), by decide, by decide, by decide⟩, by decide⟩
  · have hnil : IsPactDecimal (js "1" ++ unit '.' :: []) ↔ ([] : JsString) ≠ [] :=
      isPactDecimal_period (by decide) (by decide) (by decide)
    exact fun h => hnil.1 h rfl

end Pact
end StoaCore
