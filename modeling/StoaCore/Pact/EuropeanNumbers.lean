import StoaCore.Pact.Format

/-!
# EuropeanNumbers — reading back what was formatted

The formatter puts a dot in front of every three digits; the parser takes one dot for a group of
thousands only when nothing but three digits follows it.
-/

namespace StoaCore
namespace Pact

open Library.Js

/-! ## Groups of three digits -/

theorem groupThousands_append {front rest : JsString} (hne : front ≠ []) (hshort : front.length ≤ 3)
    (hrest : rest ≠ []) (hthree : rest.length % 3 = 0) :
    groupThousands (front ++ rest) = front ++ unit '.' :: groupThousands rest := by
  induction front with
  | nil => exact absurd rfl hne
  | cons c front ih =>
      cases front with
      | nil => simp [groupThousands, hrest, hthree]
      | cons d front =>
          have hnot : ¬((d :: front) ++ rest).length % 3 = 0 := by
            simp only [List.length_append, List.length_cons] at hshort ⊢
            omega
          have hfurther := ih (List.cons_ne_nil d front) (by simpa using Nat.le_of_succ_le hshort)
          rw [List.cons_append, groupThousands, if_neg (fun h => hnot h.2), hfurther]
          rfl

theorem groupThousands_of_short {whole : JsString} (h : whole.length ≤ 3) :
    groupThousands whole = whole := by
  induction whole with
  | nil => rfl
  | cons c whole ih =>
      have hnot : ¬(whole ≠ [] ∧ whole.length % 3 = 0) := by
        rintro ⟨hne, hthree⟩
        have hpos := List.length_pos_iff.2 hne
        rw [List.length_cons] at h
        omega
      rw [groupThousands, if_neg hnot, ih (Nat.le_of_succ_le h)]

/-- The groups are made of the digits. -/
theorem removeAll_groupThousands {whole : JsString} (h : IsDigits whole) :
    removeAll (unit '.') (groupThousands whole) = whole := by
  induction whole with
  | nil => rfl
  | cons c whole ih =>
      rcases isDigits_cons.1 h with ⟨hc, hwhole⟩
      have hne : c ≠ unit '.' := by
        rintro rfl
        exact absurd hc (by decide)
      have hrest := ih hwhole
      unfold removeAll at hrest ⊢
      rw [groupThousands]
      split
      · simp [hne, hrest]
      · simp [hne, hrest]

theorem head?_groupThousands (whole : JsString) : (groupThousands whole).head? = whole.head? := by
  cases whole with
  | nil => rfl
  | cons c whole =>
      rw [groupThousands]
      split
      · rfl
      · rfl

theorem groupThousands_eq_nil {whole : JsString} : groupThousands whole = [] ↔ whole = [] := by
  rw [← List.head?_eq_none_iff, head?_groupThousands, List.head?_eq_none_iff]

theorem getLast?_groupThousands (whole : JsString) :
    (groupThousands whole).getLast? = whole.getLast? := by
  induction whole with
  | nil => rfl
  | cons c whole ih =>
      rw [groupThousands]
      split
      case isTrue h =>
        have hlast := List.getLast?_eq_some_getLast h.1
        simp [List.getLast?_cons, ih, hlast]
      case isFalse h => simp [List.getLast?_cons, ih]

/-- Every character is a digit or a dot. -/
theorem mem_groupThousands {whole : JsString} (h : IsDigits whole) {c : CodeUnit}
    (hc : c ∈ groupThousands whole) : isDigit c = true ∨ c = unit '.' := by
  by_cases hdot : c = unit '.'
  · exact Or.inr hdot
  · have hmem : c ∈ removeAll (unit '.') (groupThousands whole) :=
      List.mem_filter.2 ⟨hc, by simpa using hdot⟩
    rw [removeAll_groupThousands h] at hmem
    exact Or.inl (h c hmem)

/-- Four digits or more begin with one to three digits in front of groups of three. -/
theorem exists_groups {whole : JsString} (h : 3 < whole.length) :
    ∃ front rest, whole = front ++ rest ∧ front ≠ [] ∧ front.length ≤ 3 ∧ rest ≠ [] ∧
      rest.length % 3 = 0 := by
  have hcount : ∃ n, 1 ≤ n ∧ n ≤ 3 ∧ (whole.length - n) % 3 = 0 := by
    refine ⟨(whole.length - 1) % 3 + 1, ?_, ?_, ?_⟩ <;> omega
  rcases hcount with ⟨n, hone, hthree, hmod⟩
  refine ⟨whole.take n, whole.drop n, (List.take_append_drop n whole).symm, ?_, ?_, ?_, ?_⟩
  · rw [← List.length_pos_iff, List.length_take]
    omega
  · rw [List.length_take]
    omega
  · rw [← List.length_pos_iff, List.length_drop]
    omega
  · rw [List.length_drop]
    exact hmod

/-! ## Numbers as they are displayed -/

/-- Digits, possibly decimals, possibly a currency sign. -/
structure DisplayNumber where
  whole : JsString
  fraction : Option JsString
  sign : Option CodeUnit
  digits : IsDigits whole
  nonempty : whole ≠ []
  decimals : ∀ f ∈ fraction, f ≠ [] ∧ IsDigits f
  currency : ∀ c ∈ sign, c = unit '$' ∨ c = unit '¢'

namespace DisplayNumber

variable (n : DisplayNumber)

def text : JsString :=
  n.whole ++ (n.fraction.map (unit '.' :: ·)).getD [] ++ n.sign.toList

/-- The currency sign as the formatter writes it. -/
def spacedSign : JsString :=
  (n.sign.map fun c => [unit ' ', c]).getD []

/-- What the formatter makes of the number. -/
def european : JsString :=
  groupThousands n.whole ++ (n.fraction.map (unit ',' :: ·)).getD [] ++ n.spacedSign

/-! ## The formatter -/

theorem sign_toList : n.sign.toList = [] ∨ n.sign.toList = [unit '$'] ∨
    n.sign.toList = [unit '¢'] := by
  cases hsign : n.sign with
  | none => exact Or.inl rfl
  | some c =>
      rcases n.currency c hsign with rfl | rfl
      · exact Or.inr (Or.inl rfl)
      · exact Or.inr (Or.inr rfl)

theorem spacedSign_eq : n.spacedSign = [] ∨ n.spacedSign = [unit ' ', unit '$'] ∨
    n.spacedSign = [unit ' ', unit '¢'] := by
  unfold spacedSign
  cases hsign : n.sign with
  | none => exact Or.inl rfl
  | some c =>
      rcases n.currency c hsign with rfl | rfl
      · exact Or.inr (Or.inl rfl)
      · exact Or.inr (Or.inr rfl)

theorem endsDigits_sign : EndsDigits n.sign.toList := by
  rcases n.sign_toList with h | h | h
  · rw [h]; exact endsDigits_nil
  · rw [h]; exact endsDigits_cons.2 (by decide)
  · rw [h]; exact endsDigits_cons.2 (by decide)

theorem readNumber_text : readNumber n.text = some (n.whole, n.fraction, n.sign.toList) := by
  have hsign := n.endsDigits_sign
  unfold readNumber text
  cases hfraction : n.fraction with
  | none =>
      have hread := takeWhile_isDigit_of_endsDigits n.digits hsign
      rcases n.sign_toList with h | h | h
      · simp [h, takeWhile_isDigit_self n.digits, n.nonempty]
      · rw [h] at hread
        have hdot : unit '$' ≠ unit '.' := by decide
        simp [h, hread.1, hread.2, n.nonempty, hdot]
      · rw [h] at hread
        have hdot : unit '¢' ≠ unit '.' := by decide
        simp [h, hread.1, hread.2, n.nonempty, hdot]
  | some f =>
      rcases n.decimals f hfraction with ⟨hne, hdigits⟩
      have hread := takeWhile_isDigit n.digits (c := unit '.') (by decide) (f ++ n.sign.toList)
      have hbehind := takeWhile_isDigit_of_endsDigits hdigits hsign
      simp [hread.1, hread.2, hbehind.1, hbehind.2, n.nonempty, hne]

theorem readAnnotations_sign (steps : Nat) :
    readAnnotations steps n.sign.toList = ([], n.sign.toList) := by
  have hnone : readAnnotation n.sign.toList = none := by
    rcases n.sign_toList with h | h | h
    · rw [h]; decide
    · rw [h]; decide
    · rw [h]; decide
  cases steps with
  | zero => rfl
  | succ steps => rw [readAnnotations, hnone]

theorem readSuffix_sign : readSuffix n.sign.toList = some n.sign.toList := by
  rcases n.sign_toList with h | h | h
  · rw [h]; decide
  · rw [h]; decide
  · rw [h]; decide

/-! The number itself begins and ends with a digit. -/

theorem trim_body {body tail : JsString} (hhead : ∀ c, body.head? = some c → isDigit c = true)
    (hlast : ∀ c, body.getLast? = some c → isDigit c = true) (hne : body ≠ [])
    (htail : ∀ c, tail.getLast? = some c → isStrWhiteSpace c = false) :
    trim (body ++ tail) = body ++ tail := by
  refine trim_eq_self (fun c hc => ?_) (fun c hc => ?_)
  · rw [List.head?_append_of_ne_nil _ hne] at hc
    exact isStrWhiteSpace_of_isDigit (hhead c hc)
  · rw [List.getLast?_append] at hc
    cases hgetLast : tail.getLast? with
    | none =>
        rw [hgetLast, Option.none_or] at hc
        exact isStrWhiteSpace_of_isDigit (hlast c hc)
    | some d =>
        rw [hgetLast, Option.some_or, Option.some.injEq] at hc
        exact hc ▸ htail d hgetLast

theorem sign_not_space : ∀ c, n.sign.toList.getLast? = some c → isStrWhiteSpace c = false := by
  intro c hc
  rcases n.sign_toList with h | h | h
  · simp [h] at hc
  · rw [h, List.getLast?_singleton, Option.some.injEq] at hc
    exact hc ▸ by decide
  · rw [h, List.getLast?_singleton, Option.some.injEq] at hc
    exact hc ▸ by decide

theorem spacedSign_not_space : ∀ c, n.spacedSign.getLast? = some c → isStrWhiteSpace c = false := by
  have hsign := n.sign_not_space
  unfold spacedSign
  cases h : n.sign with
  | none => simp
  | some d => simpa [h] using hsign

theorem isDigit_last {front : JsString} (hlast : ∀ c, front.getLast? = some c → isDigit c = true)
    (separator : CodeUnit) {c : CodeUnit}
    (hc : (front ++ (n.fraction.map (separator :: ·)).getD []).getLast? = some c) :
    isDigit c = true := by
  cases hfraction : n.fraction with
  | none =>
      simp only [hfraction, Option.map_none, Option.getD_none, List.append_nil] at hc
      exact hlast c hc
  | some f =>
      rcases n.decimals f hfraction with ⟨hne, hdigits⟩
      have hgetLast := List.getLast?_eq_some_getLast hne
      have hc' : f.getLast hne = c := by simpa [hfraction, List.getLast?_cons, hgetLast] using hc
      exact hc' ▸ hdigits _ (List.getLast_mem hne)

theorem trim_text : trim n.text = n.text := by
  refine trim_body (fun c hc => ?_) (fun c hc => ?_) (by simp [n.nonempty]) n.sign_not_space
  · rw [List.head?_append_of_ne_nil _ n.nonempty] at hc
    exact n.digits c (List.mem_of_head? hc)
  · exact n.isDigit_last (fun d hd => n.digits d (List.mem_of_getLast? hd)) (unit '.') hc

theorem trim_european : trim n.european = n.european := by
  have hne : groupThousands n.whole ≠ [] := fun h => n.nonempty (groupThousands_eq_nil.1 h)
  refine trim_body (fun c hc => ?_) (fun c hc => ?_) (by simp [hne]) n.spacedSign_not_space
  · rw [List.head?_append_of_ne_nil _ hne, head?_groupThousands] at hc
    exact n.digits c (List.mem_of_head? hc)
  · refine n.isDigit_last (fun d hd => ?_) (unit ',') hc
    rw [getLast?_groupThousands] at hd
    exact n.digits d (List.mem_of_getLast? hd)

theorem isPlaceholder_append {front : JsString} (hne : front ≠ [])
    (h : ∀ c, front.head? = some c → isDigit c = true) (rest : JsString) :
    isPlaceholder (front ++ rest) = false := by
  cases front with
  | nil => exact absurd rfl hne
  | cons c front =>
      have hc : isDigit c = true := h c rfl
      have hquestion : c ≠ unit '?' := by rintro rfl; exact absurd hc (by decide)
      have hletter : c ≠ unit 'N' := by rintro rfl; exact absurd hc (by decide)
      have hdash : c ≠ unit '—' := by rintro rfl; exact absurd hc (by decide)
      have hunknown : js "???" = unit '?' :: js "??" := by decide
      have hmissing : js "N/A" = unit 'N' :: js "/A" := by decide
      have hnothing : js "—" = [unit '—'] := by decide
      simp [isPlaceholder, hunknown, hmissing, hnothing, hquestion, hletter, hdash]

/-- The formatter groups the digits, and sets off the sign. -/
theorem formatEU_text : formatEU (.str n.text) = n.european := by
  have hplaceholder : isPlaceholder n.text = false := by
    unfold text
    rw [List.append_assoc]
    exact isPlaceholder_append n.nonempty (fun c hc => n.digits c (List.mem_of_head? hc)) _
  unfold formatEU
  simp only [Value.isNullish, Value.template_str, n.trim_text, hplaceholder, n.readNumber_text,
    n.readAnnotations_sign, n.readSuffix_sign, Bool.false_eq_true, if_false, List.append_nil]
  rw [← n.trim_european]
  unfold european spacedSign
  cases hfraction : n.fraction with
  | none =>
      cases hsign : n.sign with
      | none => rfl
      | some c => rfl
  | some f =>
      cases hsign : n.sign with
      | none => rfl
      | some c => rfl

/-! ## The parser -/

theorem endsDigits_spacedSign : EndsDigits n.spacedSign := by
  rcases n.spacedSign_eq with h | h | h
  · rw [h]; exact endsDigits_nil
  · rw [h]; exact endsDigits_cons.2 (by decide)
  · rw [h]; exact endsDigits_cons.2 (by decide)

theorem not_mem_spacedSign : unit '.' ∉ n.spacedSign ∧ unit ',' ∉ n.spacedSign := by
  rcases n.spacedSign_eq with h | h | h
  · rw [h]; decide
  · rw [h]; decide
  · rw [h]; decide

theorem spacedSign_head : n.spacedSign.head? ≠ some (unit '.') :=
  fun h => n.not_mem_spacedSign.1 (List.mem_of_head? h)

theorem decimalValue_nil (whole : JsString) : decimalValue whole [] = decimalDigits whole := by
  simp [decimalValue]

/-- What the number denotes. -/
theorem parseFloat_text :
    parseFloat n.text = some (Number.round (decimalValue n.whole (n.fraction.getD []))) := by
  have hsign := n.endsDigits_sign
  unfold text
  cases hfraction : n.fraction with
  | none =>
      have hperiod : n.sign.toList.head? ≠ some (unit '.') := by
        rcases n.sign_toList with h | h | h
        · rw [h]; decide
        · rw [h]; decide
        · rw [h]; decide
      simpa [decimalValue_nil] using parseFloat_whole n.digits n.nonempty hsign hperiod
  | some f =>
      simpa using parseFloat_decimal n.digits n.nonempty (n.decimals f hfraction).2 hsign

theorem not_mem_groupThousands {whole : JsString} (h : IsDigits whole) :
    unit ',' ∉ groupThousands whole := by
  intro hmem
  rcases mem_groupThousands h hmem with hc | hc
  · exact absurd hc (by decide)
  · exact absurd hc (by decide)

theorem isPlaceholder_european : isPlaceholder n.european = false := by
  have hne : groupThousands n.whole ≠ [] := fun h => n.nonempty (groupThousands_eq_nil.1 h)
  unfold european
  rw [List.append_assoc]
  refine isPlaceholder_append hne (fun c hc => ?_) _
  rw [head?_groupThousands] at hc
  exact n.digits c (List.mem_of_head? hc)

/-- With decimals the comma tells what the dots are. -/
theorem parseEU_of_fraction {f : JsString} (h : n.fraction = some f) :
    parseEU (some n.european) = Number.round (decimalValue n.whole f) := by
  have hdigits : IsDigits f := (n.decimals f h).2
  have heuropean : n.european = groupThousands n.whole ++ unit ',' :: (f ++ n.spacedSign) := by
    simp [european, h]
  have hcomma : unit ',' ∈ n.european := by simp [heuropean]
  have hremove : removeAll (unit '.') n.european = n.whole ++ unit ',' :: (f ++ n.spacedSign) := by
    have hrest : unit '.' ∉ unit ',' :: (f ++ n.spacedSign) := by
      have hother : unit '.' ≠ unit ',' := by decide
      simp [hother, hdigits.not_mem (c := unit '.') (by decide), n.not_mem_spacedSign.1]
    rw [heuropean, removeAll_append, removeAll_groupThousands n.digits, removeAll_of_not_mem hrest]
  have hwhole : unit ',' ∉ n.whole := n.digits.not_mem (by decide)
  unfold parseEU
  simp only [n.trim_european, n.isPlaceholder_european, Bool.false_eq_true, if_false, hcomma,
    if_true, hremove, replaceFirst_append hwhole,
    parseFloat_decimal n.digits n.nonempty hdigits n.endsDigits_spacedSign]
  rfl

/-- Without them the dots are counted. -/
theorem parseEU_of_none (h : n.fraction = none) :
    parseEU (some n.european) =
      match n.european.splitOn (unit '.') with
      | [_, last] =>
          if last.length = 3 ∧ last.all isDigit then
            orZero (parseFloat (removeAll (unit '.') n.european))
          else orZero (parseFloat n.european)
      | _ => orZero (parseFloat n.european) := by
  have hcomma : unit ',' ∉ n.european := by
    simp [european, h, not_mem_groupThousands n.digits, n.not_mem_spacedSign.2]
  unfold parseEU
  simp only [n.trim_european, n.isPlaceholder_european, Bool.false_eq_true, if_false]
  exact if_neg hcomma

/-- Up to three digits there is no dot. -/
theorem parseEU_of_short (h : n.fraction = none) (hshort : n.whole.length ≤ 3) :
    parseEU (some n.european) = Number.round (decimalDigits n.whole) := by
  have heuropean : n.european = n.whole ++ n.spacedSign := by
    simp [european, h, groupThousands_of_short hshort]
  have hdot : unit '.' ∉ n.whole ++ n.spacedSign := by
    simp [n.digits.not_mem (c := unit '.') (by decide), n.not_mem_spacedSign.1]
  rw [n.parseEU_of_none h, heuropean, List.splitOn_eq_singleton hdot]
  simp [orZero, parseFloat_whole n.digits n.nonempty n.endsDigits_spacedSign n.spacedSign_head]

/-- One dot and three digits are read as a group of thousands. -/
theorem parseEU_of_medium (h : n.fraction = none) (hsign : n.sign = none)
    (hlong : 3 < n.whole.length) (hmedium : n.whole.length ≤ 6) :
    parseEU (some n.european) = Number.round (decimalDigits n.whole) := by
  rcases exists_groups hlong with ⟨front, rest, hwhole, hne, hshort, hrest, hthree⟩
  have hpos := List.length_pos_iff.2 hrest
  have hpos' := List.length_pos_iff.2 hne
  have hlength : rest.length = 3 := by
    rw [hwhole, List.length_append] at hmedium
    omega
  have hdigits : IsDigits front ∧ IsDigits rest := isDigits_append.1 (hwhole ▸ n.digits)
  have hspaced : n.spacedSign = [] := by simp [spacedSign, hsign]
  have hgroups : groupThousands n.whole = front ++ unit '.' :: rest := by
    rw [hwhole, groupThousands_append hne hshort hrest hthree,
      groupThousands_of_short hlength.le]
  have heuropean : n.european = front ++ unit '.' :: rest := by
    simp [european, h, hspaced, hgroups]
  have hremove : removeAll (unit '.') n.european = n.whole := by
    rw [heuropean, ← hgroups, removeAll_groupThousands n.digits]
  have hnumber := parseFloat_whole n.digits n.nonempty endsDigits_nil (by simp)
  rw [List.append_nil] at hnumber
  rw [n.parseEU_of_none h, hremove, heuropean,
    List.splitOn_append_cons_self_of_not_mem (hdigits.1.not_mem (by decide)),
    List.splitOn_eq_singleton (hdigits.2.not_mem (by decide))]
  have hall : rest.all isDigit = true := List.all_eq_true.2 hdigits.2
  simp [hlength, hall, hnumber, orZero]

/-- A sign behind the group, or a second dot, makes the first dot a decimal point. -/
theorem parseEU_misread (h : n.fraction = none) (hlong : 3 < n.whole.length)
    (hwrong : n.sign ≠ none ∨ 6 < n.whole.length) :
    ∃ front group rest, n.whole = front ++ (group ++ rest) ∧ front.length ≤ 3 ∧
      group.length = 3 ∧
      parseEU (some n.european) = Number.round (decimalValue front group) := by
  rcases exists_groups hlong with ⟨front, tail, hwhole, hne, hshort, htail, hthree⟩
  have hpos := List.length_pos_iff.2 htail
  have hdigits : IsDigits front ∧ IsDigits tail := isDigits_append.1 (hwhole ▸ n.digits)
  have hgroups : groupThousands n.whole = front ++ unit '.' :: groupThousands tail := by
    rw [hwhole, groupThousands_append hne hshort htail hthree]
  have hsplit := List.splitOn_append_cons_self_of_not_mem
    (hdigits.1.not_mem (c := unit '.') (by decide))
  by_cases hlength : tail.length = 3
  · have hsign : n.sign ≠ none := by
      refine hwrong.resolve_right ?_
      rw [hwhole, List.length_append]
      omega
    have heuropean : n.european = front ++ unit '.' :: (tail ++ n.spacedSign) := by
      simp [european, h, hgroups, groupThousands_of_short hlength.le]
    have hdot : unit '.' ∉ tail ++ n.spacedSign := by
      simp [hdigits.2.not_mem (c := unit '.') (by decide), n.not_mem_spacedSign.1]
    have hlast : ¬(tail ++ n.spacedSign).length = 3 := by
      cases hs : n.sign with
      | none => exact absurd hs hsign
      | some c => simp [spacedSign, hs, hlength]
    refine ⟨front, tail, [], by simpa using hwhole, hshort, hlength, ?_⟩
    rw [n.parseEU_of_none h, heuropean, hsplit, List.splitOn_eq_singleton hdot]
    simp only [hlast, false_and, if_false,
      parseFloat_decimal hdigits.1 hne hdigits.2 n.endsDigits_spacedSign]
    rfl
  · have hgroup : (tail.take 3).length = 3 := by
      rw [List.length_take]
      omega
    have hrest : tail.drop 3 ≠ [] ∧ (tail.drop 3).length % 3 = 0 := by
      rw [← List.length_pos_iff, List.length_drop]
      omega
    have htail : groupThousands tail = tail.take 3 ++ unit '.' :: groupThousands (tail.drop 3) := by
      have hne' : tail.take 3 ≠ [] := List.ne_nil_of_length_eq_add_one hgroup
      calc groupThousands tail
          = groupThousands (tail.take 3 ++ tail.drop 3) := by rw [List.take_append_drop]
        _ = tail.take 3 ++ unit '.' :: groupThousands (tail.drop 3) :=
            groupThousands_append hne' hgroup.le hrest.1 hrest.2
    have heuropean : n.european = front ++ unit '.' :: (tail.take 3 ++
        unit '.' :: (groupThousands (tail.drop 3) ++ n.spacedSign)) := by
      simp [european, h, hgroups, htail]
    have hends : EndsDigits (unit '.' :: (groupThousands (tail.drop 3) ++ n.spacedSign)) :=
      endsDigits_cons.2 (by decide)
    refine ⟨front, tail.take 3, tail.drop 3, ?_, hshort, hgroup, ?_⟩
    · rw [List.take_append_drop, hwhole]
    · have hdot : unit '.' ∉ tail.take 3 := (hdigits.2.take 3).not_mem (by decide)
      rw [n.parseEU_of_none h, heuropean, hsplit, List.splitOn_append_cons_self_of_not_mem hdot,
        parseFloat_decimal hdigits.1 hne (hdigits.2.take 3) hends]
      cases hparts : (groupThousands (tail.drop 3) ++ n.spacedSign).splitOn (unit '.') with
      | nil => exact absurd hparts (List.splitOn_ne_nil _ _)
      | cons part parts => rfl

/-- A misread number is a thousandth of what was written, or less. -/
theorem parseEU_misread_iff (h : n.fraction = none) (hlong : 3 < n.whole.length)
    (hwrong : n.sign ≠ none ∨ 6 < n.whole.length) :
    parseEU (some n.european) = Number.round (decimalDigits n.whole) ↔
      decimalDigits n.whole = 0 := by
  rcases n.parseEU_misread h hlong hwrong with ⟨front, group, rest, hwhole, hfront, hgroup, hparse⟩
  rw [hparse]
  have hread : IsDigits (front ++ group) := by
    have hdigits := isDigits_append.1 (hwhole ▸ n.digits)
    exact isDigits_append.2 ⟨hdigits.1, (isDigits_append.1 hdigits.2).1⟩
  have hsmall : decimalDigits (front ++ group) < 10 ^ 6 := by
    have hlength : (front ++ group).length ≤ 6 := by
      rw [List.length_append]
      omega
    exact (decimalDigits_lt hread).trans_le (Nat.pow_le_pow_right (by decide) hlength)
  have hle : decimalDigits (front ++ group) ≤ decimalDigits n.whole := by
    rw [hwhole, ← List.append_assoc, decimalDigits_append (front ++ group)]
    exact (Nat.le_mul_of_pos_right _ (Nat.pow_pos (by decide))).trans (Nat.le_add_right _ _)
  have hvalue : decimalValue front group = (decimalDigits (front ++ group) : Rat) / 1000 := by
    norm_num [decimalValue, hgroup]
  constructor
  · intro heq
    by_contra hne
    have hone : (1 : Rat) ≤ decimalDigits n.whole := by
      exact_mod_cast Nat.one_le_iff_ne_zero.2 hne
    have hle' : (decimalDigits (front ++ group) : Rat) ≤ decimalDigits n.whole := by
      exact_mod_cast hle
    have hsmall' : (decimalDigits (front ++ group) : Rat) < 10 ^ 6 := by exact_mod_cast hsmall
    refine round_ne_round ?_ ?_ hone ?_ heq
    · rw [hvalue]
      positivity
    · rw [hvalue]
      linarith
    · rw [hvalue]
      linarith
  · intro hzero
    have hzero' : decimalDigits (front ++ group) = 0 := Nat.le_zero.1 (hzero ▸ hle)
    rw [hvalue, hzero, hzero']
    simp

end DisplayNumber

/-- A formatted number is read back when it has decimals, when it has at most one group of
thousands and no sign behind it, or when it is zero. -/
theorem parseEU_formatEU_iff (n : DisplayNumber) :
    some (parseEU (some (formatEU (.str n.text)))) = parseFloat n.text ↔
      n.fraction ≠ none ∨ n.whole.length ≤ 3 ∨ (n.whole.length ≤ 6 ∧ n.sign = none) ∨
        decimalDigits n.whole = 0 := by
  rw [n.formatEU_text, n.parseFloat_text, Option.some.injEq]
  cases hfraction : n.fraction with
  | some f => simp [n.parseEU_of_fraction hfraction]
  | none =>
      simp only [Option.getD_none, DisplayNumber.decimalValue_nil, ne_eq, not_true_eq_false,
        false_or]
      by_cases hshort : n.whole.length ≤ 3
      · simp [n.parseEU_of_short hfraction hshort, hshort]
      by_cases hmedium : n.whole.length ≤ 6 ∧ n.sign = none
      · simp [n.parseEU_of_medium hfraction hmedium.2 (not_le.1 hshort) hmedium.1, hmedium]
      · have hwrong : n.sign ≠ none ∨ 6 < n.whole.length := by
          by_cases hsign : n.sign = none
          · exact Or.inr (not_le.1 fun hle => hmedium ⟨hle, hsign⟩)
          · exact Or.inl hsign
        rw [n.parseEU_misread_iff hfraction (not_le.1 hshort) hwrong]
        simp [hshort, hmedium]

/-- A million is read as one. -/
theorem parseEU_formatEU_million :
    formatEU (.str (js "1000000")) = js "1.000.000" ∧
    parseEU (some (js "1.000.000")) = .finite 1 ∧
    parseFloat (js "1000000") = some (.finite 1000000) ∧
    formatEU (.str (js "1234$")) = js "1.234 $" ∧
    parseEU (some (js "1.234 $")) ≠ .finite 1234 ∧
    parseFloat (js "1234$") = some (.finite 1234) := by
  decide +kernel

end Pact
end StoaCore
