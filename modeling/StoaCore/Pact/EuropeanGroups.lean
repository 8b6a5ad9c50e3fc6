import StoaCore.Pact.EuropeanNumbers

/-!
# EuropeanGroups — what the formatter accepts, and that it loses nothing

The pattern of `formatEU` is read by functions, one for each part.  They accept the texts that are
made of such parts and no others, and what they read is written again with its digits grouped.
-/

namespace StoaCore
namespace Pact

open Library.Js

/-! ## Texts that the pattern accepts -/

/-- `\s+\([^)]+\)` -/
structure Annotation where
  space : JsString
  inner : JsString
  spaces : ∀ c ∈ space, isStrWhiteSpace c = true
  spaced : space ≠ []
  nonempty : inner ≠ []
  closed : unit ')' ∉ inner

def Annotation.text (a : Annotation) : JsString :=
  a.space ++ unit '(' :: a.inner ++ [unit ')']

/-- A number with its currency sign, annotations behind the digits, and white space in front of the
sign. -/
structure AnnotatedNumber where
  number : DisplayNumber
  annotations : List Annotation
  gap : JsString
  spaces : ∀ c ∈ gap, isStrWhiteSpace c = true

namespace AnnotatedNumber

variable (n : AnnotatedNumber)

/-- The digits, with a period in front of the decimals. -/
def numeric : JsString :=
  n.number.whole ++ (n.number.fraction.map (unit '.' :: ·)).getD []

def annotation : JsString :=
  n.annotations.flatMap Annotation.text

/-- What stands behind the digits and the annotations. -/
def suffix : JsString :=
  n.gap ++ n.number.sign.toList

def text : JsString :=
  n.numeric ++ (n.annotation ++ n.suffix)

/-- The digits in groups, with a comma in front of the decimals. -/
def europeanNumeric : JsString :=
  groupThousands n.number.whole ++ (n.number.fraction.map (unit ',' :: ·)).getD []

/-- What the formatter makes of the text. -/
def european : JsString :=
  n.europeanNumeric ++ (n.annotation ++ n.number.spacedSign)

end AnnotatedNumber

/-! ## The readers accept these texts -/

theorem takeWhile_space {space rest : JsString} (h : ∀ c ∈ space, isStrWhiteSpace c = true)
    (hrest : ∀ c, rest.head? = some c → isStrWhiteSpace c = false) :
    (space ++ rest).takeWhile isStrWhiteSpace = space ∧
      (space ++ rest).dropWhile isStrWhiteSpace = rest := by
  rw [List.takeWhile_append_of_pos h, List.dropWhile_append_of_pos h]
  cases rest with
  | nil => simp
  | cons c rest => simp [hrest c rfl]

theorem Annotation.readAnnotation_text (a : Annotation) (rest : JsString) :
    readAnnotation (a.text ++ rest) = some (a.text, rest) := by
  have htext : a.text ++ rest = a.space ++ unit '(' :: (a.inner ++ unit ')' :: rest) := by
    simp [text]
  have hparen : ∀ c, (unit '(' :: (a.inner ++ unit ')' :: rest)).head? = some c →
      isStrWhiteSpace c = false := by
    intro c hc
    cases hc
    decide
  have hspace := takeWhile_space a.spaces hparen
  have hopen : ∀ c ∈ a.inner, (c != unit ')') = true := by
    intro c hc
    rw [bne_iff_ne]
    rintro rfl
    exact a.closed hc
  have hinner : (a.inner ++ unit ')' :: rest).takeWhile (· != unit ')') = a.inner := by
    rw [List.takeWhile_append_of_pos hopen, List.takeWhile_cons_of_neg (by simp), List.append_nil]
  unfold readAnnotation
  rw [htext, hspace.1, hspace.2]
  simp [hinner, a.spaced, a.nonempty, text]

theorem readAnnotations_flatMap {tail : JsString} (htail : readAnnotation tail = none) :
    ∀ (annotations : List Annotation) {steps : Nat}, annotations.length ≤ steps →
      readAnnotations steps (annotations.flatMap Annotation.text ++ tail) =
        (annotations.flatMap Annotation.text, tail) := by
  intro annotations
  induction annotations with
  | nil =>
      intro steps _
      cases steps with
      | zero => rfl
      | succ steps => simp [readAnnotations, htail]
  | cons a annotations ih =>
      intro steps hsteps
      cases steps with
      | zero => exact absurd hsteps (Nat.not_succ_le_zero _)
      | succ steps =>
          rw [List.flatMap_cons, List.append_assoc, readAnnotations, a.readAnnotation_text]
          dsimp only
          rw [ih (Nat.le_of_succ_le_succ hsteps)]

namespace AnnotatedNumber

variable (n : AnnotatedNumber)

theorem dropWhile_suffix :
    n.suffix.dropWhile isStrWhiteSpace = n.number.sign.toList := by
  refine (takeWhile_space n.spaces fun c hc => ?_).2
  rcases n.number.sign_toList with h | h | h
  · simp [h] at hc
  · rw [h] at hc
    cases hc
    decide
  · rw [h] at hc
    cases hc
    decide

theorem readSuffix_suffix : readSuffix n.suffix = some n.number.sign.toList := by
  unfold readSuffix
  rw [n.dropWhile_suffix]
  rcases n.number.sign_toList with h | h | h
  · simp [h]
  · simp [h]
  · simp [h]

theorem readAnnotation_suffix : readAnnotation n.suffix = none := by
  unfold readAnnotation
  rw [n.dropWhile_suffix]
  have hdollar : unit '$' ≠ unit '(' := by decide
  have hcent : unit '¢' ≠ unit '(' := by decide
  rcases n.number.sign_toList with h | h | h
  · simp [h]
  · simp [h, hdollar]
  · simp [h, hcent]

theorem length_annotations_le : n.annotations.length ≤ (n.annotation ++ n.suffix).length := by
  have hlength : ∀ annotations : List Annotation,
      annotations.length ≤ (annotations.flatMap Annotation.text).length := by
    intro annotations
    induction annotations with
    | nil => exact Nat.le_refl 0
    | cons a annotations ih =>
        rw [List.flatMap_cons, List.length_append, List.length_cons, Annotation.text,
          List.length_append, List.length_singleton]
        omega
  rw [List.length_append]
  exact (hlength n.annotations).trans (Nat.le_add_right _ _)

/-- Neither a digit nor a period continues the number. -/
theorem head?_behind {c : CodeUnit} (hc : (n.annotation ++ n.suffix).head? = some c) :
    isStrWhiteSpace c = true ∨ c = unit '$' ∨ c = unit '¢' := by
  have hsuffix : n.suffix.head? = some c →
      isStrWhiteSpace c = true ∨ c = unit '$' ∨ c = unit '¢' := by
    intro h
    unfold suffix at h
    cases hgap : n.gap with
    | cons d gap =>
        rw [hgap] at h
        obtain rfl : d = c := by simpa using h
        exact Or.inl (n.spaces d (hgap ▸ List.mem_cons_self ..))
    | nil =>
        rw [hgap, List.nil_append] at h
        rcases n.number.sign_toList with hsign | hsign | hsign
        · simp [hsign] at h
        · rw [hsign] at h
          cases h
          exact Or.inr (Or.inl rfl)
        · rw [hsign] at h
          cases h
          exact Or.inr (Or.inr rfl)
  unfold annotation at hc
  cases hannotations : n.annotations with
  | nil =>
      rw [hannotations] at hc
      exact hsuffix hc
  | cons a annotations =>
      rw [hannotations, List.flatMap_cons, Annotation.text] at hc
      cases hspace : a.space with
      | nil => exact absurd hspace a.spaced
      | cons d space =>
          rw [hspace] at hc
          obtain rfl : d = c := by simpa using hc
          exact Or.inl (a.spaces d (hspace ▸ List.mem_cons_self ..))

theorem endsDigits_behind : EndsDigits (n.annotation ++ n.suffix) := by
  intro c hc
  rcases n.head?_behind hc with hspace | rfl | rfl
  · refine ⟨?_, ?_, ?_⟩
    · by_contra hdigit
      rw [Bool.not_eq_false] at hdigit
      exact Bool.false_ne_true ((isStrWhiteSpace_of_isDigit hdigit).symm.trans hspace)
    · rintro rfl
      exact absurd hspace (by decide)
    · rintro rfl
      exact absurd hspace (by decide)
  · decide
  · decide

theorem readNumber_text :
    readNumber n.text =
      some (n.number.whole, n.number.fraction, n.annotation ++ n.suffix) := by
  have hbehind := n.endsDigits_behind
  have hperiod : (n.annotation ++ n.suffix).head? ≠ some (unit '.') := by
    intro h
    rcases n.head?_behind h with hspace | h | h
    · exact absurd hspace (by decide)
    · exact absurd h (by decide)
    · exact absurd h (by decide)
  unfold readNumber text numeric
  cases hfraction : n.number.fraction with
  | none =>
      have hread := takeWhile_isDigit_of_endsDigits n.number.digits hbehind
      simp only [Option.map_none, Option.getD_none, List.append_nil, hread.1, hread.2,
        n.number.nonempty, if_false]
      split
      case h_1 heq => rw [heq]
      case h_2 c behind heq =>
        have hc : c ≠ unit '.' := by
          rintro rfl
          exact hperiod (by rw [heq]; rfl)
        rw [if_neg (fun h => hc h.1), heq]
  | some f =>
      rcases n.number.decimals f hfraction with ⟨hne, hdigits⟩
      have hread := takeWhile_isDigit n.number.digits (c := unit '.') (by decide)
        (f ++ (n.annotation ++ n.suffix))
      have hfurther := takeWhile_isDigit_of_endsDigits hdigits hbehind
      simp [hread.1, hread.2, hfurther.1, hfurther.2, n.number.nonempty, hne]

end AnnotatedNumber

/-! ## The readers accept nothing else -/

theorem readNumber_sound {text whole rest : JsString} {fraction : Option JsString}
    (h : readNumber text = some (whole, fraction, rest)) :
    IsDigits whole ∧ whole ≠ [] ∧ (∀ f ∈ fraction, f ≠ [] ∧ IsDigits f) ∧
      text = whole ++ (fraction.map (unit '.' :: ·)).getD [] ++ rest := by
  have hdigits : ∀ front : JsString, IsDigits (front.takeWhile isDigit) :=
    fun front c hc => List.mem_takeWhile_imp hc
  have hsplit := List.takeWhile_append_dropWhile (p := isDigit) (l := text)
  unfold readNumber at h
  dsimp only at h
  split at h
  case isTrue => cases h
  case isFalse hne =>
    split at h
    case h_1 hnil =>
      cases h
      rw [hnil, List.append_nil] at hsplit
      exact ⟨hdigits text, hne, by simp, by simp⟩
    case h_2 c behind hcons =>
      rw [hcons] at hsplit
      split at h
      case isTrue hfraction =>
        cases h
        refine ⟨hdigits text, hne, ?_, ?_⟩
        · rintro f ⟨⟩
          exact ⟨hfraction.2, hdigits behind⟩
        · have hbehind := List.takeWhile_append_dropWhile (p := isDigit) (l := behind)
          refine hsplit.symm.trans ?_
          rw [hfraction.1]
          simp [hbehind]
      case isFalse =>
        cases h
        exact ⟨hdigits text, hne, by simp, by rw [hcons]; simpa using hsplit.symm⟩

/-- A text that does not end where the characters other than `c` end goes on with `c`. -/
theorem eq_append_of_length_takeWhile {c : CodeUnit} {text : JsString}
    (h : (text.takeWhile (· != c)).length < text.length) :
    text = text.takeWhile (· != c) ++ c :: text.drop ((text.takeWhile (· != c)).length + 1) := by
  have hsplit := List.takeWhile_append_dropWhile (p := (· != c)) (l := text)
  have hdrop := congrArg (List.drop (text.takeWhile (· != c)).length) hsplit
  rw [List.drop_left] at hdrop
  cases hrest : text.dropWhile (· != c) with
  | nil =>
      rw [hrest, List.append_nil] at hsplit
      rw [hsplit] at h
      exact absurd h (lt_irrefl _)
  | cons d rest =>
      have hd : d = c := by
        have hhead := List.head?_dropWhile_not (· != c) text
        rw [hrest] at hhead
        simpa using hhead
      subst hd
      have htail : text.drop ((text.takeWhile (· != d)).length + 1) = rest := by
        rw [← List.drop_drop, ← hdrop, hrest]
        rfl
      rw [htail, ← hrest]
      exact hsplit.symm

theorem readAnnotation_sound {text note rest : JsString}
    (h : readAnnotation text = some (note, rest)) :
    ∃ a : Annotation, note = a.text ∧ text = a.text ++ rest := by
  have hsplit := List.takeWhile_append_dropWhile (p := isStrWhiteSpace) (l := text)
  unfold readAnnotation at h
  dsimp only at h
  split at h
  case h_1 => cases h
  case h_2 c behind hcons =>
    split at h
    case isFalse => cases h
    case isTrue hparts =>
      rcases hparts with ⟨hspace, rfl, hinner, hlength⟩
      cases h
      rw [hcons] at hsplit
      have hclosed : unit ')' ∉ behind.takeWhile (· != unit ')') := by
        intro hmem
        simpa using List.mem_takeWhile_imp hmem
      refine ⟨⟨text.takeWhile isStrWhiteSpace, behind.takeWhile (· != unit ')'),
        fun c hc => List.mem_takeWhile_imp hc, hspace, hinner, hclosed⟩, rfl, ?_⟩
      refine hsplit.symm.trans ?_
      conv_lhs => rw [eq_append_of_length_takeWhile hlength]
      simp [ Annotation.text]

theorem readAnnotations_sound (steps : Nat) :
    ∀ text : JsString, ∃ annotations : List Annotation,
      (readAnnotations steps text).1 = annotations.flatMap Annotation.text ∧
        text = annotations.flatMap Annotation.text ++ (readAnnotations steps text).2 := by
  induction steps with
  | zero => exact fun text => ⟨[], rfl, rfl⟩
  | succ steps ih =>
      intro text
      rw [readAnnotations]
      cases hread : readAnnotation text with
      | none => exact ⟨[], rfl, rfl⟩
      | some read =>
          rcases read with ⟨note, rest⟩
          rcases readAnnotation_sound hread with ⟨a, rfl, rfl⟩
          rcases ih rest with ⟨annotations, hnotes, hrest⟩
          refine ⟨a :: annotations, ?_, ?_⟩
          · rw [List.flatMap_cons, ← hnotes]
          · rw [List.flatMap_cons, List.append_assoc, ← hrest]

theorem readSuffix_sound {text suffix : JsString} (h : readSuffix text = some suffix) :
    ∃ gap : JsString, ∃ sign : Option CodeUnit, (∀ c ∈ gap, isStrWhiteSpace c = true) ∧
      (∀ c ∈ sign, c = unit '$' ∨ c = unit '¢') ∧ text = gap ++ sign.toList := by
  have hsplit := List.takeWhile_append_dropWhile (p := isStrWhiteSpace) (l := text)
  have hspaces : ∀ c ∈ text.takeWhile isStrWhiteSpace, isStrWhiteSpace c = true :=
    fun c hc => List.mem_takeWhile_imp hc
  unfold readSuffix at h
  split at h
  case h_1 hnil =>
    rw [hnil] at hsplit
    exact ⟨_, none, hspaces, by simp, hsplit.symm⟩
  case h_2 c hone =>
    split at h
    case isTrue hsign =>
      rw [hone] at hsplit
      refine ⟨_, some c, hspaces, ?_, hsplit.symm⟩
      rintro d ⟨⟩
      exact hsign
    case isFalse => cases h
  case h_3 => cases h

/-- The three readers one after the other. -/
theorem accepted_of_read {s intPart rest suffix : JsString} {decPart : Option JsString}
    (hnumber : readNumber s = some (intPart, decPart, rest))
    (hsuffix : readSuffix (readAnnotations rest.length rest).2 = some suffix) :
    ∃ n : AnnotatedNumber, n.text = s := by
  rcases readNumber_sound hnumber with ⟨hdigits, hne, hdecimals, rfl⟩
  rcases readAnnotations_sound rest.length rest with ⟨annotations, -, hrest⟩
  rcases readSuffix_sound hsuffix with ⟨gap, sign, hspaces, hsign, htail⟩
  refine ⟨⟨⟨intPart, decPart, sign, hdigits, hne, hdecimals, hsign⟩, annotations, gap, hspaces⟩,
    ?_⟩
  rw [htail] at hrest
  exact (congrArg _ hrest).symm

/-! ## The formatter -/

namespace AnnotatedNumber

variable (n : AnnotatedNumber)

theorem isPlaceholder_text : isPlaceholder n.text = false := by
  unfold text numeric
  rw [List.append_assoc]
  exact DisplayNumber.isPlaceholder_append n.number.nonempty
    (fun c hc => n.number.digits c (List.mem_of_head? hc)) _

/-- The annotations end with a parenthesis, the sign is no white space either. -/
theorem tail_not_space : ∀ c, (n.annotation ++ n.number.spacedSign).getLast? = some c →
    isStrWhiteSpace c = false := by
  intro c hc
  rw [List.getLast?_append] at hc
  cases hsign : n.number.spacedSign.getLast? with
  | some d =>
      rw [hsign, Option.some_or, Option.some.injEq] at hc
      exact hc ▸ n.number.spacedSign_not_space d hsign
  | none =>
      rw [hsign, Option.none_or] at hc
      unfold annotation at hc
      rcases List.eq_nil_or_concat n.annotations with hnil | ⟨front, a, hlast⟩
      · simp [hnil] at hc
      · rw [hlast, List.concat_eq_append, List.flatMap_append, List.flatMap_singleton,
          Annotation.text, ← List.append_assoc, List.getLast?_concat, Option.some.injEq] at hc
        exact hc ▸ by decide

theorem trim_european : trim n.european = n.european := by
  have hne : groupThousands n.number.whole ≠ [] := fun h =>
    n.number.nonempty (groupThousands_eq_nil.1 h)
  refine DisplayNumber.trim_body (fun c hc => ?_) (fun c hc => ?_) ?_ n.tail_not_space
  · rw [europeanNumeric, List.head?_append_of_ne_nil _ hne, head?_groupThousands] at hc
    exact n.number.digits c (List.mem_of_head? hc)
  · refine n.number.isDigit_last (fun d hd => ?_) (unit ',') hc
    rw [getLast?_groupThousands] at hd
    exact n.number.digits d (List.mem_of_getLast? hd)
  · simp [europeanNumeric, hne]

/-- An accepted text is written again with its digits in groups. -/
theorem formatEU_text {raw : Value} (hraw : raw.isNullish = false)
    (htext : n.text = trim raw.template) : formatEU raw = n.european := by
  have hannotations : readAnnotations (n.annotation ++ n.suffix).length
      (n.annotation ++ n.suffix) = (n.annotation, n.suffix) :=
    readAnnotations_flatMap n.readAnnotation_suffix n.annotations n.length_annotations_le
  unfold formatEU
  simp only [hraw, ← htext, n.isPlaceholder_text, n.readNumber_text, hannotations,
    n.readSuffix_suffix, Bool.false_eq_true, if_false]
  rw [← n.trim_european]
  unfold european europeanNumeric DisplayNumber.spacedSign
  cases hfraction : n.number.fraction with
  | none =>
      cases hsign : n.number.sign with
      | none => simp
      | some c => simp
  | some f =>
      cases hsign : n.number.sign with
      | none => simp
      | some c => simp

end AnnotatedNumber

/-- Every other text is returned as it is, without the white space around it. -/
theorem formatEU_of_not_accepted {raw : Value} (hraw : raw.isNullish = false)
    (h : ∀ n : AnnotatedNumber, n.text ≠ trim raw.template) :
    formatEU raw = trim raw.template := by
  unfold formatEU
  simp only [hraw, Bool.false_eq_true, if_false]
  split
  case isTrue => rfl
  case isFalse =>
    split
    case h_1 => rfl
    case h_2 intPart decPart rest hnumber =>
      split
      case h_1 => rfl
      case h_2 suffix hsuffix =>
        rcases accepted_of_read hnumber hsuffix with ⟨n, hn⟩
        exact absurd hn (h n)

/-! ## Groups of three -/

/-- A first group of one to three digits, and groups of three digits behind dots. -/
def IsGrouped (text : JsString) : Prop :=
  ∃ first groups, text.splitOn (unit '.') = first :: groups ∧
    first ≠ [] ∧ first.length ≤ 3 ∧ IsDigits first ∧
    ∀ group ∈ groups, group.length = 3 ∧ IsDigits group

/-- From the right: what follows a dot has a number of digits that three divides, so that its first
group is a full one. -/
theorem exists_splitOn_groupThousands (whole : JsString) (hne : whole ≠ [])
    (hdigits : IsDigits whole) :
    ∃ first groups, (groupThousands whole).splitOn (unit '.') = first :: groups ∧
      first ≠ [] ∧ first.length ≤ 3 ∧ IsDigits first ∧
      (∀ group ∈ groups, group.length = 3 ∧ IsDigits group) ∧
      (whole.length % 3 = 0 → first.length = 3) := by
  induction hlength : whole.length using Nat.strongRecOn generalizing whole with
  | ind count ih =>
      subst hlength
      have hpos := List.length_pos_iff.2 hne
      by_cases hshort : whole.length ≤ 3
      · refine ⟨whole, [], ?_, hne, hshort, hdigits, by simp, fun hmod => by omega⟩
        rw [groupThousands_of_short hshort]
        exact List.splitOn_eq_singleton (hdigits.not_mem (by decide))
      · rcases exists_groups (not_le.1 hshort) with
          ⟨front, rest, rfl, hfront, hthree, hrest, hmod⟩
        rcases isDigits_append.1 hdigits with ⟨hfrontDigits, hrestDigits⟩
        have hfrontPos := List.length_pos_iff.2 hfront
        have hless : rest.length < (front ++ rest).length := by
          rw [List.length_append]
          omega
        rcases ih rest.length hless rest hrest hrestDigits rfl with
          ⟨first, groups, hsplit, -, -, hfirstDigits, hgroups, hfirst⟩
        refine ⟨front, first :: groups, ?_, hfront, hthree, hfrontDigits, ?_, ?_⟩
        · rw [groupThousands_append hfront hthree hrest hmod,
            List.splitOn_append_cons_self_of_not_mem (hfrontDigits.not_mem (by decide)), hsplit]
        · intro group hgroup
          rcases List.mem_cons.1 hgroup with rfl | hgroup
          · exact ⟨hfirst hmod, hfirstDigits⟩
          · exact hgroups group hgroup
        · intro hall
          rw [List.length_append] at hall
          omega

theorem isGrouped_groupThousands {whole : JsString} (hne : whole ≠ []) (hdigits : IsDigits whole) :
    IsGrouped (groupThousands whole) := by
  rcases exists_splitOn_groupThousands whole hne hdigits with
    ⟨first, groups, hsplit, hfirst, hshort, hfirstDigits, hgroups, -⟩
  exact ⟨first, groups, hsplit, hfirst, hshort, hfirstDigits, hgroups⟩

/-! ## Nothing is lost -/

/-- Every `.` deleted, every `,` turned into `.` -/
def restoreNumeric (text : JsString) : JsString :=
  (removeAll (unit '.') text).map fun c => if c = unit ',' then unit '.' else c

theorem restoreNumeric_digits {digits : JsString} (h : IsDigits digits) :
    digits.map (fun c => if c = unit ',' then unit '.' else c) = digits := by
  refine (List.map_congr_left fun c hc => if_neg ?_).trans (List.map_id' digits)
  rintro rfl
  exact absurd (h _ hc) (by decide)

/-- The output keeps what the accepted text had: its number, written in groups, its annotations and
its currency sign, behind one space. -/
structure KeepsNumber (n : AnnotatedNumber) (output numeric : JsString) : Prop where
  parts : output = numeric ++ (n.annotation ++ n.number.spacedSign)
  restored : restoreNumeric numeric = n.numeric
  grouped : IsGrouped (numeric.takeWhile (· != unit ','))

namespace AnnotatedNumber

variable (n : AnnotatedNumber)

theorem restoreNumeric_europeanNumeric : restoreNumeric n.europeanNumeric = n.numeric := by
  unfold restoreNumeric europeanNumeric numeric
  rw [removeAll_append, removeAll_groupThousands n.number.digits, List.map_append,
    restoreNumeric_digits n.number.digits]
  cases hfraction : n.number.fraction with
  | none => rfl
  | some f =>
      have hdigits := (n.number.decimals f hfraction).2
      have hperiod : unit '.' ∉ unit ',' :: f := by
        rw [List.mem_cons, not_or]
        exact ⟨by decide, hdigits.not_mem (by decide)⟩
      rw [Option.map_some, Option.map_some, Option.getD_some, Option.getD_some,
        removeAll_of_not_mem hperiod, List.map_cons, if_pos rfl, restoreNumeric_digits hdigits]

theorem takeWhile_europeanNumeric :
    n.europeanNumeric.takeWhile (· != unit ',') = groupThousands n.number.whole := by
  have hgroups : ∀ c ∈ groupThousands n.number.whole, (c != unit ',') = true := by
    intro c hc
    rw [bne_iff_ne]
    rintro rfl
    rcases mem_groupThousands n.number.digits hc with hdigit | hperiod
    · exact absurd hdigit (by decide)
    · exact absurd hperiod (by decide)
  unfold europeanNumeric
  rw [List.takeWhile_append_of_pos hgroups]
  cases n.number.fraction with
  | none => simp
  | some f => simp

theorem keepsNumber : KeepsNumber n n.european n.europeanNumeric where
  parts := rfl
  restored := n.restoreNumeric_europeanNumeric
  grouped := by
    rw [n.takeWhile_europeanNumeric]
    exact isGrouped_groupThousands n.number.nonempty n.number.digits

end AnnotatedNumber

/-- Every text that the pattern accepts keeps its number, its annotations and its sign; every other
text is returned trimmed. -/
theorem formatEU_lossless {raw : Value} (hraw : raw.isNullish = false) :
    (∀ n : AnnotatedNumber, n.text = trim raw.template →
      ∃ numeric, KeepsNumber n (formatEU raw) numeric) ∧
    ((∀ n : AnnotatedNumber, n.text ≠ trim raw.template) → formatEU raw = trim raw.template) := by
  refine ⟨fun n htext => ⟨n.europeanNumeric, ?_⟩, formatEU_of_not_accepted hraw⟩
  rw [n.formatEU_text hraw htext]
  exact n.keepsNumber

/-- The number `1234567.5 (about)  $`. -/
def aboutMillion : AnnotatedNumber where
  number :=
    { whole := js "1234567"
      fraction := some (js "5")
      sign := some (unit '$')
      digits := by decide
      nonempty := by decide
      decimals := by decide
      currency := fun c hc => Or.inl (Option.some.inj hc).symm }
  annotations :=
    [{ space := js " "
       inner := js "about"
       spaces := List.all_eq_true.1 (by decide)
       spaced := by decide
       nonempty := by decide
       closed := by decide }]
  gap := js "  "
  spaces := List.all_eq_true.1 (by decide)

theorem formatEU_lossless_million :
    let raw := Value.str (js " 1234567.5 (about)  $")
    raw.isNullish = false ∧
    (aboutMillion.text = trim raw.template ∧
      ∃ numeric, KeepsNumber aboutMillion (formatEU raw) numeric) ∧
    ((∀ n : AnnotatedNumber, n.text ≠ trim raw.template) → formatEU raw = trim raw.template) := by
  intro raw
  have htext : aboutMillion.text = trim raw.template := by decide +kernel
  have hlossless := @formatEU_lossless raw rfl
  exact ⟨rfl, ⟨htext, hlossless.1 aboutMillion htext⟩, hlossless.2⟩

example : formatEU (.str (js " 1234567.5 (about)  $")) = js "1.234.567,5 (about) $" := by
  decide +kernel

end Pact
end StoaCore
