import StoaCore.Library.Js.Json

/-!
# JsonRoundTrip — `JSON.parse` reads back what `JSON.stringify` prints

The value read back is the printed one up to `normalizeValue`: `undefined` becomes `null` in
arrays and disappears from objects.  The proof follows the printer; its one subtlety is that a
number literal only ends with the code unit after it, so the state behind a printed value is
`settle` and not `complete`.
-/

namespace Library
namespace Js

/-! ## What survives printing -/

mutual

def normalizeValue : Value → Value
  | .undefined => .null
  | .arr items => .arr (normalizeItems items)
  | .obj fields => .obj (normalizeMembers [] fields)
  | v => v

def normalizeItems : List Value → List Value
  | [] => []
  | v :: items => normalizeValue v :: normalizeItems items

def normalizeMembers (read : List (JsString × Value)) :
    List (JsString × Value) → List (JsString × Value)
  | [] => read
  | (key, v) :: fields =>
      if v.isUndefined then normalizeMembers read fields
      else normalizeMembers (setField read key (normalizeValue v)) fields

end

/-! ## Reading in stretches -/

def run (s : Reader) (text : JsString) : Option Reader :=
  text.foldlM step s

theorem run_nil (s : Reader) : run s [] = some s := rfl

theorem run_cons (s : Reader) (c : CodeUnit) (text : JsString) :
    run s (c :: text) = (step s c).bind (run · text) := by
  simp only [run, List.foldlM_cons]
  rfl

theorem run_singleton (s : Reader) (c : CodeUnit) : run s [c] = step s c := by
  rw [run_cons]
  cases step s c <;> rfl

theorem run_append (s : Reader) (front back : JsString) :
    run s (front ++ back) = (run s front).bind (run · back) := by
  simp only [run, List.foldlM_append]
  rfl

/-- Reading on after a stretch whose effect is known. -/
theorem run_append_of {s t : Reader} {front : JsString} (h : run s front = some t)
    (back : JsString) : run s (front ++ back) = run t back := by
  rw [run_append, h]
  rfl

/-- Every mode that skips white space. -/
def Mode.skips : Mode → Bool
  | .value | .firstItem | .firstKey | .key | .colon _ | .after | .done _ => true
  | _ => false

theorem step_of_skips {m : Mode} (hm : m.skips = true) (k : List Frame) (c : CodeUnit) :
    step ⟨m, k⟩ c = skipOrStep ⟨m, k⟩ c := by
  cases m <;> first | rfl | cases hm

theorem run_whitespace {m : Mode} (hm : m.skips = true) (k : List Frame) {blank : JsString}
    (hblank : ∀ c ∈ blank, isWhitespace c = true) : run ⟨m, k⟩ blank = some ⟨m, k⟩ := by
  induction blank with
  | nil => rfl
  | cons c blank ih =>
      have hc : step ⟨m, k⟩ c = some ⟨m, k⟩ := by
        rw [step_of_skips hm, skipOrStep, if_pos (hblank c (by simp))]
      rw [run_cons, hc]
      exact ih fun d hd => hblank d (by simp [hd])

theorem isWhitespace_newline (gap : JsString) {indent : JsString}
    (hindent : ∀ c ∈ indent, isWhitespace c = true) :
    ∀ c ∈ newline gap indent, isWhitespace c = true := by
  intro c hc
  unfold newline at hc
  split at hc
  · cases hc
  · rcases List.mem_cons.1 hc with rfl | hc
    · decide
    · exact hindent c hc

/-! ## Strings -/

theorem run_hex4 (isKey : Bool) (read : JsString) (k : List Frame) (c : CodeUnit) :
    run ⟨.hex isKey read 0 0, k⟩ (hex4 c) = some ⟨.string isKey (read ++ [c]), k⟩ := by
  have hc : c.toNat < 65536 := c.toNat_lt
  have hcode : UInt16.ofNat (16 * (16 * (16 * (16 * 0 + c.toNat / 4096) + c.toNat / 256 % 16) +
      c.toNat / 16 % 16) + c.toNat % 16) = c := by
    rw [show 16 * (16 * (16 * (16 * 0 + c.toNat / 4096) + c.toNat / 256 % 16) +
      c.toNat / 16 % 16) + c.toNat % 16 = c.toNat by omega]
    exact UInt16.ofNat_toNat
  have h3 := hexVal_hexDigit (show c.toNat / 4096 < 16 by omega)
  have h2 := hexVal_hexDigit (show c.toNat / 256 % 16 < 16 by omega)
  have h1 := hexVal_hexDigit (show c.toNat / 16 % 16 < 16 by omega)
  have h0 := hexVal_hexDigit (show c.toNat % 16 < 16 by omega)
  simp only [hex4, run_cons, step, h3, h2, h1, h0, Option.map_some, Option.bind_some, run_nil]
  exact congrArg (fun d => some (Reader.mk (.string isKey (read ++ [d])) k)) hcode

/-- A unit that is printed as it is, is read as it is. -/
theorem run_plain (isKey : Bool) (read : JsString) (k : List Frame) {c : CodeUnit}
    (hquote : c ≠ unit '"') (hescape : c ≠ unit '\\') (hcontrol : ¬ c < 0x20) :
    run ⟨.string isKey read, k⟩ [c] = some ⟨.string isKey (read ++ [c]), k⟩ := by
  rw [run_cons]
  simp only [step]
  rw [if_neg hquote, if_neg hescape, if_neg hcontrol]
  rfl

theorem run_quoteUnit (isKey : Bool) (read : JsString) (k : List Frame) (c : CodeUnit) :
    run ⟨.string isKey read, k⟩ (quoteUnit c) = some ⟨.string isKey (read ++ [c]), k⟩ := by
  unfold quoteUnit
  split_ifs with hquote hescape hb ht hn hf hr hcode
  · rw [hquote]
    rfl
  · rw [hescape]
    rfl
  · rw [hb]
    rfl
  · rw [ht]
    rfl
  · rw [hn]
    rfl
  · rw [hf]
    rfl
  · rw [hr]
    rfl
  · exact run_hex4 isKey read k c
  · have hcontrol : ¬ c < 0x20 := by
      intro hlt
      simp [hlt] at hcode
    exact run_plain isKey read k hquote hescape hcontrol

theorem run_surrogate (isKey : Bool) (read : JsString) (k : List Frame) {c : CodeUnit}
    (hc : isSurrogate c = true) :
    run ⟨.string isKey read, k⟩ [c] = some ⟨.string isKey (read ++ [c]), k⟩ := by
  have hlow : 0xD800 ≤ c.toNat := by
    simp only [isSurrogate, isHighSurrogate, isLowSurrogate, Bool.or_eq_true, Bool.and_eq_true,
      decide_eq_true_eq, UInt16.le_iff_toNat_le] at hc
    rcases hc with hc | hc
    · exact hc.1
    · exact le_trans (by decide) hc.1
  refine run_plain isKey read k ?_ ?_ ?_
  · rintro rfl
    exact absurd hlow (by decide)
  · rintro rfl
    exact absurd hlow (by decide)
  · intro hlt
    have hlt' : c.toNat < 0x20 := UInt16.lt_iff_toNat_lt.1 hlt
    omega

theorem run_quoteBody (isKey : Bool) (k : List Frame) (s : JsString) (read : JsString) :
    run ⟨.string isKey read, k⟩ (quoteBody s) = some ⟨.string isKey (read ++ s), k⟩ := by
  fun_induction quoteBody s generalizing read with
  | case1 => simp [run_nil]
  | case2 c => exact run_quoteUnit isKey read k c
  | case3 c d rest hpair ih =>
      have hpair' := Bool.and_eq_true_iff.1 hpair
      have hc := run_surrogate isKey read k
        (show isSurrogate c = true by simp [isSurrogate, hpair'.1])
      have hd := run_surrogate isKey (read ++ [c]) k
        (show isSurrogate d = true by simp [isSurrogate, hpair'.2])
      calc run ⟨.string isKey read, k⟩ ([c] ++ ([d] ++ quoteBody rest))
          = run ⟨.string isKey (read ++ [c]), k⟩ ([d] ++ quoteBody rest) := run_append_of hc _
        _ = run ⟨.string isKey (read ++ [c] ++ [d]), k⟩ (quoteBody rest) := run_append_of hd _
        _ = some ⟨.string isKey (read ++ (c :: d :: rest)), k⟩ := by
            rw [ih]
            simp
  | case4 c d rest _ ih =>
      rw [run_append_of (run_quoteUnit isKey read k c), ih]
      simp

/-- Behind the opening quote, a quoted string is read to its end. -/
theorem run_quote_tail (isKey : Bool) (k : List Frame) (s : JsString) :
    run ⟨.string isKey [], k⟩ (quoteBody s ++ [unit '"']) = completeString isKey s k := by
  rw [run_append_of (run_quoteBody isKey k s []), run_cons]
  simp only [step, if_pos, List.nil_append]
  cases completeString isKey s k <;> rfl

theorem run_quote_value (k : List Frame) (s : JsString) :
    run ⟨.value, k⟩ (quote s) = complete (.str s) k := by
  have hquote : quote s = unit '"' :: (quoteBody s ++ [unit '"']) := rfl
  rw [hquote, run_cons]
  exact run_quote_tail false k s

theorem run_quote_key {m : Mode} {fields : List (JsString × Value)} {k : List Frame}
    (hm : m = .key ∨ (m = .firstKey ∧ fields = [])) (s : JsString) :
    run ⟨m, .obj fields :: k⟩ (quote s) = some ⟨.colon s, .obj fields :: k⟩ := by
  have hquote : quote s = unit '"' :: (quoteBody s ++ [unit '"']) := rfl
  rw [hquote, run_cons]
  rcases hm with rfl | ⟨rfl, rfl⟩
  · exact run_quote_tail true _ s
  · exact run_quote_tail true _ s

/-! ## The state behind a printed value -/

/-- A number stays open until the next code unit; every other value is complete. -/
def settle (v : Value) (k : List Frame) : Option Reader :=
  match v with
  | .num n => some ⟨.number n.text, k⟩
  | v => complete v k

theorem completeNumber_text (n : NumberLiteral) (k : List Frame) :
    completeNumber n.text k = complete (.num n) k := by
  unfold completeNumber
  rw [dif_pos n.valid]

theorem skips_of_complete {v : Value} {k : List Frame} {s : Reader} (h : complete v k = some s) :
    s.mode.skips = true := by
  unfold complete at h
  split at h <;> cases h <;> rfl

/-- Behind a code unit that cannot continue a number, `settle` and `complete` are the same. -/
theorem settle_bind_run (v : Value) (k : List Frame) {c : CodeUnit}
    (hc : isNumberUnit c = false) (text : JsString) :
    (settle v k).bind (run · (c :: text)) = (complete v k).bind (run · (c :: text)) := by
  unfold settle
  split
  · rename_i n
    -- The code unit that ends the number is read again by the state behind it.
    have hstep : step ⟨.number n.text, k⟩ c = (complete (.num n) k).bind fun s => step s c := by
      have hend : step ⟨.number n.text, k⟩ c =
          (completeNumber n.text k).bind fun s => skipOrStep s c := by
        simp only [step]
        rw [if_neg (by simp [hc])]
      rw [hend, completeNumber_text]
      cases hcomplete : complete (.num n) k with
      | none => rfl
      | some s => exact (step_of_skips (skips_of_complete hcomplete) s.stack c).symm
    simp only [Option.bind_some, run_cons, hstep, Option.bind_assoc]
  · rfl

theorem finish_settle (v : Value) : (settle v []).bind finish = some v := by
  unfold settle
  split
  · rename_i n
    simp only [Option.bind_some, finish, completeNumber_text, complete]
  · rfl

/-! ## Values -/

/-- The value `v` is read back wherever a value is expected. -/
def ReadsBack (gap : JsString) (v : Value) : Prop :=
  ∀ indent, (∀ c ∈ indent, isWhitespace c = true) → ∀ k,
    run ⟨.value, k⟩ (printValue gap indent v) = settle (normalizeValue v) k

theorem run_number (k : List Frame) (n : NumberLiteral) :
    run ⟨.value, k⟩ n.text = some ⟨.number n.text, k⟩ := by
  have hrest : ∀ (rest read : JsString), (∀ c ∈ rest, isNumberUnit c = true) →
      run ⟨.number read, k⟩ rest = some ⟨.number (read ++ rest), k⟩ := by
    intro rest
    induction rest with
    | nil =>
        intro read _
        simp [run_nil]
    | cons c rest ih =>
        intro read hunits
        have hc : step ⟨.number read, k⟩ c = some ⟨.number (read ++ [c]), k⟩ := by
          simp only [step]
          rw [if_pos (hunits c (by simp))]
        rw [run_cons, hc, Option.bind_some, ih _ fun d hd => hunits d (by simp [hd])]
        simp
  have hunits := n.units
  cases htext : n.text with
  | nil => exact absurd htext n.text_ne_nil
  | cons c rest =>
      rw [htext] at hunits
      have hc : isNumberUnit c = true := hunits c (by simp)
      -- A number character is none of the characters that start another value.
      have hstart : step ⟨.value, k⟩ c = some ⟨.number [c], k⟩ := by
        have hne : ∀ d : Char, isNumberUnit (unit d) = false → c ≠ unit d := by
          rintro d hd rfl
          rw [hd] at hc
          cases hc
        have hblank : isWhitespace c = false := by
          simp only [isWhitespace, Bool.or_eq_false_iff, beq_eq_false_iff_ne]
          exact ⟨⟨⟨hne '\t' (by decide), hne '\n' (by decide)⟩, hne '\r' (by decide)⟩,
            hne ' ' (by decide)⟩
        simp only [step, skipOrStep, stepToken, startValue, hblank, hc,
          hne '"' (by decide), hne '[' (by decide), hne '\x7b' (by decide), hne 't' (by decide),
          hne 'f' (by decide), hne 'n' (by decide)]
        rfl
      rw [run_cons, hstart, Option.bind_some,
        hrest rest [c] fun d hd => hunits d (by simp [hd])]
      rfl

/-! ## Delimiters -/

/-- The text goes on with a code unit that cannot continue a number. -/
def Delimited (text : JsString) : Prop :=
  ∃ c rest, text = c :: rest ∧ isNumberUnit c = false

theorem delimited_cons {c : Char} (h : isNumberUnit (unit c) = false) (rest : JsString) :
    Delimited (unit c :: rest) :=
  ⟨unit c, rest, rfl, h⟩

theorem isNumberUnit_of_isWhitespace {c : CodeUnit} (h : isWhitespace c = true) :
    isNumberUnit c = false := by
  simp only [isWhitespace, Bool.or_eq_true, beq_iff_eq] at h
  rcases h with ((rfl | rfl) | rfl) | rfl <;> decide

theorem delimited_blank {blank text : JsString} (hblank : ∀ c ∈ blank, isWhitespace c = true)
    (htext : Delimited text) : Delimited (blank ++ text) := by
  cases blank with
  | nil => exact htext
  | cons c blank =>
      exact ⟨c, blank ++ text, rfl, isNumberUnit_of_isWhitespace (hblank c (by simp))⟩

/-- A printed value followed by a delimiter is read as that value. -/
theorem run_printed {gap indent text : JsString} {v : Value} (hv : ReadsBack gap v)
    (hindent : ∀ c ∈ indent, isWhitespace c = true) (htext : Delimited text) (k : List Frame) :
    run ⟨.value, k⟩ (printValue gap indent v ++ text) =
      (complete (normalizeValue v) k).bind (run · text) := by
  rcases htext with ⟨c, rest, rfl, hc⟩
  calc run ⟨.value, k⟩ (printValue gap indent v ++ c :: rest)
      = (run ⟨.value, k⟩ (printValue gap indent v)).bind (run · (c :: rest)) := run_append _ _ _
    _ = (settle (normalizeValue v) k).bind (run · (c :: rest)) := by rw [hv indent hindent k]
    _ = (complete (normalizeValue v) k).bind (run · (c :: rest)) :=
        settle_bind_run (normalizeValue v) k hc rest

/-! ## Arrays -/

/-- A printed value starts neither with white space nor with a closing bracket. -/
theorem printValue_head (gap indent : JsString) (v : Value) :
    ∃ c rest, printValue gap indent v = c :: rest ∧ isWhitespace c = false ∧ c ≠ unit ']' := by
  cases v with
  | bool b => cases b <;> exact ⟨_, _, rfl, by decide, by decide⟩
  | num n =>
      have hunits := n.units
      cases htext : n.text with
      | nil => exact absurd htext n.text_ne_nil
      | cons c rest =>
          rw [htext] at hunits
          have hc := hunits c (by simp)
          refine ⟨c, rest, by simpa [printValue] using htext, ?_, ?_⟩
          · by_contra hblank
            rw [isNumberUnit_of_isWhitespace (by simpa using hblank)] at hc
            cases hc
          · rintro rfl
            exact absurd hc (by decide)
  | _ => exact ⟨_, _, rfl, by decide, by decide⟩

/-- The first element of an array is read like any value. -/
theorem run_firstItem (gap indent : JsString) (v : Value) (text : JsString) (k : List Frame) :
    run ⟨.firstItem, .arr [] :: k⟩ (printValue gap indent v ++ text) =
      run ⟨.value, .arr [] :: k⟩ (printValue gap indent v ++ text) := by
  rcases printValue_head gap indent v with ⟨c, rest, hprint, hblank, hclose⟩
  have hstep : step ⟨.firstItem, .arr [] :: k⟩ c = step ⟨.value, .arr [] :: k⟩ c := by
    simp only [step, skipOrStep, stepToken, hblank, if_neg hclose]
    rfl
  rw [hprint, List.cons_append, run_cons, run_cons, hstep]

/-- What follows a part delimits it. -/
theorem delimited_separated (gap inner : JsString) {blank : JsString}
    (hblank : ∀ c ∈ blank, isWhitespace c = true) {c : Char}
    (hclosing : isNumberUnit (unit c) = false) (parts : List JsString) :
    Delimited (separated gap inner parts ++ (blank ++ [unit c])) := by
  cases parts with
  | nil =>
      rw [separated, List.nil_append]
      exact delimited_blank hblank (delimited_cons hclosing [])
  | cons part parts => exact delimited_cons (c := ',') (by decide) _

/-- The elements behind the first, up to the closing bracket. -/
theorem run_items {gap inner blank : JsString} (hinner : ∀ c ∈ inner, isWhitespace c = true)
    (hblank : ∀ c ∈ blank, isWhitespace c = true) {items : List Value}
    (hitems : ∀ v ∈ items, ReadsBack gap v) (read : List Value) (k : List Frame) :
    run ⟨.after, .arr read :: k⟩
        (separated gap inner (printItems gap inner items) ++ (blank ++ [unit ']'])) =
      complete (.arr (read ++ normalizeItems items)) k := by
  -- The items read so far are general, since each element is added to them.
  induction items generalizing read with
  | nil =>
      simp only [printItems, separated, List.nil_append, normalizeItems, List.append_nil]
      rw [run_append_of (run_whitespace rfl _ hblank), run_singleton]
      rfl
  | cons v items ih =>
      have hcomma : step ⟨.after, .arr read :: k⟩ (unit ',') = some ⟨.value, .arr read :: k⟩ := rfl
      have hbreak := run_whitespace (m := .value) rfl (.arr read :: k)
        (isWhitespace_newline gap hinner)
      simp only [printItems, separated, List.cons_append, List.append_assoc, normalizeItems]
      rw [run_cons, hcomma, Option.bind_some, run_append_of hbreak,
        run_printed (hitems v (by simp)) hinner
          (delimited_separated gap inner hblank (by decide) _)]
      rw [complete, Option.bind_some, ih (fun w hw => hitems w (by simp [hw]))]
      simp

/-- An array is read back if its elements are. -/
theorem readsBack_arr {gap : JsString} (hgap : ∀ c ∈ gap, isWhitespace c = true)
    {items : List Value} (hitems : ∀ v ∈ items, ReadsBack gap v) : ReadsBack gap (.arr items) := by
  intro indent hindent k
  have hinner : ∀ c ∈ indent ++ gap, isWhitespace c = true := by
    intro c hc
    rcases List.mem_append.1 hc with hc | hc
    · exact hindent c hc
    · exact hgap c hc
  have hopen : step ⟨.value, k⟩ (unit '[') = some ⟨.firstItem, .arr [] :: k⟩ := rfl
  rw [printValue, run_cons, hopen, Option.bind_some]
  cases items with
  | nil => exact run_singleton _ _
  | cons v items =>
      have hbreak := run_whitespace (m := .firstItem) rfl (.arr [] :: k)
        (isWhitespace_newline gap hinner)
      rw [printItems, closeBracket, run_append_of hbreak, run_firstItem,
        run_printed (hitems v (by simp)) hinner
          (delimited_separated gap _ (isWhitespace_newline gap hindent) (by decide) _),
        complete, Option.bind_some,
        run_items hinner (isWhitespace_newline gap hindent) fun w hw => hitems w (by simp [hw])]
      rfl

/-! ## Objects -/

/-- One printed member is read as its key and its value. -/
theorem run_member {m : Mode} {gap inner text : JsString} {read : List (JsString × Value)}
    (key : JsString) {v : Value}
    (hm : m = .key ∨ (m = .firstKey ∧ read = [])) (hv : ReadsBack gap v)
    (hinner : ∀ c ∈ inner, isWhitespace c = true) (htext : Delimited text) (k : List Frame) :
    run ⟨m, .obj read :: k⟩
        (quote key ++ (unit ':' :: (if gap = [] then [] else [unit ' ']) ++
          printValue gap inner v) ++ text) =
      run ⟨.after, .obj (setField read key (normalizeValue v)) :: k⟩ text := by
  have hcolon : step ⟨.colon key, .obj read :: k⟩ (unit ':') =
      some ⟨.value, .member read key :: k⟩ := rfl
  have hspace : run ⟨.value, .member read key :: k⟩ (if gap = [] then [] else [unit ' ']) =
      some ⟨.value, .member read key :: k⟩ := by
    split <;> rfl
  calc run ⟨m, .obj read :: k⟩
        (quote key ++ (unit ':' :: (if gap = [] then [] else [unit ' ']) ++
          printValue gap inner v) ++ text)
      = run ⟨.colon key, .obj read :: k⟩
          (unit ':' :: ((if gap = [] then [] else [unit ' ']) ++ printValue gap inner v ++ text)) :=
        by rw [List.append_assoc, run_append_of (run_quote_key hm key)]; rfl
    _ = run ⟨.value, .member read key :: k⟩
          ((if gap = [] then [] else [unit ' ']) ++ (printValue gap inner v ++ text)) := by
        rw [run_cons, hcolon, Option.bind_some, List.append_assoc]
    _ = run ⟨.value, .member read key :: k⟩ (printValue gap inner v ++ text) :=
        run_append_of hspace _
    _ = (complete (normalizeValue v) (.member read key :: k)).bind (run · text) :=
        run_printed hv hinner htext _

/-- The members behind the first, up to the closing bracket. -/
theorem run_members {gap inner blank : JsString} (hinner : ∀ c ∈ inner, isWhitespace c = true)
    (hblank : ∀ c ∈ blank, isWhitespace c = true) {fields : List (JsString × Value)}
    (hfields : ∀ m ∈ fields, ReadsBack gap m.2) (read : List (JsString × Value))
    (k : List Frame) :
    run ⟨.after, .obj read :: k⟩
        (separated gap inner (printMembers gap inner fields) ++ (blank ++ [unit '\x7d'])) =
      complete (.obj (normalizeMembers read fields)) k := by
  induction fields generalizing read with
  | nil =>
      simp only [printMembers, separated, List.nil_append, normalizeMembers]
      rw [run_append_of (run_whitespace rfl _ hblank), run_singleton]
      rfl
  | cons m fields ih =>
      rcases m with ⟨key, v⟩
      have hrest := fun read => ih (fun m hm => hfields m (by simp [hm])) read
      -- An undefined member is printed as nothing, and normalizing drops it as well.
      by_cases hundefined : v.isUndefined = true
      · simp only [printMembers, normalizeMembers, if_pos hundefined]
        exact hrest read
      · have hcomma : step ⟨.after, .obj read :: k⟩ (unit ',') = some ⟨.key, .obj read :: k⟩ := rfl
        have hbreak := run_whitespace (m := .key) rfl (.obj read :: k)
          (isWhitespace_newline gap hinner)
        simp only [printMembers, normalizeMembers, if_neg hundefined, separated, List.cons_append]
        rw [run_cons, hcomma, Option.bind_some, List.append_assoc, run_append_of hbreak,
          List.append_assoc]
        have hv : ReadsBack gap v := hfields (key, v) (by simp)
        have htext := delimited_separated gap inner hblank (c := '\x7d') (by decide)
          (printMembers gap inner fields)
        exact (run_member key (Or.inl rfl) hv hinner htext k).trans (hrest _)

/-- The members from the opening bracket on; the first that is not `undefined` opens the list. -/
theorem run_firstMember {gap indent : JsString} (hgap : ∀ c ∈ gap, isWhitespace c = true)
    (hindent : ∀ c ∈ indent, isWhitespace c = true) {fields : List (JsString × Value)}
    (hfields : ∀ m ∈ fields, ReadsBack gap m.2) (k : List Frame) :
    run ⟨.firstKey, .obj [] :: k⟩
        (closeBracket '\x7d' gap indent (printMembers gap (indent ++ gap) fields)) =
      complete (.obj (normalizeMembers [] fields)) k := by
  have hinner : ∀ c ∈ indent ++ gap, isWhitespace c = true := by
    intro c hc
    rcases List.mem_append.1 hc with hc | hc
    · exact hindent c hc
    · exact hgap c hc
  induction fields with
  | nil => exact run_singleton _ _
  | cons m fields ih =>
      rcases m with ⟨key, v⟩
      have hrest : ∀ m ∈ fields, ReadsBack gap m.2 := fun m hm => hfields m (by simp [hm])
      -- Undefined members in front leave the object at its first key.
      by_cases hundefined : v.isUndefined = true
      · simp only [printMembers, normalizeMembers, if_pos hundefined]
        exact ih hrest
      · have hbreak := run_whitespace (m := .firstKey) rfl (.obj [] :: k)
          (isWhitespace_newline gap hinner)
        simp only [printMembers, normalizeMembers, if_neg hundefined, closeBracket]
        rw [run_append_of hbreak]
        have hv : ReadsBack gap v := hfields (key, v) (by simp)
        have hblank := isWhitespace_newline gap hindent
        have htext := delimited_separated gap (indent ++ gap) hblank (c := '\x7d') (by decide)
          (printMembers gap (indent ++ gap) fields)
        exact (run_member key (Or.inr ⟨rfl, rfl⟩) hv hinner htext k).trans
          (run_members hinner hblank hrest _ k)

theorem readsBack_obj {gap : JsString} (hgap : ∀ c ∈ gap, isWhitespace c = true)
    {fields : List (JsString × Value)} (hfields : ∀ m ∈ fields, ReadsBack gap m.2) :
    ReadsBack gap (.obj fields) := by
  intro indent hindent k
  have hopen : step ⟨.value, k⟩ (unit '\x7b') = some ⟨.firstKey, .obj [] :: k⟩ := rfl
  rw [printValue, run_cons, hopen, Option.bind_some]
  exact run_firstMember hgap hindent hfields k

/-! ## The round trip -/

/-- The words `null`, `true` and `false`. -/
theorem run_word (front : JsString) {last : CodeUnit} {v : Value} {k : List Frame}
    (hfront : run ⟨.value, k⟩ front = some ⟨.literal [last] v, k⟩) :
    run ⟨.value, k⟩ (front ++ [last]) = complete v k := by
  rw [run_append_of hfront, run_singleton]
  simp only [step, if_pos]

theorem readsBack {gap : JsString} (hgap : ∀ c ∈ gap, isWhitespace c = true) (v : Value) :
    ReadsBack gap v := by
  -- One case for each constructor; arrays and objects use the result for their parts.
  induction v using Value.induct with
  | undefined => exact fun _ _ k => run_word (js "nul") rfl
  | null => exact fun _ _ k => run_word (js "nul") rfl
  | bool b =>
      cases b with
      | false => exact fun _ _ k => run_word (js "fals") rfl
      | true => exact fun _ _ k => run_word (js "tru") rfl
  | num n => exact fun _ _ k => run_number k n
  | str s => exact fun _ _ k => run_quote_value k s
  | arr items ih => exact readsBack_arr hgap ih
  | obj fields ih => exact readsBack_obj hgap ih

/-- What `stringify` prints with a white-space gap, `parse` reads back, up to `normalizeValue`. -/
theorem parse_stringify {gap text : JsString} (hgap : ∀ c ∈ gap, isWhitespace c = true) {v : Value}
    (h : stringify v gap = some text) : parse text = some (normalizeValue v) := by
  unfold stringify at h
  split at h
  · cases h
  · cases h
    -- The whole text is the printed value at the empty stack.
    have hrun := readsBack hgap v [] (fun c hc => by cases hc) []
    calc parse (printValue gap [] v)
        = (run ⟨.value, []⟩ (printValue gap [] v)).bind finish := rfl
      _ = (settle (normalizeValue v) []).bind finish := by rw [hrun]
      _ = some (normalizeValue v) := finish_settle (normalizeValue v)

end Js
end Library
