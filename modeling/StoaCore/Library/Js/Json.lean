import StoaCore.Library.Js.Value

/-!
# Json — `JSON.stringify` and `JSON.parse`

The printer follows the serialization of the language standard, with an optional indentation.
The reader is a pushdown automaton over code units: its mode says what it expects next and its
stack holds the arrays and objects that are still open.  It is one step per code unit, so reading
a concatenation is reading one part after the other.

A number literal is kept as it is written, and members stay in the order in which they are written.
`JSON.parse` makes a binary64 number of the literal and moves members with integer names to the
front.
-/

namespace Library
namespace Js

/-! ## Printing -/

/-- One code unit of a quoted string; lone surrogates are printed as escapes. -/
def quoteUnit (c : CodeUnit) : JsString :=
  if c = unit '"' then js "\\\""
  else if c = unit '\\' then js "\\\\"
  else if c = 8 then js "\\b"
  else if c = 9 then js "\\t"
  else if c = 10 then js "\\n"
  else if c = 12 then js "\\f"
  else if c = 13 then js "\\r"
  else if c < 0x20 || isSurrogate c then unit '\\' :: unit 'u' :: hex4 c
  else [c]

def quoteBody : JsString → JsString
  | [] => []
  | [c] => quoteUnit c
  | c :: d :: rest =>
      -- A surrogate pair is one code point and stays as it is.
      if isHighSurrogate c && isLowSurrogate d then c :: d :: quoteBody rest
      else quoteUnit c ++ quoteBody (d :: rest)

def quote (s : JsString) : JsString :=
  unit '"' :: quoteBody s ++ [unit '"']

/-- A line break with its indentation; nothing without a gap. -/
def newline (gap indent : JsString) : JsString :=
  if gap = [] then [] else unit '\n' :: indent

/-- The parts behind the first, each with the comma and the line break before it. -/
def separated (gap indent : JsString) : List JsString → JsString
  | [] => []
  | part :: rest => unit ',' :: (newline gap indent ++ (part ++ separated gap indent rest))

/-- The parts of an array or object up to its closing bracket: on one line without a gap, else one
part a line. -/
def closeBracket (closing : Char) (gap indent : JsString) : List JsString → JsString
  | [] => [unit closing]
  | part :: rest =>
      newline gap (indent ++ gap) ++
        (part ++ (separated gap (indent ++ gap) rest ++ (newline gap indent ++ [unit closing])))

mutual

/-- Prints a value at an indentation; what is not representable prints as `null` here, which is
how array elements treat it. -/
def printValue (gap indent : JsString) : Value → JsString
  | .undefined => js "null"
  | .null => js "null"
  | .bool true => js "true"
  | .bool false => js "false"
  | .num n => n.text
  | .str s => quote s
  | .arr items => unit '[' :: closeBracket ']' gap indent (printItems gap (indent ++ gap) items)
  | .obj fields => unit '{' :: closeBracket '}' gap indent (printMembers gap (indent ++ gap) fields)

def printItems (gap indent : JsString) : List Value → List JsString
  | [] => []
  | v :: items => printValue gap indent v :: printItems gap indent items

/-- Members whose value is `undefined` are left out. -/
def printMembers (gap indent : JsString) : List (JsString × Value) → List JsString
  | [] => []
  | (key, v) :: fields =>
      if v.isUndefined then printMembers gap indent fields
      else
        (quote key ++ (unit ':' :: (if gap = [] then [] else [unit ' ']) ++
            printValue gap indent v)) ::
          printMembers gap indent fields

end

/-- `JSON.stringify(v, null, gap)`; `none` is its answer `undefined`. -/
def stringify (v : Value) (gap : JsString) : Option JsString :=
  if v.isUndefined then none else some (printValue gap [] v)

/-! ## Printing binary strings -/

theorem isBinary_quoteUnit {c : CodeUnit} (h : c.toNat < 256) : IsBinary (quoteUnit c) := by
  have hbackslash : (unit '\\').toNat < 256 := by decide
  have hu : (unit 'u').toNat < 256 := by decide
  unfold quoteUnit
  split_ifs
  · decide
  · decide
  · decide
  · decide
  · decide
  · decide
  · decide
  · exact isBinary_cons.2 ⟨hbackslash, isBinary_cons.2 ⟨hu, isBinary_hex4 c⟩⟩
  · exact isBinary_cons.2 ⟨h, isBinary_nil⟩

theorem isBinary_quoteBody {s : JsString} (h : IsBinary s) : IsBinary (quoteBody s) := by
  -- A binary string has no surrogates, but the recursion is that of the printer.
  induction s using quoteBody.induct with
  | case1 => exact isBinary_nil
  | case2 c => exact isBinary_quoteUnit (isBinary_cons.1 h).1
  | case3 c d rest hpair ih =>
      rcases isBinary_cons.1 h with ⟨hc, h⟩
      rcases isBinary_cons.1 h with ⟨hd, h⟩
      rw [quoteBody, if_pos hpair]
      exact isBinary_cons.2 ⟨hc, isBinary_cons.2 ⟨hd, ih h⟩⟩
  | case4 c d rest hpair ih =>
      rcases isBinary_cons.1 h with ⟨hc, h⟩
      rw [quoteBody, if_neg hpair]
      exact isBinary_append.2 ⟨isBinary_quoteUnit hc, ih h⟩

theorem isBinary_quote {s : JsString} (h : IsBinary s) : IsBinary (quote s) := by
  have hquote : (unit '"').toNat < 256 := by decide
  unfold quote
  exact isBinary_cons.2 ⟨hquote, isBinary_append.2 ⟨isBinary_quoteBody h,
    isBinary_cons.2 ⟨hquote, isBinary_nil⟩⟩⟩

/-- An object whose keys and printed members are binary prints as a binary string. -/
theorem isBinary_printMembers {fields : List (JsString × Value)}
    (h : ∀ m ∈ fields, IsBinary m.1 ∧ IsBinary (printValue [] [] m.2)) :
    ∀ part ∈ printMembers [] [] fields, IsBinary part := by
  induction fields with
  | nil => simp [printMembers]
  | cons m fields ih =>
      have hrest := ih fun m' hm' => h m' (List.mem_cons_of_mem _ hm')
      have hm := h m List.mem_cons_self
      have hcolon : (unit ':').toNat < 256 := by decide
      rcases m with ⟨key, v⟩
      unfold printMembers
      split
      · exact hrest
      · intro part hpart
        rcases List.mem_cons.1 hpart with rfl | hpart
        · exact isBinary_append.2 ⟨isBinary_quote hm.1, isBinary_cons.2 ⟨hcolon, hm.2⟩⟩
        · exact hrest part hpart

theorem isBinary_separated {parts : List JsString} (h : ∀ part ∈ parts, IsBinary part) :
    IsBinary (separated [] [] parts) := by
  have hcomma : (unit ',').toNat < 256 := by decide
  induction parts with
  | nil => exact isBinary_nil
  | cons part parts ih =>
      have hrest := ih fun p hp => h p (List.mem_cons_of_mem _ hp)
      refine isBinary_cons.2 ⟨hcomma, isBinary_append.2 ⟨isBinary_nil, ?_⟩⟩
      exact isBinary_append.2 ⟨h part List.mem_cons_self, hrest⟩

theorem isBinary_stringify_obj {fields : List (JsString × Value)} {text : JsString}
    (h : ∀ m ∈ fields, IsBinary m.1 ∧ IsBinary (printValue [] [] m.2))
    (htext : stringify (.obj fields) [] = some text) : IsBinary text := by
  have hopen : (unit '\x7b').toNat < 256 := by decide
  have hclose : (unit '\x7d').toNat < 256 := by decide
  have hparts := isBinary_printMembers h
  cases htext
  unfold printValue
  refine isBinary_cons.2 ⟨hopen, ?_⟩
  change IsBinary (closeBracket _ [] [] (printMembers [] [] fields))
  cases hprinted : printMembers [] [] fields with
  | nil => exact isBinary_cons.2 ⟨hclose, isBinary_nil⟩
  | cons part parts =>
      rw [hprinted] at hparts
      have hrest := isBinary_separated fun p hp => hparts p (List.mem_cons_of_mem _ hp)
      have hpart := hparts part List.mem_cons_self
      refine isBinary_append.2 ⟨isBinary_nil, isBinary_append.2 ⟨hpart, ?_⟩⟩
      refine isBinary_append.2 ⟨hrest, isBinary_append.2 ⟨isBinary_nil, ?_⟩⟩
      exact isBinary_cons.2 ⟨hclose, isBinary_nil⟩

/-! ## Reading -/

/-- An open array or object; `member` is an object whose next value belongs to `key`. -/
inductive Frame
  | arr (items : List Value)
  | obj (fields : List (JsString × Value))
  | member (fields : List (JsString × Value)) (key : JsString)

inductive Mode
  | value
  | firstItem
  | firstKey
  | key
  | colon (key : JsString)
  | after
  | string (isKey : Bool) (read : JsString)
  | escape (isKey : Bool) (read : JsString)
  | hex (isKey : Bool) (read : JsString) (count : Nat) (code : Nat)
  | number (read : JsString)
  | literal (rest : JsString) (v : Value)
  | done (v : Value)

structure Reader where
  mode : Mode
  stack : List Frame

def isWhitespace (c : CodeUnit) : Bool :=
  c == 9 || c == 10 || c == 13 || c == 32

/-- A value has been read. -/
def complete (v : Value) : List Frame → Option Reader
  | [] => some ⟨.done v, []⟩
  | .arr items :: k => some ⟨.after, .arr (items ++ [v]) :: k⟩
  -- A key that occurs again overwrites the value that it had.
  | .member fields key :: k => some ⟨.after, .obj (setField fields key v) :: k⟩
  | .obj _ :: _ => none

/-- A quoted string has been read. -/
def completeString (isKey : Bool) (s : JsString) (k : List Frame) : Option Reader :=
  if isKey then some ⟨.colon s, k⟩ else complete (.str s) k

/-- A number literal has been read, if it is one. -/
def completeNumber (text : JsString) (k : List Frame) : Option Reader :=
  if h : isNumberLiteral text = true then complete (.num ⟨text, h⟩) k else none

/-- The first code unit of a value. -/
def startValue (k : List Frame) (c : CodeUnit) : Option Reader :=
  if c = unit '"' then some ⟨.string false [], k⟩
  else if c = unit '[' then some ⟨.firstItem, .arr [] :: k⟩
  else if c = unit '{' then some ⟨.firstKey, .obj [] :: k⟩
  else if c = unit 't' then some ⟨.literal (js "rue") (.bool true), k⟩
  else if c = unit 'f' then some ⟨.literal (js "alse") (.bool false), k⟩
  else if c = unit 'n' then some ⟨.literal (js "ull") .null, k⟩
  else if isNumberUnit c then some ⟨.number [c], k⟩
  else none

/-- After a value inside an array or object. -/
def afterValue (k : List Frame) (c : CodeUnit) : Option Reader :=
  match k with
  | .arr items :: k' =>
      if c = unit ',' then some ⟨.value, .arr items :: k'⟩
      else if c = unit ']' then complete (.arr items) k'
      else none
  | .obj fields :: k' =>
      if c = unit ',' then some ⟨.key, .obj fields :: k'⟩
      else if c = unit '}' then complete (.obj fields) k'
      else none
  | _ => none

/-- What a two-character escape stands for. -/
def unescape (c : CodeUnit) : Option CodeUnit :=
  if c = unit '"' ∨ c = unit '\\' ∨ c = unit '/' then some c
  else if c = unit 'b' then some 8
  else if c = unit 't' then some 9
  else if c = unit 'n' then some 10
  else if c = unit 'f' then some 12
  else if c = unit 'r' then some 13
  else none

/-- One code unit in a mode that skips white space. -/
def stepToken (s : Reader) (c : CodeUnit) : Option Reader :=
  match s.mode with
  | .value => startValue s.stack c
  | .firstItem =>
      match s.stack with
      | .arr [] :: k => if c = unit ']' then complete (.arr []) k else startValue s.stack c
      | _ => none
  | .firstKey =>
      match s.stack with
      | .obj [] :: k =>
          if c = unit '}' then complete (.obj []) k
          else if c = unit '"' then some ⟨.string true [], s.stack⟩
          else none
      | _ => none
  | .key => if c = unit '"' then some ⟨.string true [], s.stack⟩ else none
  | .colon key =>
      match s.stack with
      | .obj fields :: k =>
          if c = unit ':' then some ⟨.value, .member fields key :: k⟩ else none
      | _ => none
  | .after => afterValue s.stack c
  | _ => none

def skipOrStep (s : Reader) (c : CodeUnit) : Option Reader :=
  if isWhitespace c then some s else stepToken s c

def step (s : Reader) (c : CodeUnit) : Option Reader :=
  match s.mode with
  | .string isKey read =>
      if c = unit '"' then completeString isKey read s.stack
      else if c = unit '\\' then some ⟨.escape isKey read, s.stack⟩
      -- Control characters have to be escaped.
      else if c < 0x20 then none
      else some ⟨.string isKey (read ++ [c]), s.stack⟩
  | .escape isKey read =>
      if c = unit 'u' then some ⟨.hex isKey read 0 0, s.stack⟩
      else (unescape c).map fun d => ⟨.string isKey (read ++ [d]), s.stack⟩
  | .hex isKey read count code =>
      (hexVal c).map fun d =>
        if count = 3 then ⟨.string isKey (read ++ [UInt16.ofNat (16 * code + d)]), s.stack⟩
        else ⟨.hex isKey read (count + 1) (16 * code + d), s.stack⟩
  | .literal rest v =>
      match rest with
      | [] => none
      | d :: rest =>
          if c = d then if rest = [] then complete v s.stack else some ⟨.literal rest v, s.stack⟩
          else none
  | .number read =>
      if isNumberUnit c then some ⟨.number (read ++ [c]), s.stack⟩
      -- The literal has ended; `c` is the first code unit after it.
      else (completeNumber read s.stack).bind fun t => skipOrStep t c
  | _ => skipOrStep s c

/-- What has been read when the text ends. -/
def finish (s : Reader) : Option Value :=
  match s.mode with
  | .done v => some v
  | .number read =>
      match completeNumber read s.stack with
      | some ⟨.done v, _⟩ => some v
      | _ => none
  | _ => none

/-- `JSON.parse(text)`; `none` where it throws a `SyntaxError`. -/
def parse (text : JsString) : Option Value :=
  (text.foldlM step ⟨.value, []⟩).bind finish

example : (parse (js "[1, \x7b\"a\" : [true,null]\x7d ,\"\\u0041\\n\"]\n")).isSome = true := by
  decide

example : (parse (js "[1,]")).isNone = true := by
  decide

end Js
end Library
