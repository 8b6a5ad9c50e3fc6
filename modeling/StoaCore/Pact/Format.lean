import StoaCore.Library.Js.ParseFloat

/-!
# Format — numbers as Pact literals and for display

Amounts stay texts on the way to the chain: they are checked and reshaped, and no number is made of
them.  For display they are written the European way, and read from there as numbers.
-/

namespace StoaCore
namespace Pact

open Library.Js

/-! ## Decimals -/

def invalidDecimalFormat : JsString := js "Invalid decimal format"

/-- `/^\d+\.?\d*$/` -/
def isDecimalFormat (text : JsString) : Bool :=
  text.takeWhile isDigit != [] &&
    match text.dropWhile isDigit with
    | [] => true
    | c :: rest => c == unit '.' && rest.all isDigit

/-- A single comma is a decimal separator, unless there is a period as well. -/
def normalizeComma (trimmed : JsString) : Except JsString JsString :=
  let commaCount := trimmed.count (unit ',')
  if commaCount = 1 ∧ unit '.' ∉ trimmed then .ok (replaceFirst (unit ',') (unit '.') trimmed)
  else if 0 < commaCount then .error invalidDecimalFormat
  else .ok trimmed

def formatDecimalForPact (amount : JsString) (maxDecimals : Number) : Except JsString JsString :=
  match normalizeComma (trim amount) with
  | .error message => .error message
  | .ok trimmed =>
      if isDecimalFormat trimmed then
        match trimmed.splitOn (unit '.') with
        | whole :: fraction :: _ =>
            if exceeds fraction.length maxDecimals then
              .ok (whole ++ unit '.' :: substringTo fraction maxDecimals)
            else .ok trimmed
        -- No decimal part: Pact would read an integer.
        | _ => .ok (trimmed ++ js ".0")
      else .error invalidDecimalFormat

/-- The default of `maxDecimals`. -/
def defaultMaxDecimals : Number := .finite 24

/-! ## European numbers -/

/-- The texts that stand for an unknown number. -/
def isPlaceholder (text : JsString) : Bool :=
  text == js "???" || text == js "N/A" || text == js "—" || text == []

/-- `x || 0` -/
def orZero (x : Option Number) : Number :=
  x.getD (.finite 0)

def parseEU (s : Option JsString) : Number :=
  match s with
  | none => .finite 0
  | some s =>
      let trimmed := trim s
      if isPlaceholder trimmed then .finite 0
      else if unit ',' ∈ trimmed then
        orZero (parseFloat (replaceFirst (unit ',') (unit '.') (removeAll (unit '.') trimmed)))
      else
        match trimmed.splitOn (unit '.') with
        | [_, last] =>
            if last.length = 3 ∧ last.all isDigit then
              orZero (parseFloat (removeAll (unit '.') trimmed))
            else orZero (parseFloat trimmed)
        | _ => orZero (parseFloat trimmed)

/-- `\d+(?:\.\d+)?` at the front of a text, in two parts, and what follows it. -/
def readNumber (text : JsString) : Option (JsString × Option JsString × JsString) :=
  let whole := text.takeWhile isDigit
  let rest := text.dropWhile isDigit
  if whole = [] then none
  else
    match rest with
    | [] => some (whole, none, rest)
    | c :: behind =>
        let fraction := behind.takeWhile isDigit
        if c = unit '.' ∧ fraction ≠ [] then
          some (whole, some fraction, behind.dropWhile isDigit)
        else some (whole, none, rest)

/-- `\s+\([^)]+\)` at the front of a text, and what follows it. -/
def readAnnotation (text : JsString) : Option (JsString × JsString) :=
  let space := text.takeWhile isStrWhiteSpace
  match text.dropWhile isStrWhiteSpace with
  | [] => none
  | c :: rest =>
      let inner := rest.takeWhile (· != unit ')')
      if space ≠ [] ∧ c = unit '(' ∧ inner ≠ [] ∧ inner.length < rest.length then
        some (space ++ c :: inner ++ [unit ')'], rest.drop (inner.length + 1))
      else none

/-- As many annotations as there are: each is longer than one character, so that `steps` are enough
when a text has no more characters. -/
def readAnnotations : Nat → JsString → JsString × JsString
  | 0, text => ([], text)
  | steps + 1, text =>
      match readAnnotation text with
      | none => ([], text)
      | some (note, rest) =>
          let further := readAnnotations steps rest
          (note ++ further.1, further.2)

/-- `\s*(\$|¢)?$` -/
def readSuffix (text : JsString) : Option JsString :=
  match text.dropWhile isStrWhiteSpace with
  | [] => some []
  | [c] => if c = unit '$' ∨ c = unit '¢' then some [c] else none
  | _ => none

/-- `replace(/\B(?=(\d{3})+(?!\d))/g, ".")`, on digits. -/
def groupThousands : JsString → JsString
  | [] => []
  | c :: rest =>
      if rest ≠ [] ∧ rest.length % 3 = 0 then c :: unit '.' :: groupThousands rest
      else c :: groupThousands rest

def formatEU (raw : Value) : JsString :=
  if raw.isNullish then js "???"
  else
    let s := trim raw.template
    if isPlaceholder s then s
    else
      match readNumber s with
      | none => s
      | some (intPart, decPart, rest) =>
          let annotated := readAnnotations rest.length rest
          match readSuffix annotated.2 with
          | none => s
          | some suffix =>
              let formatted := groupThousands intPart ++
                match decPart with
                | none => []
                | some decPart => unit ',' :: decPart
              trim (formatted ++ annotated.1 ++ if suffix = [] then [] else unit ' ' :: suffix)

example : formatEU (.str (js "42067.93$")) = js "42.067,93 $" := by
  decide +kernel

end Pact
end StoaCore
