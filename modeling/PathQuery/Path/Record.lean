import PathQuery.Path.Printer
import PathQuery.Text.Graphic

/-! # Steps as records

`Step.record` writes a step with the name of its kind and its fields, one line for one step.
Texts stand in double quotes; `quoted` writes a backslash in front of a quote and of a backslash,
short names for the common controls, and the code point of every other character that does not
show by itself. -/

namespace PathQuery

namespace Text

/-- A code point in lower-case hexadecimal digits. -/
def hexDigits (n : Nat) : List Char := Nat.toDigits 16 n

/-- A character inside double quotes. -/
def quotedChar (c : Char) : List Char :=
  if c = '\x00' then ['\\', '0']
  else if c = '\t' then ['\\', 't']
  else if c = '\r' then ['\\', 'r']
  else if c = '\n' then ['\\', 'n']
  else if c = '"' then ['\\', '"']
  else if c = '\\' then ['\\', '\\']
  else if isGraphic c then [c]
  else ['\\', 'u', '\x7b'] ++ hexDigits c.toNat ++ ['\x7d']

/-- A text in double quotes. -/
def quoted (s : String) : List Char := '"' :: s.toList.flatMap quotedChar ++ ['"']

end Text

/-- A list of written items in square brackets. -/
def recordList (items : List (List Char)) : List Char :=
  bracketed (joinWith [',', ' '] items)

namespace Span

/-- The fields of a span in parentheses. -/
def record (s : Span) : List Char :=
  let stop := match s.stop with
    | some n => "Some(".toList ++ decimal n ++ [')']
    | none => "None".toList
  '(' :: joinWith [',', ' '] [decimal s.start, stop, decimal s.offset] ++ [')']

end Span

namespace Step

def kind : Step → String
  | .index _ => "ArrayAccessor"
  | .name _ => "ObjectAccessor"
  | .pick (.positions _) => "MultiArrayAccessor"
  | .pick (.span _) => "ArrayLengthBasedRangeAccessor"
  | .pick (.names _) => "MultiObjectAccessor"
  | .scan (.positions _) => "DeepScanArrayAccessor"
  | .scan (.span _) => "DeepScanLengthBasedArrayAccessor"
  | .scan (.names _) => "DeepScanObjectAccessor"

end Step

namespace Pick

/-- The fields of a pick in parentheses. -/
def record : Pick → List Char
  | .positions is => '(' :: recordList (is.map decimal) ++ [')']
  | .span s => s.record
  | .names ks => '(' :: recordList (ks.map Text.quoted) ++ [')']

end Pick

namespace Step

/-- A step as the name of its kind and its fields. -/
def record (s : Step) : String :=
  s.kind ++ String.ofList
    (match s with
      | .index i => '(' :: decimal i ++ [')']
      | .name k => '(' :: Text.quoted k ++ [')']
      | .pick p => p.record
      | .scan p => p.record)

end Step

end PathQuery
