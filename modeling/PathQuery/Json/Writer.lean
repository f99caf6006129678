import PathQuery.Doc.Basic
import PathQuery.Doc.Unwritable
import PathQuery.Path.Printer

/-! # Writing JSON

`write` writes a document as JSON on one line, without blanks.  A quote, a backslash and the control
characters below the space are escaped, all else stands for itself.  Numbers and truth values that
are keys become texts; a tagged value is a mapping from the tag to the value; a double that is not
finite is null. -/

namespace PathQuery.Json

/-- Doubles in JSON have a plus sign in front of a positive exponent. -/
def floatLayout : Decimal.Layout := ⟨16, -4, true, "null", "null"⟩

/-- A double, or null if it is not finite. -/
def writeFloat (x : Binary64) : List Char :=
  if x.isFinite then floatLayout.write x else "null".toList

/-! ### Texts -/

/-- A character inside quotes. -/
def escapeChar (c : Char) : List Char :=
  if c = '"' then ['\\', '"']
  else if c = '\\' then ['\\', '\\']
  else if c = '\x08' then ['\\', 'b']
  else if c = '\x0c' then ['\\', 'f']
  else if c = '\n' then ['\\', 'n']
  else if c = '\r' then ['\\', 'r']
  else if c = '\t' then ['\\', 't']
  else if c.toNat < 0x20 then
    ['\\', 'u', '0', '0', Nat.digitChar (c.toNat / 16), Nat.digitChar (c.toNat % 16)]
  else [c]

def quote (s : String) : List Char := '"' :: s.toList.flatMap escapeChar ++ ['"']

/-! ### Documents -/

def keyText : Doc → Except Unwritable String
  | .string s => .ok s
  | .int n => .ok (toString n)
  | .bool b => .ok (Doc.boolText b)
  | .float x =>
    if x.isFinite then .ok (String.ofList (floatLayout.write x)) else .error .keyNotFinite
  | _ => .error .keyWithoutText

mutual

/-- Writes a document. -/
def chars : Doc → Except Unwritable (List Char)
  | .null => .ok "null".toList
  | .bool b => .ok (Doc.boolText b).toList
  | .int n => .ok (decimal n)
  | .float x => .ok (writeFloat x)
  | .string s => .ok (quote s)
  | .seq items => (itemChars items).map fun parts => '[' :: joinWith [','] parts ++ [']']
  | .map entries =>
    (entryChars entries).map fun parts => '\x7b' :: joinWith [','] parts ++ ['\x7d']
  | .tagged tag value =>
    (chars value).map fun v => '\x7b' :: quote tag ++ ':' :: v ++ ['\x7d']

def itemChars : List Doc → Except Unwritable (List (List Char))
  | [] => .ok []
  | d :: ds => do
    let part ← chars d
    let parts ← itemChars ds
    .ok (part :: parts)

def entryChars : List (Doc × Doc) → Except Unwritable (List (List Char))
  | [] => .ok []
  | (k, v) :: es => do
    let key ← keyText k
    let value ← chars v
    let parts ← entryChars es
    .ok ((quote key ++ ':' :: value) :: parts)

end

def write (d : Doc) : Except Unwritable String := (chars d).map String.ofList

end PathQuery.Json
