import PathQuery.Text.Hexadecimal

/-! # Writing texts in TOML

`quote` writes a text in the first form that can hold it as it is: double quotes, single quotes,
three double quotes, three single quotes; and if none can, in double quotes with escapes, three of
them if it has a line break.  A text with a line break begins on a line of its own. -/

namespace PathQuery.Toml

/-- What decides how a text is quoted. -/
structure Traits where
  /-- The longest run of single quotes. -/
  singles : Nat
  /-- The longest run of double quotes. -/
  doubles : Nat
  /-- Whether there is a control character other than a tabulator or a line feed. -/
  hasControl : Bool
  hasBackslash : Bool
  hasBreak : Bool
  deriving DecidableEq, Repr

/-- The control characters that have to be escaped everywhere. -/
def isControl (c : Char) : Bool :=
  (c.toNat < 0x20 && c != '\t' && c != '\n') || c.toNat == 0x7F

/-- The length of the longest run of a character, when `run` of them come before the text. -/
def longestRun (q : Char) (run : Nat) : List Char → Nat
  | [] => run
  | c :: cs => if c == q then longestRun q (run + 1) cs else max run (longestRun q 0 cs)

def Traits.ofChars (cs : List Char) : Traits where
  singles := longestRun '\'' 0 cs
  doubles := longestRun '"' 0 cs
  hasControl := cs.any isControl
  hasBackslash := cs.contains '\\'
  hasBreak := cs.contains '\n'

/-- The forms of a quoted text. -/
inductive Quoting where
  | basic
  | literal
  | multiBasic
  | multiLiteral
  deriving DecidableEq, Repr

/-- The form in which a text is written. -/
def Traits.quoting (t : Traits) : Quoting :=
  if !t.hasControl && !t.hasBackslash && t.doubles == 0 && !t.hasBreak then .basic
  else if !t.hasControl && t.singles == 0 && !t.hasBreak then .literal
  else if !t.hasControl && !t.hasBackslash && t.doubles ≤ 2 then .multiBasic
  else if !t.hasControl && t.singles ≤ 2 then .multiLiteral
  else if t.hasBreak then .multiBasic
  else .basic

/-- A character other than a double quote, with escapes; a line feed only if it is kept. -/
def escapedChar (keepBreaks : Bool) (c : Char) : List Char :=
  match c with
  | '\x08' => ['\\', 'b']
  | '\t' => ['\\', 't']
  | '\n' => if keepBreaks then ['\n'] else ['\\', 'n']
  | '\x0c' => ['\\', 'f']
  | '\r' => ['\\', 'r']
  | '\\' => ['\\', '\\']
  | c => if isControl c then '\\' :: 'u' :: Text.hexPadded c.toNat 4 else [c]

/-- A text with escapes, in which no more than `limit` double quotes follow each other; `run` of
them come before it. -/
def escapedText (keepBreaks : Bool) (limit run : Nat) : List Char → List Char
  | [] => []
  | c :: cs =>
    if c = '"' then
      if limit ≤ run then '\\' :: '"' :: escapedText keepBreaks limit 0 cs
      else '"' :: escapedText keepBreaks limit (run + 1) cs
    else escapedChar keepBreaks c ++ escapedText keepBreaks limit 0 cs

/-- The line break after the opening quotes of a text that has one itself. -/
def openingBreak (t : Traits) : List Char := if t.hasBreak then ['\n'] else []

def quote (cs : List Char) : List Char :=
  let t := Traits.ofChars cs
  match t.quoting with
  | .basic => '"' :: escapedText false 0 0 cs ++ ['"']
  | .literal => '\'' :: cs ++ ['\'']
  | .multiBasic =>
    ['"', '"', '"'] ++ openingBreak t ++ escapedText true 2 0 cs ++ ['"', '"', '"']
  | .multiLiteral => ['\'', '\'', '\''] ++ openingBreak t ++ cs ++ ['\'', '\'', '\'']

end PathQuery.Toml
