/-! # Why an expression is no path

`PathError` is what the reader of path expressions answers on a text that is none: a character
that cannot stand where it does (`unexpected`), a text that ends too early (`ended`), or a bracket
whose content has no meaning (`invalid`).  `Expected` and `Fault` are the causes; `message` is the
only place that has their wording. -/

namespace PathQuery

/-- What could have stood at the place of the error. -/
inductive Expected where
  | pathStart
  | segmentStart
  | openBracket
  | bracketAfterDots
  | closeBracket (opening : Nat)
  | closingQuote
  | keyAfterComma
  deriving DecidableEq, Repr

/-- What makes a bracket, or the lack of a text, meaningless.  Offsets count bytes. -/
inductive Fault where
  | emptyPath
  | insideCharacter (offset : Nat) (byte : UInt8)
  | danglingEscapeAt (offset : Nat)
  | danglingEscape
  | noContent (opening close : Nat)
  | emptyBrackets (opening : Nat)
  | invalidIndex (text : String)
  | indexOutOfRange (text : String)
  | invalidSlice (text : String)
  | emptySlice (start stop : Int)
  | emptyKey
  | strayAfterKey (found : Char)
  deriving DecidableEq, Repr

/-- Why a text is no path expression. -/
inductive PathError where
  | unexpected (offset : Nat) (found : Char) (expected : Expected)
  | ended (expected : Expected)
  | invalid (fault : Fault)
  deriving DecidableEq, Repr

def Expected.text : Expected → String
  | .pathStart => "'$' at start of path"
  | .segmentStart => "'[' or '..'"
  | .openBracket => "'['"
  | .bracketAfterDots => "'[' after '..'"
  | .closeBracket opening => "']' to close bracket at position " ++ toString opening
  | .closingQuote => "closing quote \"'\""
  | .keyAfterComma => "key after ','"

/-- A byte as two hexadecimal digits. -/
def hexByte (b : UInt8) : String :=
  String.ofList [Nat.digitChar (b.toNat / 16), Nat.digitChar (b.toNat % 16)]

def Fault.text : Fault → String
  | .emptyPath => "path is empty, expected '$'"
  | .insideCharacter offset byte =>
    "expected '[' at position " ++ toString offset ++ ", found byte 0x" ++ hexByte byte ++
      " inside a character"
  | .danglingEscapeAt offset => "dangling escape character at position " ++ toString offset
  | .danglingEscape => "dangling escape character"
  | .noContent opening close =>
    "no bracket content between positions " ++ toString opening ++ " and " ++ toString close
  | .emptyBrackets opening => "empty brackets at position " ++ toString opening
  | .invalidIndex text => "invalid index '" ++ text ++ "'"
  | .indexOutOfRange text => "index out of range '" ++ text ++ "'"
  | .invalidSlice text => "invalid slice '" ++ text ++ "'"
  | .emptySlice start stop =>
    "empty slice [" ++ toString start ++ ":" ++ toString stop ++ "]"
  | .emptyKey => "empty key in quotes"
  | .strayAfterKey found =>
    "unexpected '" ++ String.singleton found ++ "' after key, expected ',' or ']'"

def PathError.message (e : PathError) : String :=
  "Invalid path expression: " ++
    match e with
    | .unexpected offset found expected =>
      "unexpected '" ++ String.singleton found ++ "' at position " ++ toString offset ++
        ", expected " ++ expected.text
    | .ended expected => "unexpected end of input, expected " ++ expected.text
    | .invalid fault => fault.text

end PathQuery
