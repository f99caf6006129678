import PathQuery.Doc.Unwritable
import PathQuery.Text.Hexadecimal
import PathQuery.Text.Offset
import PathQuery.Yaml.Style

/-! # Writing YAML

`write` writes a document in block style.  A level is indented by two columns, except that a sequence
under a key stands at the column of the key.  Empty collections are written as brackets.  A key that
is a collection, a text of several lines or a long text is written after a question mark.

A `Pen` is the text written so far with what is known about its end: the column, whether a blank
would be superfluous, and whether nothing but indentation stands on the line. -/

namespace PathQuery.Yaml

/-! ### The pen -/

/-- The text written so far and the state of its last line. -/
structure Pen where
  text : String
  column : Nat
  /-- No blank is needed before the next word. -/
  spaced : Bool
  /-- The line has only indentation and indicators of collections. -/
  fresh : Bool

namespace Pen

def start : Pen := ⟨"", 0, true, true⟩

def put (p : Pen) (c : Char) : Pen := { p with text := p.text.push c, column := p.column + 1 }

def puts (p : Pen) (cs : List Char) : Pen := cs.foldl put p

/-- Ends the line, with a line feed or with a break of the text itself. -/
def newline (p : Pen) (c : Char) : Pen := { p with text := p.text.push c, column := 0 }

/-- Writes a blank if one is needed. -/
def space (p : Pen) : Pen := if p.spaced then p else p.put ' '

/-- Goes to a column on a fresh line. -/
def indentTo (p : Pen) (indent : Nat) : Pen :=
  let p :=
    if !p.fresh || indent < p.column || (p.column == indent && !p.spaced) then p.newline '\n'
    else p
  { p.puts (List.replicate (indent - p.column) ' ') with spaced := true, fresh := true }

/-- Writes an indicator of a collection, after which the line stays fresh if it was. -/
def mark (p : Pen) (c : Char) : Pen := { p.space.put c with spaced := false }

/-- Notes that a word has ended. -/
def endWord (p : Pen) : Pen := { p with spaced := false, fresh := false }

end Pen

/-! ### Scalars -/

/-- A text in single quotes, where a quote is written twice and a line begins at the
indentation. -/
def Pen.singleQuoted (p : Pen) (indent : Nat) (cs : List Char) : Pen :=
  let step (s : Pen × Bool) (c : Char) : Pen × Bool :=
    let (p, broken) := s
    if c == ' ' then (p.put c, broken)
    else if isBreak c then
      let p := if !broken && c == '\n' then p.newline '\n' else p
      ({ p.newline c with fresh := true }, true)
    else
      let p := if broken then p.indentTo indent else p
      let p := if c == '\'' then p.put '\'' else p
      ({ p.put c with fresh := false }, false)
  let p := p.space.put '\''
  let (p, broken) := cs.foldl step ({ p with spaced := false, fresh := false }, false)
  let p := if broken then p.indentTo indent else p
  (p.put '\'').endWord

/-- A character inside double quotes. -/
def doubleQuotedChar (c : Char) : List Char :=
  if isPrintable c && !isBreak c && c != '"' && c != '\\' then [c]
  else
    '\\' ::
      match c with
      | '\x00' => ['0']
      | '\x07' => ['a']
      | '\x08' => ['b']
      | '\t' => ['t']
      | '\n' => ['n']
      | '\x0b' => ['v']
      | '\x0c' => ['f']
      | '\r' => ['r']
      | '\x1b' => ['e']
      | '"' => ['"']
      | '\\' => ['\\']
      | '\u0085' => ['N']
      | '\u00a0' => ['_']
      | '\u2028' => ['L']
      | '\u2029' => ['P']
      | c =>
        if c.toNat ≤ 0xFF then 'x' :: Text.hexPadded c.toNat 2
        else if c.toNat ≤ 0xFFFF then 'u' :: Text.hexPadded c.toNat 4
        else 'U' :: Text.hexPadded c.toNat 8

/-- A text in double quotes. -/
def Pen.doubleQuoted (p : Pen) (cs : List Char) : Pen :=
  (p.space.puts ('"' :: cs.flatMap doubleQuotedChar ++ ['"'])).endWord

/-- The signs after the indicator of a block: an indentation if the text begins with a blank or a
break, and what becomes of its last breaks. -/
def blockSigns (cs : List Char) : List Char :=
  let indentation := if cs.head?.any fun c => c == ' ' || isBreak c then ['2'] else []
  let chomp := match cs.reverse with
    | [] => ['-']
    | c :: rest =>
      if !isBreak c then ['-']
      else
        match rest with
        | [] => ['+']
        | d :: _ => if isBreak d then ['+'] else []
  indentation ++ chomp

/-- A text as a block of lines at the indentation. -/
def Pen.literal (p : Pen) (indent : Nat) (cs : List Char) : Pen :=
  let step (s : Pen × Bool) (c : Char) : Pen × Bool :=
    let (p, broken) := s
    if isBreak c then ({ p.newline c with fresh := true }, true)
    else
      let p := if broken then p.indentTo indent else p
      ({ p.put c with fresh := false }, false)
  let p := p.space.puts ('|' :: blockSigns cs)
  (cs.foldl step ({ p.newline '\n' with spaced := true, fresh := true }, true)).1

def Pen.plain (p : Pen) (cs : List Char) : Pen := (p.space.puts cs).endWord

def Pen.string (p : Pen) (simpleKey : Bool) (indent : Nat) (cs : List Char) : Pen :=
  match styleOf simpleKey cs with
  | .plain => p.plain cs
  | .singleQuoted => p.singleQuoted indent cs
  | .doubleQuoted => p.doubleQuoted cs
  | .literal => p.literal indent cs

/-! ### Tags -/

/-- The characters of a tag that are written as they are. -/
def isPlainTagChar (c : Char) : Bool :=
  isWord c ||
    [';', '/', '?', ':', '@', '&', '=', '+', '$', ',', '.', '~', '*', '\'', '(', ')', '[', ']'].contains c

/-- A byte after a percent sign. -/
def percentByte (b : UInt8) : List Char := '%' :: Text.hexPadded b.toNat 2

/-- The characters that are written for a tag after its exclamation mark.  A name that begins with a
mark shares it with the tag. -/
def writtenName (tag : String) : List Char :=
  match tag.toList.drop 1 with
  | '!' :: cs => cs
  | cs => cs

/-- A tag as it is written; a tag with nothing after its mark is written in full. -/
def writtenTag (tag : String) : List Char :=
  if (writtenName tag).isEmpty then "!<%21>".toList
  else
    '!' :: (writtenName tag).flatMap fun c =>
      if isPlainTagChar c then [c] else (String.utf8EncodeChar c).flatMap percentByte

def Pen.tag (p : Pen) (tag : String) : Pen := (p.space.puts (writtenTag tag)).endWord

/-! ### Collections -/

/-- The number of bytes up to which a key is written in front of its colon. -/
def maxSimpleKey : Nat := 128

def byteLength (s : String) : Nat := s.utf8ByteSize

/-- The number of bytes of a tag, before any of them is escaped. -/
def tagLength (tag : String) : Nat := 1 + Text.byteSize (writtenName tag)

/-- Whether a key, behind tags of so many bytes, can be written in front of its colon. -/
def isSimpleKey (tags : Nat) : Doc → Bool
  | .null => tags + 4 ≤ maxSimpleKey
  | .bool b => tags + byteLength (Doc.boolText b) ≤ maxSimpleKey
  | .int n => tags + byteLength (toString n) ≤ maxSimpleKey
  | .float x => tags + byteLength (Doc.floatText x) ≤ maxSimpleKey
  | .string s => !s.toList.any isBreak && tags + byteLength s ≤ maxSimpleKey
  | .seq items => items.isEmpty && tags ≤ maxSimpleKey
  | .map entries => entries.isEmpty && tags ≤ maxSimpleKey
  | .tagged tag value => isSimpleKey (tags + tagLength tag) value

/-- The column of the contents of a collection whose own column is given, if there is one. -/
def contentColumn (outer : Option Nat) (level : Bool) : Nat :=
  match outer with
  | none => 0
  | some n => if level then n else n + 2

/-- The column of the lines of a scalar. -/
def scalarColumn (outer : Option Nat) : Nat :=
  match outer with
  | none => 2
  | some n => n + 2

mutual

/-- Writes a node of a collection at the given column, a part of a mapping or not. -/
def node (inMap simpleKey tagged : Bool) (outer : Option Nat) : Doc → Pen → Except Unwritable Pen
  | .null, p => .ok (p.plain "null".toList)
  | .bool b, p => .ok (p.plain (Doc.boolText b).toList)
  | .int n, p => .ok (p.plain (toString n).toList)
  | .float x, p => .ok (p.plain (Doc.floatText x).toList)
  | .string s, p => .ok (p.string simpleKey (scalarColumn outer) s.toList)
  | .seq [], p => .ok (p.plain ['[', ']'])
  | .seq (d :: ds), p => items (contentColumn outer (inMap && !p.fresh)) (d :: ds) p
  | .map [], p => .ok (p.plain ['\x7b', '\x7d'])
  | .map (e :: es), p => entries (contentColumn outer false) (e :: es) p
  | .tagged tag value, p =>
    if tagged then .error .tagInTag else node inMap simpleKey true outer value (p.tag tag)

def items (column : Nat) : List Doc → Pen → Except Unwritable Pen
  | [], p => .ok p
  | d :: ds, p => do
    let p ← node false false false (some column) d ((p.indentTo column).mark '-')
    items column ds p

def entries (column : Nat) : List (Doc × Doc) → Pen → Except Unwritable Pen
  | [], p => .ok p
  | (k, v) :: es, p =>
    let p := p.indentTo column
    if isSimpleKey 0 k then do
      let p ← node true true false (some column) k p
      let p ← node true false false (some column) v (p.put ':').endWord
      entries column es p
    else do
      let p ← node true false false (some column) k (p.mark '?')
      let p ← node true false false (some column) v ((p.indentTo column).mark ':')
      entries column es p

end

def write (d : Doc) : Except Unwritable String :=
  (node false false false none d Pen.start).map fun p => (p.indentTo 0).text

end PathQuery.Yaml
