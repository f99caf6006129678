/-! # Places in a YAML text

A `Cursor` is the text from a place on, with the line and the column of the place and the number of
bytes before it.  Columns count characters.  Lines end at a line feed, a carriage return, both together, or one of the
three Unicode breaks.

`splitBreaks` cuts a run of blanks and breaks into what stands before the first break and, for
every break, the break and the blanks after it; `Gap` is such a run between two words of a scalar,
and `Gap.text` is what it is read as. -/

namespace PathQuery.Yaml

/-! ### Characters -/

/-- The characters that end a line. -/
def isBreak (c : Char) : Bool :=
  c == '\n' || c == '\r' || c == '\u0085' || c == '\u2028' || c == '\u2029'

/-- The space and the tab. -/
def isSpace (c : Char) : Bool := c == ' ' || c == '\t'

/-- The letters and digits of ASCII, the hyphen and the underscore. -/
def isWord (c : Char) : Bool := c.isAlphanum || c == '_' || c == '-'

/-- The characters that a YAML text may hold. -/
def isAllowed (c : Char) : Bool :=
  let n := c.toNat
  n == 0x09 || n == 0x0A || n == 0x0D || (0x20 ≤ n && n ≤ 0x7E) || n == 0x85 ||
    (0xA0 ≤ n && n ≤ 0xD7FF) || (0xE000 ≤ n && n ≤ 0xFFFD) || 0x10000 ≤ n

/-- Whether a text begins with a blank or a break, or is at its end. -/
def atBlank : List Char → Bool
  | [] => true
  | c :: _ => isSpace c || isBreak c

/-- Whether a text begins with a break or is at its end. -/
def atBreak : List Char → Bool
  | [] => true
  | c :: _ => isBreak c

/-! ### Cursors -/

/-- A place in a text. -/
structure Cursor where
  rest : List Char
  /-- The number of bytes before the place. -/
  offset : Nat
  line : Nat
  column : Nat
  /-- The number of characters of the whole text. -/
  size : Nat

namespace Cursor

def start (text : List Char) : Cursor := ⟨text, 0, 0, 0, text.length⟩

/-- A bound for the number of steps that read a character each. -/
def budget (c : Cursor) : Nat := c.size + 1

/-- The place after the next character, which is no break. -/
def step (c : Cursor) : Cursor :=
  match c.rest with
  | [] => c
  | ch :: r => { c with rest := r, offset := c.offset + ch.utf8Size, column := c.column + 1 }

/-- The place `n` characters further on the same line. -/
def advance (c : Cursor) : (n : Nat) → Cursor
  | 0 => c
  | n + 1 => advance c.step n

/-- The longest run of characters with a property, none of them a break, and the place after
it. -/
def span (c : Cursor) (p : Char → Bool) : List Char × Cursor :=
  let taken := c.rest.takeWhile p
  (taken, c.advance taken.length)

/-- The place after a run of characters with a property. -/
def skip (c : Cursor) (p : Char → Bool) : Cursor := (c.span p).2

def peek (c : Cursor) : Option Char := c.rest.head?

def isAt (c : Cursor) (ch : Char) : Bool := c.rest.head? == some ch

/-- Whether a marker of three characters stands at the start of a line, followed by a blank. -/
def atMarker (c : Cursor) (mark : Char) : Bool :=
  c.column == 0 && (c.rest.take 3 == [mark, mark, mark]) && atBlank (c.rest.drop 3)

/-- Whether a document starts or ends here. -/
def atDocumentMarker (c : Cursor) : Bool := c.atMarker '-' || c.atMarker '.'

/-- The text of the break that stands here, if any, and the place after it.  The Unicode line and
paragraph separators stay what they are; all other breaks are line feeds. -/
def readBreak (c : Cursor) : List Char × Cursor :=
  match c.rest with
  | '\r' :: '\n' :: r => (['\n'], ⟨r, c.offset + 2, c.line + 1, 0, c.size⟩)
  | ch :: r =>
    if isBreak ch then
      ([if ch == '\u2028' || ch == '\u2029' then ch else '\n'],
        ⟨r, c.offset + ch.utf8Size, c.line + 1, 0, c.size⟩)
    else ([], c)
  | [] => ([], c)

end Cursor

/-! ### Gaps between words -/

/-- The blanks before the first break of a run of blanks and breaks, and each break with the blanks
after it. -/
def splitBreaks : List Char → List Char × List (List Char × List Char)
  | [] => ([], [])
  | '\r' :: '\n' :: r =>
    let (first, more) := splitBreaks r
    ([], (['\n'], first) :: more)
  | c :: r =>
    let (first, more) := splitBreaks r
    if isBreak c then
      ([], ([if c == '\u2028' || c == '\u2029' then c else '\n'], first) :: more)
    else (c :: first, more)

/-- A run of blanks and breaks between two words of a scalar. -/
structure Gap where
  spaces : List Char
  lines : List (List Char × List Char)

namespace Gap

/-- The run of blanks and breaks at a place, and the place after it. -/
def read (c : Cursor) : Gap × Cursor :=
  let run := c.rest.takeWhile fun ch => isSpace ch || isBreak ch
  let (spaces, lines) := splitBreaks run
  let after := c.advance run.length
  (⟨spaces, lines⟩,
    match lines.getLast? with
    | none => after
    | some (_, indent) => { after with line := c.line + lines.length, column := indent.length })

/-- Whether the gap leaves the line. -/
def crosses (g : Gap) : Bool := !g.lines.isEmpty

/-- What the gap is read as: blanks on a line stand for themselves, one break is a space, and of
several breaks the first has no meaning. -/
def text (g : Gap) : List Char :=
  match g.lines with
  | [] => g.spaces
  | (first, _) :: more =>
    let breaks := more.flatMap Prod.fst
    if first == ['\n'] then (if breaks.isEmpty then [' '] else breaks) else first ++ breaks

/-- What the gap is read as after a break that was taken back by a backslash. -/
def textAfterEscape (g : Gap) : List Char := g.lines.flatMap Prod.fst

/-- Whether a tab stands before a column on one of the new lines. -/
def hasTabBefore (g : Gap) (column : Nat) : Bool :=
  g.lines.any fun l => (l.2.take column).contains '\t'

end Gap

end PathQuery.Yaml
