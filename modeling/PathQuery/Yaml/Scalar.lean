import PathQuery.Text.Hexadecimal
import PathQuery.Yaml.Cursor

/-! # Scalars of YAML

The text of a scalar, and the place after it, in each of the styles: between quotes
(`singleQuoted?`, `doubleQuoted?`), without (`plain?`), and as a block of lines (`block?`).

Every reader is given the place of the first character of the scalar and answers nothing when the
scalar does not end as it must. -/

namespace PathQuery.Yaml

/-! ### Escapes -/

/-- The character of an escape of one letter. -/
def escapeChar? : Char → Option Char
  | '0' => some '\x00'
  | 'a' => some '\x07'
  | 'b' => some '\x08'
  | 't' => some '\t'
  | '\t' => some '\t'
  | 'n' => some '\n'
  | 'v' => some '\x0b'
  | 'f' => some '\x0c'
  | 'r' => some '\r'
  | 'e' => some '\x1b'
  | ' ' => some ' '
  | '"' => some '"'
  | '/' => some '/'
  | '\\' => some '\\'
  | 'N' => some '\u0085'
  | '_' => some '\u00a0'
  | 'L' => some '\u2028'
  | 'P' => some '\u2029'
  | _ => none

/-- The number of hexadecimal digits of an escape. -/
def escapeWidth? : Char → Option Nat
  | 'x' => some 2
  | 'u' => some 4
  | 'U' => some 8
  | _ => none

/-- The character of the escape whose backslash stands here, and the place after it. -/
def escape? (c : Cursor) : Option (Char × Cursor) :=
  match c.rest with
  | _ :: letter :: digits =>
    match escapeWidth? letter with
    | some width => (Text.codePoint? width digits).map fun d => (d.1, c.advance (2 + width))
    | none => (escapeChar? letter).map fun ch => (ch, c.advance 2)
  | _ => none

/-! ### Quoted scalars -/

/-- The rest of a scalar in single quotes, where two quotes stand for one.  Text so far is given in
reverse. -/
def singleQuotedFrom (text : List Char) (c : Cursor) : (fuel : Nat) → Option (List Char × Cursor)
  | 0 => none
  | fuel + 1 =>
    if c.atDocumentMarker then none
    else
      match c.rest with
      | [] => none
      | '\'' :: '\'' :: _ => singleQuotedFrom ('\'' :: text) (c.advance 2) fuel
      | '\'' :: _ => some (text.reverse, c.advance 1)
      | ch :: _ =>
        if isSpace ch || isBreak ch then
          let (gap, after) := Gap.read c
          singleQuotedFrom (gap.text.reverse ++ text) after fuel
        else singleQuotedFrom (ch :: text) (c.advance 1) fuel

def singleQuoted? (c : Cursor) : Option (List Char × Cursor) :=
  singleQuotedFrom [] (c.advance 1) c.budget

def doubleQuotedFrom (text : List Char) (c : Cursor) : (fuel : Nat) → Option (List Char × Cursor)
  | 0 => none
  | fuel + 1 =>
    if c.atDocumentMarker then none
    else
      match c.rest with
      | [] => none
      | '"' :: _ => some (text.reverse, c.advance 1)
      | '\\' :: r =>
        match r.head? with
        | none => none
        | some ch =>
          if isBreak ch then
            let (gap, after) := Gap.read ((c.advance 1).readBreak).2
            doubleQuotedFrom (gap.textAfterEscape.reverse ++ text) after fuel
          else
            match escape? c with
            | none => none
            | some (ch, after) => doubleQuotedFrom (ch :: text) after fuel
      | ch :: _ =>
        if isSpace ch || isBreak ch then
          let (gap, after) := Gap.read c
          doubleQuotedFrom (gap.text.reverse ++ text) after fuel
        else doubleQuotedFrom (ch :: text) (c.advance 1) fuel

def doubleQuoted? (c : Cursor) : Option (List Char × Cursor) :=
  doubleQuotedFrom [] (c.advance 1) c.budget

/-! ### Plain scalars -/

/-- The brackets and the comma, which end a word inside brackets. -/
def isFlowEnd (c : Char) : Bool :=
  c == ',' || c == '[' || c == ']' || c == '\x7b' || c == '\x7d'

/-- A word of a plain scalar, in reverse, and what follows it.  A colon before a blank ends it, and
inside brackets so do the characters of brackets; a colon right before one of those has no
meaning. -/
def plainWord (flow : Bool) (word : List Char) : List Char → Option (List Char × List Char)
  | [] => some (word, [])
  | c :: r =>
    if isSpace c || isBreak c then some (word, c :: r)
    else if flow && c == ':' && (r.head?.any fun d => isFlowEnd d || d == '?') then none
    else if (c == ':' && atBlank r) || (flow && isFlowEnd c) then some (word, c :: r)
    else plainWord flow (c :: word) r

/-- The rest of a plain scalar, after the given text and gap, with a note whether the scalar ended
on a new line. -/
def plainFrom (flow : Bool) (indent : Nat) (text gap : List Char) (crossed : Bool) (c : Cursor) :
    (fuel : Nat) → Option (List Char × Bool × Cursor)
  | 0 => none
  | fuel + 1 =>
    if c.atDocumentMarker || c.isAt '#' then some (text.reverse, crossed, c)
    else
      match plainWord flow [] c.rest with
      | none => none
      | some ([], _) => some (text.reverse, crossed, c)
      | some (word, _) =>
        let text := word ++ gap.reverse ++ text
        let after := c.advance word.length
        let (gap, next) := Gap.read after
        if gap.hasTabBefore indent then none
        else if gap.spaces.isEmpty && !gap.crosses then some (text.reverse, false, after)
        else if !flow && gap.crosses && next.column < indent then
          some (text.reverse, gap.crosses, next)
        else plainFrom flow indent text gap.text gap.crosses next fuel

/-- A plain scalar in a collection whose contents are indented by `indent`.  The third part tells
whether the scalar ended on a new line. -/
def plain? (flow : Bool) (indent : Nat) (c : Cursor) : Option (List Char × Bool × Cursor) :=
  plainFrom flow indent [] [] false c c.budget

/-! ### Block scalars -/

/-- What becomes of the breaks at the end of a block. -/
inductive Chomp where
  | strip
  | clip
  | keep
  deriving DecidableEq, Repr

/-- The sign of a chomping. -/
def chompOf? : Char → Option Chomp
  | '-' => some .strip
  | '+' => some .keep
  | _ => none

/-- The header of a block after its indicator: the chomping, the increment of the indentation if it
is given, and the place after them. -/
def blockHeader? (c : Cursor) : Option (Chomp × Option Nat × Cursor) :=
  let digit? (c : Cursor) : Option (Option Nat × Cursor) :=
    match c.peek with
    | some d =>
      if d == '0' then none
      else if d.isDigit then some (some (d.toNat - 48), c.advance 1)
      else some (none, c)
    | none => some (none, c)
  match c.peek.bind chompOf? with
  | some chomp => (digit? (c.advance 1)).map fun (n, c) => (chomp, n, c)
  | none =>
    (digit? c).map fun (n, c) =>
      match n, c.peek.bind chompOf? with
      | some n, some chomp => (chomp, some n, c.advance 1)
      | n, _ => (.clip, n, c)

/-- The lines without content at a place: their breaks, the deepest column reached, and the place
where the next line begins.  With an indentation given, only so many spaces belong to it. -/
def blankLines (indent : Option Nat) (breaks : List Char) (deepest : Nat) (c : Cursor) :
    (fuel : Nat) → Option (List Char × Nat × Cursor)
  | 0 => none
  | fuel + 1 =>
    let spaces := (c.rest.takeWhile (· == ' ')).length
    let wanted := match indent with
      | none => spaces
      | some n => min spaces (n - c.column)
    let c := c.advance wanted
    let deepest := max deepest c.column
    let short := match indent with
      | none => true
      | some n => c.column < n
    if short && c.isAt '\t' then none
    else
      match c.peek with
      | some ch =>
        if isBreak ch then
          let (text, next) := c.readBreak
          blankLines indent (breaks ++ text) deepest next fuel
        else some (breaks, deepest, c)
      | none => some (breaks, deepest, c)

/-- Lines of a block, each with its break and the breaks of the empty lines after it. -/
structure BlockLine where
  text : List Char
  lineBreak : List Char
  emptyLines : List Char

/-- The lines of a block of a known indentation, in reverse, and the place after them. -/
def blockLines (indent : Nat) (lines : List BlockLine) (c : Cursor) :
    (fuel : Nat) → Option (List BlockLine × Cursor)
  | 0 => none
  | fuel + 1 =>
    if c.column == indent && !c.rest.isEmpty then
      let (text, c) := c.span fun ch => !isBreak ch
      let (lineBreak, c) := c.readBreak
      match blankLines (some indent) [] 0 c c.budget with
      | none => none
      | some (empty, _, c) => blockLines indent (⟨text, lineBreak, empty⟩ :: lines) c fuel
    else some (lines, c)

/-- What stands between two lines of a folded block: a space for a break between two lines of
words, and the breaks themselves around lines that begin with a blank. -/
def foldedBreak (before : BlockLine) (next : List Char) : List Char :=
  let blank (cs : List Char) := cs.head?.any isSpace
  if before.lineBreak == ['\n'] && !blank before.text && !blank next then
    (if before.emptyLines.isEmpty then [' '] else []) ++ before.emptyLines
  else before.lineBreak ++ before.emptyLines

/-- The text of the lines of a block, without the breaks after the last line. -/
def joinLines (folded : Bool) : List BlockLine → List Char
  | [] => []
  | [l] => l.text
  | l :: m :: rest =>
    l.text ++ (if folded then foldedBreak l m.text else l.lineBreak ++ l.emptyLines) ++
      joinLines folded (m :: rest)

/-- A block scalar whose parent has the given indentation, less than 0 at the top. -/
def block? (folded : Bool) (parent : Int) (c : Cursor) : Option (List Char × Cursor) := do
  let (chomp, increment, c) ← blockHeader? (c.advance 1)
  let c := c.skip isSpace
  let c := if c.isAt '#' then c.skip (fun ch => !isBreak ch) else c
  if !atBreak c.rest then none
  else
    let c := c.readBreak.2
    let given := increment.map fun n => if 0 ≤ parent then parent.toNat + n else n
    let (leading, deepest, c) ← blankLines given [] 0 c c.budget
    let indent := given.getD (max deepest (max (parent + 1).toNat 1))
    let (reversed, c) ← blockLines indent [] c c.budget
    let lines := reversed.reverse
    let (lastBreak, lastEmpty) := match reversed with
      | [] => ([], leading)
      | l :: _ => (l.lineBreak, l.emptyLines)
    let body := if lines.isEmpty then [] else leading ++ joinLines folded lines
    let tail := match chomp with
      | .strip => []
      | .clip => lastBreak
      | .keep => lastBreak ++ lastEmpty
    some (body ++ tail, c)

end PathQuery.Yaml
