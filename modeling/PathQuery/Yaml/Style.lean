import PathQuery.Yaml.Resolve

/-! # Styles of scalars

A text is written plain where it can be: where it reads back as the same text, begins with no
indicator, has no colon before a blank and no comment in it.  Else it is written in single quotes,
in double quotes if it has characters that do not print, or as a block if it has line feeds
(`styleOf`).

`Traits` are the facts about a text that decide. -/

namespace PathQuery.Yaml

inductive Style where
  | plain
  | singleQuoted
  | doubleQuoted
  | literal
  deriving DecidableEq, Repr

/-- The characters that may be written as they are. -/
def isPrintable (c : Char) : Bool :=
  let n := c.toNat
  n == 0x0A || (0x20 ≤ n && n ≤ 0x7E) || (0xA0 ≤ n && n ≤ 0xD7FF) ||
    (0xE000 ≤ n && n ≤ 0xFFFD && n != 0xFEFF) || 0x10000 ≤ n

/-- The indicators that no plain scalar begins with. -/
def isLeadingIndicator (c : Char) : Bool :=
  ['#', ',', '[', ']', '\x7b', '\x7d', '&', '*', '!', '|', '>', '\'', '"', '%', '@', '\x60'].contains c

/-- Whether a character cannot begin a plain scalar, given what follows it. -/
def badStart (c : Char) (rest : List Char) : Bool :=
  isLeadingIndicator c || ((c == '?' || c == ':' || c == '-') && atBlank rest)

/-- Whether an indicator stands after the first character of a text, where `before` is the
character in front. -/
def hasInnerIndicator (before : Char) : List Char → Bool
  | [] => false
  | c :: rest =>
    (c == ':' && atBlank rest) || (c == '#' && (isSpace before || isBreak before)) ||
      hasInnerIndicator c rest

/-- Whether two characters of the given kinds stand side by side. -/
def hasPair (p q : Char → Bool) : List Char → Bool
  | a :: b :: rest => (p a && q b) || hasPair p q (b :: rest)
  | _ => false

/-- The facts about a text that decide on its style. -/
structure Traits where
  indicators : Bool
  breaks : Bool
  unprintable : Bool
  /-- A blank or a break at an end. -/
  openEnds : Bool
  trailingSpace : Bool
  breakThenSpace : Bool
  spaceThenBreak : Bool
  deriving DecidableEq, Repr

namespace Traits

def ofChars (cs : List Char) : Traits :=
  let space (c : Char) := c == ' '
  let ends := cs.head?.toList ++ cs.getLast?.toList
  { indicators :=
      cs.take 3 == ['-', '-', '-'] || cs.take 3 == ['.', '.', '.'] ||
        match cs with
        | [] => false
        | c :: rest => badStart c rest || hasInnerIndicator c rest
    breaks := cs.any isBreak
    unprintable := cs.any fun c => !isPrintable c
    openEnds := ends.any fun c => space c || isBreak c
    trailingSpace := cs.getLast?.any space
    breakThenSpace := hasPair isBreak space cs
    spaceThenBreak := hasPair space isBreak cs }

def plainAllowed (t : Traits) : Bool :=
  !(t.indicators || t.breaks || t.unprintable || t.openEnds || t.breakThenSpace ||
    t.spaceThenBreak)

def singleQuotedAllowed (t : Traits) : Bool :=
  !(t.unprintable || t.breakThenSpace || t.spaceThenBreak)

def literalAllowed (t : Traits) : Bool :=
  !(t.unprintable || t.trailingSpace || t.spaceThenBreak)

end Traits

/-- Whether a plain scalar would be read as something else than this text, or be taken for a
number. -/
def isAmbiguous (cs : List Char) : Bool :=
  match plainDoc? cs with
  | some (.string _) => hasLeadingZero cs
  | _ => true

/-- The style of a text, which may be a key in front of its colon. -/
def styleOf (simpleKey : Bool) (cs : List Char) : Style :=
  let t := Traits.ofChars cs
  let quoted : Style := if t.singleQuotedAllowed then .singleQuoted else .doubleQuoted
  if simpleKey && t.breaks then .doubleQuoted
  else if cs.contains '\n' then
    if t.literalAllowed && !simpleKey then .literal else .doubleQuoted
  else if isAmbiguous cs then quoted
  else if t.plainAllowed then .plain
  else quoted

end PathQuery.Yaml
