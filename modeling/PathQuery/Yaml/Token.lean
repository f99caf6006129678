import PathQuery.Yaml.Tag

/-! # Tokens of YAML

`tokens?` cuts a YAML text into its tokens.  Indentation becomes tokens of its own: a collection in
block style begins where its first entry stands deeper than the collection around it, and ends at
the first entry that stands less deep.

A key before a colon is known only when the colon is reached.  Every place where a key may begin is
remembered as a `Candidate`, one for each level of brackets; the colon puts the token for the key,
and the start of the mapping if there has to be one, in front of the candidate.  A candidate lasts
to the end of its line and for at most `maxKeyBytes` bytes. -/

namespace PathQuery.Yaml

inductive Token where
  | directive (d : Directive)
  | documentStart
  | documentEnd
  | blockSeqStart
  | blockMapStart
  | blockEnd
  | flowSeqStart
  | flowSeqEnd
  | flowMapStart
  | flowMapEnd
  | blockEntry
  | flowEntry
  | key
  | value
  | alias (name : List Char)
  | anchor (name : List Char)
  | tag (handle : List Char) (suffix : List UInt8)
  | scalar (text : List Char) (plain : Bool)
  deriving DecidableEq, Repr

/-- A place where a key may begin, and the number of the token that begins there. -/
structure Candidate where
  required : Bool
  token : Nat
  line : Nat
  offset : Nat
  column : Nat

/-- How far a text has been cut into tokens. -/
structure Scan where
  here : Cursor
  tokens : Array Token
  /-- The column of the innermost collection in block style, -1 outside all of them. -/
  indent : Int
  /-- The columns of the collections around it. -/
  outer : List Int
  /-- Whether a key may begin here. -/
  keyAllowed : Bool
  /-- The candidate of the innermost brackets. -/
  candidate : Option Candidate
  /-- The candidates of the brackets around them, and outside all brackets. -/
  outerCandidates : List (Option Candidate)

namespace Scan

/-- The scan of a text before its first token. -/
def start (text : List Char) : Scan := ⟨Cursor.start text, #[], -1, [], true, none, []⟩

def inFlow (s : Scan) : Bool := !s.outerCandidates.isEmpty

/-- Adds a token and goes on at a place. -/
def emit (s : Scan) (t : Token) (c : Cursor) : Scan := { s with tokens := s.tokens.push t, here := c }

/-! ### Indentation -/

/-- Ends the collections that stand deeper than a column. -/
def endDeeper (column : Int) (indent : Int) (tokens : Array Token) :
    List Int → Int × List Int × Array Token
  | [] => (indent, [], tokens)
  | o :: os =>
    if column < indent then endDeeper column o (tokens.push .blockEnd) os
    else (indent, o :: os, tokens)

/-- Ends the collections that stand deeper than a column; inside brackets columns have no
meaning. -/
def unroll (s : Scan) (column : Int) : Scan :=
  if s.inFlow then s
  else
    let (indent, outer, tokens) := endDeeper column s.indent s.tokens s.outer
    { s with indent := indent, outer := outer, tokens := tokens }

/-- Begins a collection at a column that is deeper than the current one; its token is put in front
of the token of the given number. -/
def roll (s : Scan) (column : Int) (number : Nat) (t : Token) : Scan :=
  if s.inFlow || column ≤ s.indent then s
  else
    { s with
      outer := s.indent :: s.outer
      indent := column
      tokens := s.tokens.insertIdxIfInBounds number t }

/-! ### Candidates -/

/-- The number of bytes for which a candidate lasts. -/
def maxKeyBytes : Nat := 1024

/-- Drops a candidate that is no longer one; a key that had to be there is missed. -/
def refresh? (c : Cursor) : Option Candidate → Option (Option Candidate)
  | none => some none
  | some k =>
    if k.line < c.line ∨ k.offset + maxKeyBytes < c.offset then
      if k.required then none else some none
    else some (some k)

/-- Drops all candidates that are none any more. -/
def dropStale (s : Scan) : Option Scan := do
  let candidate ← refresh? s.here s.candidate
  let outer ← s.outerCandidates.mapM (refresh? s.here)
  some { s with candidate := candidate, outerCandidates := outer }

/-- Gives up the candidate of the innermost brackets. -/
def dropCandidate (s : Scan) : Option Scan :=
  if s.candidate.any fun k => k.required then none else some { s with candidate := none }

/-- Remembers the place as the start of a key, if a key may begin here.  At the column of a mapping
nothing but a key can begin. -/
def saveCandidate (s : Scan) : Option Scan :=
  if s.keyAllowed then do
    let s ← s.dropCandidate
    let required := !s.inFlow && s.indent == (s.here.column : Int)
    some { s with
      candidate := some ⟨required, s.tokens.size, s.here.line, s.here.offset, s.here.column⟩ }
  else some s

/-! ### Single tokens -/

/-- Goes to the next token, past blanks, comments and breaks.  A byte order mark may begin a line.  A
tab is no indentation: it is passed only where no key can begin. -/
def skipToToken (s : Scan) : (fuel : Nat) → Scan
  | 0 => s
  | fuel + 1 =>
    let c := if s.here.column == 0 && s.here.isAt '\ufeff' then s.here.step else s.here
    let tabs := s.inFlow || !s.keyAllowed
    let c := c.skip fun ch => ch == ' ' || (tabs && ch == '\t')
    let c := if c.isAt '#' then c.skip (fun ch => !isBreak ch) else c
    if c.peek.any isBreak then
      skipToToken { s with here := c.readBreak.2, keyAllowed := s.keyAllowed || !s.inFlow } fuel
    else { s with here := c }

/-- A token at the start of a line that belongs to no collection. -/
def documentToken (s : Scan) (t : Token) (c : Cursor) : Option Scan := do
  let s ← (s.unroll (-1)).dropCandidate
  some ({ s with keyAllowed := false }.emit t c)

def openFlow (s : Scan) (t : Token) : Option Scan := do
  let s ← s.saveCandidate
  some ({ s with
    outerCandidates := s.candidate :: s.outerCandidates
    candidate := none
    keyAllowed := true }.emit t (s.here.advance 1))

def closeFlow (s : Scan) (t : Token) : Option Scan := do
  let s ← s.dropCandidate
  let s := match s.outerCandidates with
    | [] => s
    | k :: ks => { s with candidate := k, outerCandidates := ks }
  some ({ s with keyAllowed := false }.emit t (s.here.advance 1))

def flowEntry (s : Scan) : Option Scan := do
  let s ← s.dropCandidate
  some ({ s with keyAllowed := true }.emit .flowEntry (s.here.advance 1))

def blockEntry (s : Scan) : Option Scan :=
  if !s.inFlow && !s.keyAllowed then none
  else do
    let s ← (s.roll s.here.column s.tokens.size .blockSeqStart).dropCandidate
    some ({ s with keyAllowed := true }.emit .blockEntry (s.here.advance 1))

def explicitKey (s : Scan) : Option Scan :=
  if !s.inFlow && !s.keyAllowed then none
  else do
    let s ← (s.roll s.here.column s.tokens.size .blockMapStart).dropCandidate
    some ({ s with keyAllowed := !s.inFlow }.emit .key (s.here.advance 1))

def value (s : Scan) : Option Scan :=
  match s.candidate with
  | some k =>
    let s := { s with tokens := s.tokens.insertIdxIfInBounds k.token .key, candidate := none }
    let s := s.roll k.column k.token .blockMapStart
    some ({ s with keyAllowed := false }.emit .value (s.here.advance 1))
  | none =>
    if !s.inFlow && !s.keyAllowed then none
    else
      let s := s.roll s.here.column s.tokens.size .blockMapStart
      some ({ s with keyAllowed := !s.inFlow }.emit .value (s.here.advance 1))

/-- The name of an anchor or of an alias, and the place after it. -/
def anchorName? (c : Cursor) : Option (List Char × Cursor) :=
  let (name, after) := (c.advance 1).span isWord
  let ends := atBlank after.rest ||
    after.peek.any fun ch => ['?', ':', ',', ']', '\x7d', '%', '@', '\x60'].contains ch
  if name.isEmpty || !ends then none else some (name, after)

/-- A token that may begin a key. -/
def node (s : Scan) (read : Cursor → Option (Token × Cursor)) : Option Scan := do
  let s ← s.saveCandidate
  let (t, c) ← read s.here
  some ({ s with keyAllowed := false }.emit t c)

def blockScalar (s : Scan) (folded : Bool) : Option Scan := do
  let s ← s.dropCandidate
  let (text, c) ← block? folded s.indent s.here
  some ({ s with keyAllowed := true }.emit (.scalar text false) c)

/-- A plain scalar, after which a key may begin if it ended on a new line. -/
def plainScalar (s : Scan) : Option Scan := do
  let s ← s.saveCandidate
  let (text, crossed, c) ← plain? s.inFlow (s.indent + 1).toNat s.here
  some ({ s with keyAllowed := crossed }.emit (.scalar text true) c)

/-- The characters that have a meaning of their own at the start of a token. -/
def isIndicator (c : Char) : Bool :=
  ['-', '?', ':', ',', '[', ']', '\x7b', '\x7d', '#', '&', '*', '!', '|', '>', '\'', '"', '%', '@',
    '\x60'].contains c

/-- Reads the token that begins with a character, where `rest` follows the character. -/
def token (s : Scan) (ch : Char) (rest : List Char) : Option Scan :=
  let spaced := atBlank rest
  if s.here.column == 0 && ch == '%' then do
    let s ← (s.unroll (-1)).dropCandidate
    let (d, c) ← directive? s.here
    some ({ s with keyAllowed := false }.emit (.directive d) c)
  else if s.here.atMarker '-' then s.documentToken .documentStart (s.here.advance 3)
  else if s.here.atMarker '.' then s.documentToken .documentEnd (s.here.advance 3)
  else if ch == '[' then s.openFlow .flowSeqStart
  else if ch == '\x7b' then s.openFlow .flowMapStart
  else if ch == ']' then s.closeFlow .flowSeqEnd
  else if ch == '\x7d' then s.closeFlow .flowMapEnd
  else if ch == ',' then s.flowEntry
  else if ch == '-' && spaced then s.blockEntry
  else if ch == '?' && (s.inFlow || spaced) then s.explicitKey
  else if ch == ':' && (s.inFlow || spaced) then s.value
  else if ch == '*' then
    s.node fun c => (anchorName? c).map fun (name, c) => (.alias name, c)
  else if ch == '&' then
    s.node fun c => (anchorName? c).map fun (name, c) => (.anchor name, c)
  else if ch == '!' then
    s.node fun c => (tag? s.inFlow c).map fun (handle, suffix, c) => (.tag handle suffix, c)
  else if ch == '|' && !s.inFlow then s.blockScalar false
  else if ch == '>' && !s.inFlow then s.blockScalar true
  else if ch == '\'' then
    s.node fun c => (singleQuoted? c).map fun (text, c) => (.scalar text false, c)
  else if ch == '"' then
    s.node fun c => (doubleQuoted? c).map fun (text, c) => (.scalar text false, c)
  else if (!isSpace ch && !isIndicator ch) || (ch == '-' && !(rest.head?.any isSpace)) ||
      (!s.inFlow && (ch == '?' || ch == ':') && !spaced) then s.plainScalar
  else none

/-- Reads the tokens left, each of at least one character. -/
def run (s : Scan) : (fuel : Nat) → Option (Array Token)
  | 0 => none
  | fuel + 1 => do
    let s ← (s.skipToToken s.here.budget).dropStale
    let s := s.unroll s.here.column
    match s.here.rest with
    | [] =>
      let s ← (s.unroll (-1)).dropCandidate
      some s.tokens
    | ch :: rest =>
      let s ← s.token ch rest
      run s fuel

end Scan

/-- The tokens of a YAML text. -/
def tokens? (text : List Char) : Option (List Token) :=
  if text.all isAllowed then
    ((Scan.start text).run (text.length + 1)).map Array.toList
  else none

end PathQuery.Yaml
