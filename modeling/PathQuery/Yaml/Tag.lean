import PathQuery.Yaml.Scalar

/-! # Tags and directives of YAML

A tag is written as a handle and a suffix, `!suffix`, `!!suffix` or `!name!suffix`, or in full
between angle brackets (`tag?`).  Directives at the head of a document name the version of the format
or give a meaning to a handle (`directive?`).

A tag is a string of bytes, because percent signs can write bytes that are no text.  `TagTable` holds
the meanings of handles; `TagTable.resolve?` joins a handle and a suffix to the full tag. -/

namespace PathQuery.Yaml

/-! ### Reading tags -/

/-- The characters of a tag.  Inside angle brackets a comma and square brackets may occur too. -/
def isTagChar (bracketed : Bool) (c : Char) : Bool :=
  isWord c || [';', '/', '?', ':', '@', '&', '=', '+', '$', '.', '!', '~', '*', '\'', '(', ')'].contains c ||
    (bracketed && (c == ',' || c == '[' || c == ']'))

/-- The number of bytes of a character that begins with a byte in UTF-8. -/
def utf8Width? (n : Nat) : Option Nat :=
  if n < 0x80 then some 1
  else if 0xC0 ≤ n ∧ n < 0xE0 then some 2
  else if 0xE0 ≤ n ∧ n < 0xF0 then some 3
  else if 0xF0 ≤ n ∧ n < 0xF8 then some 4
  else none

/-- The byte written as a percent sign and two digits, and what follows it. -/
def percentByte? : List Char → Option (UInt8 × List Char)
  | '%' :: a :: b :: rest => do
    some (((← Text.hexValue? a) * 16 + (← Text.hexValue? b)).toUInt8, rest)
  | _ => none

/-- The bytes that continue a character. -/
def percentTail? : Nat → List Char → Option (List UInt8 × List Char)
  | 0, cs => some ([], cs)
  | n + 1, cs => do
    let (b, rest) ← percentByte? cs
    if 0x80 ≤ b ∧ b < 0xC0 then
      let (bs, rest) ← percentTail? n rest
      some (b :: bs, rest)
    else none

/-- The bytes of one character in UTF-8, each after a percent sign.  Only their form is checked. -/
def percentChar? (cs : List Char) : Option (List UInt8 × List Char) := do
  let (b, rest) ← percentByte? cs
  let width ← utf8Width? b.toNat
  let (bs, rest) ← percentTail? (width - 1) rest
  some (b :: bs, rest)

/-- The bytes of the longest run of characters of a tag, in reverse, and the place after it. -/
def tagBytesFrom (bracketed : Bool) (bytes : List UInt8) (c : Cursor) :
    (fuel : Nat) → Option (List UInt8 × Cursor)
  | 0 => none
  | fuel + 1 =>
    match c.rest with
    | [] => some (bytes, c)
    | ch :: _ =>
      if ch == '%' then do
        let (bs, rest) ← percentChar? c.rest
        tagBytesFrom bracketed (bs.reverse ++ bytes) (c.advance (c.rest.length - rest.length)) fuel
      else if isTagChar bracketed ch then
        tagBytesFrom bracketed (ch.toNat.toUInt8 :: bytes) c.step fuel
      else some (bytes, c)

/-- The bytes of a run of characters of a tag and the place after it. -/
def tagBytes? (bracketed : Bool) (c : Cursor) : Option (List UInt8 × Cursor) :=
  (tagBytesFrom bracketed [] c c.budget).map fun (bytes, c) => (bytes.reverse, c)

def bytesOf (cs : List Char) : List UInt8 := cs.flatMap String.utf8EncodeChar

/-- The bytes before the first zero byte, which ends a tag. -/
def beforeZero (bytes : List UInt8) : List UInt8 := bytes.takeWhile (· != 0)

/-- The handle that begins here, exclamation marks included, or its beginning if no second mark
follows. -/
def handleStart (c : Cursor) : List Char × Cursor :=
  let (name, after) := (c.advance 1).span isWord
  if after.isAt '!' then ('!' :: name ++ ['!'], after.advance 1) else ('!' :: name, after)

/-- The handle and the suffix of the tag that begins here, and the place after it.  A tag in full
has the empty handle, and so does the lone mark, whose suffix is itself.  A tag is followed by a
blank, or by a comma inside brackets. -/
def tag? (flow : Bool) (c : Cursor) : Option (List Char × List UInt8 × Cursor) := do
  let (handle, suffix, after) ←
    if (c.advance 1).isAt '<' then do
      let (bytes, after) ← tagBytes? true (c.advance 2)
      if bytes.isEmpty || !after.isAt '>' then none
      else some ([], beforeZero bytes, after.advance 1)
    else
      let (handle, after) := handleStart c
      if 1 < handle.length && handle.getLast? == some '!' then do
        let (bytes, after) ← tagBytes? false after
        if bytes.isEmpty then none else some (handle, beforeZero bytes, after)
      else do
        let (bytes, after) ← tagBytes? false after
        let suffix := beforeZero (bytesOf (handle.drop 1) ++ bytes)
        some (if suffix.isEmpty then ([], bytesOf ['!'], after) else (['!'], suffix, after))
  if atBlank after.rest || (flow && after.isAt ',') then some (handle, suffix, after) else none

/-! ### Directives -/

inductive Directive where
  | version (major minor : Nat)
  | tag (handle : List Char) (bytes : List UInt8)
  deriving DecidableEq, Repr

/-- A number of a version, of at most nine digits, and the place after it. -/
def versionNumber? (c : Cursor) : Option (Nat × Cursor) :=
  let (digits, after) := c.span Char.isDigit
  if digits.isEmpty || 9 < digits.length then none
  else some (digits.foldl (fun n d => 10 * n + (d.toNat - 48)) 0, after)

/-- The directive whose percent sign stands here, and the place after its line. -/
def directive? (c : Cursor) : Option (Directive × Cursor) := do
  let (name, after) := (c.advance 1).span isWord
  if name.isEmpty || !atBlank after.rest then none
  else
    let after := after.skip isSpace
    let (directive, after) ←
      if name == "YAML".toList then do
        let (major, after) ← versionNumber? after
        if !after.isAt '.' then none
        else
          let (minor, after) ← versionNumber? (after.advance 1)
          some (Directive.version major minor, after)
      else if name == "TAG".toList then do
        if !after.isAt '!' then none
        else
          let (handle, after) := handleStart after
          if 1 < handle.length && handle.getLast? != some '!' then none
          else if !(after.peek.any isSpace) then none
          else
            let (bytes, after) ← tagBytes? true (after.skip isSpace)
            if bytes.isEmpty || !atBlank after.rest then none
            else some (Directive.tag handle (beforeZero bytes), after)
      else none
    let after := after.skip isSpace
    let after := if after.isAt '#' then after.skip (fun ch => !isBreak ch) else after
    if atBreak after.rest then some (directive, after.readBreak.2) else none

/-! ### The meaning of handles -/

/-- The handles and the bytes that they stand for. -/
abbrev TagTable := List (List Char × List UInt8)

namespace TagTable

/-- What the common types of the format begin with. -/
def core : List UInt8 := bytesOf "tag:yaml.org,2002:".toList

/-- The table of the directives of a document.  Versions have to be 1.1 or 1.2 and no directive may
be repeated. -/
def ofDirectives? (ds : List Directive) : Option TagTable :=
  let versions := ds.filterMap fun
    | .version major minor => some (major, minor)
    | .tag .. => none
  let tags := ds.filterMap fun
    | .version .. => none
    | .tag handle bytes => some (handle, bytes)
  let handles := tags.map Prod.fst
  if versions.length ≤ 1 && versions.all (fun v => v == (1, 1) || v == (1, 2)) &&
      handles.eraseDups.length == handles.length then
    some (tags ++ [(['!'], bytesOf ['!']), (['!', '!'], core)])
  else none

/-- The full tag of a handle and a suffix. -/
def resolve? (table : TagTable) (handle : List Char) (suffix : List UInt8) : Option (List UInt8) :=
  if handle.isEmpty then some suffix
  else (table.find? fun e => e.1 == handle).map fun e => e.2 ++ suffix

end TagTable

end PathQuery.Yaml
