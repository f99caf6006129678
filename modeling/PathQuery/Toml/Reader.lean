import PathQuery.Toml.Quoted
import PathQuery.Toml.Table
import PathQuery.Toml.Word

/-! # Reading TOML

A text of TOML is a list of lines (`Line`): an entry, the header of a table, the header of a further
table of an array, or nothing; each may end with a comment.  `read?` puts the entries of the lines
into the tables that the headers open.

A value may hold at most `maxDepth` containers inside each other, and a key at most as many parts.
The readers of values take one step for each container, item and entry, and each of these has a
character of its own, so the length of the text bounds the number of steps. -/

namespace PathQuery.Toml

/-- The number of containers inside each other and of parts of a key. -/
def maxDepth : Nat := 79

def dropSpaces (cs : List Char) : List Char := cs.dropWhile isSpace

/-- Drops blanks, line breaks and comments at the front. -/
def dropGaps (inComment : Bool) : List Char → List Char
  | [] => []
  | c :: cs =>
    if c == '\n' then dropGaps false cs
    else if inComment then if isShown c then dropGaps true cs else c :: cs
    else if isSpace c then dropGaps false cs
    else if c == '#' then dropGaps true cs
    else c :: cs

/-! ### Keys -/

/-- The characters of a key without quotes. -/
def isBare (c : Char) : Bool := c.isAlphanum || c == '_' || c == '-'

def keyPart? : List Char → Option (String × List Char)
  | '"' :: cs => (basic? cs).map (Prod.map String.ofList id)
  | '\'' :: cs => (literal? cs).map (Prod.map String.ofList id)
  | cs =>
    let part := cs.takeWhile isBare
    if part.isEmpty then none else some (String.ofList part, cs.dropWhile isBare)

/-- Reads a key of at most so many parts, with the blanks after it: the path of its first parts,
its last part, and what follows. -/
def key? : (limit : Nat) → List Char → Option (List String × String × List Char)
  | 0, _ => none
  | limit + 1, cs =>
    match keyPart? (dropSpaces cs) with
    | none => none
    | some (part, cs) =>
      match dropSpaces cs with
      | '.' :: cs =>
        (key? limit cs).map fun (path, key, rest) => (part :: path, key, rest)
      | cs => some ([], part, cs)

/-! ### Values -/

/-- The characters of values without quotes. -/
def isWordChar (c : Char) : Bool := c.isAlphanum || ['+', '-', '_', '.', ':'].contains c

/-- The value of a word. -/
def wordValue? (word : List Char) : Option Value :=
  if word == "true".toList then some (.boolean true)
  else if word == "false".toList then some (.boolean false)
  else if isMoment word then some (.moment (String.ofList word))
  else
    match integer? word with
    | some n => some (.integer n)
    | none => (float? word).map .float

/-- Reads a value without quotes.  A date may go on with a time of the day after one blank. -/
def word? (cs : List Char) : Option (Value × List Char) :=
  let word := cs.takeWhile isWordChar
  let rest := cs.dropWhile isWordChar
  match rest with
  | ' ' :: c :: more =>
    if isDate word && c.isDigit then
      let time := (c :: more).takeWhile isWordChar
      if isOffsetTime time then
        some (.moment (String.ofList (word ++ ' ' :: time)), (c :: more).dropWhile isWordChar)
      else none
    else (wordValue? word).map fun v => (v, rest)
  | rest => (wordValue? word).map fun v => (v, rest)

mutual

/-- Reads a value that may hold containers up to a depth. -/
def value? : (fuel depth : Nat) → List Char → Option (Value × List Char)
  | 0, _, _ => none
  | fuel + 1, depth, cs =>
    match cs with
    | '[' :: cs => if depth = 0 then none else items? fuel (depth - 1) [] (dropGaps false cs)
    | '\x7b' :: cs =>
      if depth = 0 then none
      else
        match dropSpaces cs with
        | '\x7d' :: cs => some (.table [], cs)
        | cs => pairs? fuel (depth - 1) [] cs
    | '"' :: _ => (quoted? cs).map (Prod.map (fun s => .string (String.ofList s)) id)
    | '\'' :: _ => (quoted? cs).map (Prod.map (fun s => .string (String.ofList s)) id)
    | cs => word? cs

/-- Reads the items of an array up to its end; those before are given in reverse. -/
def items? : (fuel depth : Nat) → (items : List Value) → List Char → Option (Value × List Char)
  | 0, _, _, _ => none
  | fuel + 1, depth, items, cs =>
    match cs with
    | ']' :: cs => some (.array items.reverse, cs)
    | cs =>
      match value? fuel depth cs with
      | none => none
      | some (v, cs) =>
        match dropGaps false cs with
        | ',' :: cs => items? fuel depth (v :: items) (dropGaps false cs)
        | ']' :: cs => some (.array (v :: items).reverse, cs)
        | _ => none

/-- Reads the entries of a table in braces up to its end. -/
def pairs? : (fuel depth : Nat) → (t : Table) → List Char → Option (Value × List Char)
  | 0, _, _, _ => none
  | fuel + 1, depth, t, cs =>
    match key? maxDepth cs with
    | some (path, key, '=' :: cs) =>
      match value? fuel depth (dropSpaces cs) with
      | none => none
      | some (v, cs) =>
        match t.put key v path with
        | none => none
        | some t =>
          match dropSpaces cs with
          | ',' :: cs => pairs? fuel depth t cs
          | '\x7d' :: cs => some (.table (entryValues t), cs)
          | _ => none
    | _ => none

end

/-! ### Lines -/

/-- A line of a text. -/
inductive Line where
  | blank
  | entry (path : List String) (key : String) (value : Value)
  | table (path : List String) (key : String)
  | element (path : List String) (key : String)

/-- What follows the end of a line, before which only blanks and a comment may stand. -/
def lineEnd? (cs : List Char) : Option (List Char) :=
  let cs := match dropSpaces cs with
    | '#' :: cs => cs.dropWhile isShown
    | cs => cs
  match cs with
  | [] => some []
  | '\n' :: cs => some cs
  | _ => none

/-- Reads a line and answers what follows it. -/
def line? (cs : List Char) : Option (Line × List Char) :=
  match dropSpaces cs with
  | [] => some (.blank, [])
  | '\n' :: cs => some (.blank, cs)
  | '#' :: cs => (lineEnd? ('#' :: cs)).map fun rest => (.blank, rest)
  | '[' :: '[' :: cs =>
    match key? maxDepth cs with
    | some (path, key, ']' :: ']' :: cs) =>
      (lineEnd? cs).map fun rest => (.element path key, rest)
    | _ => none
  | '[' :: cs =>
    match key? maxDepth cs with
    | some (path, key, ']' :: cs) => (lineEnd? cs).map fun rest => (.table path key, rest)
    | _ => none
  | cs =>
    match key? maxDepth cs with
    | some (path, key, '=' :: cs) =>
      match value? (cs.length + 1) maxDepth (dropSpaces cs) with
      | some (v, cs) => (lineEnd? cs).map fun rest => (.entry path key v, rest)
      | none => none
    | _ => none

/-- Reads the lines of a text, at most `fuel` of them. -/
def lines? : (fuel : Nat) → List Char → Option (List Line)
  | 0, _ => none
  | _ + 1, [] => some []
  | fuel + 1, c :: cs =>
    match line? (c :: cs) with
    | none => none
    | some (line, rest) => (lines? fuel rest).map (line :: ·)

/-! ### Texts -/

/-- The tables so far and the header whose table the next entry belongs to. -/
structure Draft where
  root : Table
  header : Option (List String × String)

/-- The tables after one more line. -/
def Draft.add (d : Draft) : Line → Option Draft
  | .blank => some d
  | .entry path key v =>
    match d.header with
    | none => (d.root.put key v path).map fun t => ⟨t, none⟩
    | some header => (d.root.putUnder header path key v).map fun t => ⟨t, some header⟩
  | .table path key => (d.root.openTable path key).map fun t => ⟨t, some (path, key)⟩
  | .element path key => (d.root.openElement path key).map fun t => ⟨t, some (path, key)⟩

/-- Drops the carriage returns that belong to a line break. -/
def unifyBreaks : List Char → List Char
  | '\r' :: '\n' :: cs => '\n' :: unifyBreaks cs
  | c :: cs => c :: unifyBreaks cs
  | [] => []

/-- Drops a byte order mark at the front. -/
def dropMark : List Char → List Char
  | '\uFEFF' :: cs => cs
  | cs => cs

/-- Reads a text of TOML. -/
def read? (text : String) : Option (List (String × Value)) := do
  let cs := unifyBreaks (dropMark text.toList)
  let lines ← lines? (cs.length + 1) cs
  let draft ← lines.foldlM Draft.add ⟨[], none⟩
  some (entryValues draft.root)

end PathQuery.Toml
