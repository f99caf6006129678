import PathQuery.Text.Hexadecimal

/-! # Quoted texts of TOML

A text stands in double quotes, with escapes, or in single quotes, without; in one quote on each
side it stays on its line, in three it may have several lines.  A line break right after the
opening quotes is dropped.  In three double quotes a backslash at the end of a line drops the break
with all blanks and breaks after it.  Up to two quotes may stand in front of the three closing ones.

The readers are given what follows the opening quotes, and answer the text and what follows the
closing ones.  Line breaks are single line feeds here. -/

namespace PathQuery.Toml

/-- Blanks inside a line. -/
def isSpace (c : Char) : Bool := c == ' ' || c == '\t'

/-- The characters that may stand for themselves: all but controls other than the tabulator. -/
def isShown (c : Char) : Bool := c == '\t' || (0x20 ≤ c.toNat && c.toNat != 0x7F)

/-! ### Escapes -/

/-- The character of an escape, given what follows its backslash, and what follows the escape. -/
def escape? : List Char → Option (Char × List Char)
  | [] => none
  | c :: cs =>
    match c with
    | 'b' => some ('\x08', cs)
    | 't' => some ('\t', cs)
    | 'n' => some ('\n', cs)
    | 'f' => some ('\x0c', cs)
    | 'r' => some ('\r', cs)
    | '"' => some ('"', cs)
    | '\\' => some ('\\', cs)
    | 'u' => Text.codePoint? 4 cs
    | 'U' => Text.codePoint? 8 cs
    | _ => none

/-- What follows a line break and the blanks and breaks after it, if only blanks come before it. -/
def foldedBreak? (cs : List Char) : Option (List Char) :=
  match cs.dropWhile isSpace with
  | '\n' :: rest => some (rest.dropWhile fun c => isSpace c || c == '\n')
  | _ => none

/-- Three or more quotes: those that belong to the text, and what follows the closing three. -/
def closing? (q : Char) : List Char → Option (List Char × List Char)
  | a :: b :: c :: rest =>
    if a == q && b == q && c == q then
      match rest with
      | d :: e :: rest' =>
        if d == q then if e == q then some ([q, q], rest') else some ([q], e :: rest')
        else some ([], rest)
      | [d] => if d == q then some ([q], []) else some ([], rest)
      | [] => some ([], [])
    else none
  | _ => none

/-! ### Facts -/

theorem length_le_of_codePoint? {width : Nat} {cs rest : List Char} {c : Char}
    (h : Text.codePoint? width cs = some (c, rest)) : rest.length ≤ cs.length := by
  unfold Text.codePoint? at h
  split at h
  · simp at h
  · simp only [bind, Option.bind_eq_some_iff, Option.some.injEq, Prod.mk.injEq] at h
    obtain ⟨_, _, _, _, _, rfl⟩ := h
    simp

theorem length_lt_of_escape? {cs rest : List Char} {c : Char}
    (h : escape? cs = some (c, rest)) : rest.length < cs.length := by
  unfold escape? at h
  split at h
  · simp at h
  · split at h
    any_goals (simp at h; simp [← h.2])
    · exact Nat.lt_succ_of_le (length_le_of_codePoint? h)
    · exact Nat.lt_succ_of_le (length_le_of_codePoint? h)
    · simp at h

theorem length_lt_of_foldedBreak? {cs rest : List Char} (h : foldedBreak? cs = some rest) :
    rest.length < cs.length := by
  unfold foldedBreak? at h
  split at h
  · rename_i r hr
    have h1 : (cs.dropWhile isSpace).length ≤ cs.length := (List.dropWhile_sublist _).length_le
    have h2 : (r.dropWhile fun c => isSpace c || c == '\n').length ≤ r.length :=
      (List.dropWhile_sublist _).length_le
    rw [hr] at h1
    simp only [Option.some.injEq] at h
    simp only [List.length_cons] at h1
    rw [← h]
    omega
  · simp at h

/-! ### Texts -/

/-- A text in double quotes on one line. -/
def basic? (cs : List Char) : Option (List Char × List Char) :=
  match cs with
  | [] => none
  | c :: cs =>
    if c = '"' then some ([], cs)
    else if c = '\\' then
      match _h : escape? cs with
      | none => none
      | some (d, rest) => (basic? rest).map (Prod.map (d :: ·) id)
    else if isShown c then (basic? cs).map (Prod.map (c :: ·) id)
    else none
termination_by cs.length
decreasing_by
  · have := length_lt_of_escape? _h
    simp
    omega
  · simp

/-- A text in three double quotes. -/
def multiBasic? (cs : List Char) : Option (List Char × List Char) :=
  match closing? '"' cs with
  | some result => some result
  | none =>
    match cs with
    | [] => none
    | c :: cs =>
      if c = '\\' then
        match _hf : foldedBreak? cs with
        | some rest => multiBasic? rest
        | none =>
          match _h : escape? cs with
          | none => none
          | some (d, rest) => (multiBasic? rest).map (Prod.map (d :: ·) id)
      else if c = '\n' ∨ isShown c then (multiBasic? cs).map (Prod.map (c :: ·) id)
      else none
termination_by cs.length
decreasing_by
  · have := length_lt_of_foldedBreak? _hf
    simp
    omega
  · have := length_lt_of_escape? _h
    simp
    omega
  · simp

/-- A text in single quotes on one line. -/
def literal? : List Char → Option (List Char × List Char)
  | [] => none
  | c :: cs =>
    if c = '\'' then some ([], cs)
    else if isShown c then (literal? cs).map (Prod.map (c :: ·) id)
    else none

/-- A text in three single quotes. -/
def multiLiteral? : List Char → Option (List Char × List Char)
  | [] => none
  | c :: cs =>
    match closing? '\'' (c :: cs) with
    | some result => some result
    | none =>
      if c = '\n' ∨ isShown c then (multiLiteral? cs).map (Prod.map (c :: ·) id) else none

def dropBreak : List Char → List Char
  | '\n' :: cs => cs
  | cs => cs

/-- Reads a quoted text with its quotes. -/
def quoted? : List Char → Option (List Char × List Char)
  | '"' :: '"' :: '"' :: cs => multiBasic? (dropBreak cs)
  | '"' :: cs => basic? cs
  | '\'' :: '\'' :: '\'' :: cs => multiLiteral? (dropBreak cs)
  | '\'' :: cs => literal? cs
  | _ => none

end PathQuery.Toml
