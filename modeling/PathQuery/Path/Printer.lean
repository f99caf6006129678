import PathQuery.Path.Step

/-! # Writing a path

`Path.text` writes a path as an expression: `$` and then one bracket a step, with `..` in front of
the bracket of a scan.  Keys stand in single quotes, and inside them a quote and a backslash are
written with a backslash in front (`escapeKey`).

`Step.record` is the other written form of a step, which names the kind of the step and lists its
fields. -/

namespace PathQuery

/-- The text between two items of a list. -/
def joinWith (separator : List Char) : List (List Char) → List Char
  | [] => []
  | [x] => x
  | x :: y :: rest => x ++ separator ++ joinWith separator (y :: rest)

@[simp] theorem joinWith_nil (separator : List Char) : joinWith separator [] = [] := rfl

@[simp] theorem joinWith_singleton (separator x : List Char) : joinWith separator [x] = x := rfl

@[simp] theorem joinWith_cons_cons (separator x y : List Char) (rest : List (List Char)) :
    joinWith separator (x :: y :: rest) = x ++ separator ++ joinWith separator (y :: rest) := rfl

/-- An integer in decimal digits, with a sign only if it is negative. -/
def decimal (n : Int) : List Char := (toString n).toList

/-- The characters of a key inside quotes: a quote and a backslash get a backslash in front. -/
def escapeKey : List Char → List Char
  | [] => []
  | c :: cs => if c = '\'' ∨ c = '\\' then '\\' :: c :: escapeKey cs else c :: escapeKey cs

def quoteKey (k : String) : List Char := '\'' :: escapeKey k.toList ++ ['\'']

namespace Span

/-- The content of the bracket of a span. -/
def content (s : Span) : List Char :=
  decimal s.start ++ ':' ::
    match s.stop with
    | some stop => decimal stop
    | none => if s.offset = 0 then [] else decimal s.offset

end Span

namespace Pick

/-- The content of the bracket of a pick. -/
def content : Pick → List Char
  | .positions is => joinWith [','] (is.map decimal)
  | .span s => s.content
  | .names ks => joinWith [','] (ks.map quoteKey)

end Pick

def bracketed (content : List Char) : List Char := '[' :: content ++ [']']

namespace Step

/-- The segment that a step is written as. -/
def segment : Step → List Char
  | .index i => bracketed (decimal i)
  | .name k => bracketed (quoteKey k)
  | .pick p => bracketed p.content
  | .scan p => '.' :: '.' :: bracketed p.content

/-- The segment of a step as a text. -/
def text (s : Step) : String := String.ofList s.segment

end Step

namespace Path

def chars (p : Path) : List Char := '$' :: p.steps.flatMap Step.segment

/-- The expression of a path. -/
def text (p : Path) : String := String.ofList p.chars

@[simp] theorem toList_text (p : Path) : p.text.toList = p.chars := String.toList_ofList

end Path

/-! ### Facts -/

@[simp] theorem escapeKey_nil : escapeKey [] = [] := rfl

end PathQuery
