/-! # Lines of a text

`lines` cuts a text at its line feeds.  A carriage return right before a line feed belongs to the
end of the line, one before the end of the text does not.  Nothing follows a line feed that ends
the text: the empty text has no line. -/

namespace PathQuery.Text

/-- A line that ends with a line feed, from its characters in reverse. -/
def endedLine : List Char → List Char
  | '\r' :: line => line.reverse
  | line => line.reverse

/-- The lines of a text whose first line begins with the characters of `line` in reverse. -/
def linesAfter (line : List Char) : List Char → List (List Char)
  | [] => if line.isEmpty then [] else [line.reverse]
  | c :: cs => if c == '\n' then endedLine line :: linesAfter [] cs else linesAfter (c :: line) cs

/-- The lines of a text. -/
def lines (cs : List Char) : List (List Char) := linesAfter [] cs

/-! ### Facts -/

@[simp] theorem lines_nil : lines [] = [] := rfl

@[simp] theorem linesAfter_nil_of_ne {line : List Char} (h : line ≠ []) :
    linesAfter line [] = [line.reverse] := by
  cases line with
  | nil => contradiction
  | cons c cs => rfl

@[simp] theorem linesAfter_lineFeed (line cs : List Char) :
    linesAfter line ('\n' :: cs) = endedLine line :: lines cs := rfl

/-- What is before a line feed is cut as if the text ended there. -/
theorem linesAfter_append {a : List Char} (h : '\n' ∉ a) (line b : List Char) :
    linesAfter line (a ++ b) = linesAfter (a.reverse ++ line) b := by
  induction a generalizing line with
  | nil => rfl
  | cons c cs ih =>
    have hc : (c == '\n') = false := by
      simp only [List.mem_cons, not_or] at h
      simpa using fun e => h.1 e.symm
    simp only [List.mem_cons, not_or] at h
    simp [linesAfter, hc, ih h.2]

end PathQuery.Text
