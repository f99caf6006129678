import PathQuery.Path.Fault
import PathQuery.Result
import PathQuery.Text.Offset

/-! # Finding the bracket that closes

Brackets do not nest: a bracket ends at the first `]` outside quotes.  Inside single quotes a
backslash takes the meaning of the next character away, outside quotes it has none.

`splitClose` cuts the text after a `[` into the content and what follows the `]`; `findClose` does
so at a byte offset of a whole expression and answers the offset of the `]`. -/

namespace PathQuery

/-- Cuts a text at the `]` that closes the bracket opened at byte `opening`: the content and what
follows the `]`.  The text starts at byte `offset`, inside quotes if `quoted` is set. -/
def splitClose (opening : Nat) :
    (quoted : Bool) → (offset : Nat) → List Char → Except PathError (List Char × List Char)
  | false, _, [] => .error (.ended (.closeBracket opening))
  | true, _, [] => .error (.ended .closingQuote)
  | false, offset, c :: cs =>
    if c = ']' then .ok ([], cs)
    else (splitClose opening (c == '\'') (offset + c.utf8Size) cs).map (Prod.map (c :: ·) id)
  | true, offset, c :: cs =>
    if c = '\\' then
      match cs with
      | [] => .error (.invalid (.danglingEscapeAt offset))
      | d :: ds =>
        (splitClose opening true (offset + c.utf8Size + d.utf8Size) ds).map
          (Prod.map (c :: d :: ·) id)
    else (splitClose opening (c != '\'') (offset + c.utf8Size) cs).map (Prod.map (c :: ·) id)

/-- The byte offset of the `]` that closes the bracket opened at byte `opening`. -/
def findClose (expression : String) (opening : Nat) : Except PathError Nat :=
  let cs := expression.toList
  match Text.dropBytes? opening cs with
  | some ('[' :: rest) =>
    (splitClose opening false (opening + 1) rest).map fun r => opening + 1 + Text.byteSize r.1
  | some (found :: _) => .error (.unexpected opening found .openBracket)
  | some [] => .error (.ended .openBracket)
  | none =>
    match Text.byteAt? cs opening with
    | some byte => .error (.invalid (.insideCharacter opening byte))
    | none => .error (.ended .openBracket)

/-! ### Facts -/

/-- Nothing of the text is lost at the cut but the `]`. -/
theorem eq_append_of_splitClose {opening : Nat} {quoted : Bool} {offset : Nat}
    {cs content rest : List Char} (h : splitClose opening quoted offset cs = .ok (content, rest)) :
    cs = content ++ ']' :: rest := by
  fun_induction splitClose opening quoted offset cs generalizing content rest with
  | case1 => simp at h
  | case2 => simp at h
  | case3 => simp_all
  | case4 offset c cs hc ih =>
    obtain ⟨⟨u, v⟩, hr, hu⟩ := map_eq_ok_iff.1 h
    simp at hu; simp [← hu.1, ← hu.2, ih hr]
  | case5 => simp at h
  | case6 offset d ds ih =>
    obtain ⟨⟨u, v⟩, hr, hu⟩ := map_eq_ok_iff.1 h
    simp at hu; simp [← hu.1, ← hu.2, ih hr]
  | case7 offset c cs hc ih =>
    obtain ⟨⟨u, v⟩, hr, hu⟩ := map_eq_ok_iff.1 h
    simp at hu; simp [← hu.1, ← hu.2, ih hr]

theorem length_lt_of_splitClose {opening : Nat} {quoted : Bool} {offset : Nat}
    {cs content rest : List Char} (h : splitClose opening quoted offset cs = .ok (content, rest)) :
    rest.length < cs.length := by
  simp [eq_append_of_splitClose h]
  omega

end PathQuery
