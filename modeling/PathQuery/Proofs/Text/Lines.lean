import PathQuery.Text.Lines

/-! # How a text is cut into lines

The line feeds of a text cut it into pieces.  A piece before a line feed is a line, less one carriage
return at its end; the last piece is a line as it stands, unless it is empty (`lines_eq_splitLines`).
If a line feed joins two texts, the pieces of the first one are lines before those of the second one
(`lines_append_lineFeed`). -/

namespace PathQuery.Text

/-- A piece of a text without one carriage return at its end. -/
def withoutReturn (piece : List Char) : List Char :=
  if piece.getLast? = some '\r' then piece.dropLast else piece

/-- The lines of a text that a line feed follows. -/
def endedLines (cs : List Char) : List (List Char) := (cs.splitOn '\n').map withoutReturn

/-- The lines of a text, from the pieces between its line feeds. -/
def splitLines (cs : List Char) : List (List Char) :=
  (cs.splitOn '\n').dropLast.map withoutReturn ++
    (cs.splitOn '\n').getLast?.toList.filter (!·.isEmpty)

/-! ### Pieces -/

theorem withoutReturn_of_ne {piece : List Char} (h : piece.getLast? ≠ some '\r') :
    withoutReturn piece = piece := if_neg h

@[simp] theorem withoutReturn_append_return (piece : List Char) :
    withoutReturn (piece ++ ['\r']) = piece := by
  simp [withoutReturn]

theorem endedLine_reverse (piece : List Char) : endedLine piece.reverse = withoutReturn piece := by
  rcases List.eq_nil_or_concat piece with rfl | ⟨front, c, rfl⟩
  · rfl
  · by_cases hc : c = '\r'
    · simp [endedLine, hc]
    · simp [endedLine, withoutReturn, hc]

/-- A text is one piece, or it begins with a piece and a line feed. -/
theorem pieces_induction {P : List Char → Prop} (last : ∀ piece, '\n' ∉ piece → P piece)
    (feed : ∀ piece rest, '\n' ∉ piece → P rest → P (piece ++ '\n' :: rest)) (cs : List Char) :
    P cs := by
  induction hlength : cs.length using Nat.strongRecOn generalizing cs with
  | ind n ih =>
      by_cases hmem : '\n' ∈ cs
      · obtain ⟨piece, rest, rfl, hpiece⟩ := List.eq_append_cons_of_mem hmem
        refine feed piece rest hpiece (ih rest.length ?_ rest rfl)
        rw [← hlength, List.length_append, List.length_cons]
        omega
      · exact last cs hmem

/-! ### Lines -/

theorem lines_piece {piece : List Char} (h : '\n' ∉ piece) :
    lines piece = [piece].filter (!·.isEmpty) := by
  have hline : linesAfter [] piece = linesAfter (piece.reverse ++ []) [] := by
    rw [← linesAfter_append h, List.append_nil]
  rw [lines, hline, List.append_nil]
  cases piece with
  | nil => rfl
  | cons c cs =>
      rw [linesAfter_nil_of_ne (by simp), List.reverse_reverse]
      rfl

theorem lines_piece_lineFeed {piece : List Char} (h : '\n' ∉ piece) (rest : List Char) :
    lines (piece ++ '\n' :: rest) = withoutReturn piece :: lines rest := by
  rw [lines, linesAfter_append h, List.append_nil, linesAfter_lineFeed, endedLine_reverse]

/-- The lines are what stands between line feeds, up to the end of the text. -/
theorem lines_eq_splitLines (cs : List Char) : lines cs = splitLines cs := by
  induction cs using pieces_induction with
  | last piece hpiece =>
      rw [lines_piece hpiece, splitLines, List.splitOn_eq_singleton hpiece]
      rfl
  | feed piece rest hpiece ih =>
      obtain ⟨next, more, hrest⟩ :=
        List.exists_cons_of_ne_nil (List.splitOn_ne_nil '\n' rest)
      rw [lines_piece_lineFeed hpiece, ih, splitLines, splitLines,
        List.splitOn_append_cons_self_of_not_mem hpiece, hrest, List.dropLast_cons_cons,
        List.getLast?_cons_cons]
      rfl

/-! ### A line feed between two texts -/

theorem endedLines_piece {piece : List Char} (h : '\n' ∉ piece) :
    endedLines piece = [withoutReturn piece] := by
  rw [endedLines, List.splitOn_eq_singleton h, List.map_singleton]

theorem endedLines_piece_lineFeed {piece : List Char} (h : '\n' ∉ piece) (rest : List Char) :
    endedLines (piece ++ '\n' :: rest) = withoutReturn piece :: endedLines rest := by
  rw [endedLines, List.splitOn_append_cons_self_of_not_mem h, List.map_cons, endedLines]

theorem length_endedLines (cs : List Char) : (endedLines cs).length = cs.count '\n' + 1 := by
  induction cs using pieces_induction with
  | last piece hpiece =>
      rw [endedLines_piece hpiece, List.count_eq_zero.mpr hpiece, List.length_singleton]
  | feed piece rest hpiece ih =>
      rw [endedLines_piece_lineFeed hpiece, List.length_cons, ih, List.count_append,
        List.count_eq_zero.mpr hpiece, List.count_cons_self, Nat.zero_add]

theorem lines_append_lineFeed (a b : List Char) :
    lines (a ++ '\n' :: b) = endedLines a ++ lines b := by
  induction a using pieces_induction with
  | last piece hpiece =>
      rw [lines_piece_lineFeed hpiece, endedLines_piece hpiece, List.singleton_append]
  | feed piece rest hpiece ih =>
      rw [List.append_assoc, List.cons_append, lines_piece_lineFeed hpiece, ih,
        endedLines_piece_lineFeed hpiece, List.cons_append]

/-- A line feed behind a text changes nothing but the last line. -/
theorem exists_lines_endedLines (cs : List Char) :
    ∃ front piece, lines cs = front ++ [piece].filter (!·.isEmpty) ∧
      endedLines cs = front ++ [withoutReturn piece] := by
  induction cs using pieces_induction with
  | last piece hpiece => exact ⟨[], piece, lines_piece hpiece, endedLines_piece hpiece⟩
  | feed piece rest hpiece ih =>
      obtain ⟨front, last, hlines, hended⟩ := ih
      refine ⟨withoutReturn piece :: front, last, ?_, ?_⟩
      · rw [lines_piece_lineFeed hpiece, hlines, List.cons_append]
      · rw [endedLines_piece_lineFeed hpiece, hended, List.cons_append]

/-- Lines that are ended one after the other are the lines of their text. -/
theorem lines_flatMap {parts : List (List Char)}
    (h : ∀ line ∈ parts, '\n' ∉ line ∧ '\r' ∉ line) :
    lines (parts.flatMap (· ++ ['\n'])) = parts := by
  induction parts with
  | nil => rfl
  | cons line parts ih =>
      obtain ⟨⟨hfeed, hreturn⟩, hparts⟩ := List.forall_mem_cons.mp h
      rw [List.flatMap_cons, List.append_assoc, List.singleton_append, lines_piece_lineFeed hfeed,
        withoutReturn_of_ne fun hlast => hreturn (List.mem_of_getLast? hlast), ih hparts]

end PathQuery.Text
