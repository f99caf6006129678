import PathQuery.Path.Bracket
import PathQuery.Path.Content

/-! # Reading a path

An expression is `$` and then segments: a bracket, or `..` and a bracket.  `readSegment` reads one
segment at a byte offset and answers the step, the offset after it and the text left;
`readSegments` reads them all, and `Path.parse` reads a whole expression.

`readBracket` reads the bracket between two given byte offsets of an expression. -/

namespace PathQuery

/-- Reads the bracket between two byte offsets of an expression, the `[` and the `]`. -/
def readBracket (expression : String) (opening close : Nat) : Except PathError Step :=
  match Text.sliceBytes? expression.toList (opening + 1) close with
  | some content => Step.ofContent opening content
  | none => .error (.invalid (.noContent opening close))

/-- Reads a bracket whose `[` stands at byte `opening` and is followed by the given text. -/
def readOpened (opening : Nat) (cs : List Char) : Except PathError (Step × Nat × List Char) := do
  let (content, rest) ← splitClose opening false (opening + 1) cs
  let step ← Step.ofContent opening content
  .ok (step, opening + 2 + Text.byteSize content, rest)

/-- Reads the segment at byte `offset`: its step, the offset after it and the text from there. -/
def readSegment (offset : Nat) : List Char → Except PathError (Step × Nat × List Char)
  | [] => .error (.ended .segmentStart)
  | '[' :: cs => readOpened offset cs
  | '.' :: '.' :: '[' :: cs => (readOpened (offset + 2) cs).map (Prod.map Step.deepen id)
  | '.' :: '.' :: c :: _ => .error (.unexpected (offset + 2) c .bracketAfterDots)
  | ['.', '.'] => .error (.ended .bracketAfterDots)
  | c :: _ => .error (.unexpected offset c .segmentStart)

theorem length_lt_of_readOpened {opening : Nat} {cs : List Char} {step : Step} {next : Nat}
    {rest : List Char} (h : readOpened opening cs = .ok (step, next, rest)) :
    rest.length < cs.length := by
  obtain ⟨⟨content, r⟩, hs, h⟩ := bind_eq_ok_iff.1 h
  obtain ⟨s, _, h⟩ := bind_eq_ok_iff.1 h
  simp at h
  rw [← h.2.2]
  exact length_lt_of_splitClose hs

theorem length_lt_of_readSegment {offset : Nat} {cs : List Char} {step : Step} {next : Nat}
    {rest : List Char} (h : readSegment offset cs = .ok (step, next, rest)) :
    rest.length < cs.length := by
  unfold readSegment at h
  split at h
  · simp at h
  · have := length_lt_of_readOpened h
    simp
    omega
  · obtain ⟨⟨s, n, r⟩, hr, hu⟩ := map_eq_ok_iff.1 h
    have := length_lt_of_readOpened hr
    simp at hu
    simp [← hu.2.2]
    omega
  all_goals simp at h

/-- Reads segments up to the end of the text, which starts at byte `offset`. -/
def readSegments (offset : Nat) (cs : List Char) : Except PathError (List Step) :=
  if cs.isEmpty then .ok []
  else
    match _h : readSegment offset cs with
    | .error e => .error e
    | .ok (step, next, rest) => (readSegments next rest).map (step :: ·)
termination_by cs.length
decreasing_by exact length_lt_of_readSegment _h

namespace Path

/-- Reads an expression given as its characters. -/
def ofChars : List Char → Except PathError Path
  | [] => .error (.invalid .emptyPath)
  | c :: cs =>
    if c = '$' then (readSegments 1 cs).map Path.mk else .error (.unexpected 0 c .pathStart)

/-- Reads an expression. -/
def parse (expression : String) : Except PathError Path := ofChars expression.toList

end Path

end PathQuery
