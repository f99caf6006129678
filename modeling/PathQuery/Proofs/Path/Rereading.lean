import PathQuery.Proofs.Path.Canonical
import PathQuery.Query

/-! # Writing an accepted path again

An accepted expression is read, and the path is written as an expression.  This is not always the
expression that was read, since slices are written as the positions they list.  It is an expression
of the same meaning (`parse_text_of_parse`).

The only step that is not read back as it was is the list of one position, which has the text of an
index (`Step.reread`).  It has the text and the selection of that index, and so the second path is
written as the first one and selects what the first one selects. -/

namespace PathQuery

open Grammar

/-- What a step is read back as: a list of one position is an index. -/
def Step.reread : Step → Step
  | .pick (.positions [i]) => .index i
  | s => s

/-! ### Texts and selections -/

theorem reread_of_canonical {s : Step} (h : s.IsCanonical) : s.reread = s := by
  unfold Step.reread
  split
  · next i => exact absurd (show 2 ≤ [i].length from h) (by simp)
  · rfl

theorem segment_reread (s : Step) : s.reread.segment = s.segment := by
  unfold Step.reread
  split <;> rfl

theorem select_reread (s : Step) (d : Doc) : s.reread.select d = s.select d := by
  unfold Step.reread
  split
  · next i => exact (List.flatMap_singleton d.element i).symm
  · rfl

/-- Whatever an expression can have as a step is read back from its segment. -/
theorem Step.IsCompiled.segment {s : Step} (h : s.IsCompiled) : Segment s.segment s.reread := by
  obtain ⟨hw, hcan | ⟨i, rfl⟩⟩ := h
  · rw [reread_of_canonical hcan]
    exact segment_of_canonical hw hcan
  · exact segment_singleton (hw i List.mem_cons_self)

/-! ### Paths -/

theorem segments_reread {cs : List Char} {ss : List Step} (h : Segments cs ss) :
    Segments (ss.flatMap Step.segment) (ss.map Step.reread) := by
  induction h with
  | nil => exact .nil
  | cons hseg _ ih =>
      rw [List.flatMap_cons, List.map_cons]
      exact .cons hseg.compiled.segment ih

theorem text_reread (steps : List Step) :
    Path.text ⟨steps.map Step.reread⟩ = Path.text ⟨steps⟩ := by
  unfold Path.text Path.chars
  rw [List.flatMap_map]
  have hseg : (fun s : Step => s.reread.segment) = Step.segment := funext segment_reread
  rw [hseg]

theorem applyAll_reread (steps : List Step) (nodes : List Doc) :
    Step.applyAll (steps.map Step.reread) nodes = Step.applyAll steps nodes := by
  induction steps generalizing nodes with
  | nil => rfl
  | cons s steps ih =>
      have hselect : s.reread.select = s.select := funext (select_reread s)
      rw [List.map_cons, Step.applyAll_cons, Step.applyAll_cons, hselect]
      exact ih (nodes.flatMap s.select)

/-- **Writing an accepted path again.**  The expression of an accepted path is accepted.  Its steps
are those of the path, but an index for each list of one position.  It is written in the same way
and selects the same nodes from every document, in the same order and as often. -/
theorem parse_text_of_parse {expression : String} {steps : List Step}
    (h : Path.parse expression = .ok ⟨steps⟩) :
    Path.parse (Path.text ⟨steps⟩) = .ok ⟨steps.map Step.reread⟩ ∧
    Path.text ⟨steps.map Step.reread⟩ = Path.text ⟨steps⟩ ∧
    ∀ d, Path.eval ⟨steps.map Step.reread⟩ d = Path.eval ⟨steps⟩ d := by
  obtain ⟨cs, -, hsegments⟩ := exists_segments_of_parse h
  refine ⟨parse_of_segments (segments_reread hsegments), text_reread steps, ?_⟩
  intro d
  exact applyAll_reread steps [d]

/-- A slice of one position becomes an index, but not in a scan; a wide slice stays one. -/
theorem parse_text_shortSlices :
    Path.parse "$[4:5]..[7:8][ :2000]['it\\'s']" = .ok ⟨[.pick (.positions [4]),
      .scan (.positions [7]), .pick (.span ⟨0, some 2000, 0⟩), .name "it's"]⟩ ∧
    Path.parse (Path.text ⟨[.pick (.positions [4]), .scan (.positions [7]),
      .pick (.span ⟨0, some 2000, 0⟩), .name "it's"]⟩) = .ok ⟨[.index 4, .scan (.positions [7]),
      .pick (.span ⟨0, some 2000, 0⟩), .name "it's"]⟩ := by
  have hparse : Path.parse "$[4:5]..[7:8][ :2000]['it\\'s']" = .ok ⟨[.pick (.positions [4]),
      .scan (.positions [7]), .pick (.span ⟨0, some 2000, 0⟩), .name "it's"]⟩ := by
    decide +kernel
  exact ⟨hparse, (parse_text_of_parse hparse).1⟩

end PathQuery
