import PathQuery.Proofs.Path.Canonical

/-! # The steps of accepted expressions

Which lists of steps belong to an expression can be told from each step by itself
(`exists_expression_iff`).  A step that is canonical has the segment it is written as.  The only
others are lists of one position: a slice of one element stands for them, and because this slice
ends at the next position, the position is not negative and the next one is a word
(`Step.IsExpressible`).

So no step of an accepted expression is degenerate (`Step.IsProper`): it lists something, its keys
are not empty, and its span runs either to a known position or to one counted from the end. -/

namespace PathQuery

open Grammar

/-! ### Expressible and proper steps -/

/-- A canonical step, or a list of the one position of a slice. -/
def Step.IsExpressible (s : Step) : Prop :=
  s.InWords ∧
    (s.IsCanonical ∨ ∃ i, s = .pick (.positions [i]) ∧ 0 ≤ i ∧ i < 0x7fffffffffffffff)

/-- Something is listed, no key is empty, no span goes beyond the end, and a span that stops at a
position has no second end. -/
def Pick.IsProper : Pick → Prop
  | .positions is => is ≠ []
  | .span s => s.offset ≤ 0 ∧ ∀ stop, s.stop = some stop → 0 ≤ stop ∧ s.offset = 0
  | .names ks => ks ≠ [] ∧ ∀ k ∈ ks, k ≠ ""

/-- The key of the step is not empty and what it picks is proper. -/
def Step.IsProper : Step → Prop
  | .index _ => True
  | .name k => k ≠ ""
  | .pick p => p.IsProper
  | .scan p => p.IsProper

theorem Pick.IsCanonical.proper {p : Pick} (h : p.IsCanonical 1) : p.IsProper := by
  cases p with
  | positions is => exact List.length_pos_iff.mp h
  | span s =>
      obtain ⟨start, stop, offset⟩ := s
      cases stop with
      | none =>
          refine ⟨h, ?_⟩
          intro stop hstop
          cases hstop
      | some stop =>
          obtain ⟨hoffset, hstop, -⟩ := h
          refine ⟨le_of_eq hoffset, ?_⟩
          intro stop' he
          cases he
          exact ⟨hstop, hoffset⟩
  | names ks => exact ⟨List.length_pos_iff.mp h.1, h.2⟩

theorem Step.IsCanonical.proper {s : Step} (h : s.IsCanonical) : s.IsProper := by
  cases s with
  | index i => trivial
  | name k => exact h
  | pick p => exact (Pick.IsCanonical.mono h (by decide)).proper
  | scan p => exact Pick.IsCanonical.proper h

theorem Step.IsExpressible.proper {s : Step} (h : s.IsExpressible) : s.IsProper := by
  rcases h.2 with hcan | ⟨i, rfl, -, -⟩
  · exact hcan.proper
  · exact List.cons_ne_nil i []

/-! ### Slices of one element -/

theorem Grammar.Slice.single_bounds {start : Int} {stop : Option Int} {i : Int}
    (h : Slice start stop (.pick (.positions [i]))) (hw : InWord (stop.getD 0)) :
    0 ≤ i ∧ i < 0x7fffffffffffffff := by
  generalize hs : Step.pick (.positions [i]) = s at h
  cases h with
  | @listed stop hlo _ _ =>
      simp only [Step.pick.injEq, Pick.positions.injEq] at hs
      have hmem : i ∈ Int.range start stop := by
        rw [← hs]
        exact List.mem_cons_self
      have hrange := Int.mem_range_iff.mp hmem
      have hstop : stop < 0x8000000000000000 := hw.2
      constructor <;> omega
  | clamped _ _ => cases hs
  | fromEnd _ => cases hs
  | toEnd => cases hs

theorem Grammar.Content.single_bounds {cs : List Char} {i : Int}
    (h : Content cs (.pick (.positions [i]))) : 0 ≤ i ∧ i < 0x7fffffffffffffff := by
  cases h with
  | positions _ h2 => exact absurd h2 (by simp)
  | slice _ hstop hs => exact hs.single_bounds (inWord_of_bound hstop)

theorem range_succ_self (i : Int) : Int.range i (i + 1) = [i] := by
  simp [Int.range]

/-- A position that has a next one is the slice up to the next one. -/
theorem content_single {i : Int} (h0 : 0 ≤ i) (hlt : i < 0x7fffffffffffffff) :
    Content (decimal i ++ ':' :: decimal (i + 1)) (.pick (.positions [i])) := by
  have hi : InWord i := by
    unfold InWord
    omega
  have hnext : InWord (i + 1) := by
    unfold InWord
    omega
  have hslice : Slice i (some (i + 1)) (.pick (.positions (Int.range i (i + 1)))) :=
    .listed h0 (by omega) (by omega)
  rw [range_succ_self] at hslice
  exact .slice (.present (padded_decimal hi)) (.present (padded_decimal hnext)) hslice

/-! ### What segments name -/

theorem Grammar.Segment.expressible {cs : List Char} {s : Step} (h : Segment cs s) :
    s.IsExpressible := by
  obtain ⟨hw, hcan⟩ := h.compiled
  refine ⟨hw, ?_⟩
  rcases hcan with hcan | ⟨i, rfl⟩
  · exact .inl hcan
  · cases h with
    | bracket hc => exact .inr ⟨i, rfl, hc.single_bounds⟩
    | dots _ hd => cases hd

/-- The expressible steps are those that have a segment. -/
theorem exists_segment_iff (s : Step) : (∃ cs, Segment cs s) ↔ s.IsExpressible := by
  constructor
  · rintro ⟨cs, h⟩
    exact h.expressible
  · rintro ⟨hw, hcan | ⟨i, rfl, h0, hlt⟩⟩
    · exact ⟨s.segment, segment_of_canonical hw hcan⟩
    · exact ⟨_, .bracket (content_single h0 hlt)⟩

theorem exists_segments_iff (ss : List Step) :
    (∃ cs, Segments cs ss) ↔ ∀ s ∈ ss, ∃ cs, Segment cs s := by
  induction ss with
  | nil =>
      refine iff_of_true ⟨[], .nil⟩ ?_
      intro s hs
      cases hs
  | cons s ss ih =>
      rw [List.forall_mem_cons, ← ih]
      constructor
      · rintro ⟨cs, hcs⟩
        cases hcs with
        | cons hseg hrest => exact ⟨⟨_, hseg⟩, ⟨_, hrest⟩⟩
      · rintro ⟨⟨seg, hseg⟩, ⟨rest, hrest⟩⟩
        exact ⟨seg ++ rest, .cons hseg hrest⟩

/-- **The steps of accepted expressions.**  Steps are those of an accepted expression exactly if
each of them is canonical or lists the one position of a slice.  Then none of them is degenerate. -/
theorem exists_expression_iff (steps : List Step) :
    ((∃ expression, Path.parse expression = .ok ⟨steps⟩) ↔ ∀ s ∈ steps, s.IsExpressible) ∧
    ((∃ expression, Path.parse expression = .ok ⟨steps⟩) → ∀ s ∈ steps, s.IsProper) := by
  have hsegments : (∃ cs, Segments cs steps) ↔ ∀ s ∈ steps, s.IsExpressible := by
    rw [exists_segments_iff]
    exact forall₂_congr fun s _ => exists_segment_iff s
  have hparse : (∃ expression, Path.parse expression = .ok ⟨steps⟩) ↔
      ∀ s ∈ steps, s.IsExpressible := by
    rw [← hsegments]
    constructor
    · rintro ⟨expression, h⟩
      obtain ⟨cs, -, hcs⟩ := exists_segments_of_parse h
      exact ⟨cs, hcs⟩
    · rintro ⟨cs, hcs⟩
      exact ⟨_, parse_of_segments hcs⟩
  refine ⟨hparse, ?_⟩
  intro h s hs
  exact (hparse.mp h s hs).proper

end PathQuery
