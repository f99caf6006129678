import Mathlib.Algebra.GroupWithZero.Nat
import Mathlib.Data.Int.Range
import Mathlib.Data.List.Range
import PathQuery.Proofs.Path.Spacing

/-! # The size of a path

A path holds no more indices and keys than its expression has commas, and at most `widestListed` more
for each of its steps, whatever the numbers in the expression are (`size_of_parse`).  A list of
elements is one longer than it has separators.  Only a slice names more than it writes, and it is
listed only up to `widestListed` positions, one after the other. -/

namespace PathQuery

open Grammar

variable {α : Type}

/-! ### What a path holds -/

/-- The number of indices, bounds and keys in a pick. -/
def Pick.size : Pick → Nat
  | .positions is => is.length
  | .span s => 2 + s.stop.toList.length
  | .names ks => ks.length

def Step.size : Step → Nat
  | .index _ => 1
  | .name _ => 1
  | .pick p => p.size
  | .scan p => p.size

/-- The number of indices, bounds and keys in a path. -/
def Path.size (p : Path) : Nat := (p.steps.map Step.size).sum

/-- The positions that a step lists. -/
def Step.positions? : Step → Option (List Int)
  | .pick (.positions is) => some is
  | .scan (.positions is) => some is
  | _ => none

theorem Step.size_deepen (s : Step) : s.deepen.size = s.size := by
  cases s <;> rfl

/-! ### Lists and slices -/

theorem Grammar.Separated.length_le {sep : Char} {G : List Char → α → Prop} {cs : List Char}
    {as : List α} (h : Separated sep G cs as) : as.length ≤ cs.count sep + 1 := by
  induction h with
  | one _ => exact Nat.le_add_left 1 _
  | cons _ _ ih =>
      rw [List.length_cons, List.count_append, List.count_cons_self]
      omega

/-- A run of positions: at least one and not too many, each the one after the one before. -/
structure IsRun (is : List Int) : Prop where
  one_le_length : 1 ≤ is.length
  length_le : is.length ≤ 1024
  ascending : is.IsChain fun i j => j = i + 1

theorem length_intRange (start stop : Int) : (Int.range start stop).length = (stop - start).toNat := by
  rw [Int.range, List.length_map, List.length_range]

theorem isChain_intRange (start stop : Int) : (Int.range start stop).IsChain fun i j => j = i + 1 := by
  rw [Int.range, List.isChain_map, List.isChain_range]
  intro m _
  push_cast
  omega

theorem Grammar.Slice.isRun {start : Int} {stop : Option Int} {s : Step} {is : List Int}
    (h : Slice start stop s) (his : s.positions? = some is) : IsRun is := by
  cases h with
  | @listed stop hlo hlt hwidth =>
      cases his
      refine ⟨?_, ?_, isChain_intRange start stop⟩
      · rw [length_intRange]
        omega
      · rw [length_intRange]
        omega
  | clamped _ _ => cases his
  | fromEnd _ => cases his
  | toEnd => cases his

theorem Grammar.Slice.positions?_deepen {start : Int} {stop : Option Int} {s : Step}
    (h : Slice start stop s) : s.deepen.positions? = s.positions? := by
  cases h <;> rfl

theorem Grammar.Slice.size_le {start : Int} {stop : Option Int} {s : Step} (h : Slice start stop s) :
    s.size ≤ 1024 := by
  cases h with
  | @listed stop hlo hlt hwidth =>
      show (Int.range start stop).length ≤ 1024
      rw [length_intRange]
      omega
  | clamped _ _ => exact Nat.le_of_ble_eq_true rfl
  | fromEnd _ => exact Nat.le_of_ble_eq_true rfl
  | toEnd => exact Nat.le_of_ble_eq_true rfl

/-! ### Contents and segments -/

theorem Grammar.Content.size_le {cs : List Char} {s : Step} (h : Content cs s) :
    s.size ≤ 1024 + cs.count ',' := by
  cases h with
  | index _ =>
      show 1 ≤ _
      omega
  | @positions _ is h _ =>
      have hlength := h.length_le
      show is.length ≤ _
      omega
  | slice _ _ hs => exact Nat.le_add_right_of_le hs.size_le
  | name _ =>
      show 1 ≤ _
      omega
  | @names _ items h _ =>
      have hlength := h.1.length_le
      show (items.map KeyItem.key).length ≤ _
      rw [List.length_map]
      omega

theorem Grammar.Segment.size_le {cs : List Char} {s : Step} (h : Segment cs s) :
    s.size ≤ 1024 + cs.count ',' := by
  cases h with
  | bracket hc =>
      have hsize := hc.size_le
      simpa using hsize
  | dots hc hd =>
      have hsize := hc.size_le
      rw [hd.eq_deepen, Step.size_deepen]
      simpa using hsize

theorem Grammar.Segments.size_le {cs : List Char} {ss : List Step} (h : Segments cs ss) :
    (ss.map Step.size).sum ≤ 1024 * ss.length + cs.count ',' := by
  induction h with
  | nil => exact Nat.zero_le _
  | cons hseg _ ih =>
      have hsize := hseg.size_le
      rw [List.map_cons, List.sum_cons, List.length_cons, List.count_append]
      omega

/-! ### Expressions -/

/-- The content of a bracket that holds a slice: a colon, no quote, and no bracket that ends it. -/
structure IsSliceText (content : String) : Prop where
  no_quote : '\'' ∉ content.toList
  no_close : ']' ∉ content.toList
  colon : ':' ∈ content.toList

/-- What a text with a colon and without quotes stands for is a slice. -/
theorem IsSliceText.exists_slice {content : String} (h : IsSliceText content) {s : Step}
    (hs : Content content.toList s) : ∃ start stop, Slice start stop s := by
  have hread := ofContent_of_content 0 hs
  rw [ofContent_of_colon 0 h.no_quote h.colon, readSlice_eq_ok_iff] at hread
  obtain ⟨-, -, start, stop, -, -, -, hslice⟩ := hread
  exact ⟨start.getD 0, stop, hslice⟩

theorem IsSliceText.enclosed {content : String} (h : IsSliceText content) :
    Enclosed content.toList := by
  refine enclosed_of_forall fun c hc => ⟨?_, ?_⟩
  · rintro rfl
    exact h.no_quote hc
  · rintro rfl
    exact h.no_close hc

/-- **Size.**  A path holds at most as many indices and keys as its expression has commas, and 1024
more for each step.  Each bracket of the expression that holds a slice has a step behind those of the
path in front of it; if this step lists positions, they are at least one and at most 1024, and each
is the one after the one before. -/
theorem size_of_parse {e : String} {p : Path} (h : Path.parse e = .ok p) :
    p.size ≤ 1024 * p.steps.length + e.toList.count ',' ∧
    ∀ (front dots content back : String) (q : Path),
      e = front ++ dots ++ "[" ++ content ++ "]" ++ back → Path.parse front = .ok q →
      dots = "" ∨ dots = ".." → IsSliceText content →
      ∃ s, p.steps[q.steps.length]? = some s ∧ ∀ is, s.positions? = some is → IsRun is := by
  obtain ⟨ts⟩ := p
  obtain ⟨cs, hcs, hsegments⟩ := exists_segments_of_parse h
  constructor
  · rw [hcs, List.count_cons_of_ne (by decide)]
    exact hsegments.size_le
  · rintro front dots content back ⟨qs⟩ rfl hq hdots hslice
    obtain ⟨fs, hfs, hfront⟩ := exists_segments_of_parse hq
    have hchars : cs = fs ++ (dots.toList ++ '[' :: (content.toList ++ ']' :: back.toList)) := by
      simpa [String.toList_append, hfs] using hcs.symm
    rw [hchars] at hsegments
    obtain ⟨us, hus, rfl⟩ := (segments_append_iff hfront).mp hsegments
    have hdots' : dots.toList = [] ∨ dots.toList = ['.', '.'] := by
      rcases hdots with rfl | rfl
      · exact .inl rfl
      · exact .inr rfl
    obtain ⟨s, us, hs, -, rfl⟩ := (segments_bracket_iff hdots' hslice.enclosed).mp hus
    refine ⟨_, by rw [List.getElem?_append_right (Nat.le_refl _), Nat.sub_self]; rfl, ?_⟩
    intro is his
    obtain ⟨start, stop, hrun⟩ := hslice.exists_slice hs
    split_ifs at his
    · exact hrun.isRun his
    · rw [hrun.positions?_deepen] at his
      exact hrun.isRun his

/-- A long slice is not listed, a short one is, and a comma in quotes is no separator. -/
theorem size_of_parse_threeBrackets :
    Path.parse "$[0:9223372036854775807]..[5:8]['a,b',7]" =
      .ok ⟨[.pick (.span ⟨0, some 9223372036854775807, 0⟩), .scan (.positions [5, 6, 7]),
        .pick (.names ["a,b", "7"])]⟩ ∧
    Path.size ⟨[.pick (.span ⟨0, some 9223372036854775807, 0⟩), .scan (.positions [5, 6, 7]),
      .pick (.names ["a,b", "7"])]⟩ ≤ 1024 * 3 + 2 ∧
    IsRun [5, 6, 7] := by
  have hparse : Path.parse "$[0:9223372036854775807]..[5:8]['a,b',7]" =
      .ok ⟨[.pick (.span ⟨0, some 9223372036854775807, 0⟩), .scan (.positions [5, 6, 7]),
        .pick (.names ["a,b", "7"])]⟩ := by decide +kernel
  have hfront : Path.parse "$[0:9223372036854775807]" =
      .ok ⟨[.pick (.span ⟨0, some 9223372036854775807, 0⟩)]⟩ := by decide +kernel
  obtain ⟨hsize, hslices⟩ := size_of_parse hparse
  obtain ⟨s, hs, hrun⟩ := hslices "$[0:9223372036854775807]" ".." "5:8" "['a,b',7]" _ rfl hfront
    (.inr rfl) ⟨by decide, by decide, by decide⟩
  cases hs
  exact ⟨hparse, hsize, hrun _ rfl⟩

end PathQuery
