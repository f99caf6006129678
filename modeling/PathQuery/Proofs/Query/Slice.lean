import PathQuery.Proofs.Path.Acceptance
import PathQuery.Query

/-! # What a slice selects

A slice has one meaning, whichever step stands for it: on a sequence of length `n` it selects
the elements from position `sliceLower start n` to before `sliceUpper stop n`, each once and in
order, and on any other document nothing (`sliceOf`).  The reader answers a list of positions for
some slices and a span for others; both select what the slice means (`Grammar.Slice.select`), so
the choice between them does not show (`slice_meaning`).

Everything is compared through the positions at which an element is selected
(`elementsBetween_congr`), where the two bounds may be clamped to the length or not. -/

namespace PathQuery

open Grammar

/-! ### The meaning of a slice -/

/-- The first position of a slice in a sequence of a length. -/
def sliceLower (start : Option Int) (length : Nat) : Int :=
  match start with
  | none => 0
  | some start => if 0 ≤ start then min start length else max (length + start) 0

/-- The position before which a slice ends in a sequence of a length. -/
def sliceUpper (stop : Option Int) (length : Nat) : Int :=
  match stop with
  | none => length
  | some stop => if 0 ≤ stop then min stop length else max (length + stop) 0

/-- The elements at the positions from `lower` to before `upper`, in ascending order. -/
def elementsBetween {α : Type} (lower upper : Int) (items : List α) : List α :=
  (items.zipIdx.filter fun e => decide (lower ≤ (e.2 : Int) ∧ (e.2 : Int) < upper)).map Prod.fst

/-- What a slice selects from a document. -/
def sliceOf (start stop : Option Int) : Doc → List Doc
  | .seq items =>
    elementsBetween (sliceLower start items.length) (sliceUpper stop items.length) items
  | _ => []

section elements
variable {α : Type} {lower upper : Int}

theorem elementsBetween_congr {lower' upper' : Int} {items : List α}
    (h : ∀ i : Nat, i < items.length →
      (lower ≤ (i : Int) ∧ (i : Int) < upper ↔ lower' ≤ (i : Int) ∧ (i : Int) < upper')) :
    elementsBetween lower upper items = elementsBetween lower' upper' items := by
  unfold elementsBetween
  congr 1
  apply List.filter_congr
  intro e he
  have hi := List.snd_lt_of_mem_zipIdx he
  rw [decide_eq_decide]
  exact h e.2 hi

/-- Elements from position `k` on, with a bound below and a bound above. -/
theorem map_filter_zipIdx (items : List α) (k : Nat) :
    ((items.zipIdx k).filter fun e => decide (lower ≤ (e.2 : Int) ∧ (e.2 : Int) < upper)).map
        Prod.fst = (items.drop (lower.toNat - k)).take (upper.toNat - max lower.toNat k) := by
  induction items generalizing k with
  | nil => simp
  | cons x items ih =>
      rw [List.zipIdx_cons, List.filter_cons]
      rcases Nat.lt_or_ge k lower.toNat with hlo | hlo
      · have hp : ¬ (lower ≤ (k : Int) ∧ (k : Int) < upper) := by omega
        have hd : lower.toNat - k = (lower.toNat - (k + 1)) + 1 := by omega
        have hm : max lower.toNat k = max lower.toNat (k + 1) := by omega
        rw [if_neg (by simpa using hp), ih, hd, List.drop_succ_cons, hm]
      · have hd : lower.toNat - k = 0 := by omega
        have hd' : lower.toNat - (k + 1) = 0 := by omega
        have hm : max lower.toNat k = k := by omega
        have hm' : max lower.toNat (k + 1) = k + 1 := by omega
        rw [hd, List.drop_zero, hm]
        rcases Nat.lt_or_ge k upper.toNat with hup | hup
        · have hp : lower ≤ (k : Int) ∧ (k : Int) < upper := by omega
          have ht : upper.toNat - k = (upper.toNat - (k + 1)) + 1 := by omega
          rw [if_pos (by simpa using hp), List.map_cons, ih, hd', hm', List.drop_zero, ht,
            List.take_succ_cons]
        · have hp : ¬ (lower ≤ (k : Int) ∧ (k : Int) < upper) := by omega
          have ht : upper.toNat - k = 0 := by omega
          have ht' : upper.toNat - (k + 1) = 0 := by omega
          rw [if_neg (by simpa using hp), ih, hd', hm', List.drop_zero, ht, ht', List.take_zero,
            List.take_zero]

theorem elementsBetween_eq_take_drop (items : List α) :
    elementsBetween lower upper items =
      (items.drop lower.toNat).take (upper.toNat - lower.toNat) := by
  unfold elementsBetween
  rw [map_filter_zipIdx, Nat.sub_zero, Nat.max_zero]

end elements

/-! ### What the steps select -/

theorem elementAt?_of_nonneg {α : Type} (items : List α) {i : Int} (h : 0 ≤ i) :
    Doc.elementAt? items i = items[i.toNat]? := by
  unfold Doc.elementAt?
  rw [if_neg (Int.not_lt.mpr h)]
  dsimp only
  rw [if_pos h]

/-- Listed positions in a row select the elements between them, as far as there are any. -/
theorem select_positions_range (items : List Doc) {start : Int} (stop : Int) (h : 0 ≤ start) :
    (Pick.positions (Int.range start stop)).select (.seq items) =
      elementsBetween start stop items := by
  have hcount : ∀ n : Nat, ((List.range n).map fun k : Nat => start + (k : Int)).flatMap
      (fun i => (Doc.elementAt? items i).toList) = (items.drop start.toNat).take n := by
    intro n
    induction n with
    | zero => rfl
    | succ n ih =>
        have hpos : (start + (n : Int)).toNat = start.toNat + n := by omega
        rw [List.range_succ, List.map_append, List.flatMap_append, ih, List.map_singleton,
          List.flatMap_singleton, elementAt?_of_nonneg items (by omega), hpos, List.take_add_one,
          List.getElem?_drop]
  rw [elementsBetween_eq_take_drop, show stop.toNat - start.toNat = (stop - start).toNat by omega]
  exact hcount _

theorem lower_nonneg (s : Span) (length : Nat) : 0 ≤ s.lower length := by
  unfold Span.lower
  split_ifs <;> omega

theorem select_span (s : Span) (items : List Doc) : (Pick.span s).select (.seq items) =
    elementsBetween (s.lower items.length) (s.upper items.length) items := by
  have hlo := lower_nonneg s items.length
  rw [elementsBetween_eq_take_drop, Pick.select]
  unfold Span.slice
  dsimp only
  split_ifs with h
  · rw [show (s.upper items.length - s.lower items.length).toNat =
      (s.upper items.length).toNat - (s.lower items.length).toNat by omega]
  · rw [show (s.upper items.length).toNat - (s.lower items.length).toNat = 0 by omega,
      List.take_zero]

theorem element_of_not_seq {d : Doc} (h : ∀ items, d ≠ .seq items) (i : Int) :
    d.element i = [] := by
  cases d with
  | seq items => exact absurd rfl (h items)
  | _ => rfl

theorem select_span_of_not_seq {d : Doc} (h : ∀ items, d ≠ .seq items) (s : Span) :
    (Pick.span s).select d = [] := by
  cases d with
  | seq items => exact absurd rfl (h items)
  | _ => rfl

theorem Grammar.Slice.select_of_not_seq {start : Int} {stop : Option Int} {s : Step}
    (hs : Slice start stop s) {d : Doc} (h : ∀ items, d ≠ .seq items) : s.select d = [] := by
  cases hs with
  | listed _ _ _ => exact List.flatMap_eq_nil_iff.mpr fun i _ => element_of_not_seq h i
  | clamped _ _ => exact select_span_of_not_seq h _
  | fromEnd _ => exact select_span_of_not_seq h _
  | toEnd => exact select_span_of_not_seq h _

/-! ### The bounds of the steps -/

theorem lower_eq_sliceLower (start stop : Option Int) (offset : Int) (length : Nat) :
    Span.lower ⟨start.getD 0, stop, offset⟩ length = sliceLower start length := by
  unfold Span.lower sliceLower
  cases start with
  | none =>
      dsimp only [Option.getD_none]
      omega
  | some start =>
      dsimp only [Option.getD_some]
      split_ifs <;> omega

theorem upper_of_clamped {start stop : Int} (h : 0 ≤ stop) (length : Nat) :
    Span.upper ⟨start, some stop, 0⟩ length = sliceUpper (some stop) length := by
  dsimp only [Span.upper, sliceUpper]
  rw [if_neg (Int.not_lt.mpr h), if_pos h]

theorem upper_of_fromEnd {start stop : Int} (h : stop < 0) (length : Nat) :
    Span.upper ⟨start, none, stop⟩ length = sliceUpper (some stop) length := by
  dsimp only [Span.upper, sliceUpper]
  rw [if_neg (Int.not_le.mpr h)]
  omega

theorem upper_of_toEnd (start : Int) (length : Nat) :
    Span.upper ⟨start, none, 0⟩ length = sliceUpper none length := by
  dsimp only [Span.upper, sliceUpper]
  omega

/-- Known bounds may be clamped to the length or not. -/
theorem elementsBetween_clamped {α : Type} (items : List α) {start : Option Int} {stop : Int}
    (h : 0 ≤ start.getD 0) (h' : 0 ≤ stop) :
    elementsBetween (start.getD 0) stop items =
      elementsBetween (sliceLower start items.length) (sliceUpper (some stop) items.length)
        items := by
  apply elementsBetween_congr
  intro i hi
  dsimp only [sliceUpper]
  rw [if_pos h', ← lower_eq_sliceLower start none 0]
  unfold Span.lower
  dsimp only
  rw [if_neg (Int.not_lt.mpr h)]
  omega

/-- Listing the positions of a slice or leaving them to a span makes no difference. -/
theorem select_positions_eq_select_span {start stop : Int} (h : 0 ≤ start) (h' : 0 ≤ stop)
    (d : Doc) : (Pick.positions (Int.range start stop)).select d =
      (Pick.span ⟨start, some stop, 0⟩).select d := by
  cases d with
  | seq items =>
      have hlo : Span.lower ⟨start, some stop, 0⟩ items.length =
          sliceLower (some start) items.length := lower_eq_sliceLower (some start) _ _ _
      rw [select_positions_range items stop h, select_span, upper_of_clamped h', hlo]
      exact @elementsBetween_clamped _ items (some start) stop h h'
  | _ => exact List.flatMap_eq_nil_iff.mpr fun i _ => element_of_not_seq (by simp) i

/-- **Every step of a slice selects what the slice means.** -/
theorem Grammar.Slice.select {start stop : Option Int} {s : Step}
    (hs : Slice (start.getD 0) stop s) (d : Doc) : s.select d = sliceOf start stop d := by
  cases d with
  | seq items =>
      unfold sliceOf
      cases hs with
      | @listed stop hlo _ _ =>
          refine (select_positions_range items stop hlo).trans ?_
          exact elementsBetween_clamped items hlo (by omega)
      | clamped h0 _ =>
          refine (select_span _ items).trans ?_
          rw [lower_eq_sliceLower, upper_of_clamped h0]
      | fromEnd h0 =>
          refine (select_span _ items).trans ?_
          rw [lower_eq_sliceLower, upper_of_fromEnd h0]
      | toEnd =>
          refine (select_span _ items).trans ?_
          rw [lower_eq_sliceLower, upper_of_toEnd]
  | _ => exact hs.select_of_not_seq (by simp)

/-! ### Slices in expressions -/

theorem ofBounds_eq_error_iff (start : Int) (stop : Option Int) :
    (∃ e, Step.ofBounds start stop = .error e) ↔
      ∃ last, stop = some last ∧ 0 ≤ last ∧ 0 ≤ start ∧ last ≤ start := by
  constructor
  · rintro ⟨e, h⟩
    cases stop with
    | none => cases h
    | some last =>
        dsimp only [Step.ofBounds] at h
        split_ifs at h with h1 h2 h3
        exact ⟨last, rfl, Int.not_lt.mp h1, Int.not_lt.mp h2, h3⟩
  · rintro ⟨last, rfl, h1, h2, h3⟩
    refine ⟨.invalid (.emptySlice start last), ?_⟩
    dsimp only [Step.ofBounds]
    rw [if_neg (Int.not_lt.mpr h1), if_neg (Int.not_lt.mpr h2), if_pos h3]

/-- The expression of a slice with two given bounds, between other segments. -/
def sliceText (front a b back : List Char) : String :=
  String.ofList ('$' :: (front ++ (bracketed (a ++ ':' :: b) ++ back)))

theorem readSegments_slice {a b back : List Char} {start stop : Option Int} {ts : List Step}
    (ha : Bound a start) (hb : Bound b stop) (hback : Segments back ts) (offset : Nat) :
    readSegments offset (bracketed (a ++ ':' :: b) ++ back) =
      (Step.ofBounds (start.getD 0) stop).map (· :: ts) := by
  have henc : Enclosed (a ++ ':' :: b) :=
    (enclosed_of_indexChar (indexChar_of_bound ha)).append
      (.plain (by decide) (by decide) (enclosed_of_indexChar (indexChar_of_bound hb)))
  have e : bracketed (a ++ ':' :: b) ++ back = '[' :: (a ++ ':' :: b ++ ']' :: back) := by
    simp [bracketed]
  rw [e, readSegments_of_ne_nil offset (List.cons_ne_nil _ _), readSegment,
    readOpened_of_enclosed henc, ofContent_slice offset ha hb]
  cases Step.ofBounds (start.getD 0) stop with
  | error e => rfl
  | ok s =>
      simp only [Except.map]
      rw [readSegments_of_segments hback]

theorem parse_sliceText {front a b back : List Char} {start stop : Option Int}
    {ss ts : List Step} (hfront : Segments front ss) (ha : Bound a start) (hb : Bound b stop)
    (hback : Segments back ts) : Path.parse (sliceText front a b back) =
      (Step.ofBounds (start.getD 0) stop).map fun s => ⟨ss ++ s :: ts⟩ := by
  unfold Path.parse sliceText
  rw [String.toList_ofList]
  unfold Path.ofChars
  dsimp only
  rw [if_pos rfl, readSegments_append hfront, readSegments_slice ha hb hback]
  cases Step.ofBounds (start.getD 0) stop <;> rfl

/-- **The meaning of slices.**  A slice with two bounds of the grammar, anywhere among the segments
of an expression, is refused exactly if both ends are known, not negative and not in order.
Otherwise it is one step, which selects from every document what the slice means.  Known positions
could as well stay a span. -/
theorem slice_meaning {front a b back : List Char} {start stop : Option Int} {ss ts : List Step}
    (hfront : Segments front ss) (ha : Bound a start) (hb : Bound b stop)
    (hback : Segments back ts) :
    ((∃ e, Path.parse (sliceText front a b back) = .error e) ↔
      ∃ last, stop = some last ∧ 0 ≤ last ∧ 0 ≤ start.getD 0 ∧ last ≤ start.getD 0) ∧
    (∀ path, Path.parse (sliceText front a b back) = .ok path →
      ∃ s, path.steps = ss ++ s :: ts ∧ ∀ d, s.select d = sliceOf start stop d) ∧
    ∀ last, stop = some last → 0 ≤ start.getD 0 → 0 ≤ last → ∀ d,
      (Pick.positions (Int.range (start.getD 0) last)).select d =
        (Pick.span ⟨start.getD 0, some last, 0⟩).select d := by
  rw [parse_sliceText hfront ha hb hback]
  refine ⟨?_, ?_, ?_⟩
  · simp only [map_eq_error_iff]
    exact ofBounds_eq_error_iff _ _
  · intro path h
    obtain ⟨s, hs, rfl⟩ := map_eq_ok_iff.1 h
    exact ⟨s, rfl, (slice_of_ofBounds hs).select⟩
  · rintro last rfl hlo hup d
    exact select_positions_eq_select_span hlo hup d

/-- The last five elements before the fourth, of a sequence of six, and the first of each. -/
theorem slice_meaning_lastFive :
    ∃ path s, Path.parse (sliceText [] [' ', '-', '5'] ['4'] ['[', '0', ']']) = .ok path ∧
      path.steps = [s, .index 0] ∧
      s.select (.seq [.int 0, .int 1, .int 2, .int 3, .int 4, .int 5]) =
        [.int 1, .int 2, .int 3] := by
  have hzero : Step.ofContent 0 ['0'] = .ok (.index 0) := rfl
  have hback : Segments (['[', '0', ']'] ++ []) [.index 0] :=
    .cons (.bracket (content_of_ofContent hzero)) .nil
  have hstart : Bound [' ', '-', '5'] (some (-5)) := (readBound_eq_ok_iff _ _).mp rfl
  have hstop : Bound ['4'] (some 4) := (readBound_eq_ok_iff _ _).mp rfl
  obtain ⟨herr, hok, -⟩ := slice_meaning .nil hstart hstop hback
  rcases hp : Path.parse (sliceText [] [' ', '-', '5'] ['4'] ['[', '0', ']']) with e | path
  · obtain ⟨_, _, _, hneg, _⟩ := herr.mp ⟨e, hp⟩
    exact absurd hneg (by decide)
  · obtain ⟨s, hs, hsel⟩ := hok path hp
    refine ⟨path, s, rfl, hs, ?_⟩
    rw [hsel]
    rfl

end PathQuery
