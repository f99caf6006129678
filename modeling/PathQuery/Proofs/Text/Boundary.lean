import PathQuery.Text.Offset

/-! # Where a text can be cut

A text can be cut at a byte offset exactly if the offset is the size of a front part of the text,
and this part is unique (`front_eq_of_byteSize_eq`).  The cuts of a text are restated that way:
`dropBytes?_eq_some_iff` and `sliceBytes?_eq_some_iff`.  `CharAt` says which character stands at an
offset.

`IsBoundary` is the same notion for strings as they are stored, and the cuts succeed exactly at such
offsets (`exists_dropBytes?_iff`, `exists_sliceBytes?_iff`). -/

namespace PathQuery.Text

/-- The character `c` stands at byte `n` of a text. -/
def CharAt (cs : List Char) (n : Nat) (c : Char) : Prop :=
  ∃ front back, cs = front ++ c :: back ∧ byteSize front = n

theorem byteSize_cons_pos (c : Char) (cs : List Char) : 0 < byteSize (c :: cs) := by
  have h : 0 < c.utf8Size := Char.utf8Size_pos c
  rw [byteSize_cons]
  omega

theorem byteSize_ofList (cs : List Char) : (String.ofList cs).utf8ByteSize = byteSize cs := by
  induction cs with
  | nil => rfl
  | cons c cs ih =>
      have hsplit : String.ofList (c :: cs) = String.singleton c ++ String.ofList cs := by
        rw [String.singleton_eq_ofList, ← String.ofList_append]
        rfl
      rw [hsplit, String.utf8ByteSize_append, String.utf8ByteSize_singleton, ih, byteSize_cons]

theorem byteSize_toList (s : String) : byteSize s.toList = s.utf8ByteSize := by
  rw [← byteSize_ofList, String.ofList_toList]

theorem front_eq_of_byteSize_eq {a b c d : List Char} (h : a ++ b = c ++ d)
    (hsize : byteSize a = byteSize c) : a = c ∧ b = d := by
  induction a generalizing c with
  | nil =>
      cases c with
      | nil => exact ⟨rfl, h⟩
      | cons x c =>
          have hpos := byteSize_cons_pos x c
          rw [byteSize_nil] at hsize
          omega
  | cons x a ih =>
      cases c with
      | nil =>
          have hpos := byteSize_cons_pos x a
          rw [byteSize_nil] at hsize
          omega
      | cons y c =>
          rw [List.cons_append, List.cons_append] at h
          obtain ⟨rfl, htail⟩ := List.cons.inj h
          rw [byteSize_cons, byteSize_cons] at hsize
          obtain ⟨rfl, rfl⟩ := ih htail (Nat.add_left_cancel hsize)
          exact ⟨rfl, rfl⟩

/-- Of two front parts of one text the longer one goes on from the other. -/
theorem exists_append_of_byteSize_le {a b c d : List Char} (h : a ++ b = c ++ d)
    (hsize : byteSize a ≤ byteSize c) : ∃ middle, c = a ++ middle := by
  rcases List.append_eq_append_iff.mp h with ⟨middle, hc, -⟩ | ⟨middle, rfl, -⟩
  · exact ⟨middle, hc⟩
  · cases middle with
    | nil => exact ⟨[], by simp⟩
    | cons x middle =>
        have hpos := byteSize_cons_pos x middle
        rw [byteSize_append] at hsize
        omega

/-! ### The cuts -/

theorem exists_of_dropBytes? {n : Nat} {cs rest : List Char} (h : dropBytes? n cs = some rest) :
    ∃ front, cs = front ++ rest ∧ byteSize front = n := by
  fun_induction dropBytes? n cs with
  | case1 cs =>
      cases h
      exact ⟨[], rfl, rfl⟩
  | case2 => cases h
  | case3 n c cs hle ih =>
      obtain ⟨front, rfl, hsize⟩ := ih h
      refine ⟨c :: front, rfl, ?_⟩
      rw [byteSize_cons, hsize]
      omega
  | case4 => cases h

theorem exists_of_takeBytes? {n : Nat} {cs front : List Char} (h : takeBytes? n cs = some front) :
    ∃ rest, cs = front ++ rest ∧ byteSize front = n := by
  fun_induction takeBytes? n cs generalizing front with
  | case1 cs =>
      cases h
      exact ⟨cs, rfl, rfl⟩
  | case2 => cases h
  | case3 n c cs hle ih =>
      obtain ⟨tail, htail, rfl⟩ := Option.map_eq_some_iff.mp h
      obtain ⟨rest, rfl, hsize⟩ := ih htail
      refine ⟨rest, rfl, ?_⟩
      rw [byteSize_cons, hsize]
      omega
  | case4 => cases h

theorem dropBytes?_eq_some_iff (n : Nat) (cs rest : List Char) :
    dropBytes? n cs = some rest ↔ ∃ front, cs = front ++ rest ∧ byteSize front = n := by
  constructor
  · exact exists_of_dropBytes?
  · rintro ⟨front, rfl, rfl⟩
    exact dropBytes?_byteSize_append front rest

/-- The text between two offsets is what stands behind a front part of the first size and ends at
the second. -/
theorem sliceBytes?_eq_some_iff (cs middle : List Char) (a b : Nat) :
    sliceBytes? cs a b = some middle ↔ ∃ front back, cs = front ++ (middle ++ back) ∧
      byteSize front = a ∧ byteSize front + byteSize middle = b := by
  unfold sliceBytes?
  constructor
  · intro h
    split at h
    · rename_i hab
      obtain ⟨rest, hdrop, htake⟩ := Option.bind_eq_some_iff.mp h
      obtain ⟨front, rfl, hfront⟩ := exists_of_dropBytes? hdrop
      obtain ⟨back, rfl, hmiddle⟩ := exists_of_takeBytes? htake
      exact ⟨front, back, rfl, hfront, by omega⟩
    · cases h
  · rintro ⟨front, back, rfl, rfl, rfl⟩
    rw [if_pos (Nat.le_add_right _ _), dropBytes?_byteSize_append, Option.bind_some,
      Nat.add_sub_cancel_left, takeBytes?_byteSize_append]

theorem charAt_iff_dropBytes? (cs : List Char) (n : Nat) (c : Char) :
    CharAt cs n c ↔ ∃ back, dropBytes? n cs = some (c :: back) := by
  simp only [CharAt, dropBytes?_eq_some_iff]
  exact exists_comm

theorem dropBytes?_add {n : Nat} {cs middle back : List Char}
    (h : dropBytes? n cs = some (middle ++ back)) :
    dropBytes? (n + byteSize middle) cs = some back := by
  obtain ⟨front, rfl, rfl⟩ := (dropBytes?_eq_some_iff _ _ _).mp h
  rw [← byteSize_append, ← List.append_assoc]
  exact dropBytes?_byteSize_append _ back

theorem CharAt.lt_byteSize {cs : List Char} {n : Nat} {c : Char} (h : CharAt cs n c) :
    n < byteSize cs := by
  obtain ⟨front, back, rfl, rfl⟩ := h
  have hpos := byteSize_cons_pos c back
  rw [byteSize_append]
  omega

/-! ### Boundaries of strings -/

/-- Byte `n` is a character boundary of a string: the bytes before it are those of a text. -/
def IsBoundary (s : String) (n : Nat) : Prop := (String.Pos.Raw.mk n).IsValid s

instance (s : String) (n : Nat) : Decidable (IsBoundary s n) :=
  inferInstanceAs (Decidable ((String.Pos.Raw.mk n).IsValid s))

theorem isBoundary_iff (s : String) (n : Nat) :
    IsBoundary s n ↔ ∃ front back, s.toList = front ++ back ∧ byteSize front = n := by
  unfold IsBoundary
  rw [String.Pos.Raw.isValid_iff_exists_append]
  constructor
  · rintro ⟨front, back, rfl, hn⟩
    refine ⟨front.toList, back.toList, String.toList_append, ?_⟩
    rw [byteSize_toList]
    exact (congrArg String.Pos.Raw.byteIdx hn).symm
  · rintro ⟨front, back, hs, rfl⟩
    refine ⟨String.ofList front, String.ofList back, ?_, ?_⟩
    · rw [← String.ofList_append, ← hs, String.ofList_toList]
    · rw [← byteSize_ofList]
      rfl

theorem IsBoundary.le {s : String} {n : Nat} (h : IsBoundary s n) : n ≤ s.utf8ByteSize :=
  h.le_rawEndPos

theorem exists_dropBytes?_iff (s : String) (n : Nat) :
    (∃ rest, dropBytes? n s.toList = some rest) ↔ IsBoundary s n := by
  rw [isBoundary_iff]
  simp only [dropBytes?_eq_some_iff]
  exact exists_comm

/-- Two offsets in order with a boundary at each are those that a text can be cut out between. -/
theorem exists_sliceBytes?_iff (s : String) (a b : Nat) :
    (∃ middle, sliceBytes? s.toList a b = some middle) ↔
      a ≤ b ∧ IsBoundary s a ∧ IsBoundary s b := by
  simp only [isBoundary_iff, sliceBytes?_eq_some_iff]
  constructor
  · rintro ⟨middle, front, back, hs, rfl, rfl⟩
    refine ⟨Nat.le_add_right _ _, ⟨front, middle ++ back, hs, rfl⟩, front ++ middle, back, ?_, ?_⟩
    · rw [hs, List.append_assoc]
    · exact byteSize_append front middle
  · rintro ⟨hab, ⟨front, rest, hs, rfl⟩, before, back, hs', rfl⟩
    obtain ⟨middle, rfl⟩ := exists_append_of_byteSize_le (hs.symm.trans hs') hab
    refine ⟨middle, front, back, ?_, rfl, (byteSize_append front middle).symm⟩
    rw [hs', List.append_assoc]

/-- No text can be cut out between offsets that are not in order, or of which one is beyond the end
or inside a character. -/
theorem sliceBytes?_eq_none_iff (s : String) (a b : Nat) :
    sliceBytes? s.toList a b = none ↔
      b < a ∨ s.utf8ByteSize < b ∨ ¬ IsBoundary s a ∨ ¬ IsBoundary s b := by
  rw [← Option.not_isSome_iff_eq_none, Option.isSome_iff_exists, exists_sliceBytes?_iff,
    Classical.not_and_iff_not_or_not, Classical.not_and_iff_not_or_not, Nat.not_le]
  constructor
  · rintro (hlt | hboundary)
    · exact .inl hlt
    · exact .inr (.inr hboundary)
  · rintro (hlt | hbeyond | hboundary)
    · exact .inl hlt
    · exact .inr (.inr fun h => Nat.not_lt.mpr h.le hbeyond)
    · exact .inr hboundary

end PathQuery.Text
