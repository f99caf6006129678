import PathQuery.Path.Content
import PathQuery.Proofs.Path.Grammar

/-! # Reading one integer

`readIndex` reads exactly the integers of the grammar between blanks (`readIndex_eq_ok_iff`), and
`readBound` the bounds of slices (`readBound_eq_ok_iff`).  Trimming comes first: a text is its
trimmed form between blanks (`exists_trim`), and trimming undoes the padding of a text without
blanks (`trim_append`).  The characters of an integer between blanks are `IndexChar`s, none of
which has a meaning of its own in a bracket. -/

namespace PathQuery

open Grammar

/-! ### Trimming -/

section trim
open Text

theorem blanks_nil : Blanks [] := by
  intro c hc
  simp at hc

theorem blanks_iff_allBlank (cs : List Char) : Blanks cs ↔ allBlank cs = true := by
  unfold Blanks allBlank
  rw [List.all_eq_true]

theorem Grammar.Blanks.append {a b : List Char} (ha : Blanks a) (hb : Blanks b) :
    Blanks (a ++ b) := by
  intro c hc
  rcases List.mem_append.mp hc with h | h
  · exact ha c h
  · exact hb c h

theorem blanks_takeWhile (cs : List Char) : Blanks (cs.takeWhile isBlank) := by
  intro c hc
  exact List.all_eq_true.mp (List.all_takeWhile (l := cs)) c hc

theorem trimStart_append {l : List Char} (hl : Blanks l) (cs : List Char) :
    trimStart (l ++ cs) = trimStart cs :=
  List.dropWhile_append_of_pos hl

theorem trimStart_of_head {cs : List Char} (h : ∀ c ∈ cs.head?, isBlank c = false) :
    trimStart cs = cs := by
  cases cs with
  | nil => rfl
  | cons c cs => rw [trimStart_cons, if_neg (by simp [h c rfl])]

theorem exists_trimStart (cs : List Char) : ∃ l, Blanks l ∧ cs = l ++ trimStart cs :=
  ⟨cs.takeWhile isBlank, blanks_takeWhile cs, (List.takeWhile_append_dropWhile).symm⟩

theorem trimEnd_append {r : List Char} (hr : Blanks r) (cs : List Char) :
    trimEnd (cs ++ r) = trimEnd cs := by
  unfold trimEnd
  rw [List.reverse_append, List.dropWhile_append_of_pos]
  intro c hc
  exact hr c (List.mem_reverse.mp hc)

theorem exists_trimEnd (cs : List Char) : ∃ r, Blanks r ∧ cs = trimEnd cs ++ r := by
  refine ⟨(cs.reverse.takeWhile isBlank).reverse, ?_, ?_⟩
  · intro c hc
    exact blanks_takeWhile cs.reverse c (List.mem_reverse.mp hc)
  · unfold trimEnd
    rw [← List.reverse_append, List.takeWhile_append_dropWhile, List.reverse_reverse]

theorem exists_trim (cs : List Char) : ∃ l r, Blanks l ∧ Blanks r ∧ cs = l ++ trim cs ++ r := by
  obtain ⟨l, hl, el⟩ := exists_trimStart cs
  obtain ⟨r, hr, er⟩ := exists_trimEnd (trimStart cs)
  refine ⟨l, r, hl, hr, ?_⟩
  rw [List.append_assoc, trim, ← er]
  exact el

theorem trimStart_of_forall {m : List Char} (hm : ∀ c ∈ m, isBlank c = false) :
    trimStart m = m :=
  trimStart_of_head fun c hc => hm c (List.mem_of_mem_head? hc)

theorem trimEnd_of_forall {m : List Char} (hm : ∀ c ∈ m, isBlank c = false) : trimEnd m = m := by
  have h : trimStart m.reverse = m.reverse :=
    trimStart_of_forall fun c hc => hm c (List.mem_reverse.mp hc)
  unfold trimEnd
  rw [← trimStart, h, List.reverse_reverse]

theorem trim_append {l m r : List Char} (hl : Blanks l) (hm : ∀ c ∈ m, isBlank c = false)
    (hr : Blanks r) : trim (l ++ m ++ r) = m := by
  rcases m with _ | ⟨c, m⟩
  · rw [List.append_nil, trim, trimStart_append hl,
      (trimStart_eq_nil_iff r).mpr hr]
    rfl
  · have h : trimStart (c :: m ++ r) = c :: m ++ r :=
      trimStart_of_head fun d hd => by
        simp only [List.cons_append, List.head?_cons, Option.mem_def, Option.some.injEq] at hd
        exact hd ▸ hm c List.mem_cons_self
    rw [List.append_assoc, trim, trimStart_append hl, h, trimEnd_append hr,
      trimEnd_of_forall hm]

end trim

/-! ### Numerals and literals -/

theorem natOfDigits_eq (ds : List Char) : natOfDigits ds = Nat.ofDigitChars 10 ds 0 := by
  rw [Nat.ofDigitChars_eq_foldl]
  rfl

theorem numeral_iff {ds : List Char} {n : Nat} :
    Numeral ds n ↔ (ds ≠ [] ∧ ds.all Char.isDigit = true) ∧ natOfDigits ds = n := by
  rw [List.all_eq_true, natOfDigits_eq]
  constructor
  · intro h
    exact ⟨⟨h.ne_nil, h.digits⟩, h.value⟩
  · rintro ⟨⟨hne, hd⟩, hv⟩
    exact ⟨hne, hd, hv⟩

theorem not_numeral_minus {ds : List Char} {n : Nat} : ¬ Numeral ('-' :: ds) n := by
  intro h
  exact absurd (h.digits '-' List.mem_cons_self) (by decide)

theorem intOfDigits?_eq_some_iff (cs : List Char) (n : Int) :
    intOfDigits? cs = some n ↔ Literal cs n := by
  unfold intOfDigits?
  split
  · rename_i ds
    rw [Option.ite_none_right_eq_some, Option.some.injEq]
    constructor
    · rintro ⟨hd, rfl⟩
      exact .negative (numeral_iff.mpr ⟨hd, rfl⟩)
    · intro h
      cases h with
      | natural h => exact absurd h not_numeral_minus
      | negative h =>
          obtain ⟨hd, hv⟩ := numeral_iff.mp h
          exact ⟨hd, by rw [hv]⟩
  · rename_i hminus
    rw [Option.ite_none_right_eq_some, Option.some.injEq]
    constructor
    · rintro ⟨hd, rfl⟩
      exact .natural (numeral_iff.mpr ⟨hd, rfl⟩)
    · intro h
      cases h with
      | natural h =>
          obtain ⟨hd, hv⟩ := numeral_iff.mp h
          exact ⟨hd, by rw [hv]⟩
      | negative _ => exact absurd rfl (hminus _)

/-! ### The characters of an integer -/

/-- A character of an integer between blanks. -/
def IndexChar (c : Char) : Prop := Text.isBlank c = true ∨ c.isDigit = true ∨ c = '-'

instance (c : Char) : Decidable (IndexChar c) := inferInstanceAs (Decidable (_ ∨ _ ∨ _))

theorem notMem_of_indexChar {cs : List Char} (h : ∀ c ∈ cs, IndexChar c) {d : Char}
    (hd : ¬ IndexChar d) : d ∉ cs := fun hc => hd (h d hc)

theorem isBlank_of_isDigit {c : Char} (h : c.isDigit = true) : Text.isBlank c = false := by
  simp only [Char.isDigit, Bool.and_eq_true, decide_eq_true_eq] at h
  have h1 : 48 ≤ c.toNat := UInt32.le_iff_toNat_le.mp h.1
  have h2 : c.toNat ≤ 57 := UInt32.le_iff_toNat_le.mp h.2
  simp only [Text.isBlank, Bool.or_eq_false_iff, Bool.and_eq_false_iff, decide_eq_false_iff_not,
    beq_eq_false_iff_ne]
  omega

theorem Grammar.Literal.chars {cs : List Char} {n : Int} (h : Literal cs n) :
    ∀ c ∈ cs, c.isDigit = true ∨ c = '-' := by
  intro c hc
  cases h with
  | natural h => exact .inl (h.digits c hc)
  | negative h =>
      rcases List.mem_cons.mp hc with rfl | hc
      · exact .inr rfl
      · exact .inl (h.digits c hc)

theorem Grammar.Literal.not_blank {cs : List Char} {n : Int} (h : Literal cs n) :
    ∀ c ∈ cs, Text.isBlank c = false := by
  intro c hc
  rcases h.chars c hc with h | rfl
  · exact isBlank_of_isDigit h
  · decide

theorem Grammar.Literal.ne_nil {cs : List Char} {n : Int} (h : Literal cs n) : cs ≠ [] := by
  cases h with
  | natural h => exact h.ne_nil
  | negative _ => simp

theorem indexChar_of_padded {cs : List Char} {n : Int} (h : Padded Integer cs n) :
    ∀ c ∈ cs, IndexChar c := by
  obtain ⟨hl, hm, hr⟩ := h
  intro c hc
  simp only [List.mem_append] at hc
  rcases hc with (hc | hc) | hc
  · exact .inl (hl c hc)
  · exact .inr (hm.1.chars c hc)
  · exact .inl (hr c hc)

/-! ### Reading -/

/-- **Integers are read by the grammar**: an optional sign and digits between blanks, with a
value that is a word. -/
theorem readIndex_eq_ok_iff (cs : List Char) (n : Int) :
    readIndex cs = .ok n ↔ Padded Integer cs n := by
  unfold readIndex
  constructor
  · intro h
    obtain ⟨l, r, hl, hr, e⟩ := exists_trim cs
    rw [e]
    refine .mk hl ?_ hr
    dsimp only at h
    split at h
    · cases h
    · rename_i m hm
      split_ifs at h with hw
      cases h
      exact ⟨(intOfDigits?_eq_some_iff _ _).mp hm, hw⟩
  · rintro ⟨hl, ⟨hm, hw⟩, hr⟩
    dsimp only
    rw [trim_append hl hm.not_blank hr, (intOfDigits?_eq_some_iff _ _).mpr hm]
    dsimp only
    rw [if_pos hw]

theorem integer_trim_of_padded {cs : List Char} {n : Int} (h : Padded Integer cs n) :
    Integer (Text.trim cs) n := by
  obtain ⟨hl, hm, hr⟩ := h
  rw [trim_append hl hm.1.not_blank hr]
  exact hm

theorem not_allBlank_of_padded {cs : List Char} {n : Int} (h : Padded Integer cs n) :
    Text.allBlank cs = false := by
  obtain ⟨_, hm, _⟩ := h
  obtain ⟨c, hc⟩ := List.exists_mem_of_ne_nil _ hm.1.ne_nil
  have hb := hm.1.not_blank c hc
  rw [Text.allBlank, List.all_eq_false]
  exact ⟨c, by simp [hc], by simp [hb]⟩

theorem readBound_eq_ok_iff (cs : List Char) (b : Option Int) :
    readBound cs = .ok b ↔ Bound cs b := by
  unfold readBound
  split_ifs with hb
  · constructor
    · rintro ⟨⟩
      exact .absent ((blanks_iff_allBlank cs).mpr hb)
    · intro h
      cases h with
      | absent _ => rfl
      | present h =>
          rw [not_allBlank_of_padded h] at hb
          cases hb
  · rw [map_eq_ok_iff]
    constructor
    · rintro ⟨n, hn, rfl⟩
      exact .present ((readIndex_eq_ok_iff cs n).mp hn)
    · intro h
      cases h with
      | absent h => exact absurd ((blanks_iff_allBlank cs).mp h) hb
      | present h => exact ⟨_, (readIndex_eq_ok_iff cs _).mpr h, rfl⟩

end PathQuery
