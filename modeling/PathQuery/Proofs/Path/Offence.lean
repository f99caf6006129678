import PathQuery.Proofs.Path.Refusal
import PathQuery.Proofs.Text.Boundary

/-! # The first offending character

An error that blames a character blames the first one that cannot stand where it does, and no text
behind it makes the expression right again (`parse_eq_unexpected`).

A character is blamed only between segments.  What is wrong inside a bracket, or with its end, is a
cause of another kind (`failsWith_readOpened`), so the segments before the character are whole, but
perhaps for the two dots of a segment that has begun.  `Stray` says which characters are blamed
there, and `ofChars_eq_unexpected_iff` says so of whole expressions. -/

namespace PathQuery

open Grammar

/-! ### Brackets blame no character -/

/-- The causes that blame no character of the expression. -/
def PathError.BlamesNone : PathError → Prop
  | .unexpected _ _ _ => False
  | .ended _ => True
  | .invalid _ => True

theorem failsWith_splitClose (opening : Nat) (quoted : Bool) (offset : Nat) (cs : List Char) :
    FailsWith PathError.BlamesNone (splitClose opening quoted offset cs) := by
  fun_induction splitClose opening quoted offset cs with
  | case1 => exact failsWith_error trivial
  | case2 => exact failsWith_error trivial
  | case3 => exact failsWith_ok _
  | case4 offset c cs _ ih => exact ih.map _
  | case5 => exact failsWith_error trivial
  | case6 offset d ds ih => exact ih.map _
  | case7 offset c cs _ ih => exact ih.map _

theorem blamesNone_of_keyError {cs : List Char} {e : PathError} (h : KeyError cs e) :
    e.BlamesNone := by
  rcases h with h | ⟨h, -⟩ <;> cases h <;> trivial

theorem blamesNone_ofContent (opening : Nat) (cs : List Char) :
    FailsWith PathError.BlamesNone (Step.ofContent opening cs) := by
  by_cases hb : Text.allBlank cs = true
  · rw [ofContent_of_allBlank hb]
    exact failsWith_error trivial
  · exact (failsWith_ofContent hb opening).mono fun _ => blamesNone_of_keyError

/-- No cause from inside a bracket, or from its end, blames a character. -/
theorem failsWith_readOpened (opening : Nat) (cs : List Char) :
    FailsWith PathError.BlamesNone (readOpened opening cs) := by
  unfold readOpened
  refine (failsWith_splitClose opening false (opening + 1) cs).bind ?_
  intro r _
  refine (blamesNone_ofContent opening r.1).bind ?_
  intro step _
  exact failsWith_ok _

theorem readOpened_ne_unexpected {opening position : Nat} {cs : List Char} {found : Char}
    {expected : Expected} :
    readOpened opening cs ≠ .error (.unexpected position found expected) :=
  fun h => failsWith_readOpened opening cs _ h

/-! ### Where a segment should begin -/

/-- The character `found` cannot stand where a segment begins, or behind the dots of one.  One dot
is not blamed if another follows it. -/
inductive Stray : (dots : List Char) → (found : Char) → (tail : List Char) → Expected → Prop
  | start {c : Char} {tail : List Char} :
      c ≠ '[' → (c = '.' → ∀ more, tail ≠ '.' :: more) → Stray [] c tail .segmentStart
  | behindDots {c : Char} {tail : List Char} : c ≠ '[' → Stray ['.', '.'] c tail .bracketAfterDots

/-- A stray character is stray whatever follows, unless it is a dot at the end of the text. -/
theorem Stray.append {dots tail : List Char} {c : Char} {expected : Expected}
    (h : Stray dots c tail expected) (hdot : ¬ (c = '.' ∧ tail = [])) (more : List Char) :
    Stray dots c (tail ++ more) expected := by
  cases h with
  | start hc hnext =>
      refine .start hc fun hd rest heq => ?_
      cases tail with
      | nil => exact hdot ⟨hd, rfl⟩
      | cons d tail =>
          rw [List.cons_append] at heq
          exact hnext hd tail (by rw [(List.cons.inj heq).1])
  | behindDots hc => exact .behindDots hc

theorem readSegment_of_stray (offset : Nat) {dots tail : List Char} {c : Char}
    {expected : Expected} (h : Stray dots c tail expected) :
    readSegment offset (dots ++ c :: tail) =
      .error (.unexpected (offset + Text.byteSize dots) c expected) := by
  cases h with
  | start hc hnext =>
      exact readSegment.eq_6 offset c tail hc (fun _ hd => hnext hd _) (fun _ _ hd => hnext hd _)
        (fun hd => hnext hd _)
  | behindDots hc => exact readSegment.eq_4 offset c tail hc

/-- **The character that a segment is refused for.** -/
theorem readSegment_eq_unexpected_iff (offset : Nat) (cs : List Char) (position : Nat)
    (found : Char) (expected : Expected) :
    readSegment offset cs = .error (.unexpected position found expected) ↔
      ∃ dots tail, cs = dots ++ found :: tail ∧ position = offset + Text.byteSize dots ∧
        Stray dots found tail expected := by
  constructor
  · intro h
    unfold readSegment at h
    split at h
    · cases h
    · exact absurd h readOpened_ne_unexpected
    · exact absurd (map_eq_error_iff.mp h) readOpened_ne_unexpected
    · rename_i c tail hc
      cases h
      exact ⟨['.', '.'], tail, rfl, rfl, .behindDots hc⟩
    · cases h
    · rename_i c tail hc _ hdots hend
      cases h
      refine ⟨[], tail, rfl, rfl, .start hc ?_⟩
      rintro hd (_ | ⟨d, more⟩) rfl
      · exact hend hd rfl
      · exact hdots d more hd rfl
  · rintro ⟨dots, tail, rfl, rfl, hstray⟩
    exact readSegment_of_stray offset hstray

/-! ### Whole expressions -/

theorem readSegments_eq_error_iff (offset : Nat) (cs : List Char) (e : PathError) :
    readSegments offset cs = .error e ↔ ∃ done ss rest, Segments done ss ∧ cs = done ++ rest ∧
      rest ≠ [] ∧ readSegment (offset + Text.byteSize done) rest = .error e := by
  constructor
  · intro h
    fun_induction readSegments offset cs with
    | case1 => cases h
    | case2 offset cs hne e' hseg =>
        cases h
        exact ⟨[], [], cs, .nil, rfl, fun hnil => hne (List.isEmpty_iff.mpr hnil), hseg⟩
    | case3 offset cs hne s next rest hseg ih =>
        obtain ⟨seg, hs, rfl, rfl⟩ := (readSegment_eq_ok_iff offset next cs rest s).mp hseg
        obtain ⟨done, ss, tail, hdone, rfl, htail, herr⟩ := ih (map_eq_error_iff.mp h)
        rw [Nat.add_assoc, ← Text.byteSize_append] at herr
        exact ⟨seg ++ done, s :: ss, tail, .cons hs hdone, (List.append_assoc _ _ _).symm, htail,
          herr⟩
  · rintro ⟨done, ss, rest, hdone, rfl, hrest, herr⟩
    rw [readSegments_append hdone, readSegments_of_ne_nil _ hrest, herr]
    rfl

/-- **The character that an expression is refused for**: the first one, if it is no dollar sign, or
one that is stray behind segments. -/
theorem ofChars_eq_unexpected_iff (cs : List Char) (position : Nat) (found : Char)
    (expected : Expected) :
    Path.ofChars cs = .error (.unexpected position found expected) ↔
      (∃ tail, cs = found :: tail ∧ found ≠ '$' ∧ position = 0 ∧ expected = .pathStart) ∨
      ∃ done ss dots tail, cs = '$' :: (done ++ (dots ++ found :: tail)) ∧ Segments done ss ∧
        Stray dots found tail expected ∧ position = Text.byteSize ('$' :: (done ++ dots)) := by
  have hsize : ∀ done dots, 1 + Text.byteSize done + Text.byteSize dots =
      Text.byteSize ('$' :: (done ++ dots)) := by
    intro done dots
    rw [Text.byteSize_cons, Text.byteSize_append, Nat.add_assoc]
    rfl
  constructor
  · intro h
    unfold Path.ofChars at h
    split at h
    · cases h
    · rename_i c tail
      split_ifs at h with hd
      · obtain ⟨done, ss, rest, hdone, rfl, -, herr⟩ :=
          (readSegments_eq_error_iff _ _ _).mp (map_eq_error_iff.mp h)
        obtain ⟨dots, tail, rfl, hplace, hstray⟩ :=
          (readSegment_eq_unexpected_iff _ _ _ _ _).mp herr
        rw [hd]
        exact .inr ⟨done, ss, dots, tail, rfl, hdone, hstray, hplace.trans (hsize done dots)⟩
      · cases h
        exact .inl ⟨tail, rfl, hd, rfl, rfl⟩
  · rintro (⟨tail, rfl, hd, rfl, rfl⟩ | ⟨done, ss, dots, tail, rfl, hdone, hstray, rfl⟩)
    · exact if_neg hd
    · have hne : dots ++ found :: tail ≠ [] := by simp
      have hread : readSegments 1 (done ++ (dots ++ found :: tail)) =
          .error (.unexpected (1 + Text.byteSize done + Text.byteSize dots) found expected) :=
        (readSegments_eq_error_iff _ _ _).mpr
          ⟨done, ss, _, hdone, rfl, hne, readSegment_of_stray _ hstray⟩
      rw [← hsize]
      show (readSegments 1 _).map Path.mk = _
      rw [hread]
      rfl

theorem eq_append_of_toList {path : String} {front back : List Char} {c : Char}
    (h : path.toList = front ++ c :: back) :
    path = String.ofList front ++ String.singleton c ++ String.ofList back := by
  rw [← String.ofList_toList (s := path), h, String.singleton_eq_ofList, ← String.ofList_append,
    ← String.ofList_append, List.append_assoc]
  rfl

/-- **The first offending character.**  The character that an expression is refused for stands at
the byte that the error names.  It is the first character, or what stands before it is an expression,
perhaps with the two dots of a further segment behind it.  And what is refused stays refused for the
same character whatever is appended, unless the character is a dot at the end. -/
theorem parse_eq_unexpected {path : String} {position : Nat} {found : Char} {expected : Expected}
    (h : Path.parse path = .error (.unexpected position found expected)) :
    ∃ front back : String, path = front ++ String.singleton found ++ back ∧
      front.utf8ByteSize = position ∧
      (position = 0 ∨ (∃ q, Path.parse front = .ok q) ∨
        ∃ p, front = p ++ ".." ∧ ∃ q, Path.parse p = .ok q) ∧
      (¬ (found = '.' ∧ back = "") →
        ∀ s, Path.parse (path ++ s) = .error (.unexpected position found expected)) := by
  rcases (ofChars_eq_unexpected_iff _ _ _ _).mp h with
    ⟨tail, hpath, hd, rfl, rfl⟩ | ⟨done, ss, dots, tail, hpath, hdone, hstray, rfl⟩
  · have hsplit : path = "" ++ String.singleton found ++ String.ofList tail :=
      @eq_append_of_toList path [] tail found hpath
    refine ⟨"", String.ofList tail, hsplit, rfl, .inl rfl, ?_⟩
    intro _ s
    refine (ofChars_eq_unexpected_iff _ _ _ _).mpr (.inl ⟨tail ++ s.toList, ?_, hd, rfl, rfl⟩)
    rw [String.toList_append, hpath]
    rfl
  · have hsplit : path.toList = '$' :: (done ++ dots) ++ found :: tail := by
      rw [hpath]
      simp
    refine ⟨_, _, eq_append_of_toList hsplit, Text.byteSize_ofList _, .inr ?_, ?_⟩
    · cases hstray with
      | start _ _ =>
          rw [List.append_nil]
          exact .inl ⟨_, parse_of_segments hdone⟩
      | behindDots _ =>
          refine .inr ⟨String.ofList ('$' :: done), ?_, _, parse_of_segments hdone⟩
          show String.ofList ('$' :: done ++ ['.', '.']) = _ ++ String.ofList ['.', '.']
          rw [String.ofList_append]
    · intro hdot s
      have hmore := hstray.append (fun hend => hdot ⟨hend.1, by rw [hend.2]⟩) s.toList
      refine (ofChars_eq_unexpected_iff _ _ _ _).mpr
        (.inr ⟨done, ss, dots, tail ++ s.toList, ?_, hdone, hmore, rfl⟩)
      rw [String.toList_append, hpath]
      simp

/-- A letter of two bytes behind the dots of a segment, and the same with more behind it. -/
theorem parse_eq_unexpected_behindDots :
    Path.parse "$['é']..é" = .error (.unexpected 9 'é' .bracketAfterDots) ∧
    (∃ front back : String, "$['é']..é" = front ++ String.singleton 'é' ++ back ∧
      front.utf8ByteSize = 9 ∧ ((∃ q, Path.parse front = .ok q) ∨
        ∃ p, front = p ++ ".." ∧ ∃ q, Path.parse p = .ok q)) ∧
    Path.parse ("$['é']..é" ++ "[0]") = .error (.unexpected 9 'é' .bracketAfterDots) := by
  have hstray : Path.parse "$['é']..é" = .error (.unexpected 9 'é' .bracketAfterDots) := by
    decide +kernel
  obtain ⟨front, back, hpath, hsize, hbefore, hfinal⟩ := parse_eq_unexpected hstray
  refine ⟨hstray, ⟨front, back, hpath, hsize, hbefore.resolve_left (by decide)⟩, hfinal ?_ "[0]"⟩
  exact fun hdot => absurd hdot.1 (by decide)

end PathQuery
