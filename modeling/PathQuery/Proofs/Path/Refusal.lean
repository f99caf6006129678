import PathQuery.Proofs.Path.Acceptance

/-! # What a content is refused for

`FailsWith P x` is kept by the ways in which readers are put together, and so the causes of every
reader are those of its parts.

The causes come in three kinds.  An `ElementError` is about an integer, a slice or the list of keys,
a `QuoteError` about the end of a quoted key, and blank brackets have a cause of their own.  A
`QuoteError` arises only if the content is not enclosed (`failsWith_ofContent`): the reader of keys
meets the same quotes as the search for the closing bracket. -/

namespace PathQuery

open Grammar

/-! ### Causes -/

/-- The causes that are about an integer, a slice or the order of keys and commas. -/
inductive ElementError : PathError → Prop
  | invalidIndex {text : String} : ElementError (.invalid (.invalidIndex text))
  | indexOutOfRange {text : String} : ElementError (.invalid (.indexOutOfRange text))
  | invalidSlice {text : String} : ElementError (.invalid (.invalidSlice text))
  | emptySlice {start stop : Int} : ElementError (.invalid (.emptySlice start stop))
  | emptyKey : ElementError (.invalid .emptyKey)
  | strayAfterKey {c : Char} : ElementError (.invalid (.strayAfterKey c))
  | keyAfterComma : ElementError (.ended .keyAfterComma)

/-- The causes that are about the end of a quoted key. -/
inductive QuoteError : PathError → Prop
  | closingQuote : QuoteError (.ended .closingQuote)
  | danglingEscape : QuoteError (.invalid .danglingEscape)

/-! ### Integers and slices -/

theorem failsWith_readIndex (cs : List Char) : FailsWith ElementError (readIndex cs) := by
  unfold readIndex
  dsimp only
  split
  · exact failsWith_error .invalidIndex
  · split_ifs with hw
    · exact failsWith_ok _
    · exact failsWith_error .indexOutOfRange

theorem failsWith_readBound (cs : List Char) : FailsWith ElementError (readBound cs) := by
  unfold readBound
  split_ifs with hb
  · exact failsWith_ok none
  · exact (failsWith_readIndex cs).map some

theorem failsWith_ofBounds (start : Int) (stop : Option Int) :
    FailsWith ElementError (Step.ofBounds start stop) := by
  cases stop with
  | none => exact failsWith_ok _
  | some stop =>
      dsimp only [Step.ofBounds]
      split_ifs
      · exact failsWith_ok _
      · exact failsWith_ok _
      · exact failsWith_error .emptySlice
      · exact failsWith_ok _
      · exact failsWith_ok _

theorem failsWith_readSlice (cs : List Char) : FailsWith ElementError (readSlice cs) := by
  unfold readSlice
  split
  · rename_i first second _
    refine (failsWith_readBound first).bind ?_
    intro start _
    refine (failsWith_readBound second).bind ?_
    intro stop _
    exact failsWith_ofBounds _ _
  · exact failsWith_error .invalidSlice

/-! ### What is left of an enclosed text -/

theorem Enclosed.of_cons {c : Char} {cs : List Char} (h : Enclosed (c :: cs)) (hc : c ≠ '\'') :
    Enclosed cs := by
  cases h with
  | plain _ _ h => exact h
  | quoted _ _ => exact absurd rfl hc

theorem Enclosed.of_quote {cs : List Char} (h : Enclosed ('\'' :: cs)) : EnclosedFrom true cs := by
  cases h with
  | plain hc _ _ => exact absurd rfl hc
  | @quoted body k tail hk ht => exact ⟨body, k, tail, hk, ht, rfl⟩

theorem Enclosed.of_append {l cs : List Char} (hl : ∀ c ∈ l, c ≠ '\'') (h : Enclosed (l ++ cs)) :
    Enclosed cs := by
  induction l with
  | nil => exact h
  | cons c l ih =>
      have htail : Enclosed (l ++ cs) := h.of_cons (hl c List.mem_cons_self)
      exact ih (fun d hd => hl d (List.mem_cons_of_mem c hd)) htail

theorem Enclosed.trimStart {cs : List Char} (h : Enclosed cs) : Enclosed (Text.trimStart cs) := by
  obtain ⟨l, hl, hcs⟩ := exists_trimStart cs
  rw [hcs] at h
  refine h.of_append ?_
  rintro c hc rfl
  exact absurd (hl _ hc) (by decide)

/-! ### Keys -/

/-- From inside quotes, the reader of a key stops where the quoted region ends. -/
theorem unquoteKey_of_enclosedFrom {cs : List Char} (h : EnclosedFrom true cs) :
    ∃ k tail, unquoteKey cs = .ok (k, tail) ∧ Enclosed tail := by
  obtain ⟨body, k, tail, hk, ht, rfl⟩ := h
  exact ⟨k, tail, unquoteKey_append hk tail, ht⟩

theorem failsWith_unquoteKey (cs : List Char) : FailsWith QuoteError (unquoteKey cs) := by
  fun_induction unquoteKey cs with
  | case1 => exact failsWith_error .closingQuote
  | case2 => exact failsWith_ok _
  | case3 => exact failsWith_error .danglingEscape
  | case4 d ds _ ih => exact ih.map _
  | case5 c cs _ _ ih => exact ih.map _

/-- The causes of the reader of keys: the end of quotes is one only if the text is not enclosed. -/
def KeyError (cs : List Char) (e : PathError) : Prop :=
  ElementError e ∨ QuoteError e ∧ ¬ Enclosed cs

theorem failsWith_readKey (cs : List Char) : FailsWith (KeyError cs) (readKey cs) := by
  unfold readKey
  split
  · exact failsWith_error (.inl .keyAfterComma)
  · rename_i c tail htrim
    split_ifs with hc
    · refine FailsWith.bind ?_ ?_
      · intro e he
        refine .inr ⟨failsWith_unquoteKey tail e he, ?_⟩
        intro henc
        have htail := henc.trimStart
        rw [htrim, hc] at htail
        obtain ⟨k, rest, hok, -⟩ := unquoteKey_of_enclosedFrom htail.of_quote
        rw [hok] at he
        cases he
      · rintro ⟨key, rest⟩ _
        dsimp only
        split_ifs
        · exact failsWith_error (.inl .emptyKey)
        · exact failsWith_ok _
    · refine FailsWith.bind ?_ ?_
      · exact (failsWith_readIndex _).mono fun e he => .inl he
      · intro n _
        exact failsWith_ok _

theorem Enclosed.of_readKey {cs rest : List Char} {key : String} (henc : Enclosed cs)
    (h : readKey cs = .ok (key, rest)) : Enclosed rest := by
  have htrim := henc.trimStart
  unfold readKey at h
  split at h
  · cases h
  · rename_i c tail heq
    rw [heq] at htrim
    split_ifs at h with hc
    · obtain ⟨⟨k, v⟩, hu, h⟩ := bind_eq_ok_iff.1 h
      subst hc
      obtain ⟨k', tail', hok, ht⟩ := unquoteKey_of_enclosedFrom htrim.of_quote
      rw [hok] at hu
      cases hu
      dsimp only at h
      split_ifs at h
      cases h
      exact ht
    · obtain ⟨n, -, h⟩ := bind_eq_ok_iff.1 h
      simp only [Except.ok.injEq, Prod.mk.injEq] at h
      rw [← h.2]
      have hsplit := List.takeWhile_append_dropWhile (p := fun c => !endsBareKey c) (l := c :: tail)
      rw [← hsplit] at htrim
      refine htrim.of_append ?_
      rintro d hd rfl
      have hbare := List.all_eq_true.mp (List.all_takeWhile (l := c :: tail)) _ hd
      exact absurd hbare (by decide)

theorem failsWith_readKeys (cs : List Char) : FailsWith (KeyError cs) (readKeys cs) := by
  fun_induction readKeys cs with
  | case1 cs e hk => exact failsWith_error (failsWith_readKey cs e hk)
  | case2 => exact failsWith_ok _
  | case3 cs key rest hk more htrim ih =>
      refine (ih.map _).mono ?_
      rintro e (he | ⟨he, hnot⟩)
      · exact .inl he
      · refine .inr ⟨he, ?_⟩
        intro henc
        have htail := (henc.of_readKey hk).trimStart
        rw [htrim] at htail
        exact hnot (htail.of_cons (by decide))
  | case4 => exact failsWith_error (.inl .strayAfterKey)

/-! ### Contents -/

theorem ofContent_of_allBlank {cs : List Char} (hb : Text.allBlank cs = true) (opening : Nat) :
    Step.ofContent opening cs = .error (.invalid (.emptyBrackets opening)) := by
  unfold Step.ofContent
  rw [if_pos hb]

/-- **The causes for which a content is refused**, unless it is blank.  The end of quotes is one
only if the content is not enclosed. -/
theorem failsWith_ofContent {cs : List Char} (hb : ¬ Text.allBlank cs = true) (opening : Nat) :
    FailsWith (KeyError cs) (Step.ofContent opening cs) := by
  have helement : ∀ e, ElementError e → KeyError cs e := fun e he => .inl he
  unfold Step.ofContent
  rw [if_neg hb]
  split_ifs
  · exact (failsWith_readKeys cs).map _
  · exact (failsWith_readSlice cs).mono helement
  · exact ((failsWith_mapM failsWith_readIndex _).map _).mono helement
  · exact ((failsWith_readIndex cs).map _).mono helement

end PathQuery
