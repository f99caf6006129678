import PathQuery.Proofs.Path.Refusal
import PathQuery.Proofs.Text.Boundary

/-! # Brackets and the quotes in them

The search for the closing bracket and the reader of the content read the quotes of a bracket one
after the other, each on its own.  They agree (`findClose_agrees_readBracket`): behind a bracket
that was found the reader never misses the end of a quoted key, and a bracket that is read without
having been looked for is the one that would have been found.

Both directions meet in the texts that are enclosed.  The search finds a bracket exactly behind
such a text (`findClose_eq_ok_iff`), the reader blames quotes only in other texts, and every content
that is read is such a text. -/

namespace PathQuery

open Grammar

/-! ### Two offsets of one text -/

/-- **The search is exact**: it answers an offset exactly if an opening bracket, an enclosed text
and the closing bracket at that offset follow one another. -/
theorem findClose_eq_ok_iff (path : String) (opening close : Nat) :
    findClose path opening = .ok close ↔ ∃ front content back,
      path.toList = front ++ '[' :: (content ++ ']' :: back) ∧ Enclosed content ∧
      Text.byteSize front = opening ∧ close = opening + 1 + Text.byteSize content := by
  unfold findClose
  dsimp only
  constructor
  · intro h
    split at h
    · rename_i rest hdrop
      obtain ⟨front, hpath, hfront⟩ := (Text.dropBytes?_eq_some_iff _ _ _).mp hdrop
      obtain ⟨⟨content, back⟩, hcut, hclose⟩ := map_eq_ok_iff.1 h
      obtain ⟨henc, rfl⟩ := (splitClose_eq_ok_iff _ _ _ _).mp hcut
      exact ⟨front, content, back, hpath, henc, hfront, hclose.symm⟩
    · cases h
    · cases h
    · split at h <;> cases h
  · rintro ⟨front, content, back, hpath, henc, rfl, rfl⟩
    rw [hpath, Text.dropBytes?_byteSize_append]
    show (splitClose _ false _ (content ++ ']' :: back)).map _ = _
    rw [splitClose_append henc]
    rfl

theorem readBracket_of_split {path : String} {front content back : List Char}
    (h : path.toList = front ++ '[' :: (content ++ back)) {opening close : Nat}
    (hopening : Text.byteSize front = opening)
    (hclose : close = opening + 1 + Text.byteSize content) :
    readBracket path opening close = Step.ofContent opening content := by
  have hslice : Text.sliceBytes? path.toList (opening + 1) close = some content := by
    refine (Text.sliceBytes?_eq_some_iff _ _ _ _).mpr ⟨front ++ ['['], back, ?_, ?_, ?_⟩
    · rw [h]
      simp
    · rw [Text.byteSize_append, hopening]
      rfl
    · rw [Text.byteSize_append, hopening, hclose]
      rfl
  unfold readBracket
  rw [hslice]

theorem split_of_charAt {cs content : List Char} {opening close : Nat}
    (hopen : Text.CharAt cs opening '[') (hclose : Text.CharAt cs close ']')
    (hslice : Text.sliceBytes? cs (opening + 1) close = some content) :
    ∃ front back, cs = front ++ '[' :: (content ++ ']' :: back) ∧
      Text.byteSize front = opening ∧ close = opening + 1 + Text.byteSize content := by
  obtain ⟨front, tail, htail, hfront⟩ := hopen
  obtain ⟨before, back, hback, hbefore⟩ := hclose
  obtain ⟨pre, post, hpost, hpre, hend⟩ := (Text.sliceBytes?_eq_some_iff _ _ _ _).mp hslice
  have hone : Text.byteSize (front ++ ['[']) = Text.byteSize pre := by
    rw [Text.byteSize_append, hfront, hpre]
    rfl
  have htwo : Text.byteSize (pre ++ content) = Text.byteSize before := by
    rw [Text.byteSize_append, hend, hbefore]
  have hfirst : front ++ ['['] ++ tail = pre ++ (content ++ post) := by
    rw [← hpost, htail]
    simp
  have hsecond : pre ++ content ++ post = before ++ (']' :: back) := by
    rw [← hback, hpost]
    simp
  obtain ⟨rfl, rfl⟩ := Text.front_eq_of_byteSize_eq hfirst hone
  obtain ⟨-, rfl⟩ := Text.front_eq_of_byteSize_eq hsecond htwo
  exact ⟨front, back, htail, hfront, by omega⟩

/-! ### Agreement -/

theorem elementError_of_enclosed {opening : Nat} {content : List Char} {e : PathError}
    (henc : Enclosed content) (h : Step.ofContent opening content = .error e) :
    e = .invalid (.emptyBrackets opening) ∨ ElementError e := by
  by_cases hb : Text.allBlank content = true
  · rw [ofContent_of_allBlank hb] at h
    cases h
    exact .inl rfl
  · rcases failsWith_ofContent hb opening e h with helement | ⟨-, hnot⟩
    · exact .inr helement
    · exact absurd henc hnot

/-- **The search for a bracket and the reader of its content agree on quotes.**  Where the search
answers an offset, the bracket is never refused for the end of a quoted key or for not being there.
Where two brackets stand and what is between them is read as a step, the search answers the second
of them. -/
theorem findClose_agrees_readBracket (path : String) (opening close : Nat) :
    (findClose path opening = .ok close → ∀ e, readBracket path opening close = .error e →
      e ≠ .ended .closingQuote ∧ e ≠ .invalid .danglingEscape ∧
      ∀ a b, e ≠ .invalid (.noContent a b)) ∧
    (Text.CharAt path.toList opening '[' → Text.CharAt path.toList close ']' →
      ∀ s, readBracket path opening close = .ok s → findClose path opening = .ok close) := by
  constructor
  · intro hfound e herr
    obtain ⟨front, content, back, hpath, henc, hfront, hclose⟩ :=
      (findClose_eq_ok_iff path opening close).mp hfound
    rw [readBracket_of_split hpath hfront hclose] at herr
    rcases elementError_of_enclosed henc herr with rfl | helement
    · exact ⟨nofun, nofun, nofun⟩
    · cases helement <;> exact ⟨nofun, nofun, nofun⟩
  · intro hopen hclosed s hs
    unfold readBracket at hs
    split at hs
    · rename_i content hslice
      obtain ⟨front, back, hpath, hfront, hclose⟩ := split_of_charAt hopen hclosed hslice
      have hcontent : Content content s := content_of_ofContent hs
      exact (findClose_eq_ok_iff path opening close).mpr
        ⟨front, content, back, hpath, hcontent.enclosed, hfront, hclose⟩
    · cases hs

example : findClose "$['a]\\'']" 1 = .ok 8 ∧ readBracket "$['a]\\'']" 1 8 = .ok (.name "a]'") := by
  decide +kernel

end PathQuery
