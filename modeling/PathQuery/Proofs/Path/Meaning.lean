import PathQuery.Proofs.Path.KeyList

/-! # What a content means

`Step.ofContent` reads exactly the contents of the grammar (`ofContent_eq_ok_iff`).  It looks for
a quote, a colon and a comma before it reads anything; the grammar does not.  The two agree
because no integer and no blank has one of these characters (`IndexChar`) and a list of keys
has a quote exactly if one of its keys is quoted. -/

namespace PathQuery

open Grammar

variable {α : Type}

/-! ### Texts with separators -/

theorem separated_of_mapM {sep : Char} {f : List Char → Except PathError α}
    {G : List Char → α → Prop} (hf : ∀ cs a, f cs = .ok a → G cs a) (ps : List (List Char))
    (hne : ps ≠ []) {as : List α} (h : ps.mapM f = .ok as) :
    Separated sep G ([sep].intercalate ps) as := by
  induction ps generalizing as with
  | nil => exact absurd rfl hne
  | cons p ps ih =>
      rw [List.mapM_cons] at h
      obtain ⟨a, ha, h⟩ := bind_eq_ok_iff.1 h
      obtain ⟨as', has, h⟩ := bind_eq_ok_iff.1 h
      cases h
      rcases ps with _ | ⟨q, ps⟩
      · cases has
        rw [List.intercalate_singleton]
        exact .one (hf p a ha)
      · rw [List.intercalate_cons_cons, List.append_assoc]
        exact .cons (hf p a ha) (ih (by simp) has)

theorem mapM_of_separated {sep : Char} {f : List Char → Except PathError α}
    {G : List Char → α → Prop} (hf : ∀ cs a, G cs a → f cs = .ok a)
    (hsep : ∀ cs a, G cs a → sep ∉ cs) {cs : List Char} {as : List α}
    (h : Separated sep G cs as) : (cs.splitOn sep).mapM f = .ok as := by
  induction h with
  | one hm =>
      rw [List.splitOn_eq_singleton (hsep _ _ hm), List.mapM_cons, hf _ _ hm]
      rfl
  | cons hm _ ih =>
      rw [List.splitOn_append_cons_self_of_not_mem (hsep _ _ hm), List.mapM_cons, hf _ _ hm, ih]
      rfl

/-- Reading the pieces between separators reads the text, if no element has a separator in it. -/
theorem mapM_splitOn_eq_ok_iff {sep : Char} {f : List Char → Except PathError α}
    {G : List Char → α → Prop} (hf : ∀ cs a, f cs = .ok a ↔ G cs a)
    (hsep : ∀ cs a, G cs a → sep ∉ cs) (cs : List Char) (as : List α) :
    (cs.splitOn sep).mapM f = .ok as ↔ Separated sep G cs as := by
  constructor
  · intro h
    have hs : Separated sep G ([sep].intercalate (cs.splitOn sep)) as :=
      separated_of_mapM (fun cs a => (hf cs a).mp) _ (List.splitOn_ne_nil sep cs) h
    rwa [List.intercalate_splitOn] at hs
  · exact mapM_of_separated (fun cs a => (hf cs a).mpr) hsep

/-- An element of a separated text of at least two elements is followed or preceded by a
separator. -/
theorem Grammar.Separated.mem_sep {sep : Char} {G : List Char → α → Prop} {cs : List Char}
    {as : List α} (h : Separated sep G cs as) (h2 : 2 ≤ as.length) : sep ∈ cs := by
  cases h with
  | one _ => simp at h2
  | cons _ _ => simp

theorem Grammar.Separated.forall_mem {sep : Char} {G : List Char → α → Prop} {P : Char → Prop}
    (hsep : P sep) (hG : ∀ cs a, G cs a → ∀ c ∈ cs, P c) {cs : List Char} {as : List α}
    (h : Separated sep G cs as) : ∀ c ∈ cs, P c := by
  induction h with
  | one hm => exact hG _ _ hm
  | cons hm _ ih =>
      intro c hc
      rcases List.mem_append.mp hc with hc | hc
      · exact hG _ _ hm c hc
      · rcases List.mem_cons.mp hc with rfl | hc
        · exact hsep
        · exact ih c hc

theorem Grammar.Separated.forall_value {sep : Char} {G : List Char → α → Prop} {P : α → Prop}
    (hG : ∀ cs a, G cs a → P a) {cs : List Char} {as : List α} (h : Separated sep G cs as) :
    ∀ a ∈ as, P a := by
  induction h with
  | one hm =>
      intro a ha
      rw [List.mem_singleton.mp ha]
      exact hG _ _ hm
  | cons hm _ ih =>
      intro a ha
      rcases List.mem_cons.mp ha with rfl | ha
      · exact hG _ _ hm
      · exact ih a ha

/-! ### Slices -/

theorem slice_of_ofBounds {start : Int} {stop : Option Int} {s : Step}
    (h : Step.ofBounds start stop = .ok s) : Slice start stop s := by
  cases stop with
  | none =>
      cases h
      exact .toEnd
  | some stop =>
      dsimp only [Step.ofBounds] at h
      split_ifs at h with h1 h2 h3 h4 <;> cases h
      · exact .fromEnd h1
      · exact .clamped (by omega) (.inl h2)
      · exact .clamped (by omega) (.inr h4)
      · exact .listed (by omega) (by omega) (Int.not_lt.mp h4)

theorem ofBounds_of_slice {start : Int} {stop : Option Int} {s : Step}
    (h : Slice start stop s) : Step.ofBounds start stop = .ok s := by
  have hw : widestListed = 1024 := rfl
  cases h with
  | listed h1 h2 h3 =>
      dsimp only [Step.ofBounds]
      rw [if_neg (by omega), if_neg (by omega), if_neg (by omega), if_neg (by omega)]
      rfl
  | clamped h1 h2 =>
      dsimp only [Step.ofBounds]
      rw [if_neg (by omega)]
      by_cases h3 : start < 0
      · rw [if_pos h3]
      · rw [if_neg h3, if_neg (by omega), if_pos (by omega)]
  | fromEnd h1 =>
      dsimp only [Step.ofBounds]
      rw [if_pos h1]
  | toEnd => rfl

theorem ofBounds_eq_ok_iff (start : Int) (stop : Option Int) (s : Step) :
    Step.ofBounds start stop = .ok s ↔ Slice start stop s :=
  ⟨slice_of_ofBounds, ofBounds_of_slice⟩

theorem indexChar_of_bound {cs : List Char} {b : Option Int} (h : Bound cs b) :
    ∀ c ∈ cs, IndexChar c := by
  cases h with
  | absent h => exact fun c hc => .inl (h c hc)
  | present h => exact indexChar_of_padded h

theorem colon_notMem_of_bound {cs : List Char} {b : Option Int} (h : Bound cs b) : ':' ∉ cs :=
  notMem_of_indexChar (indexChar_of_bound h) (by decide)

theorem splitOn_colon {a b : List Char} {start stop : Option Int} (ha : Bound a start)
    (hb : Bound b stop) : (a ++ ':' :: b).splitOn ':' = [a, b] := by
  rw [List.splitOn_append_cons_self_of_not_mem (colon_notMem_of_bound ha),
    List.splitOn_eq_singleton (colon_notMem_of_bound hb)]

theorem eq_of_splitOn {sep : Char} {cs a b : List Char} (h : cs.splitOn sep = [a, b]) :
    cs = a ++ sep :: b := by
  rw [← @List.intercalate_splitOn _ cs _ _ sep, h]
  simp

theorem readSlice_append {a b : List Char} {start stop : Option Int} (ha : Bound a start)
    (hb : Bound b stop) : readSlice (a ++ ':' :: b) = Step.ofBounds (start.getD 0) stop := by
  unfold readSlice
  rw [splitOn_colon ha hb]
  dsimp only
  rw [(readBound_eq_ok_iff a start).mpr ha, (readBound_eq_ok_iff b stop).mpr hb]
  rfl

theorem readSlice_eq_ok_iff (cs : List Char) (s : Step) :
    readSlice cs = .ok s ↔ ∃ a b start stop, cs = a ++ ':' :: b ∧ Bound a start ∧
      Bound b stop ∧ Slice (start.getD 0) stop s := by
  constructor
  · intro h
    unfold readSlice at h
    split at h
    · rename_i a b hsplit
      obtain ⟨start, ha, h⟩ := bind_eq_ok_iff.1 h
      obtain ⟨stop, hb, h⟩ := bind_eq_ok_iff.1 h
      exact ⟨a, b, start, stop, eq_of_splitOn hsplit, (readBound_eq_ok_iff a start).mp ha,
        (readBound_eq_ok_iff b stop).mp hb, slice_of_ofBounds h⟩
    · cases h
  · rintro ⟨a, b, start, stop, rfl, ha, hb, hs⟩
    rw [readSlice_append ha hb]
    exact ofBounds_of_slice hs

/-! ### Which of the four a content is -/

theorem ofKeys_eq_iff (items : List KeyItem) (s : Step) (hne : items ≠ []) :
    Step.ofKeys (items.map KeyItem.key) = s ↔
      (∃ i, items = [i] ∧ s = .name i.key) ∨
        2 ≤ items.length ∧ s = .pick (.names (items.map KeyItem.key)) := by
  rcases items with _ | ⟨i, _ | ⟨j, items⟩⟩
  · exact absurd rfl hne
  · simp [Step.ofKeys, eq_comm]
  · simp [Step.ofKeys, eq_comm]

theorem Grammar.Separated.ne_nil {sep : Char} {G : List Char → α → Prop} {cs : List Char}
    {as : List α} (h : Separated sep G cs as) : as ≠ [] := by
  cases h <;> simp

/-- A list of keys has a quote in it exactly if one of the keys stands in quotes. -/
theorem quote_mem_iff {cs : List Char} {items : List KeyItem}
    (h : Separated ',' (Padded Key) cs items) :
    '\'' ∈ cs ↔ ∃ i ∈ items, i.inQuotes = true := by
  have hkey : ∀ (m : List Char) (i : KeyItem), Padded Key m i → ('\'' ∈ m ↔ i.inQuotes = true) := by
    rintro m i ⟨hl, hk, hr⟩
    cases hk with
    | quoted _ _ => simp
    | bare hi =>
        simp only [Bool.false_eq_true, iff_false]
        exact notMem_of_indexChar (indexChar_of_padded (.mk hl hi hr)) (by decide)
  induction h with
  | one hk => simp [hkey _ _ hk]
  | cons hk _ ih => simp [hkey _ _ hk, ih]

theorem comma_notMem_of_padded {cs : List Char} {n : Int} (h : Padded Integer cs n) : ',' ∉ cs :=
  notMem_of_indexChar (indexChar_of_padded h) (by decide)

theorem allBlank_of_mem {cs : List Char} {c : Char} (hc : c ∈ cs) (hb : Text.isBlank c = false) :
    Text.allBlank cs = false :=
  List.all_eq_false.mpr ⟨c, hc, by simp [hb]⟩

section ofContent
variable {cs : List Char} (opening : Nat)

theorem ofContent_of_quote (h : '\'' ∈ cs) :
    Step.ofContent opening cs = (readKeys cs).map Step.ofKeys := by
  unfold Step.ofContent
  rw [allBlank_of_mem h (by decide), if_neg Bool.false_ne_true,
    if_pos (List.contains_iff_mem.mpr h)]

theorem ofContent_of_colon (hq : '\'' ∉ cs) (h : ':' ∈ cs) :
    Step.ofContent opening cs = readSlice cs := by
  unfold Step.ofContent
  rw [allBlank_of_mem h (by decide), if_neg Bool.false_ne_true,
    if_neg (mt List.contains_iff_mem.mp hq), if_pos (List.contains_iff_mem.mpr h)]

theorem ofContent_of_comma (hq : '\'' ∉ cs) (hc : ':' ∉ cs) (h : ',' ∈ cs) :
    Step.ofContent opening cs =
      ((cs.splitOn ',').mapM readIndex).map fun is => .pick (.positions is) := by
  unfold Step.ofContent
  rw [allBlank_of_mem h (by decide), if_neg Bool.false_ne_true,
    if_neg (mt List.contains_iff_mem.mp hq), if_neg (mt List.contains_iff_mem.mp hc),
    if_pos (List.contains_iff_mem.mpr h)]

theorem ofContent_of_none (hb : Text.allBlank cs = false) (hq : '\'' ∉ cs) (hc : ':' ∉ cs)
    (h : ',' ∉ cs) : Step.ofContent opening cs = (readIndex cs).map Step.index := by
  unfold Step.ofContent
  rw [hb, if_neg Bool.false_ne_true, if_neg (mt List.contains_iff_mem.mp hq),
    if_neg (mt List.contains_iff_mem.mp hc), if_neg (mt List.contains_iff_mem.mp h)]

end ofContent

theorem ofContent_slice (opening : Nat) {a b : List Char} {start stop : Option Int}
    (ha : Bound a start) (hb : Bound b stop) :
    Step.ofContent opening (a ++ ':' :: b) = Step.ofBounds (start.getD 0) stop := by
  have hq : '\'' ∉ a ++ ':' :: b := by
    have h1 : '\'' ∉ a := notMem_of_indexChar (indexChar_of_bound ha) (by decide)
    have h2 : '\'' ∉ b := notMem_of_indexChar (indexChar_of_bound hb) (by decide)
    simp [h1, h2]
  rw [ofContent_of_colon opening hq (by simp), readSlice_append ha hb]

theorem ofContent_of_content (opening : Nat) {cs : List Char} {s : Step} (h : Content cs s) :
    Step.ofContent opening cs = .ok s := by
  have hkeys : ∀ {items : List KeyItem}, KeyList cs items →
      Step.ofContent opening cs = .ok (Step.ofKeys (items.map KeyItem.key)) := by
    intro items hk
    rw [ofContent_of_quote opening ((quote_mem_iff hk.1).mpr hk.2), readKeys_of_separated hk.1]
    rfl
  cases h with
  | @index _ n h =>
      have hi := indexChar_of_padded h
      rw [ofContent_of_none opening (not_allBlank_of_padded h)
        (notMem_of_indexChar hi (by decide)) (notMem_of_indexChar hi (by decide))
        (comma_notMem_of_padded h),
        (readIndex_eq_ok_iff cs n).mpr h]
      rfl
  | @positions _ is h h2 =>
      have hi : ∀ c ∈ cs, IndexChar c ∨ c = ',' :=
        h.forall_mem (.inr rfl) fun m n hm c hc => .inl (indexChar_of_padded hm c hc)
      have hq : '\'' ∉ cs := fun hc => absurd (hi _ hc) (by decide)
      have hc : ':' ∉ cs := fun hc => absurd (hi _ hc) (by decide)
      rw [ofContent_of_comma opening hq hc (h.mem_sep h2),
        (mapM_splitOn_eq_ok_iff readIndex_eq_ok_iff (fun _ _ => comma_notMem_of_padded) cs is).mpr h]
      rfl
  | slice ha hb hs => rw [ofContent_slice opening ha hb, ofBounds_of_slice hs]
  | @name _ i hk => rw [hkeys hk, (ofKeys_eq_iff [i] _ (by simp)).mpr (.inl ⟨i, rfl, rfl⟩)]
  | @names _ items hk h2 =>
      rw [hkeys hk, (ofKeys_eq_iff items _ hk.1.ne_nil).mpr (.inr ⟨h2, rfl⟩)]

theorem content_of_ofContent {opening : Nat} {cs : List Char} {s : Step}
    (h : Step.ofContent opening cs = .ok s) : Content cs s := by
  by_cases hq : '\'' ∈ cs
  · rw [ofContent_of_quote opening hq] at h
    obtain ⟨ks, hk, hs⟩ := map_eq_ok_iff.1 h
    obtain ⟨items, hi, rfl⟩ := exists_of_readKeys hk
    have hlist : KeyList cs items := ⟨hi, (quote_mem_iff hi).mp hq⟩
    rcases (ofKeys_eq_iff items s hi.ne_nil).mp hs with ⟨i, rfl, rfl⟩ | ⟨h2, rfl⟩
    · exact .name hlist
    · exact .names hlist h2
  by_cases hc : ':' ∈ cs
  · rw [ofContent_of_colon opening hq hc] at h
    obtain ⟨a, b, start, stop, rfl, ha, hb, hs⟩ := (readSlice_eq_ok_iff cs s).mp h
    exact .slice ha hb hs
  by_cases hcomma : ',' ∈ cs
  · rw [ofContent_of_comma opening hq hc hcomma] at h
    obtain ⟨is, his, rfl⟩ := map_eq_ok_iff.1 h
    have hs := (mapM_splitOn_eq_ok_iff readIndex_eq_ok_iff (fun _ _ => comma_notMem_of_padded)
      cs is).mp his
    refine .positions hs ?_
    cases hs with
    | one hm => exact absurd hcomma (comma_notMem_of_padded hm)
    | cons _ hrest =>
        have := List.length_pos_iff.mpr hrest.ne_nil
        rw [List.length_cons]
        omega
  · cases hb : Text.allBlank cs with
    | true =>
        unfold Step.ofContent at h
        rw [if_pos hb] at h
        cases h
    | false =>
        rw [ofContent_of_none opening hb hq hc hcomma] at h
        obtain ⟨n, hn, rfl⟩ := map_eq_ok_iff.1 h
        exact .index ((readIndex_eq_ok_iff cs n).mp hn)

/-- **A content is read by the grammar**, wherever its bracket opens. -/
theorem ofContent_eq_ok_iff (opening : Nat) (cs : List Char) (s : Step) :
    Step.ofContent opening cs = .ok s ↔ Content cs s :=
  ⟨content_of_ofContent, ofContent_of_content opening⟩

end PathQuery
