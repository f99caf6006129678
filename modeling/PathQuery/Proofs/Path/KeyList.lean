import PathQuery.Proofs.Path.Index

/-! # Reading a list of keys

`unquoteKey` stops at the quote that closes a key (`unquoteKey_eq_ok_iff`), and `readKeys` reads
exactly the lists of keys of the grammar (`readKeys_eq_ok_iff`).  What comes after a key in a
list is nothing or a comma; this is all that the reader of one key needs to know about the rest
of the text (`AtSeparator`). -/

namespace PathQuery

open Grammar

/-! ### Keys in quotes -/

theorem unquoteKey_quote (cs : List Char) : unquoteKey ('\'' :: cs) = .ok ([], cs) := by
  rw [unquoteKey.eq_def]
  simp

theorem unquoteKey_escape (d : Char) (ds : List Char) :
    unquoteKey ('\\' :: d :: ds) = (unquoteKey ds).map (Prod.map (d :: ·) id) := by
  rw [unquoteKey.eq_def]
  simp

theorem unquoteKey_plain {c : Char} (hq : c ≠ '\'') (hb : c ≠ '\\') (cs : List Char) :
    unquoteKey (c :: cs) = (unquoteKey cs).map (Prod.map (c :: ·) id) := by
  rw [unquoteKey.eq_def]
  simp [hq, hb]

theorem unquoteKey_append {body k : List Char} (h : Quoted body k) (rest : List Char) :
    unquoteKey (body ++ '\'' :: rest) = .ok (k, rest) := by
  induction h with
  | nil => exact unquoteKey_quote rest
  | plain hq hb _ ih =>
      rw [List.cons_append, unquoteKey_plain hq hb, ih]
      rfl
  | escaped _ ih =>
      rw [List.cons_append, List.cons_append, unquoteKey_escape, ih]
      rfl

theorem exists_of_unquoteKey {cs k rest : List Char} (h : unquoteKey cs = .ok (k, rest)) :
    ∃ body, Quoted body k ∧ cs = body ++ '\'' :: rest := by
  fun_induction unquoteKey cs generalizing k rest with
  | case1 => cases h
  | case2 cs =>
      cases h
      exact ⟨[], .nil, rfl⟩
  | case3 => cases h
  | case4 d ds _ ih =>
      obtain ⟨⟨u, v⟩, hr, hu⟩ := map_eq_ok_iff.1 h
      cases hu
      obtain ⟨body, hq, rfl⟩ := ih hr
      exact ⟨'\\' :: d :: body, .escaped hq, rfl⟩
  | case5 c cs hq hb ih =>
      obtain ⟨⟨u, v⟩, hr, hu⟩ := map_eq_ok_iff.1 h
      cases hu
      obtain ⟨body, hk, rfl⟩ := ih hr
      exact ⟨c :: body, .plain hq hb hk, rfl⟩

/-- A quoted key ends at the first quote that no backslash stands before. -/
theorem unquoteKey_eq_ok_iff (cs k rest : List Char) :
    unquoteKey cs = .ok (k, rest) ↔ ∃ body, Quoted body k ∧ cs = body ++ '\'' :: rest := by
  constructor
  · exact exists_of_unquoteKey
  · rintro ⟨body, h, rfl⟩
    exact unquoteKey_append h rest

/-! ### One key -/

/-- A text that begins where an element of a list ends: nothing, or a comma and more. -/
def AtSeparator (cs : List Char) : Prop := cs = [] ∨ ∃ more, cs = ',' :: more

theorem AtSeparator.trimStart {cs : List Char} (h : AtSeparator cs) : Text.trimStart cs = cs := by
  rcases h with rfl | ⟨more, rfl⟩
  · rfl
  · exact trimStart_of_head fun c hc => by cases hc; decide

theorem AtSeparator.takeWhile {m cs : List Char} (h : AtSeparator cs)
    (hm : ∀ c ∈ m, (!endsBareKey c) = true) :
    (m ++ cs).takeWhile (fun c => !endsBareKey c) = m ∧
      (m ++ cs).dropWhile (fun c => !endsBareKey c) = cs := by
  rw [List.takeWhile_append_of_pos hm, List.dropWhile_append_of_pos hm]
  rcases h with rfl | ⟨more, rfl⟩
  · exact ⟨List.append_nil m, rfl⟩
  · exact ⟨List.append_nil m, rfl⟩

theorem not_endsBareKey_of_indexChar {c : Char} (h : IndexChar c) : (!endsBareKey c) = true := by
  have h1 : c ≠ ',' := fun e => absurd (e ▸ h) (by decide)
  have h2 : c ≠ '\'' := fun e => absurd (e ▸ h) (by decide)
  simp [endsBareKey, h1, h2]

/-- A key of the grammar is read up to the blanks after it. -/
theorem readKey_append {cs tail : List Char} {i : KeyItem} (h : Padded Key cs i)
    (ht : AtSeparator tail) :
    ∃ rest, readKey (cs ++ tail) = .ok (i.key, rest) ∧ Text.trimStart rest = tail := by
  obtain ⟨hl, hk, hr⟩ := h
  rename_i l m r
  cases hk with
  | @quoted body k hq hne =>
      refine ⟨r ++ tail, ?_, by rw [trimStart_append hr, ht.trimStart]⟩
      have e : l ++ ('\'' :: body ++ ['\'']) ++ r ++ tail =
          l ++ '\'' :: (body ++ '\'' :: (r ++ tail)) := by simp
      have hs : Text.trimStart ('\'' :: (body ++ '\'' :: (r ++ tail))) =
          '\'' :: (body ++ '\'' :: (r ++ tail)) :=
        trimStart_of_head fun c hc => by cases hc; decide
      rw [e, readKey, trimStart_append hl, hs]
      dsimp only
      rw [if_pos rfl, unquoteKey_append hq]
      simp [bind, Except.bind, hne]
  | @bare _ n hi =>
      obtain ⟨c, cs, rfl⟩ := List.exists_cons_of_ne_nil hi.1.ne_nil
      refine ⟨tail, ?_, ht.trimStart⟩
      have hc : Text.isBlank c = false := hi.1.not_blank c List.mem_cons_self
      have hq : c ≠ '\'' := by
        have := hi.1.chars c List.mem_cons_self
        rintro rfl
        revert this
        decide
      have hpad : Padded Integer (c :: cs ++ r) n := .mk (l := []) blanks_nil hi hr
      have hw := ht.takeWhile fun d hd => not_endsBareKey_of_indexChar (indexChar_of_padded hpad d hd)
      have hs : Text.trimStart (c :: cs ++ r ++ tail) = c :: cs ++ r ++ tail :=
        trimStart_of_head fun d hd => by cases hd; exact hc
      have htrim : Text.trim (c :: cs ++ r) = c :: cs :=
        trim_append (l := []) blanks_nil hi.1.not_blank hr
      have e : l ++ (c :: cs) ++ r ++ tail = l ++ (c :: cs ++ r ++ tail) := by simp
      rw [e, readKey, trimStart_append hl, hs]
      simp only [List.cons_append] at hw htrim hpad ⊢
      rw [if_neg hq, hw.1, hw.2, (readIndex_eq_ok_iff _ n).mpr hpad, htrim]
      rfl

theorem exists_of_readKey {cs rest : List Char} {key : String}
    (h : readKey cs = .ok (key, rest)) :
    ∃ m i, Padded Key m i ∧ i.key = key ∧ cs = m ++ Text.trimStart rest := by
  obtain ⟨l, hl, el⟩ := exists_trimStart cs
  obtain ⟨r, hr, er⟩ := exists_trimStart rest
  unfold readKey at h
  split at h
  · cases h
  · rename_i c tail heq
    rw [heq] at el
    split_ifs at h with hc
    · obtain ⟨⟨k, v⟩, hu, h⟩ := bind_eq_ok_iff.1 h
      dsimp only at h
      split_ifs at h with hk
      cases h
      obtain ⟨body, hq, htail⟩ := exists_of_unquoteKey hu
      refine ⟨l ++ ('\'' :: body ++ ['\'']) ++ r, _, .mk hl (.quoted hq ?_) hr, rfl, ?_⟩
      · rintro rfl
        exact hk rfl
      · rw [List.append_assoc _ r, ← er, el, hc, htail]
        simp
    · obtain ⟨n, hn, h⟩ := bind_eq_ok_iff.1 h
      simp only [Except.ok.injEq, Prod.mk.injEq] at h
      have hsplit := List.takeWhile_append_dropWhile (p := fun c => !endsBareKey c) (l := c :: tail)
      rw [h.2] at hsplit
      generalize (c :: tail).takeWhile (fun c => !endsBareKey c) = bare at h hn hsplit
      obtain ⟨l', r', hl', hr', eb⟩ := exists_trim bare
      have hi := integer_trim_of_padded ((readIndex_eq_ok_iff bare n).mp hn)
      refine ⟨l ++ l' ++ Text.trim bare ++ (r' ++ r), _,
        .mk (hl.append hl') (.bare hi) (hr'.append hr), h.1, ?_⟩
      calc cs = l ++ (bare ++ rest) := by rw [hsplit]; exact el
        _ = l ++ ((l' ++ Text.trim bare ++ r') ++ (r ++ Text.trimStart rest)) := by rw [← eb, ← er]
        _ = l ++ l' ++ Text.trim bare ++ (r' ++ r) ++ Text.trimStart rest := by simp

/-! ### Lists of keys -/

theorem readKeys_eq (cs : List Char) : readKeys cs =
    match readKey cs with
    | .error e => .error e
    | .ok (key, rest) =>
      match Text.trimStart rest with
      | [] => .ok [key]
      | c :: more =>
        if c = ',' then (readKeys more).map (key :: ·) else .error (.invalid (.strayAfterKey c)) := by
  rw [readKeys]
  split
  · rename_i h
    rw [h]
  · rename_i h
    rw [h]
    dsimp only
    split
    · rename_i ht
      rw [ht]
    · rename_i ht
      rw [ht]

theorem readKeys_of_separated {cs : List Char} {items : List KeyItem}
    (h : Separated ',' (Padded Key) cs items) : readKeys cs = .ok (items.map KeyItem.key) := by
  induction h with
  | one hk =>
      obtain ⟨rest, hr, ht⟩ := readKey_append hk (.inl rfl)
      rw [List.append_nil] at hr
      rw [readKeys_eq, hr]
      dsimp only
      rw [ht]
      rfl
  | cons hk _ ih =>
      obtain ⟨rest, hr, ht⟩ := readKey_append hk (.inr ⟨_, rfl⟩)
      rw [readKeys_eq, hr]
      dsimp only
      rw [ht]
      dsimp only
      rw [if_pos rfl, ih]
      rfl

theorem exists_of_readKeys {cs : List Char} {ks : List String} (h : readKeys cs = .ok ks) :
    ∃ items, Separated ',' (Padded Key) cs items ∧ items.map KeyItem.key = ks := by
  fun_induction readKeys cs generalizing ks with
  | case1 => cases h
  | case2 cs key rest hk ht =>
      cases h
      obtain ⟨m, i, hp, hi, rfl⟩ := exists_of_readKey hk
      refine ⟨[i], ?_, by rw [List.map_singleton, hi]⟩
      rw [ht, List.append_nil]
      exact .one hp
  | case3 cs key rest hk more ht ih =>
      obtain ⟨ks', hks, rfl⟩ := map_eq_ok_iff.1 h
      obtain ⟨m, i, hp, hi, rfl⟩ := exists_of_readKey hk
      obtain ⟨items, hs, rfl⟩ := ih hks
      refine ⟨i :: items, ?_, by rw [List.map_cons, hi]⟩
      rw [ht]
      exact .cons hp hs
  | case4 => cases h

/-- **Lists of keys are read by the grammar.** -/
theorem readKeys_eq_ok_iff (cs : List Char) (ks : List String) :
    readKeys cs = .ok ks ↔
      ∃ items, Separated ',' (Padded Key) cs items ∧ items.map KeyItem.key = ks := by
  constructor
  · exact exists_of_readKeys
  · rintro ⟨items, hs, rfl⟩
    exact readKeys_of_separated hs

end PathQuery
