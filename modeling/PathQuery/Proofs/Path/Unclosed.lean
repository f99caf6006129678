import PathQuery.Proofs.Path.Quoting

/-! # Brackets that nothing closes

Behind an opening bracket every text goes on in one of four ways (`Cut`, `cut_all`): a bracket
closes it, or the text ends first, and this outside quotes, inside quotes, or inside quotes right
behind a backslash that has no character to stand before.

The search for the closing bracket answers each of the four in its own way.  As no two of its
answers are the same, it tells them apart, and its answers say exactly what the text is
(`findClose_exact`). -/

namespace PathQuery

open Grammar

/-! ### How a text goes on -/

/-- A text behind an opening bracket, by what comes first: the bracket that closes, or the end of
the text outside quotes, inside quotes, or behind a backslash inside quotes. -/
inductive Cut : List Char → Prop
  | closed {content : List Char} (rest : List Char) :
      Enclosed content → Cut (content ++ ']' :: rest)
  | outside {cs : List Char} : Enclosed cs → Cut cs
  | inside {front body k : List Char} :
      Enclosed front → Quoted body k → Cut (front ++ '\'' :: body)
  | escaped {front body k : List Char} :
      Enclosed front → Quoted body k → Cut (front ++ '\'' :: (body ++ ['\\']))

/-- What is enclosed changes nothing in front of a text. -/
theorem Cut.append {a b : List Char} (ha : Enclosed a) (h : Cut b) : Cut (a ++ b) := by
  cases h with
  | closed rest hc =>
      rw [← List.append_assoc]
      exact .closed rest (ha.append hc)
  | outside h => exact .outside (ha.append h)
  | inside hf hk =>
      rw [← List.append_assoc]
      exact .inside (ha.append hf) hk
  | escaped hf hk =>
      rw [← List.append_assoc]
      exact .escaped (ha.append hf) hk

/-- Behind an opening quote there is the quote that closes, or the text ends in the key. -/
theorem exists_quoted (cs : List Char) :
    (∃ body k tail, Quoted body k ∧ cs = body ++ '\'' :: tail) ∨
      ∃ body k, Quoted body k ∧ (cs = body ∨ cs = body ++ ['\\']) := by
  fun_induction unquoteKey cs with
  | case1 => exact .inr ⟨[], [], .nil, .inl rfl⟩
  | case2 tail => exact .inl ⟨[], [], tail, .nil, rfl⟩
  | case3 => exact .inr ⟨[], [], .nil, .inr rfl⟩
  | case4 d ds _ ih =>
      rcases ih with ⟨body, k, tail, hk, rfl⟩ | ⟨body, k, hk, rfl | rfl⟩
      · exact .inl ⟨_, _, tail, .escaped hk, rfl⟩
      · exact .inr ⟨_, _, .escaped hk, .inl rfl⟩
      · exact .inr ⟨_, _, .escaped hk, .inr rfl⟩
  | case5 c cs hq hb ih =>
      rcases ih with ⟨body, k, tail, hk, rfl⟩ | ⟨body, k, hk, rfl | rfl⟩
      · exact .inl ⟨_, _, tail, .plain hq hb hk, rfl⟩
      · exact .inr ⟨_, _, .plain hq hb hk, .inl rfl⟩
      · exact .inr ⟨_, _, .plain hq hb hk, .inr rfl⟩

theorem cut_all (cs : List Char) : Cut cs := by
  -- a quoted key is passed over as a whole, so the induction is on the length
  induction hn : cs.length using Nat.strong_induction_on generalizing cs with
  | h n ih =>
      subst hn
      rcases cs with _ | ⟨c, cs⟩
      · exact .outside .nil
      by_cases hc : c = ']'
      · rw [hc]
        exact .closed cs .nil
      by_cases hq : c = '\''
      · rw [hq]
        rcases exists_quoted cs with ⟨body, k, tail, hk, rfl⟩ | ⟨body, k, hk, rfl | rfl⟩
        · have htail : Cut tail := ih tail.length (by simp; omega) tail rfl
          have happend := Cut.append (.quoted hk .nil) htail
          rwa [List.append_assoc, List.cons_append, List.cons_append, List.nil_append] at happend
        · exact .inside .nil hk
        · exact .escaped .nil hk
      · exact Cut.append (.plain hq hc .nil) (ih cs.length (Nat.lt_succ_self _) cs rfl)

/-! ### The cut of an unclosed text -/

section splitClose
variable {opening : Nat} {front body k cs : List Char}

theorem splitClose_of_enclosed (h : Enclosed cs) (offset : Nat) :
    splitClose opening false offset cs = .error (.ended (.closeBracket opening)) := by
  have hcut := @splitClose_enclosed opening cs h offset []
  rw [List.append_nil] at hcut
  rw [hcut]
  rfl

theorem splitClose_of_quoted (hf : Enclosed front) (hk : Quoted body k) (offset : Nat) :
    splitClose opening false offset (front ++ '\'' :: body) = .error (.ended .closingQuote) := by
  have hcut := @splitClose_inside opening body k hk (offset + Text.byteSize front + 1) []
  rw [List.append_nil] at hcut
  rw [splitClose_enclosed hf, splitClose_openQuote, hcut]
  rfl

theorem splitClose_of_escaped (hf : Enclosed front) (hk : Quoted body k) (offset : Nat) :
    splitClose opening false offset (front ++ '\'' :: (body ++ ['\\'])) =
      .error (.invalid (.danglingEscapeAt
        (offset + Text.byteSize front + 1 + Text.byteSize body))) := by
  rw [splitClose_enclosed hf, splitClose_openQuote, splitClose_inside hk]
  rfl

end splitClose

/-! ### The search on every text -/

/-- The bracket at byte `opening` of a text is closed by the one at byte `close`. -/
structure ClosedAt (cs : List Char) (opening close : Nat) : Prop where
  opens : Text.CharAt cs opening '['
  closes : Text.CharAt cs close ']'
  lt : opening < close
  enclosed : ∃ content, Text.sliceBytes? cs (opening + 1) close = some content ∧ Enclosed content

/-- Behind the bracket at byte `opening` a text ends inside quotes; `ending` stands behind the last
whole character of the key. -/
def EndsQuoted (cs : List Char) (opening : Nat) (ending : List Char) : Prop :=
  ∃ front inside body k, cs = front ++ '[' :: (inside ++ '\'' :: (body ++ ending)) ∧
    Text.byteSize front = opening ∧ Enclosed inside ∧ Quoted body k

theorem closedAt_iff (cs : List Char) (opening close : Nat) :
    ClosedAt cs opening close ↔ ∃ front content back,
      cs = front ++ '[' :: (content ++ ']' :: back) ∧ Enclosed content ∧
      Text.byteSize front = opening ∧ close = opening + 1 + Text.byteSize content := by
  constructor
  · rintro ⟨hopen, hclose, -, content, hslice, henc⟩
    obtain ⟨front, back, hcs, hfront, hplace⟩ := split_of_charAt hopen hclose hslice
    exact ⟨front, content, back, hcs, henc, hfront, hplace⟩
  · rintro ⟨front, content, back, rfl, henc, rfl, rfl⟩
    have hone : Text.byteSize (front ++ ['[']) = Text.byteSize front + 1 :=
      Text.byteSize_append front ['[']
    refine ⟨⟨front, _, rfl, rfl⟩, ⟨front ++ '[' :: content, back, by simp, ?_⟩, by omega, content,
      (Text.sliceBytes?_eq_some_iff _ _ _ _).mpr
        ⟨front ++ ['['], ']' :: back, by simp, hone, by rw [hone]⟩, henc⟩
    rw [Text.byteSize_append, Text.byteSize_cons, ← Nat.add_assoc]
    rfl

/-- The search looks at nothing but the text behind the opening bracket. -/
theorem findClose_of_split {path : String} {front rest : List Char} {opening : Nat}
    (h : path.toList = front ++ '[' :: rest) (hfront : Text.byteSize front = opening) :
    findClose path opening = (splitClose opening false (opening + 1) rest).map
      fun r => opening + 1 + Text.byteSize r.1 := by
  unfold findClose
  dsimp only
  rw [h, ← hfront, Text.dropBytes?_byteSize_append]
  rfl

theorem findClose_of_endsQuoted {path : String} {opening : Nat}
    (h : EndsQuoted path.toList opening []) :
    findClose path opening = .error (.ended .closingQuote) := by
  obtain ⟨front, inside, body, k, hpath, hfront, hinside, hk⟩ := h
  rw [List.append_nil] at hpath
  rw [findClose_of_split hpath hfront, splitClose_of_quoted hinside hk]
  rfl

theorem findClose_of_endsEscaped {path : String} {opening : Nat}
    (h : EndsQuoted path.toList opening ['\\']) :
    findClose path opening = .error (.invalid (.danglingEscapeAt (path.utf8ByteSize - 1))) := by
  obtain ⟨front, inside, body, k, hpath, hfront, hinside, hk⟩ := h
  have hsize : path.utf8ByteSize =
      opening + (1 + (Text.byteSize inside + (1 + (Text.byteSize body + 1)))) := by
    rw [← Text.byteSize_toList, hpath, Text.byteSize_append, Text.byteSize_cons,
      Text.byteSize_append, Text.byteSize_cons, Text.byteSize_append, hfront]
    rfl
  have hplace : opening + 1 + Text.byteSize inside + 1 + Text.byteSize body =
      path.utf8ByteSize - 1 := by omega
  rw [findClose_of_split hpath hfront, splitClose_of_escaped hinside hk, hplace]
  rfl

theorem findClose_cases {path : String} {opening : Nat}
    (h : Text.CharAt path.toList opening '[') :
    (∃ close, ClosedAt path.toList opening close) ∨ EndsQuoted path.toList opening ['\\'] ∨
      EndsQuoted path.toList opening [] ∨
      findClose path opening = .error (.ended (.closeBracket opening)) := by
  obtain ⟨front, rest, hpath, hfront⟩ := h
  cases cut_all rest with
  | closed back hc =>
      exact .inl ⟨_, (closedAt_iff _ _ _).mpr ⟨front, _, back, hpath, hc, hfront, rfl⟩⟩
  | outside hc =>
      refine .inr (.inr (.inr ?_))
      rw [findClose_of_split hpath hfront, splitClose_of_enclosed hc]
      rfl
  | @inside inside body k hf hk =>
      refine .inr (.inr (.inl ⟨front, inside, body, k, ?_, hfront, hf, hk⟩))
      rw [List.append_nil]
      exact hpath
  | @escaped inside body k hf hk =>
      exact .inr (.inl ⟨front, inside, body, k, hpath, hfront, hf, hk⟩)

theorem findClose_eq_ok_iff_closedAt (path : String) (opening close : Nat) :
    findClose path opening = .ok close ↔ ClosedAt path.toList opening close :=
  (findClose_eq_ok_iff path opening close).trans (closedAt_iff path.toList opening close).symm

theorem ClosedAt.unique {path : String} {opening close close' : Nat}
    (h : ClosedAt path.toList opening close) (h' : ClosedAt path.toList opening close') :
    close = close' := by
  rw [← findClose_eq_ok_iff_closedAt] at h h'
  exact Except.ok.inj (h.symm.trans h')

section apart
variable {path : String} {opening : Nat} {e : PathError} (h : findClose path opening = .error e)

include h

theorem not_endsQuoted_of_findClose (hne : e ≠ .ended .closingQuote) :
    ¬ EndsQuoted path.toList opening [] := by
  intro hquote
  rw [findClose_of_endsQuoted hquote] at h
  exact hne (Except.error.inj h).symm

theorem not_endsEscaped_of_findClose
    (hne : e ≠ .invalid (.danglingEscapeAt (path.utf8ByteSize - 1))) :
    ¬ EndsQuoted path.toList opening ['\\'] := by
  intro hescape
  rw [findClose_of_endsEscaped hescape] at h
  exact hne (Except.error.inj h).symm

end apart

theorem utf8ByteSize_pos_of_charAt {path : String} {opening : Nat} {c : Char}
    (h : Text.CharAt path.toList opening c) : 0 < path.utf8ByteSize := by
  rw [← Text.byteSize_toList]
  exact Nat.zero_lt_of_lt h.lt_byteSize

/-- **The search for the closing bracket on every text.**  It answers an offset exactly if the
bracket is closed there, and a bracket is closed at one offset at most.  Where an opening bracket is
not closed, it answers that a backslash at the end of the text has nothing to escape, that a quote
is missing, or that the bracket is missing: the first exactly if the text ends inside quotes with
such a backslash, the second if it ends inside quotes without one, and the third otherwise. -/
theorem findClose_exact (path : String) (opening : Nat) :
    (∀ close, findClose path opening = .ok close ↔ ClosedAt path.toList opening close) ∧
    (∀ close close', ClosedAt path.toList opening close → ClosedAt path.toList opening close' →
      close = close') ∧
    (Text.CharAt path.toList opening '[' → (∀ close, ¬ ClosedAt path.toList opening close) →
      (∀ offset, findClose path opening = .error (.invalid (.danglingEscapeAt offset)) ↔
        EndsQuoted path.toList opening ['\\'] ∧ offset + 1 = path.utf8ByteSize) ∧
      (findClose path opening = .error (.ended .closingQuote) ↔
        EndsQuoted path.toList opening []) ∧
      (findClose path opening = .error (.ended (.closeBracket opening)) ↔
        ¬ EndsQuoted path.toList opening ['\\'] ∧ ¬ EndsQuoted path.toList opening [])) := by
  refine ⟨findClose_eq_ok_iff_closedAt path opening, fun _ _ => ClosedAt.unique, ?_⟩
  intro hopen hno
  rcases findClose_cases hopen with ⟨close, hclose⟩ | hescape | hquote | hbracket
  · exact absurd hclose (hno close)
  · have hfind := findClose_of_endsEscaped hescape
    have hquote := not_endsQuoted_of_findClose hfind nofun
    have hsize := utf8ByteSize_pos_of_charAt hopen
    have hplace : ∀ offset, path.utf8ByteSize - 1 = offset ↔ offset + 1 = path.utf8ByteSize := by
      intro offset
      omega
    simp [hfind, hescape, hquote, hplace]
  · have hfind := findClose_of_endsQuoted hquote
    have hescape := not_endsEscaped_of_findClose hfind nofun
    simp [hfind, hquote, hescape]
  · have hescape := not_endsEscaped_of_findClose hbracket nofun
    have hquote := not_endsQuoted_of_findClose hbracket nofun
    simp [hbracket, hquote, hescape]

/-- A closing bracket inside quotes and an escaped quote, and a key that breaks off. -/
theorem findClose_exact_brokenKey :
    ClosedAt "$['é]\\'']".toList 1 9 ∧ Text.CharAt "$['é\\".toList 1 '[' ∧
    (∀ close, ¬ ClosedAt "$['é\\".toList 1 close) ∧ EndsQuoted "$['é\\".toList 1 ['\\'] := by
  have hclosed : findClose "$['é]\\'']" 1 = .ok 9 := by decide +kernel
  have hbroken : findClose "$['é\\" 1 = .error (.invalid (.danglingEscapeAt 5)) := by
    decide +kernel
  have hopen : Text.CharAt "$['é\\".toList 1 '[' := ⟨['$'], _, rfl, rfl⟩
  have hno : ∀ close, ¬ ClosedAt "$['é\\".toList 1 close := by
    intro close h
    rw [((findClose_exact "$['é\\" 1).1 close).mpr h] at hbroken
    cases hbroken
  obtain ⟨hescape, -, -⟩ := (findClose_exact "$['é\\" 1).2.2 hopen hno
  exact ⟨((findClose_exact _ 1).1 9).mp hclosed, hopen, hno, ((hescape 5).mp hbroken).1⟩

end PathQuery
