import PathQuery.Proofs.Path.Refusal

/-! # What stands between separators

The contents of brackets are lists of three kinds, of integers, of two bounds and of keys, with
commas or a colon between their elements (`content_iff`).

`Element` says what the elements have in common: blanks at their ends have no meaning, and none of
them has a separator outside quotes.  So a separator outside quotes stands between two elements in
every reading of a list (`separated_append_iff`), and the ends of a list are as free of
meaning as the ends of an element (`separated_front_iff`, `separated_back_iff`). -/

namespace PathQuery

open Grammar

variable {α : Type}

/-! ### Separators -/

/-- A character that stands between the elements of a bracket. -/
def IsSeparator (c : Char) : Prop := c = ',' ∨ c = ':'

theorem IsSeparator.not_indexChar {c : Char} (h : IsSeparator c) : ¬ IndexChar c := by
  rcases h with rfl | rfl <;> decide

theorem IsSeparator.ne_quote {c : Char} (h : IsSeparator c) : c ≠ '\'' := by
  rcases h with rfl | rfl <;> decide

theorem IsSeparator.ne_bracket {c : Char} (h : IsSeparator c) : c ≠ ']' := by
  rcases h with rfl | rfl <;> decide

theorem IsSeparator.notMem_blanks {c : Char} (h : IsSeparator c) {ws : List Char}
    (hws : Blanks ws) : c ∉ ws := fun hc => h.not_indexChar (.inl (hws c hc))

/-! ### Two cuts of one text -/

/-- Of two characters that a text is cut at, one stands before the other, or they are the same. -/
theorem append_cons_cases {a b m rest : List Char} {c d : Char} (e : a ++ c :: b = m ++ d :: rest) :
    (a = m ∧ c = d ∧ b = rest) ∨ (∃ t, m = a ++ c :: t ∧ b = t ++ d :: rest) ∨
      ∃ t, a = m ++ d :: t ∧ rest = t ++ c :: b := by
  rcases List.append_eq_append_iff.mp e with ⟨t, rfl, ht⟩ | ⟨t, rfl, ht⟩
  · rcases t with _ | ⟨x, t⟩
    · obtain ⟨rfl, rfl⟩ := List.cons.inj ht
      exact .inl ⟨(List.append_nil a).symm, rfl, rfl⟩
    · obtain ⟨rfl, rfl⟩ := List.cons.inj ht
      exact .inr (.inl ⟨t, rfl, rfl⟩)
  · rcases t with _ | ⟨x, t⟩
    · obtain ⟨rfl, rfl⟩ := List.cons.inj ht
      exact .inl ⟨List.append_nil m, rfl, rfl⟩
    · obtain ⟨rfl, rfl⟩ := List.cons.inj ht
      exact .inr (.inr ⟨t, rfl, rfl⟩)

theorem exists_of_notMem_front {ws cs m rest : List Char} {d : Char} (hd : d ∉ ws)
    (e : ws ++ cs = m ++ d :: rest) : ∃ t, m = ws ++ t ∧ cs = t ++ d :: rest := by
  rcases List.append_eq_append_iff.mp e with ⟨t, rfl, rfl⟩ | ⟨t, rfl, ht⟩
  · exact ⟨t, rfl, rfl⟩
  · rcases t with _ | ⟨x, t⟩
    · exact ⟨[], by simp, ht.symm⟩
    · rw [(List.cons.inj ht).1] at hd
      simp at hd

theorem exists_of_notMem_back {ws cs m rest : List Char} {d : Char} (hd : d ∉ ws)
    (e : cs ++ ws = m ++ d :: rest) : ∃ t, cs = m ++ d :: t ∧ rest = t ++ ws := by
  rcases List.append_eq_append_iff.mp e with ⟨t, rfl, rfl⟩ | ⟨t, rfl, ht⟩
  · simp at hd
  · rcases t with _ | ⟨x, t⟩
    · rw [List.nil_append] at ht
      rw [← ht] at hd
      simp at hd
    · obtain ⟨rfl, rfl⟩ := List.cons.inj ht
      exact ⟨t, rfl, rfl⟩

/-! ### Blanks around one element -/

theorem trimEnd_of_last {cs : List Char} (h : ∀ c ∈ cs.getLast?, Text.isBlank c = false) :
    Text.trimEnd cs = cs := by
  have hr : Text.trimStart cs.reverse = cs.reverse :=
    trimStart_of_head (by rwa [List.head?_reverse])
  unfold Text.trimEnd
  rw [← Text.trimStart, hr, List.reverse_reverse]

/-- A text that is not empty and neither begins nor ends with a blank. -/
structure Solid (cs : List Char) : Prop where
  ne_nil : cs ≠ []
  head : ∀ c ∈ cs.head?, Text.isBlank c = false
  last : ∀ c ∈ cs.getLast?, Text.isBlank c = false

theorem Solid.trimStart_append {cs : List Char} (h : Solid cs) (rest : List Char) :
    Text.trimStart (cs ++ rest) = cs ++ rest := by
  refine trimStart_of_head ?_
  rw [List.head?_append, List.head?_eq_some_head h.ne_nil, Option.some_or,
    ← List.head?_eq_some_head h.ne_nil]
  exact h.head

theorem Solid.trimEnd_append {cs : List Char} (h : Solid cs) (front : List Char) :
    Text.trimEnd (front ++ cs) = front ++ cs := by
  refine trimEnd_of_last ?_
  rw [List.getLast?_append, List.getLast?_eq_some_getLast h.ne_nil, Option.some_or,
    ← List.getLast?_eq_some_getLast h.ne_nil]
  exact h.last

section padded
variable {G : List Char → α → Prop} {ws cs : List Char} {a : α}

theorem padded_front_iff (hG : ∀ m a, G m a → Solid m) (hws : Blanks ws) :
    Padded G (ws ++ cs) a ↔ Padded G cs a := by
  constructor
  · generalize hx : ws ++ cs = xs
    rintro ⟨hl, hm, hr⟩
    rename_i l m r
    obtain ⟨l', hl', hcs⟩ := exists_trimStart cs
    have htrim : Text.trimStart cs = m ++ r := by
      rw [← trimStart_append hws, hx, List.append_assoc, trimStart_append hl,
        (hG m a hm).trimStart_append]
    rw [hcs, htrim, ← List.append_assoc]
    exact .mk hl' hm hr
  · rintro ⟨hl, hm, hr⟩
    rw [← List.append_assoc, ← List.append_assoc]
    exact .mk (hws.append hl) hm hr

theorem padded_back_iff (hG : ∀ m a, G m a → Solid m) (hws : Blanks ws) :
    Padded G (cs ++ ws) a ↔ Padded G cs a := by
  constructor
  · generalize hx : cs ++ ws = xs
    rintro ⟨hl, hm, hr⟩
    rename_i l m r
    obtain ⟨r', hr', hcs⟩ := exists_trimEnd cs
    have htrim : Text.trimEnd cs = l ++ m := by
      rw [← trimEnd_append hws, hx, trimEnd_append hr, (hG m a hm).trimEnd_append]
    rw [hcs, htrim]
    exact .mk hl hm hr'
  · rintro ⟨hl, hm, hr⟩
    rw [List.append_assoc]
    exact .mk hl hm (hr.append hws)

end padded

theorem Grammar.Integer.solid {cs : List Char} {n : Int} (h : Integer cs n) : Solid cs where
  ne_nil := h.1.ne_nil
  head c hc := h.1.not_blank c (List.mem_of_mem_head? hc)
  last c hc := h.1.not_blank c (List.mem_of_getLast? hc)

theorem Grammar.Key.solid {cs : List Char} {i : KeyItem} (h : Key cs i) : Solid cs := by
  cases h with
  | quoted _ _ =>
      refine ⟨List.cons_ne_nil _ _, ?_, ?_⟩
      · rintro c ⟨⟩
        decide
      · intro c hc
        rw [List.getLast?_concat] at hc
        cases hc
        decide
  | bare hi => exact hi.solid

/-! ### Elements -/

theorem Enclosed.of_enclosed_append {a b : List Char} (ha : Enclosed a) (h : Enclosed (a ++ b)) :
    Enclosed b := by
  induction ha with
  | nil => exact h
  | plain hq _ _ ih => exact ih (h.of_cons hq)
  | @quoted body k cs hk _ ih =>
      rw [List.append_assoc, List.cons_append, List.cons_append] at h
      obtain ⟨k', tail, htail, henc⟩ := unquoteKey_of_enclosedFrom h.of_quote
      rw [unquoteKey_append hk] at htail
      cases htail
      exact ih henc

/-- The texts that can stand between separators: blanks at their ends have no meaning, they are
enclosed, and none of them has a separator outside quotes. -/
structure Element (H : List Char → α → Prop) : Prop where
  front : ∀ {ws cs : List Char} {a : α}, Blanks ws → (H (ws ++ cs) a ↔ H cs a)
  back : ∀ {ws cs : List Char} {a : α}, Blanks ws → (H (cs ++ ws) a ↔ H cs a)
  enclosed : ∀ {cs : List Char} {a : α}, H cs a → Enclosed cs
  apart : ∀ {x y : List Char} {c : Char} {a : α}, IsSeparator c → H (x ++ c :: y) a → ¬ Enclosed x

theorem element_integer : Element (Padded Integer) where
  front := padded_front_iff fun _ _ => Integer.solid
  back := padded_back_iff fun _ _ => Integer.solid
  enclosed := enclosed_of_padded_integer
  apart hc h _ := hc.not_indexChar (indexChar_of_padded h _ (by simp))

theorem bound_none_iff (cs : List Char) : Bound cs none ↔ Blanks cs :=
  ⟨fun h => by cases h with | absent h => exact h, .absent⟩

theorem bound_some_iff (cs : List Char) (n : Int) : Bound cs (some n) ↔ Padded Integer cs n :=
  ⟨fun h => by cases h with | present h => exact h, .present⟩

theorem element_bound : Element Bound where
  front {ws cs b} hws := by
    cases b with
    | none =>
        rw [bound_none_iff, bound_none_iff, Blanks, List.forall_mem_append]
        exact and_iff_right hws
    | some n =>
        rw [bound_some_iff, bound_some_iff]
        exact element_integer.front hws
  back {ws cs b} hws := by
    cases b with
    | none =>
        rw [bound_none_iff, bound_none_iff, Blanks, List.forall_mem_append]
        exact and_iff_left hws
    | some n =>
        rw [bound_some_iff, bound_some_iff]
        exact element_integer.back hws
  enclosed h := enclosed_of_indexChar (indexChar_of_bound h)
  apart hc h _ := hc.not_indexChar (indexChar_of_bound h _ (by simp))

/-- A separator in a quoted key stands inside its quotes. -/
theorem not_enclosed_of_quoted {x y l body k r : List Char} {c : Char} (hc : IsSeparator c)
    (hl : Blanks l) (hk : Quoted body k) (hr : Blanks r)
    (e : x ++ c :: y = l ++ '\'' :: (body ++ '\'' :: r)) : ¬ Enclosed x := by
  intro henc
  rcases append_cons_cases e with ⟨-, rfl, -⟩ | ⟨t, rfl, -⟩ | ⟨t, rfl, ht⟩
  · exact hc.ne_quote rfl
  · exact hc.notMem_blanks hl (by simp)
  · -- `x` has a whole quoted region at the quote that opens the key, so it goes beyond the key
    obtain ⟨body', k', tail, hk', -, rfl⟩ :=
      ((enclosed_of_blanks hl).of_enclosed_append henc).of_quote
    have hkey := unquoteKey_append hk r
    rw [ht, List.append_assoc, List.cons_append, unquoteKey_append hk'] at hkey
    cases hkey
    exact hc.notMem_blanks hr (by simp)

theorem element_key : Element (Padded Key) where
  front := padded_front_iff fun _ _ => Key.solid
  back := padded_back_iff fun _ _ => Key.solid
  enclosed := enclosed_of_padded_key
  apart {x y c i} hc h := by
    generalize e : x ++ c :: y = m at h
    obtain ⟨hl, hk, hr⟩ := h
    cases hk with
    | quoted hq _ => exact not_enclosed_of_quoted hc hl hq hr (by rw [e]; simp)
    | bare hi =>
        intro _
        refine hc.not_indexChar (indexChar_of_padded (.mk hl hi hr) c ?_)
        rw [← e]
        simp

/-! ### Texts of elements -/

theorem Grammar.Separated.append {H : List Char → α → Prop} {sep : Char} {a b : List Char}
    {as bs : List α} (ha : Separated sep H a as) (hb : Separated sep H b bs) :
    Separated sep H (a ++ sep :: b) (as ++ bs) := by
  induction ha with
  | one hm => exact .cons hm hb
  | cons hm _ ih =>
      rw [List.append_assoc, List.cons_append]
      exact .cons hm ih

section separated
variable {H : List Char → α → Prop} (hH : Element H) {sep : Char} (hsep : IsSeparator sep)
  {cs cs' : List Char} {as : List α}

include hH hsep

theorem exists_of_separated_append {a b : List Char} {c : Char} (hc : IsSeparator c)
    (ha : Enclosed a) (h : Separated sep H (a ++ c :: b) as) :
    c = sep ∧ ∃ as₁ as₂, as = as₁ ++ as₂ ∧ Separated sep H a as₁ ∧ Separated sep H b as₂ := by
  generalize hx : a ++ c :: b = xs at h
  induction h generalizing a with
  | one hm =>
      rw [← hx] at hm
      exact absurd ha (hH.apart hc hm)
  | @cons m rest v as hm hrest ih =>
      rcases append_cons_cases hx with ⟨rfl, rfl, rfl⟩ | ⟨t, rfl, -⟩ | ⟨t, rfl, rfl⟩
      · exact ⟨rfl, [v], as, rfl, .one hm, hrest⟩
      · exact absurd ha (hH.apart hc hm)
      · have ht : Enclosed (sep :: t) := (hH.enclosed hm).of_enclosed_append ha
        obtain ⟨rfl, as₁, as₂, rfl, h₁, h₂⟩ := ih (ht.of_cons hsep.ne_quote) rfl
        exact ⟨rfl, v :: as₁, as₂, rfl, .cons hm h₁, h₂⟩

/-- A text that is cut at a separator outside quotes is two texts of elements. -/
theorem separated_append_iff {a b : List Char} {c : Char} (hc : IsSeparator c) (ha : Enclosed a) :
    Separated sep H (a ++ c :: b) as ↔
      c = sep ∧ ∃ as₁ as₂, as = as₁ ++ as₂ ∧ Separated sep H a as₁ ∧ Separated sep H b as₂ := by
  constructor
  · exact exists_of_separated_append hH hsep hc ha
  · rintro ⟨rfl, as₁, as₂, rfl, h₁, h₂⟩
    exact h₁.append h₂

theorem separated_front_iff {ws : List Char} (hws : Blanks ws) :
    Separated sep H (ws ++ cs) as ↔ Separated sep H cs as := by
  constructor
  · generalize hx : ws ++ cs = xs
    intro h
    cases h with
    | one hm =>
        rw [← hx, hH.front hws] at hm
        exact .one hm
    | cons hm hrest =>
        obtain ⟨t, rfl, rfl⟩ := exists_of_notMem_front (hsep.notMem_blanks hws) hx
        exact .cons ((hH.front hws).mp hm) hrest
  · intro h
    cases h with
    | one hm => exact .one ((hH.front hws).mpr hm)
    | cons hm hrest =>
        rw [← List.append_assoc]
        exact .cons ((hH.front hws).mpr hm) hrest

theorem separated_back_iff {ws : List Char} (hws : Blanks ws) :
    Separated sep H (cs ++ ws) as ↔ Separated sep H cs as := by
  constructor
  · generalize hx : cs ++ ws = xs
    intro h
    induction h generalizing cs with
    | one hm =>
        rw [← hx, hH.back hws] at hm
        exact .one hm
    | cons hm _ ih =>
        obtain ⟨t, rfl, rfl⟩ := exists_of_notMem_back (hsep.notMem_blanks hws) hx
        exact .cons hm (ih rfl)
  · intro h
    induction h with
    | one hm => exact .one ((hH.back hws).mpr hm)
    | cons hm _ ih =>
        rw [List.append_assoc, List.cons_append]
        exact .cons hm ih

end separated

/-! ### Contents -/

/-- The step of a list of positions: one position is a single element. -/
def Step.ofPositions : List Int → Step
  | [i] => .index i
  | is => .pick (.positions is)

theorem separated_single_iff {sep : Char} {G : List Char → α → Prop} {cs : List Char} {a : α} :
    Separated sep G cs [a] ↔ G cs a := by
  constructor
  · intro h
    cases h with
    | one hm => exact hm
    | cons _ hrest => exact absurd rfl hrest.ne_nil
  · exact .one

/-- Contents are texts of integers, of two bounds, or of keys. -/
theorem content_iff (cs : List Char) (s : Step) :
    Content cs s ↔
      (∃ is, Separated ',' (Padded Integer) cs is ∧ s = Step.ofPositions is) ∨
      (∃ start stop, Separated ':' Bound cs [start, stop] ∧ Slice (start.getD 0) stop s) ∨
      ∃ items, Separated ',' (Padded Key) cs items ∧ (∃ i ∈ items, i.inQuotes = true) ∧
        s = Step.ofKeys (items.map KeyItem.key) := by
  constructor
  · intro h
    cases h with
    | index h => exact .inl ⟨_, .one h, rfl⟩
    | @positions _ is h h2 =>
        refine .inl ⟨is, h, ?_⟩
        match is, h2 with
        | _ :: _ :: _, _ => rfl
    | slice ha hb hs => exact .inr (.inl ⟨_, _, .cons ha (.one hb), hs⟩)
    | name hk => exact .inr (.inr ⟨_, hk.1, hk.2, rfl⟩)
    | @names _ items hk h2 =>
        exact .inr (.inr ⟨items, hk.1, hk.2,
          ((ofKeys_eq_iff items _ hk.1.ne_nil).mpr (.inr ⟨h2, rfl⟩)).symm⟩)
  · rintro (⟨is, h, rfl⟩ | ⟨start, stop, h, hs⟩ | ⟨items, h, hquoted, rfl⟩)
    · match is, h with
      | [], h => exact absurd rfl h.ne_nil
      | [n], h => exact .index (separated_single_iff.mp h)
      | _ :: _ :: _, h => exact .positions h (by simp)
    · cases h with
      | cons ha hb => exact .slice ha (separated_single_iff.mp hb) hs
    · match items, h, hquoted with
      | [], h, _ => exact absurd rfl h.ne_nil
      | [i], h, hquoted => exact .name ⟨h, hquoted⟩
      | _ :: _ :: _, h, hquoted => exact .names ⟨h, hquoted⟩ (by simp)

end PathQuery
