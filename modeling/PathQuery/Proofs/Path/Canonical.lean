import PathQuery.Path.Printer
import PathQuery.Proofs.Path.Acceptance

/-! # Paths that are read back as they are written

A path is written as an expression and the expression is read again.  This gives the same steps
exactly if every step is in canonical form (`parse_text_eq_ok_iff`): lists have the length that
the grammar asks for, keys are not empty, and a span is one that no list of positions and no
shorter span can stand for.

In one direction the written form of a canonical step is a segment of the grammar
(`segment_of_canonical`).  In the other, every step that is read at all is canonical but for one
kind, a list of one position (`Grammar.Segment.compiled`); that one is written like a single
index and read back as an index. -/

namespace PathQuery

open Grammar

/-! ### Canonical steps -/

namespace Span

def InWords (s : Span) : Prop :=
  InWord s.start ∧ InWord s.offset ∧ match s.stop with
    | none => True
    | some stop => InWord stop

/-- A span to a position relative to the end, or to a known end that does not make it a short
list of known positions. -/
def IsCanonical (s : Span) : Prop :=
  match s.stop with
  | none => s.offset ≤ 0
  | some stop => s.offset = 0 ∧ 0 ≤ stop ∧ (s.start < 0 ∨ 1024 < stop - s.start)

instance : (s : Span) → Decidable s.InWords
  | ⟨_, none, _⟩ => inferInstanceAs (Decidable (InWord _ ∧ InWord _ ∧ True))
  | ⟨_, some _, _⟩ => inferInstanceAs (Decidable (InWord _ ∧ InWord _ ∧ InWord _))

instance : (s : Span) → Decidable s.IsCanonical
  | ⟨_, none, offset⟩ => inferInstanceAs (Decidable (offset ≤ 0))
  | ⟨start, some stop, offset⟩ =>
    inferInstanceAs (Decidable (offset = 0 ∧ 0 ≤ stop ∧ (start < 0 ∨ 1024 < stop - start)))

end Span

namespace Pick

def InWords : Pick → Prop
  | .positions is => ∀ i ∈ is, InWord i
  | .span s => s.InWords
  | .names _ => True

/-- Lists have at least a given length, keys are not empty, and spans are canonical. -/
def IsCanonical (least : Nat) : Pick → Prop
  | .positions is => least ≤ is.length
  | .span s => s.IsCanonical
  | .names ks => least ≤ ks.length ∧ ∀ k ∈ ks, k ≠ ""

instance : (p : Pick) → Decidable p.InWords
  | .positions is => inferInstanceAs (Decidable (∀ i ∈ is, InWord i))
  | .span s => inferInstanceAs (Decidable s.InWords)
  | .names _ => inferInstanceAs (Decidable True)

instance (least : Nat) : (p : Pick) → Decidable (p.IsCanonical least)
  | .positions is => inferInstanceAs (Decidable (least ≤ is.length))
  | .span s => inferInstanceAs (Decidable s.IsCanonical)
  | .names ks => inferInstanceAs (Decidable (least ≤ ks.length ∧ ∀ k ∈ ks, k ≠ ""))

end Pick

namespace Step

def InWords : Step → Prop
  | .index i => InWord i
  | .name _ => True
  | .pick p => p.InWords
  | .scan p => p.InWords

/-- The form in which a step is read back as it is written.  A list of one entry has a step of
its own, except in a scan. -/
def IsCanonical : Step → Prop
  | .index _ => True
  | .name k => k ≠ ""
  | .pick p => p.IsCanonical 2
  | .scan p => p.IsCanonical 1

instance : (s : Step) → Decidable s.InWords
  | .index i => inferInstanceAs (Decidable (InWord i))
  | .name _ => inferInstanceAs (Decidable True)
  | .pick p => inferInstanceAs (Decidable p.InWords)
  | .scan p => inferInstanceAs (Decidable p.InWords)

instance : (s : Step) → Decidable s.IsCanonical
  | .index _ => inferInstanceAs (Decidable True)
  | .name k => inferInstanceAs (Decidable (k ≠ ""))
  | .pick p => inferInstanceAs (Decidable (p.IsCanonical 2))
  | .scan p => inferInstanceAs (Decidable (p.IsCanonical 1))

end Step

/-! ### Written integers and keys -/

theorem numeral_toDigits (n : Nat) : Numeral (Nat.toDigits 10 n) n where
  ne_nil := Nat.toDigits_ne_nil
  digits _ hc := Nat.isDigit_of_mem_toDigits (by decide) (by decide) hc
  value := Nat.ofDigitChars_ten_toDigits

theorem decimal_ofNat (n : Nat) : decimal (Int.ofNat n) = Nat.toDigits 10 n := by
  unfold decimal
  rw [Int.toString_eq_repr]
  exact Nat.toList_repr

theorem decimal_negSucc (n : Nat) : decimal (Int.negSucc n) = '-' :: Nat.toDigits 10 (n + 1) := by
  unfold decimal
  rw [Int.toString_eq_repr, Int.repr, String.toList_append, Nat.toList_repr]
  rfl

theorem literal_decimal (n : Int) : Literal (decimal n) n := by
  cases n with
  | ofNat n =>
      rw [decimal_ofNat]
      exact .natural (numeral_toDigits n)
  | negSucc n =>
      rw [decimal_negSucc]
      exact .negative (numeral_toDigits (n + 1))

theorem Grammar.Padded.of_self {α : Type} {G : List Char → α → Prop} {cs : List Char} {a : α}
    (h : G cs a) : Padded G cs a := by
  have hp := Padded.mk blanks_nil h blanks_nil
  rwa [List.nil_append, List.append_nil] at hp

theorem padded_decimal {n : Int} (h : InWord n) : Padded Integer (decimal n) n :=
  .of_self ⟨literal_decimal n, h⟩

theorem quoted_escapeKey (k : List Char) : Quoted (escapeKey k) k := by
  induction k with
  | nil => exact .nil
  | cons c k ih =>
      unfold escapeKey
      split_ifs with h
      · exact .escaped ih
      · rw [not_or] at h
        exact .plain h.1 h.2 ih

theorem padded_quoteKey {k : String} (h : k ≠ "") : Padded Key (quoteKey k) ⟨k, true⟩ := by
  have hk : Key (quoteKey k) ⟨String.ofList k.toList, true⟩ :=
    .quoted (quoted_escapeKey k.toList) fun e => h (String.toList_eq_nil_iff.mp e)
  rw [String.ofList_toList] at hk
  exact .of_self hk

theorem separated_joinWith {α β : Type} {G : List Char → β → Prop} {sep : Char}
    {write : α → List Char} {value : α → β} (as : List α) (hne : as ≠ [])
    (h : ∀ a ∈ as, G (write a) (value a)) :
    Separated sep G (joinWith [sep] (as.map write)) (as.map value) := by
  induction as with
  | nil => exact absurd rfl hne
  | cons a as ih =>
      rcases as with _ | ⟨b, as⟩
      · exact .one (h a List.mem_cons_self)
      · have hrest := ih (by simp) fun x hx => h x (List.mem_cons_of_mem a hx)
        have e : joinWith [sep] ((a :: b :: as).map write) =
            write a ++ sep :: joinWith [sep] ((b :: as).map write) := by simp
        rw [e]
        exact .cons (h a List.mem_cons_self) hrest

theorem keyList_joinWith {ks : List String} (hne : ks ≠ []) (h : ∀ k ∈ ks, k ≠ "") :
    KeyList (joinWith [','] (ks.map quoteKey)) (ks.map fun k => ⟨k, true⟩) := by
  refine ⟨separated_joinWith ks hne fun k hk => padded_quoteKey (h k hk), ?_⟩
  obtain ⟨k, hk⟩ := List.exists_mem_of_ne_nil ks hne
  exact ⟨⟨k, true⟩, List.mem_map.mpr ⟨k, hk, rfl⟩, rfl⟩

/-! ### A canonical step is written as its segment -/

theorem content_index {i : Int} (h : InWord i) : Content (decimal i) (.index i) :=
  .index (padded_decimal h)

theorem content_name {k : String} (h : k ≠ "") : Content (quoteKey k) (.name k) :=
  .name (i := ⟨k, true⟩) (@keyList_joinWith [k] (by simp) (by simpa using h))

theorem content_positions {is : List Int} (hw : ∀ i ∈ is, InWord i) (h2 : 2 ≤ is.length) :
    Content (Pick.positions is).content (.pick (.positions is)) := by
  have hne : is ≠ [] := fun e => by rw [e] at h2; exact absurd h2 (by decide)
  have hs : Separated ',' (Padded Integer) (joinWith [','] (is.map decimal)) (is.map id) :=
    separated_joinWith is hne fun i hi => padded_decimal (hw i hi)
  rw [List.map_id] at hs
  exact .positions hs h2

theorem content_names {ks : List String} (h : ∀ k ∈ ks, k ≠ "") (h2 : 2 ≤ ks.length) :
    Content (Pick.names ks).content (.pick (.names ks)) := by
  have hne : ks ≠ [] := fun e => by rw [e] at h2; exact absurd h2 (by decide)
  have hc := Content.names (keyList_joinWith hne h) (by rwa [List.length_map])
  rw [List.map_map] at hc
  have e : ks.map (KeyItem.key ∘ fun k => ⟨k, true⟩) = ks := List.map_id ks
  rwa [e] at hc

theorem content_span {s : Span} (hw : s.InWords) (h : s.IsCanonical) :
    Content s.content (.pick (.span s)) := by
  obtain ⟨start, stop, offset⟩ := s
  obtain ⟨h1, h2, h3⟩ := hw
  have hstart : Bound (decimal start) (some start) := .present (padded_decimal h1)
  cases stop with
  | none =>
      by_cases h0 : offset = 0
      · subst h0
        exact .slice hstart (.absent blanks_nil) .toEnd
      · have hneg : offset < 0 := lt_of_le_of_ne h h0
        have e : Span.content ⟨start, none, offset⟩ = decimal start ++ ':' :: decimal offset := by
          simp [Span.content, h0]
        rw [e]
        exact .slice hstart (.present (padded_decimal h2)) (.fromEnd hneg)
  | some stop =>
      obtain ⟨rfl, h0, hwide⟩ := h
      exact .slice hstart (.present (padded_decimal h3)) (.clamped h0 hwide)

/-- The content of a canonical pick names the pick, or the single entry of the list. -/
theorem content_pick {p : Pick} (hw : p.InWords) (h : p.IsCanonical 2) :
    Content p.content (.pick p) := by
  cases p with
  | positions is => exact content_positions hw h
  | span s => exact content_span hw h
  | names ks => exact content_names h.2 h.1

theorem content_scan {p : Pick} (hw : p.InWords) (h : p.IsCanonical 1) :
    ∃ s, Content p.content s ∧ Deep s (.scan p) := by
  by_cases h2 : p.IsCanonical 2
  · exact ⟨.pick p, content_pick hw h2, .pick⟩
  cases p with
  | positions is =>
      rcases is with _ | ⟨i, _ | ⟨j, is⟩⟩
      · exact absurd h (by decide)
      · exact ⟨.index i, content_index (hw i List.mem_cons_self), .index⟩
      · exact absurd (Nat.le_add_left 2 is.length) h2
  | span s => exact absurd h h2
  | names ks =>
      rcases ks with _ | ⟨k, _ | ⟨j, ks⟩⟩
      · exact absurd h.1 (by decide)
      · exact ⟨.name k, content_name (h.2 k List.mem_cons_self), .name⟩
      · exact absurd ⟨Nat.le_add_left 2 ks.length, h.2⟩ h2

/-- **A canonical step is written as a segment that names it.** -/
theorem segment_of_canonical {s : Step} (hw : s.InWords) (h : s.IsCanonical) :
    Segment s.segment s := by
  cases s with
  | index i => exact .bracket (content_index hw)
  | name k => exact .bracket (content_name h)
  | pick p => exact .bracket (content_pick hw h)
  | scan p =>
      obtain ⟨t, ht, hd⟩ := content_scan hw h
      exact .dots ht hd

/-! ### What is read is canonical but for lists of one position -/

theorem inWord_zero : InWord 0 := by decide

theorem inWord_of_padded {cs : List Char} {n : Int} (h : Padded Integer cs n) : InWord n := by
  obtain ⟨_, hi, _⟩ := h
  exact hi.2

theorem inWord_of_bound {cs : List Char} {b : Option Int} (h : Bound cs b) :
    InWord (b.getD 0) := by
  cases h with
  | absent _ => exact inWord_zero
  | present h => exact inWord_of_padded h

theorem key_ne_empty_of_padded {cs : List Char} {i : KeyItem} (h : Padded Key cs i) :
    i.key ≠ "" := by
  obtain ⟨_, hk, _⟩ := h
  intro e
  cases hk with
  | quoted _ hne => exact hne (String.ofList_eq_empty_iff.mp e)
  | bare hi => exact hi.1.ne_nil (String.ofList_eq_empty_iff.mp e)

theorem Grammar.KeyList.ne_empty {cs : List Char} {items : List KeyItem} (h : KeyList cs items) :
    ∀ i ∈ items, i.key ≠ "" :=
  h.1.forall_value (P := fun i => i.key ≠ "") fun _ _ hk => key_ne_empty_of_padded hk

/-- A step that is canonical or lists one position. -/
def Step.IsCompiled (s : Step) : Prop :=
  s.InWords ∧ (s.IsCanonical ∨ ∃ i, s = .pick (.positions [i]))

theorem Grammar.Slice.compiled {start : Int} {stop : Option Int} {s : Step}
    (h : Slice start stop s) (h1 : InWord start) (h2 : InWord (stop.getD 0)) : s.IsCompiled := by
  cases h with
  | @listed stop hlo hlt _ =>
      refine ⟨fun i hi => ?_, ?_⟩
      · have hb := Int.mem_range_iff.mp hi
        exact ⟨le_trans h1.1 hb.1, lt_trans hb.2 h2.2⟩
      · have hlen : (Int.range start stop).length = (stop - start).toNat := by
          unfold Int.range
          rw [List.length_map, List.length_range]
        by_cases hone : stop - start = 1
        · have e : (Int.range start stop).length = 1 := by rw [hlen, hone]; rfl
          obtain ⟨i, hi⟩ := List.length_eq_one_iff.mp e
          exact .inr ⟨i, by rw [hi]⟩
        · refine .inl ?_
          show 2 ≤ (Int.range start stop).length
          rw [hlen]
          omega
  | clamped h0 hwide => exact ⟨⟨h1, inWord_zero, h2⟩, .inl ⟨rfl, h0, hwide⟩⟩
  | fromEnd h0 => exact ⟨⟨h1, h2, trivial⟩, .inl (le_of_lt h0)⟩
  | toEnd => exact ⟨⟨h1, inWord_zero, trivial⟩, .inl le_rfl⟩

theorem Grammar.Content.compiled {cs : List Char} {s : Step} (h : Content cs s) :
    s.IsCompiled := by
  cases h with
  | index h => exact ⟨inWord_of_padded h, .inl trivial⟩
  | positions h h2 => exact ⟨h.forall_value (P := InWord) fun _ _ hm => inWord_of_padded hm, .inl h2⟩
  | slice ha hb hs => exact hs.compiled (inWord_of_bound ha) (inWord_of_bound hb)
  | @name _ i h => exact ⟨trivial, .inl (h.ne_empty i List.mem_cons_self)⟩
  | names h h2 =>
      refine ⟨trivial, .inl ⟨?_, ?_⟩⟩
      · rwa [List.length_map]
      · intro k hk
        obtain ⟨i, hi, rfl⟩ := List.mem_map.mp hk
        exact h.ne_empty i hi

theorem Pick.IsCanonical.mono {p : Pick} {m n : Nat} (h : p.IsCanonical n) (hmn : m ≤ n) :
    p.IsCanonical m := by
  cases p with
  | positions is => exact le_trans hmn h
  | span s => exact h
  | names ks => exact ⟨le_trans hmn h.1, h.2⟩

/-- Every step that a segment names is canonical or lists one position. -/
theorem Grammar.Segment.compiled {cs : List Char} {s : Step} (h : Segment cs s) :
    s.IsCompiled := by
  cases h with
  | bracket hc => exact hc.compiled
  | @dots _ t _ hc hd =>
      obtain ⟨hw, hcan⟩ := hc.compiled
      cases hd with
      | index =>
          refine ⟨fun j hj => ?_, .inl le_rfl⟩
          rw [List.mem_singleton.mp hj]
          exact hw
      | name =>
          rcases hcan with hk | ⟨i, e⟩
          · refine ⟨trivial, .inl ⟨le_rfl, fun k hk' => ?_⟩⟩
            rw [List.mem_singleton.mp hk']
            exact hk
          · cases e
      | pick =>
          rcases hcan with hp | ⟨i, e⟩
          · exact ⟨hw, .inl (Pick.IsCanonical.mono hp (by decide))⟩
          · cases e
            exact ⟨hw, .inl le_rfl⟩

/-! ### Reading back -/

theorem segment_singleton {i : Int} (h : InWord i) :
    Segment (Step.pick (.positions [i])).segment (.index i) :=
  .bracket (content_index h)

theorem segments_of_canonical {ss : List Step} (hw : ∀ s ∈ ss, s.InWords)
    (h : ∀ s ∈ ss, s.IsCanonical) : Segments (ss.flatMap Step.segment) ss := by
  induction ss with
  | nil => exact .nil
  | cons s ss ih =>
      rw [List.flatMap_cons]
      refine .cons (segment_of_canonical (hw s List.mem_cons_self) (h s List.mem_cons_self)) ?_
      exact ih (fun t ht => hw t (List.mem_cons_of_mem s ht)) fun t ht =>
        h t (List.mem_cons_of_mem s ht)

/-- Steps that are read back from their segments are canonical.  The segments of the text are
those that the steps are written as, one by one, because a segment at the front of a text is
unique. -/
theorem canonical_of_segments {ss : List Step} (h : Segments (ss.flatMap Step.segment) ss) :
    ∀ s ∈ ss, s.IsCanonical := by
  induction ss with
  | nil =>
      intro s hs
      cases hs
  | cons s ss ih =>
      rw [List.flatMap_cons] at h
      generalize htext : s.segment ++ ss.flatMap Step.segment = text at h
      cases h with
      | cons hseg hrest =>
          obtain ⟨hw, hcan⟩ := hseg.compiled
          rcases hcan with hcan | ⟨i, rfl⟩
          · obtain ⟨-, -, rfl⟩ := (segment_of_canonical hw hcan).unique hseg htext
            intro t ht
            rcases List.mem_cons.mp ht with rfl | ht
            · exact hcan
            · exact ih hrest t ht
          · have hi : InWord i := hw i List.mem_cons_self
            obtain ⟨e, -, -⟩ := (segment_singleton hi).unique hseg htext
            cases e

/-- **Reading back.**  For steps whose integers are words, the expression of a path is read as the
path itself exactly if all its steps are canonical. -/
theorem parse_text_eq_ok_iff (steps : List Step) (hw : ∀ s ∈ steps, s.InWords) :
    Path.parse (Path.text ⟨steps⟩) = .ok ⟨steps⟩ ↔ ∀ s ∈ steps, s.IsCanonical := by
  unfold Path.parse
  rw [Path.toList_text, ofChars_eq_ok_iff]
  constructor
  · rintro ⟨h⟩
    exact canonical_of_segments h
  · intro h
    exact .mk (segments_of_canonical hw h)

/-- Keys with quotes, backslashes and separators in them, the least and the greatest word. -/
def extremeSteps : List Step :=
  [.pick (.names ["it's", "a\\,]\n"]), .scan (.positions [-1]),
    .scan (.span ⟨-0x8000000000000000, some 0x7fffffffffffffff, 0⟩)]

/-- A list of one position is not read back, also between steps that are. -/
theorem parse_text_extremeSteps :
    (∀ s ∈ extremeSteps, s.InWords) ∧
      Path.parse (Path.text ⟨extremeSteps⟩) = .ok ⟨extremeSteps⟩ ∧
      Path.parse (Path.text ⟨[.name "a", .pick (.positions [7]), .index 0]⟩) ≠
        .ok ⟨[.name "a", .pick (.positions [7]), .index 0]⟩ :=
  ⟨by decide, (parse_text_eq_ok_iff _ (by decide)).mpr (by decide),
    mt (parse_text_eq_ok_iff _ (by decide)).mp (by decide)⟩

end PathQuery
