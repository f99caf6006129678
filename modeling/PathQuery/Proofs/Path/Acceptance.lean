import PathQuery.Path.Printer
import PathQuery.Path.Reader
import PathQuery.Proofs.Path.Meaning

/-! # The accepted expressions

`Path.parse` accepts exactly the expressions of the grammar and answers exactly their steps
(`parse_eq_ok_iff`).

The bracket is cut out of the text before its content is read.  `Enclosed` says what the cut
allows between the brackets: quoted regions, and other characters that are neither a quote nor a
closing bracket.  Every content of the grammar is enclosed, so the cut finds the closing bracket
that the grammar has in mind (`splitClose_append`), and reading goes on behind it. -/

namespace PathQuery

open Grammar

/-! ### Where a bracket closes -/

/-- The texts that can stand between a bracket and the one that closes it. -/
inductive Enclosed : List Char → Prop
  | nil : Enclosed []
  | plain {c : Char} {cs : List Char} : c ≠ '\'' → c ≠ ']' → Enclosed cs → Enclosed (c :: cs)
  | quoted {body k cs : List Char} :
      Quoted body k → Enclosed cs → Enclosed ('\'' :: body ++ '\'' :: cs)

/-- The texts that can stand before the closing bracket when a scan has reached the inside of a
bracket, or the inside of quotes in it. -/
def EnclosedFrom : (quoted : Bool) → List Char → Prop
  | false, cs => Enclosed cs
  | true, cs => ∃ body k tail, Quoted body k ∧ Enclosed tail ∧ cs = body ++ '\'' :: tail

section splitClose
variable {opening : Nat}

theorem splitClose_close (offset : Nat) (cs : List Char) :
    splitClose opening false offset (']' :: cs) = .ok ([], cs) := by
  rw [splitClose.eq_3, if_pos rfl]

theorem splitClose_plain {c : Char} (hq : c ≠ '\'') (hc : c ≠ ']') (offset : Nat)
    (cs : List Char) : splitClose opening false offset (c :: cs) =
      (splitClose opening false (offset + c.utf8Size) cs).map (Prod.map (c :: ·) id) := by
  rw [splitClose.eq_3, if_neg hc, beq_eq_false_iff_ne.mpr hq]

theorem splitClose_openQuote (offset : Nat) (cs : List Char) :
    splitClose opening false offset ('\'' :: cs) =
      (splitClose opening true (offset + 1) cs).map (Prod.map ('\'' :: ·) id) := by
  rw [splitClose.eq_3, if_neg (by decide)]
  rfl

theorem splitClose_escape (d : Char) (offset : Nat) (cs : List Char) :
    splitClose opening true offset ('\\' :: d :: cs) =
      (splitClose opening true (offset + 1 + d.utf8Size) cs).map
        (Prod.map ('\\' :: d :: ·) id) := by
  rw [splitClose.eq_5, if_pos rfl]
  rfl

theorem splitClose_quoted {c : Char} (hb : c ≠ '\\') (offset : Nat) (cs : List Char) :
    splitClose opening true offset (c :: cs) =
      (splitClose opening (c != '\'') (offset + c.utf8Size) cs).map (Prod.map (c :: ·) id) := by
  cases cs with
  | nil => rw [splitClose.eq_4, if_neg hb]
  | cons d ds => rw [splitClose.eq_5, if_neg hb]

theorem splitClose_inside {body k : List Char} (h : Quoted body k) (offset : Nat)
    (cs : List Char) : splitClose opening true offset (body ++ cs) =
      (splitClose opening true (offset + Text.byteSize body) cs).map
        (Prod.map (body ++ ·) id) := by
  induction h generalizing offset with
  | nil =>
      rw [Text.byteSize_nil, Nat.add_zero, List.nil_append]
      cases splitClose opening true offset cs <;> rfl
  | @plain c body k hq hb _ ih =>
      rw [List.cons_append, splitClose_quoted hb, bne_iff_ne.mpr hq, ih, Text.byteSize_cons,
        Nat.add_assoc]
      cases splitClose opening true (offset + (c.utf8Size + Text.byteSize body)) cs <;> rfl
  | @escaped c body k _ ih =>
      have hsize : Text.byteSize ('\\' :: c :: body) = 1 + c.utf8Size + Text.byteSize body :=
        (Nat.add_assoc 1 c.utf8Size (Text.byteSize body)).symm
      rw [List.cons_append, List.cons_append, splitClose_escape, ih, hsize, ← Nat.add_assoc,
        ← Nat.add_assoc]
      cases splitClose opening true (offset + 1 + c.utf8Size + Text.byteSize body) cs <;> rfl

/-- An enclosed text is passed over, and the cut goes on outside quotes. -/
theorem splitClose_enclosed {front : List Char} (h : Enclosed front) (offset : Nat)
    (cs : List Char) : splitClose opening false offset (front ++ cs) =
      (splitClose opening false (offset + Text.byteSize front) cs).map
        (Prod.map (front ++ ·) id) := by
  induction h generalizing offset with
  | nil =>
      rw [Text.byteSize_nil, Nat.add_zero, List.nil_append]
      cases splitClose opening false offset cs <;> rfl
  | @plain c front hq hc _ ih =>
      rw [List.cons_append, splitClose_plain hq hc, ih, Text.byteSize_cons, Nat.add_assoc]
      cases splitClose opening false (offset + (c.utf8Size + Text.byteSize front)) cs <;> rfl
  | @quoted body k front hk _ ih =>
      have hsize : Text.byteSize ('\'' :: body ++ '\'' :: front) =
          1 + Text.byteSize body + 1 + Text.byteSize front := by
        rw [Text.byteSize_append, Text.byteSize_cons, Text.byteSize_cons, ← Nat.add_assoc]
        rfl
      rw [List.append_assoc, List.cons_append, List.cons_append, splitClose_openQuote,
        splitClose_inside hk, splitClose_quoted (by decide), bne_self_eq_false, ih, hsize]
      have hplace : offset + 1 + Text.byteSize body + Char.utf8Size '\'' + Text.byteSize front =
          offset + (1 + Text.byteSize body + 1 + Text.byteSize front) := by
        show offset + 1 + Text.byteSize body + 1 + Text.byteSize front = _
        omega
      rw [hplace]
      cases splitClose opening false _ cs <;> simp [Except.map, Prod.map]

/-- **The cut finds the bracket that closes an enclosed text.** -/
theorem splitClose_append {content : List Char} (h : Enclosed content) (rest : List Char)
    (offset : Nat) :
    splitClose opening false offset (content ++ ']' :: rest) = .ok (content, rest) := by
  rw [splitClose_enclosed h, splitClose_close]
  simp [Except.map]

theorem enclosedFrom_of_splitClose {quoted : Bool} {offset : Nat} {cs content rest : List Char}
    (h : splitClose opening quoted offset cs = .ok (content, rest)) :
    EnclosedFrom quoted content := by
  fun_induction splitClose opening quoted offset cs generalizing content rest with
  | case1 => cases h
  | case2 => cases h
  | case3 =>
      cases h
      exact .nil
  | case4 offset c cs hc ih =>
      obtain ⟨⟨u, v⟩, hr, hu⟩ := map_eq_ok_iff.1 h
      cases hu
      by_cases hq : c = '\''
      · subst hq
        obtain ⟨body, k, tail, hk, ht, rfl⟩ := ih hr
        exact .quoted hk ht
      · rw [beq_eq_false_iff_ne.mpr hq] at ih hr
        exact .plain hq hc (ih hr)
  | case5 => cases h
  | case6 offset d ds ih =>
      obtain ⟨⟨u, v⟩, hr, hu⟩ := map_eq_ok_iff.1 h
      cases hu
      obtain ⟨body, k, tail, hk, ht, rfl⟩ := ih hr
      exact ⟨_, _, tail, .escaped hk, ht, rfl⟩
  | case7 offset c cs hc ih =>
      obtain ⟨⟨u, v⟩, hr, hu⟩ := map_eq_ok_iff.1 h
      cases hu
      by_cases hq : c = '\''
      · subst hq
        exact ⟨[], [], u, .nil, ih hr, rfl⟩
      · rw [bne_iff_ne.mpr hq] at ih hr
        obtain ⟨body, k, tail, hk, ht, rfl⟩ := ih hr
        exact ⟨_, _, tail, .plain hq hc hk, ht, rfl⟩

/-- **The cut is exact**: it answers a text and what follows the closing bracket behind it exactly
if the text is enclosed. -/
theorem splitClose_eq_ok_iff (offset : Nat) (cs content rest : List Char) :
    splitClose opening false offset cs = .ok (content, rest) ↔
      Enclosed content ∧ cs = content ++ ']' :: rest := by
  constructor
  · intro h
    exact ⟨enclosedFrom_of_splitClose h, eq_append_of_splitClose h⟩
  · rintro ⟨h, rfl⟩
    exact splitClose_append h rest offset

end splitClose

/-! ### Contents are enclosed -/

theorem Enclosed.append {a b : List Char} (ha : Enclosed a) (hb : Enclosed b) :
    Enclosed (a ++ b) := by
  induction ha with
  | nil => exact hb
  | plain hq hc _ ih => exact .plain hq hc ih
  | quoted hk _ ih =>
      rw [List.append_assoc, List.cons_append, List.cons_append]
      exact .quoted hk ih

theorem enclosed_of_forall {cs : List Char} (h : ∀ c ∈ cs, c ≠ '\'' ∧ c ≠ ']') : Enclosed cs := by
  induction cs with
  | nil => exact .nil
  | cons c cs ih =>
      have hc := h c List.mem_cons_self
      exact .plain hc.1 hc.2 (ih fun d hd => h d (List.mem_cons_of_mem c hd))

theorem enclosed_of_indexChar {cs : List Char} (h : ∀ c ∈ cs, IndexChar c) : Enclosed cs := by
  refine enclosed_of_forall fun c hc => ⟨?_, ?_⟩
  · rintro rfl
    exact absurd (h _ hc) (by decide)
  · rintro rfl
    exact absurd (h _ hc) (by decide)

theorem enclosed_of_blanks {cs : List Char} (h : Blanks cs) : Enclosed cs :=
  enclosed_of_indexChar fun c hc => .inl (h c hc)

theorem enclosed_of_padded_key {cs : List Char} {i : KeyItem} (h : Padded Key cs i) :
    Enclosed cs := by
  obtain ⟨hl, hk, hr⟩ := h
  refine ((enclosed_of_blanks hl).append ?_).append (enclosed_of_blanks hr)
  cases hk with
  | quoted hq _ => exact .quoted hq .nil
  | bare hi => exact enclosed_of_indexChar fun c hc => .inr (hi.1.chars c hc)

theorem enclosed_of_separated {α : Type} {G : List Char → α → Prop}
    (hG : ∀ cs a, G cs a → Enclosed cs) {cs : List Char} {as : List α}
    (h : Separated ',' G cs as) : Enclosed cs := by
  induction h with
  | one hm => exact hG _ _ hm
  | cons hm _ ih => exact (hG _ _ hm).append (.plain (by decide) (by decide) ih)

theorem enclosed_of_padded_integer {cs : List Char} {n : Int} (h : Padded Integer cs n) :
    Enclosed cs := enclosed_of_indexChar (indexChar_of_padded h)

theorem Grammar.Content.enclosed {cs : List Char} {s : Step} (h : Content cs s) :
    Enclosed cs := by
  cases h with
  | index h => exact enclosed_of_padded_integer h
  | positions h _ => exact enclosed_of_separated (fun _ _ => enclosed_of_padded_integer) h
  | slice ha hb _ =>
      have ha' := enclosed_of_indexChar (indexChar_of_bound ha)
      have hb' := enclosed_of_indexChar (indexChar_of_bound hb)
      exact ha'.append (.plain (by decide) (by decide) hb')
  | name h => exact enclosed_of_separated (fun _ _ => enclosed_of_padded_key) h.1
  | names h _ => exact enclosed_of_separated (fun _ _ => enclosed_of_padded_key) h.1

/-! ### Segments -/

/-- Behind an enclosed content only the content decides what is read. -/
theorem readOpened_of_enclosed {content : List Char} (h : Enclosed content) (opening : Nat)
    (rest : List Char) :
    readOpened opening (content ++ ']' :: rest) = (Step.ofContent opening content).map
      fun s => (s, opening + 2 + Text.byteSize content, rest) := by
  unfold readOpened
  rw [splitClose_append h]
  simp only [bind, Except.bind]
  cases Step.ofContent opening content <;> rfl

theorem readOpened_append {content : List Char} {s : Step} (h : Content content s)
    (opening : Nat) (rest : List Char) :
    readOpened opening (content ++ ']' :: rest) =
      .ok (s, opening + 2 + Text.byteSize content, rest) := by
  rw [readOpened_of_enclosed h.enclosed, ofContent_of_content opening h]
  rfl

theorem exists_of_readOpened {opening next : Nat} {cs rest : List Char} {s : Step}
    (h : readOpened opening cs = .ok (s, next, rest)) :
    ∃ content, Content content s ∧ cs = content ++ ']' :: rest := by
  obtain ⟨⟨content, r⟩, hc, h⟩ := bind_eq_ok_iff.1 h
  obtain ⟨t, ht, h⟩ := bind_eq_ok_iff.1 h
  cases h
  exact ⟨content, content_of_ofContent ht, eq_append_of_splitClose hc⟩

theorem Grammar.Deep.eq_deepen {s t : Step} (h : Deep s t) : t = s.deepen := by
  cases h <;> rfl

/-- The step of a content is no scan, and so there is a step that does the same everywhere. -/
theorem Grammar.Content.deep {cs : List Char} {s : Step} (h : Content cs s) :
    Deep s s.deepen := by
  cases h with
  | index _ => exact .index
  | positions _ _ => exact .pick
  | slice _ _ hs => cases hs <;> exact .pick
  | name _ => exact .name
  | names _ _ => exact .pick

theorem readSegment_append {seg : List Char} {s : Step} (h : Segment seg s) (offset : Nat)
    (rest : List Char) :
    readSegment offset (seg ++ rest) = .ok (s, offset + Text.byteSize seg, rest) := by
  cases h with
  | @bracket cs _ hc =>
      have e : '[' :: cs ++ [']'] ++ rest = '[' :: (cs ++ ']' :: rest) := by simp
      rw [e, readSegment, readOpened_append hc]
      have hsize : Text.byteSize ('[' :: cs ++ [']']) = 2 + Text.byteSize cs := by
        rw [Text.byteSize_append]
        exact Nat.add_right_comm 1 (Text.byteSize cs) 1
      rw [hsize, Nat.add_assoc]
  | @dots cs t _ hc hd =>
      have e : '.' :: '.' :: '[' :: cs ++ [']'] ++ rest =
          '.' :: '.' :: '[' :: (cs ++ ']' :: rest) := by simp
      rw [e, readSegment, readOpened_append hc, hd.eq_deepen]
      have hsize : Text.byteSize ('.' :: '.' :: '[' :: cs ++ [']']) = 4 + Text.byteSize cs := by
        rw [Text.byteSize_append]
        simp only [Text.byteSize_cons, Text.byteSize_nil]
        have h1 : Char.utf8Size '.' = 1 := rfl
        have h2 : Char.utf8Size '[' = 1 := rfl
        have h3 : Char.utf8Size ']' = 1 := rfl
        omega
      rw [hsize]
      simp only [Except.map, Prod.map, id_eq, Except.ok.injEq, Prod.mk.injEq, true_and, and_true]
      omega

theorem exists_of_readSegment {offset next : Nat} {cs rest : List Char} {s : Step}
    (h : readSegment offset cs = .ok (s, next, rest)) :
    ∃ seg, Segment seg s ∧ cs = seg ++ rest := by
  unfold readSegment at h
  split at h
  · cases h
  · obtain ⟨content, hc, rfl⟩ := exists_of_readOpened h
    exact ⟨'[' :: content ++ [']'], .bracket hc, by simp⟩
  · obtain ⟨⟨t, n, r⟩, hr, hu⟩ := map_eq_ok_iff.1 h
    cases hu
    obtain ⟨content, hc, rfl⟩ := exists_of_readOpened hr
    exact ⟨'.' :: '.' :: '[' :: content ++ [']'], .dots hc hc.deep, by simp⟩
  all_goals cases h

/-- A segment of the grammar is read up to its end, and nothing else is. -/
theorem readSegment_eq_ok_iff (offset next : Nat) (cs rest : List Char) (s : Step) :
    readSegment offset cs = .ok (s, next, rest) ↔
      ∃ seg, Segment seg s ∧ cs = seg ++ rest ∧ next = offset + Text.byteSize seg := by
  constructor
  · intro h
    obtain ⟨seg, hs, rfl⟩ := exists_of_readSegment h
    rw [readSegment_append hs] at h
    cases h
    exact ⟨seg, hs, rfl, rfl⟩
  · rintro ⟨seg, hs, rfl, rfl⟩
    exact readSegment_append hs offset rest

theorem Grammar.Segment.unique {a b x y : List Char} {s t : Step} (hs : Segment a s)
    (ht : Segment b t) (e : a ++ x = b ++ y) : s = t ∧ a = b ∧ x = y := by
  have h := readSegment_append hs 0 x
  rw [e, readSegment_append ht 0 y] at h
  simp only [Except.ok.injEq, Prod.mk.injEq] at h
  obtain ⟨rfl, -, rfl⟩ := h
  exact ⟨rfl, List.append_cancel_right e, rfl⟩

theorem Grammar.Segment.ne_nil {seg : List Char} {s : Step} (h : Segment seg s) : seg ≠ [] := by
  cases h <;> simp

theorem segments_single_iff (cs : List Char) (s : Step) : Segments cs [s] ↔ Segment cs s := by
  constructor
  · intro h
    cases h with
    | cons hsegment hrest =>
        cases hrest
        rw [List.append_nil]
        exact hsegment
  · intro h
    have hsegments : Segments (cs ++ []) [s] := .cons h .nil
    rwa [List.append_nil] at hsegments

/-! ### Expressions -/

theorem readSegments_nil (offset : Nat) : readSegments offset [] = .ok [] := by
  rw [readSegments]
  rfl

theorem readSegments_of_ne_nil (offset : Nat) {cs : List Char} (h : cs ≠ []) :
    readSegments offset cs =
      match readSegment offset cs with
      | .error e => .error e
      | .ok (step, next, rest) => (readSegments next rest).map (step :: ·) := by
  rw [readSegments, List.isEmpty_eq_false_iff.mpr h, if_neg Bool.false_ne_true]
  split
  · rename_i e
    rw [e]
  · rename_i e
    rw [e]

theorem readSegments_append {cs : List Char} {ss : List Step} (h : Segments cs ss) (offset : Nat)
    (rest : List Char) : readSegments offset (cs ++ rest) =
      (readSegments (offset + Text.byteSize cs) rest).map (ss ++ ·) := by
  induction h generalizing offset with
  | nil =>
      show readSegments offset rest = (readSegments offset rest).map id
      cases readSegments offset rest <;> rfl
  | @cons seg cs s ss hseg _ ih =>
      have hne : seg ++ (cs ++ rest) ≠ [] := List.append_ne_nil_of_left_ne_nil hseg.ne_nil _
      rw [List.append_assoc, readSegments_of_ne_nil offset hne,
        readSegment_append hseg offset (cs ++ rest)]
      dsimp only
      rw [ih, Text.byteSize_append, Nat.add_assoc]
      cases readSegments (offset + (Text.byteSize seg + Text.byteSize cs)) rest <;> rfl

theorem readSegments_of_segments {cs : List Char} {ss : List Step} (h : Segments cs ss)
    (offset : Nat) : readSegments offset cs = .ok ss := by
  have hr := readSegments_append h offset []
  rw [List.append_nil, readSegments_nil] at hr
  rw [hr]
  simp only [Except.map, List.append_nil]

theorem segments_of_readSegments {offset : Nat} {cs : List Char} {ss : List Step}
    (h : readSegments offset cs = .ok ss) : Segments cs ss := by
  fun_induction readSegments offset cs generalizing ss with
  | case1 _ cs hc =>
      cases h
      rw [List.isEmpty_iff.mp hc]
      exact .nil
  | case2 => cases h
  | case3 offset cs _ s next rest hseg ih =>
      obtain ⟨ss', hss, rfl⟩ := map_eq_ok_iff.1 h
      obtain ⟨seg, hs, rfl, -⟩ := (readSegment_eq_ok_iff offset next cs rest s).mp hseg
      exact .cons hs (ih hss)

theorem readSegments_eq_ok_iff (offset : Nat) (cs : List Char) (ss : List Step) :
    readSegments offset cs = .ok ss ↔ Segments cs ss :=
  ⟨segments_of_readSegments, fun h => readSegments_of_segments h offset⟩

theorem ofChars_eq_ok_iff (cs : List Char) (ss : List Step) :
    Path.ofChars cs = .ok ⟨ss⟩ ↔ Expression cs ss := by
  constructor
  · intro h
    unfold Path.ofChars at h
    split at h
    · cases h
    · split_ifs at h with hd
      obtain ⟨ss', hss, e⟩ := map_eq_ok_iff.1 h
      cases e
      rw [hd]
      exact .mk (segments_of_readSegments hss)
  · rintro ⟨h⟩
    unfold Path.ofChars
    dsimp only
    rw [if_pos rfl, readSegments_of_segments h]
    rfl

theorem parse_of_segments {cs : List Char} {ss : List Step} (h : Segments cs ss) :
    Path.parse (String.ofList ('$' :: cs)) = .ok ⟨ss⟩ := by
  unfold Path.parse
  rw [String.toList_ofList]
  exact (ofChars_eq_ok_iff _ _).mpr (.mk h)

theorem exists_segments_of_parse {p : String} {ts : List Step} (hp : Path.parse p = .ok ⟨ts⟩) :
    ∃ cs, p.toList = '$' :: cs ∧ Segments cs ts := by
  have hexpr : Expression p.toList ts := (ofChars_eq_ok_iff p.toList ts).mp hp
  generalize p.toList = chars at hexpr
  cases hexpr with
  | mk hsegments => exact ⟨_, rfl, hsegments⟩

/-- **Acceptance.**  A text is read as a path exactly if it is an expression of the grammar, and
the steps of the path are those that the grammar gives it. -/
theorem parse_eq_ok_iff (expression : String) (steps : List Step) :
    Path.parse expression = .ok ⟨steps⟩ ↔ Expression expression.toList steps :=
  ofChars_eq_ok_iff expression.toList steps

end PathQuery
