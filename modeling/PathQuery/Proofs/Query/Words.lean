import PathQuery.Proofs.Path.Compiled
import PathQuery.Proofs.Query.Locate

/-! # Evaluation on words

Positions are counted with words of 64 bits, and elements are taken by position.  Here paths are
read and evaluated with every such operation checked: a sum or difference must be a word
(`Breach.overflow`), a number is only clamped between bounds that are in order
(`Breach.unordered`), an element has a position of the sequence (`Breach.noElement`), and a run of
elements begins before its end and ends with the sequence at the latest (`Breach.noRun`).

No check fails for a path that was read from an expression, on any document with sequences of a
length that is a word (`evalOnWords_of_parse`).  This rests on what the reader answers: its numbers
are words and no span goes beyond the end of the sequence (`Pick.IsSafe`).  All steps of this kind
are evaluated alike with the checks and without them (`evalOnWords_of_isSafe`).

Other steps do fail: the sum of a length and an offset above zero may be no word.  What is proved of
the evaluation of any steps, that a result has a place of its own and that reordered or untagged
documents have the corresponding results, is about evaluation in whole numbers.  It uses of a span
only that the length of a sequence decides which positions it takes, and so does not depend on this
sum. -/

namespace PathQuery

open Grammar

/-! ### Checked operations -/

/-- The ways in which arithmetic on words and access by position fail. -/
inductive Breach where
  | overflow (n : Int)
  | unordered (lower upper : Int)
  | noElement (position : Int)
  | noRun (lower upper : Int)
  deriving DecidableEq, Repr

/-- A sum or a difference, which must be a word. -/
def word (n : Int) : Except Breach Int := if InWord n then .ok n else .error (.overflow n)

/-- The number between two bounds that is nearest to a given one. -/
def clampOnWords (n lower upper : Int) : Except Breach Int :=
  if lower ≤ upper then .ok (max lower (min n upper)) else .error (.unordered lower upper)

/-- The element at a position that the sequence must have. -/
def takeElement (items : List Doc) (position : Int) : Except Breach Doc :=
  if 0 ≤ position then (items[position.toNat]?).elim (.error (.noElement position)) .ok
  else .error (.noElement position)

/-- The elements from one position to before another, which must be positions of the sequence. -/
def takeRun (items : List Doc) (lower upper : Int) : Except Breach (List Doc) :=
  if 0 ≤ lower ∧ lower < upper ∧ upper ≤ items.length then
    .ok ((items.drop lower.toNat).take (upper - lower).toNat)
  else .error (.noRun lower upper)

/-- What a checked function takes from all nodes of a list. -/
def takeAll {α : Type} (as : List α) (f : α → Except Breach (List Doc)) :
    Except Breach (List Doc) :=
  (as.mapM f).map List.flatten

/-! ### Checked evaluation -/

def positionOnWords (length i : Int) : Except Breach Int :=
  if i < 0 then word (length + i) else .ok i

def Doc.elementOnWords (d : Doc) (i : Int) : Except Breach (List Doc) :=
  match d with
  | .seq items => do
    let length ← word items.length
    let position ← positionOnWords length i
    if 0 ≤ position ∧ position < length then (takeElement items position).map ([·]) else .ok []
  | _ => .ok []

namespace Span

/-- The first position of a span, checked. -/
def lowerOnWords (s : Span) (length : Int) : Except Breach Int :=
  if s.start < 0 then (word (length + s.start)).map (max · 0) else .ok (min s.start length)

/-- The position before which a span ends, checked. -/
def upperOnWords (s : Span) (length : Int) : Except Breach Int :=
  match s.stop with
  | some stop => if stop < 0 then (word (length + stop)).map (max · 0) else .ok (min stop length)
  | none => do clampOnWords (← word (length + s.offset)) 0 length

def sliceOnWords (s : Span) (items : List Doc) : Except Breach (List Doc) := do
  let length ← word items.length
  let lower ← s.lowerOnWords length
  let upper ← s.upperOnWords length
  if lower < upper then takeRun items lower upper else .ok []

end Span

def Pick.selectOnWords : Pick → Doc → Except Breach (List Doc)
  | .positions is, d => takeAll is d.elementOnWords
  | .span s, .seq items => s.sliceOnWords items
  | .span _, _ => .ok []
  | .names ks, d => .ok (ks.flatMap d.child)

def Step.selectOnWords : Step → Doc → Except Breach (List Doc)
  | .index i, d => d.elementOnWords i
  | .name k, d => .ok (d.child k)
  | .pick p, d => p.selectOnWords d
  | .scan p, d => takeAll d.nodes p.selectOnWords

/-- The nodes that a path selects, checked. -/
def Path.evalOnWords (p : Path) (d : Doc) : Except Breach (List Doc) :=
  p.steps.foldlM (fun nodes s => takeAll nodes s.selectOnWords) [d]

/-! ### Checked slices -/

/-- The step of a slice.  The width is formed only where it is compared, and checked. -/
def Step.ofBoundsOnWords (start : Int) :
    (stop : Option Int) → Except Breach (Except PathError Step)
  | none => .ok (.ok (.pick (.span ⟨start, none, 0⟩)))
  | some stop =>
    if stop < 0 then .ok (.ok (.pick (.span ⟨start, none, stop⟩)))
    else if start < 0 then .ok (.ok (.pick (.span ⟨start, some stop, 0⟩)))
    else if stop ≤ start then .ok (.error (.invalid (.emptySlice start stop)))
    else (word (stop - start)).map fun width =>
      .ok (if widestListed < width then .pick (.span ⟨start, some stop, 0⟩)
        else .pick (.positions (listedSlice start stop)))

/-- Reads a slice, checked. -/
def readSliceOnWords (content : List Char) : Except Breach (Except PathError Step) :=
  match content.splitOn ':' with
  | [first, second] =>
    match readBound first, readBound second with
    | .error e, _ => .ok (.error e)
    | .ok _, .error e => .ok (.error e)
    | .ok start, .ok stop => Step.ofBoundsOnWords (start.getD 0) stop
  | _ => .ok (.error (.invalid (.invalidSlice (String.ofList (Text.trim content)))))

/-! ### Operations that do not fail -/

theorem word_of_inWord {n : Int} (h : InWord n) : word n = .ok n := if_pos h

theorem clampOnWords_of_le {lower upper : Int} (h : lower ≤ upper) (n : Int) :
    clampOnWords n lower upper = .ok (max lower (min n upper)) := if_pos h

theorem takeAll_of_forall {α : Type} {as : List α} {f : α → Except Breach (List Doc)}
    {g : α → List Doc} (h : ∀ a ∈ as, f a = .ok (g a)) : takeAll as f = .ok (as.flatMap g) := by
  have hmap : as.mapM f = .ok (as.map g) := by
    induction as with
    | nil => rfl
    | cons a as ih =>
        obtain ⟨ha, has⟩ := List.forall_mem_cons.mp h
        rw [List.mapM_cons, ha, ih has]
        rfl
  unfold takeAll
  rw [hmap, List.flatMap_def]
  rfl

/-- The length of a sequence and a number that counts back from the end have a sum. -/
theorem inWord_add {length : Nat} {n : Int} (hlength : InWord length) (hn : InWord n)
    (hneg : n ≤ 0) : InWord (length + n) := by
  unfold InWord at *
  omega

/-! ### Sequences whose length is a word -/

/-- The sequences among the nodes of a document. -/
def Doc.sequences (d : Doc) : List (List Doc) :=
  d.nodes.filterMap fun
    | .seq items => some items
    | _ => none

/-- The length of every sequence is a word. -/
def Doc.LengthsInWords (d : Doc) : Prop := ∀ items ∈ d.sequences, InWord items.length

instance (d : Doc) : Decidable d.LengthsInWords :=
  inferInstanceAs (Decidable (∀ items ∈ d.sequences, InWord items.length))

theorem Doc.LengthsInWords.of_mem_nodes {d n : Doc} (hd : d.LengthsInWords) (h : n ∈ d.nodes) :
    n.LengthsInWords := by
  intro items hitems
  obtain ⟨m, hm, heq⟩ := List.mem_filterMap.mp hitems
  exact hd items (List.mem_filterMap.mpr ⟨m, nodes_subset h hm, heq⟩)

theorem Doc.LengthsInWords.length {items : List Doc} (h : (Doc.seq items).LengthsInWords) :
    InWord items.length :=
  h items (List.mem_filterMap.mpr ⟨.seq items, by simp, rfl⟩)

/-! ### Steps that do not fail -/

/-- The numbers of the pick are words and no span goes beyond the end. -/
def Pick.IsSafe (p : Pick) : Prop := p.InWords ∧ p.IsProper

/-- The numbers of the step are words and no span goes beyond the end. -/
def Step.IsSafe (s : Step) : Prop := s.InWords ∧ s.IsProper

theorem takeElement_of_lt {items : List Doc} {position : Int} (h0 : 0 ≤ position)
    (hlt : position < items.length) :
    (takeElement items position).map ([·]) = .ok (items[position.toNat]?).toList := by
  have hbound : position.toNat < items.length := by omega
  have hget : items[position.toNat]? = some items[position.toNat] :=
    List.getElem?_eq_getElem hbound
  unfold takeElement
  rw [if_pos h0, hget]
  rfl

theorem upper_le (s : Span) (length : Nat) : s.upper length ≤ length := by
  unfold Span.upper
  split
  · split_ifs <;> omega
  · omega

section safe
variable {items : List Doc} (hlength : InWord items.length)

include hlength

theorem elementOnWords_seq {i : Int} (hi : InWord i) :
    (Doc.seq items).elementOnWords i = .ok (Doc.element (.seq items) i) := by
  have hposition : positionOnWords items.length i =
      .ok (if i < 0 then (items.length : Int) + i else i) := by
    unfold positionOnWords
    split_ifs with hneg
    · exact word_of_inWord (inWord_add hlength hi (le_of_lt hneg))
    · rfl
  refine bind_eq_ok_iff.mpr ⟨_, word_of_inWord hlength, bind_eq_ok_iff.mpr ⟨_, hposition, ?_⟩⟩
  unfold Doc.element Doc.elementAt?
  dsimp only
  generalize (if i < 0 then (items.length : Int) + i else i) = position
  by_cases h0 : 0 ≤ position
  · by_cases hlt : position < items.length
    · rw [if_pos ⟨h0, hlt⟩, if_pos h0, takeElement_of_lt h0 hlt]
    · rw [if_neg fun h => hlt h.2, if_pos h0, List.getElem?_eq_none (by omega)]
      rfl
  · rw [if_neg fun h => h0 h.1, if_neg h0]
    rfl

theorem lowerOnWords_eq {s : Span} (hs : s.InWords) :
    s.lowerOnWords items.length = .ok (s.lower items.length) := by
  unfold Span.lowerOnWords Span.lower
  split_ifs with hneg
  · rw [word_of_inWord (inWord_add hlength hs.1 (le_of_lt hneg))]
    rfl
  · rfl

/-- The end of a span is counted back from the end of the sequence or known. -/
theorem upperOnWords_eq {s : Span} (hs : s.InWords) (hoffset : s.offset ≤ 0) :
    s.upperOnWords items.length = .ok (s.upper items.length) := by
  obtain ⟨start, stop, offset⟩ := s
  obtain ⟨-, hword, hstop⟩ := hs
  unfold Span.upperOnWords Span.upper
  cases stop with
  | none =>
      refine bind_eq_ok_iff.mpr ⟨_, word_of_inWord (inWord_add hlength hword hoffset), ?_⟩
      exact clampOnWords_of_le (Int.natCast_nonneg _) _
  | some stop =>
      dsimp only
      split_ifs with hneg
      · rw [word_of_inWord (inWord_add hlength hstop (le_of_lt hneg))]
        rfl
      · rfl

theorem sliceOnWords_eq {s : Span} (hs : s.InWords) (hoffset : s.offset ≤ 0) :
    s.sliceOnWords items = .ok (s.slice items) := by
  refine bind_eq_ok_iff.mpr ⟨_, word_of_inWord hlength, bind_eq_ok_iff.mpr
    ⟨_, lowerOnWords_eq hlength hs, bind_eq_ok_iff.mpr ⟨_, upperOnWords_eq hlength hs hoffset, ?_⟩⟩⟩
  have hlower := lower_nonneg s items.length
  have hupper := upper_le s items.length
  unfold Span.slice
  dsimp only
  split_ifs with hlt
  · exact if_pos ⟨hlower, hlt, hupper⟩
  · rfl

end safe

theorem Pick.IsSafe.selectOnWords_eq {p : Pick} (hp : p.IsSafe) {d : Doc}
    (hd : d.LengthsInWords) : p.selectOnWords d = .ok (p.select d) := by
  cases p with
  | positions is =>
      refine takeAll_of_forall fun i hi => ?_
      cases d with
      | seq items => exact elementOnWords_seq hd.length (hp.1 i hi)
      | _ => rfl
  | span s =>
      cases d with
      | seq items => exact sliceOnWords_eq hd.length hp.1 hp.2.1
      | _ => rfl
  | names ks => rfl

theorem Step.IsSafe.selectOnWords_eq {s : Step} (hs : s.IsSafe) {d : Doc}
    (hd : d.LengthsInWords) : s.selectOnWords d = .ok (s.select d) := by
  cases s with
  | index i =>
      cases d with
      | seq items => exact elementOnWords_seq hd.length hs.1
      | _ => rfl
  | name k => rfl
  | pick p => exact Pick.IsSafe.selectOnWords_eq hs hd
  | scan p =>
      refine takeAll_of_forall fun n hn => ?_
      exact Pick.IsSafe.selectOnWords_eq hs (hd.of_mem_nodes hn)

theorem Step.select_subset (s : Step) (d : Doc) : s.select d ⊆ d.nodes := by
  intro n hn
  have hmem : some n ∈ (s.locate d).map d.at? := by
    rw [s.map_at?_locate]
    exact List.mem_map_of_mem hn
  obtain ⟨l, -, hl⟩ := List.mem_map.mp hmem
  exact Doc.mem_nodes_iff.mpr ⟨l, hl⟩

theorem foldlM_selectOnWords {steps : List Step} (hsteps : ∀ s ∈ steps, s.IsSafe)
    {nodes : List Doc} (hnodes : ∀ n ∈ nodes, n.LengthsInWords) :
    steps.foldlM (fun nodes s => takeAll nodes s.selectOnWords) nodes =
      .ok (Step.applyAll steps nodes) := by
  induction steps generalizing nodes with
  | nil => rfl
  | cons s steps ih =>
      obtain ⟨hs, hsteps⟩ := List.forall_mem_cons.mp hsteps
      have hstep : takeAll nodes s.selectOnWords = .ok (nodes.flatMap s.select) :=
        takeAll_of_forall fun n hn => hs.selectOnWords_eq (hnodes n hn)
      have hselected : ∀ n ∈ nodes.flatMap s.select, n.LengthsInWords := by
        intro n hn
        obtain ⟨m, hm, hn⟩ := List.mem_flatMap.mp hn
        exact (hnodes m hm).of_mem_nodes (s.select_subset m hn)
      rw [List.foldlM_cons, hstep]
      exact ih hsteps hselected

/-- On the steps whose arithmetic stays within words both evaluations are the same. -/
theorem evalOnWords_of_isSafe {p : Path} (hp : ∀ s ∈ p.steps, s.IsSafe) {d : Doc}
    (hd : d.LengthsInWords) : p.evalOnWords d = .ok (p.eval d) := by
  refine foldlM_selectOnWords hp fun n hn => ?_
  rw [List.mem_singleton.mp hn]
  exact hd

/-! ### What is read -/

theorem isSafe_of_parse {expression : String} {p : Path} (h : Path.parse expression = .ok p) :
    ∀ s ∈ p.steps, s.IsSafe := by
  obtain ⟨cs, -, hsegments⟩ := exists_segments_of_parse h
  intro s hs
  obtain ⟨seg, hseg⟩ := (exists_segments_iff p.steps).mp ⟨cs, hsegments⟩ s hs
  exact ⟨hseg.expressible.1, hseg.expressible.proper⟩

/-- The width of a slice of words that is formed is a word, as both bounds are not negative. -/
theorem ofBoundsOnWords_eq {start : Int} {stop : Option Int} (hstart : InWord start)
    (hstop : InWord (stop.getD 0)) :
    Step.ofBoundsOnWords start stop = .ok (Step.ofBounds start stop) := by
  cases stop with
  | none => rfl
  | some stop =>
      unfold Step.ofBoundsOnWords Step.ofBounds
      dsimp only
      split_ifs with h1 h2 h3 h4
      · rfl
      · rfl
      · rfl
      all_goals
        have hwidth : InWord (stop - start) := by
          unfold InWord at *
          dsimp only [Option.getD_some] at hstop
          omega
        rw [word_of_inWord hwidth]
        simp only [Except.map, h4, if_true, if_false]

theorem inWord_of_readBound {cs : List Char} {b : Option Int} (h : readBound cs = .ok b) :
    InWord (b.getD 0) :=
  inWord_of_bound ((readBound_eq_ok_iff cs b).mp h)

/-- No content of a bracket makes the reader form a width that is no word. -/
theorem readSliceOnWords_eq (content : List Char) :
    readSliceOnWords content = .ok (readSlice content) := by
  unfold readSliceOnWords readSlice
  rcases content.splitOn ':' with _ | ⟨first, _ | ⟨second, _ | ⟨third, more⟩⟩⟩
  · rfl
  · rfl
  · dsimp only
    cases hfirst : readBound first with
    | error e => rfl
    | ok start =>
        cases hsecond : readBound second with
        | error e => rfl
        | ok stop =>
            exact ofBoundsOnWords_eq (inWord_of_readBound hfirst) (inWord_of_readBound hsecond)
  · rfl

/-- **Arithmetic on words.**  Whatever a bracket holds, the width of a slice is a word where it is
formed.  And on a document whose sequences have lengths that are words, the evaluation of an
accepted expression with all checks fails nowhere and answers the results of the expression. -/
theorem evalOnWords_of_parse {expression : String} {p : Path}
    (h : Path.parse expression = .ok p) :
    (∀ content, readSliceOnWords content = .ok (readSlice content)) ∧
    ∀ d : Doc, d.LengthsInWords → p.evalOnWords d = .ok (p.eval d) := by
  exact ⟨readSliceOnWords_eq, fun d hd => evalOnWords_of_isSafe (isSafe_of_parse h) hd⟩

/-- The least and the greatest word as positions and as bounds of slices, at every depth. -/
theorem evalOnWords_of_parse_extremes :
    Path.parse ("$..[-9223372036854775808:9223372036854775807]" ++
      "[9223372036854775807,-9223372036854775808,-1]") =
        .ok ⟨[.scan (.span ⟨-0x8000000000000000, some 0x7fffffffffffffff, 0⟩),
          .pick (.positions [0x7fffffffffffffff, -0x8000000000000000, -1])]⟩ ∧
    Path.evalOnWords ⟨[.scan (.span ⟨-0x8000000000000000, some 0x7fffffffffffffff, 0⟩),
      .pick (.positions [0x7fffffffffffffff, -0x8000000000000000, -1])]⟩
        (.seq [.seq [.bool true], .seq []]) = .ok [.bool true] := by
  have hparse : Path.parse ("$..[-9223372036854775808:9223372036854775807]" ++
      "[9223372036854775807,-9223372036854775808,-1]") =
        .ok ⟨[.scan (.span ⟨-0x8000000000000000, some 0x7fffffffffffffff, 0⟩),
          .pick (.positions [0x7fffffffffffffff, -0x8000000000000000, -1])]⟩ := by
    decide +kernel
  refine ⟨hparse, ?_⟩
  rw [(evalOnWords_of_parse hparse).2 _ (by decide)]
  rfl

/-- A span that goes beyond the end, which no expression has, does fail. -/
example : Path.evalOnWords ⟨[.pick (.span ⟨0, none, 0x7fffffffffffffff⟩)]⟩ (.seq [.null]) =
    .error (.overflow 0x8000000000000000) := by
  rfl

end PathQuery
