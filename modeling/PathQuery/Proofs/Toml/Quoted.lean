import Mathlib.Algebra.Group.Nat.Defs
import Mathlib.Data.List.Basic
import PathQuery.Toml.Quoted
import PathQuery.Toml.Writer

/-! # Reading back quoted texts of TOML

What `quote` writes of a text, in any of its four forms, is read back as this text
(`quoted?_quote`).

In double quotes each character is written for itself or as an escape (`Written`), and the reader
takes one written character after the other.  In three quotes the reader looks for the closing ones
before each character.  Behind the text it finds them with the quotes at the end of the text, if
there are two at most; and where a text begins with two quotes at most and goes on with something
else, it finds none (`closing?_append`). -/

namespace PathQuery.Text

/-! ### Hexadecimal digits -/

theorem hexValue?_upperHex {n : Nat} (h : n < 16) : hexValue? (upperHex n) = some n := by
  have hdigits : ∀ m < 16, hexValue? (upperHex m) = some m := by decide
  exact hdigits n h

theorem length_hexPadded (n width : Nat) : (hexPadded n width).length = width := by
  induction width generalizing n with
  | zero => rfl
  | succ width ih => rw [hexPadded, List.length_append, ih, List.length_singleton]

theorem radixValue?_singleton {base v : Nat} {d : Char} (hv : hexValue? d = some v)
    (hbase : v < base) : radixValue? base [d] = some v := by
  simp [radixValue?, hv, hbase]

theorem radixValue?_concat {base v : Nat} {d : Char} (hv : hexValue? d = some v)
    (hbase : v < base) {ds : List Char} (hds : ds ≠ []) :
    radixValue? base (ds ++ [d]) = (radixValue? base ds).map (· * base + v) := by
  unfold radixValue?
  rw [if_neg (by simp), if_neg (by simpa using hds), List.foldl_append, List.foldl_cons,
    List.foldl_nil, hv, Option.map_eq_bind]
  exact if_pos hbase

/-- So many hexadecimal digits write the number without its multiples of their power. -/
theorem radixValue?_hexPadded (n width : Nat) :
    radixValue? 16 (hexPadded n (width + 1)) = some (n % 16 ^ (width + 1)) := by
  have hlast : hexValue? (upperHex (n % 16)) = some (n % 16) := hexValue?_upperHex (by omega)
  induction width generalizing n with
  | zero => exact radixValue?_singleton hlast (by omega)
  | succ width ih =>
      have hne : hexPadded (n / 16) (width + 1) ≠ [] := by
        rw [← List.length_pos_iff, length_hexPadded]
        omega
      have hvalue : n / 16 % 16 ^ (width + 1) * 16 + n % 16 = n % 16 ^ (width + 1 + 1) := by
        have hpower : 16 ^ (width + 1 + 1) = 16 * 16 ^ (width + 1) := Nat.pow_succ'
        rw [hpower, Nat.mod_mul]
        omega
      rw [hexPadded, radixValue?_concat hlast (by omega) hne,
        ih (n / 16) (hexValue?_upperHex (by omega)), Option.map_some, hvalue]

theorem codePoint?_hexPadded {width n : Nat} (hwidth : n < 16 ^ (width + 1)) (hn : n < 0xD800)
    (rest : List Char) :
    codePoint? (width + 1) (hexPadded n (width + 1) ++ rest) = some (Char.ofNat n, rest) := by
  have hlength := length_hexPadded n (width + 1)
  have hvalue := radixValue?_hexPadded n width
  rw [Nat.mod_eq_of_lt hwidth] at hvalue
  unfold codePoint?
  rw [List.take_left' hlength, List.drop_left' hlength, if_neg (by omega), hvalue]
  simp [scalarChar?, hn]

end PathQuery.Text

namespace PathQuery.Toml

/-! ### Written characters -/

/-- What may be written for a character between double quotes: the character or an escape. -/
inductive Written (keepBreaks : Bool) (c : Char) : List Char → Prop
  | plain (hshown : isShown c = true ∨ keepBreaks = true ∧ c = '\n') (hbackslash : c ≠ '\\') :
      Written keepBreaks c [c]
  | escape {e : List Char} (h : ∀ rest, escape? (e ++ rest) = some (c, rest))
      (hshown : ∀ d ∈ e, isShown d = true) : Written keepBreaks c ('\\' :: e)

theorem isShown_of_not_isControl {c : Char} (h : isControl c = false) (hbreak : c ≠ '\n') :
    isShown c = true := by
  by_cases htab : c = '\t'
  · simp [isShown, htab]
  · simp_all [isShown, isControl]

theorem toNat_lt_of_isControl {c : Char} (h : isControl c = true) : c.toNat < 0x80 := by
  simp only [isControl, Bool.or_eq_true, Bool.and_eq_true, decide_eq_true_eq, beq_iff_eq] at h
  omega

theorem isShown_of_mem_hexPadded {n width : Nat} {d : Char} (h : d ∈ Text.hexPadded n width) :
    isShown d = true := by
  have hdigits : ∀ m < 16, isShown (Text.upperHex m) = true := by decide
  induction width generalizing n with
  | zero => cases h
  | succ width ih =>
      rw [Text.hexPadded, List.mem_append, List.mem_singleton] at h
      rcases h with h | rfl
      · exact ih h
      · exact hdigits (n % 16) (by omega)

theorem Written.letter {keepBreaks : Bool} {c d : Char}
    (h : ∀ rest, escape? (d :: rest) = some (c, rest)) (hshown : isShown d = true) :
    Written keepBreaks c ['\\', d] :=
  .escape h (by simpa using hshown)

theorem written_escapedChar (keepBreaks : Bool) (c : Char) :
    Written keepBreaks c (escapedChar keepBreaks c) := by
  unfold escapedChar
  split
  case h_3 =>
    cases keepBreaks with
    | true => exact .plain (.inr ⟨rfl, rfl⟩) (by decide)
    | false => exact .letter (fun _ => rfl) (by decide)
  case h_7 hb ht hn hf hr hbackslash =>
    split
    · rename_i hcontrol
      have hsmall := toNat_lt_of_isControl hcontrol
      have hread : ∀ rest, escape? ('u' :: Text.hexPadded c.toNat 4 ++ rest) = some (c, rest) := by
        intro rest
        show Text.codePoint? 4 (Text.hexPadded c.toNat 4 ++ rest) = _
        rw [Text.codePoint?_hexPadded (by omega) (by omega), Char.ofNat_toNat]
      refine .escape hread fun d hd => ?_
      rcases List.mem_cons.mp hd with rfl | hd
      · decide
      · exact isShown_of_mem_hexPadded hd
    · rename_i hcontrol
      exact .plain (.inl (isShown_of_not_isControl (by simpa using hcontrol) hn)) hbackslash
  all_goals exact .letter (fun _ => rfl) (by decide)

theorem Written.shown {keepBreaks : Bool} {c : Char} {w : List Char} (h : Written keepBreaks c w) :
    ∀ d ∈ w, isShown d = true ∨ d = '\n' := by
  intro d hd
  cases h with
  | plain hshown =>
      rw [List.mem_singleton.mp hd]
      exact hshown.imp id And.right
  | escape _ hshown =>
      rcases List.mem_cons.mp hd with rfl | hd
      · exact .inl (by decide)
      · exact .inl (hshown d hd)

theorem Written.exists_cons {keepBreaks : Bool} {c : Char} {w : List Char}
    (h : Written keepBreaks c w) : ∃ d v, w = d :: v ∧ (d = c ∨ d = '\\') := by
  cases h with
  | plain => exact ⟨c, [], rfl, .inl rfl⟩
  | escape => exact ⟨'\\', _, rfl, .inr rfl⟩

/-- The next character of a text is written as a quote, if there may be one more, or as what does
not begin with one. -/
theorem exists_written (keepBreaks : Bool) (limit run : Nat) (c : Char) (cs : List Char) :
    ∃ w next, Written keepBreaks c w ∧
      escapedText keepBreaks limit run (c :: cs) = w ++ escapedText keepBreaks limit next cs ∧
      ((c = '"' ∧ w = ['"'] ∧ run < limit ∧ next = run + 1) ∨ w.head? ≠ some '"') := by
  by_cases hc : c = '"'
  · subst hc
    by_cases hlimit : limit ≤ run
    · exact ⟨['\\', '"'], 0, .letter (fun _ => rfl) (by decide), by simp [escapedText, hlimit],
        .inr (by decide)⟩
    · exact ⟨['"'], run + 1, .plain (.inl (by decide)) (by decide), by simp [escapedText, hlimit],
        .inl ⟨rfl, rfl, Nat.lt_of_not_le hlimit, rfl⟩⟩
  · have hw := written_escapedChar keepBreaks c
    refine ⟨escapedChar keepBreaks c, 0, hw, by simp [escapedText, hc], .inr ?_⟩
    obtain ⟨d, v, h, rfl | rfl⟩ := hw.exists_cons
    · simpa [h] using hc
    · simp [h]

theorem shown_of_mem_escapedText {keepBreaks : Bool} {limit run : Nat} {cs : List Char} {d : Char}
    (h : d ∈ escapedText keepBreaks limit run cs) : isShown d = true ∨ d = '\n' := by
  induction cs generalizing run with
  | nil => cases h
  | cons c cs ih =>
      obtain ⟨w, next, hw, htext, -⟩ := exists_written keepBreaks limit run c cs
      rw [htext, List.mem_append] at h
      exact h.elim (hw.shown d) ih

/-! ### One quote on each side -/

theorem basic?_escape {cs rest : List Char} {c : Char} (h : escape? cs = some (c, rest)) :
    basic? ('\\' :: cs) = (basic? rest).map (Prod.map (c :: ·) id) := by
  rw [basic?, if_neg (by decide), if_pos rfl]
  split
  · simp_all
  · simp_all

theorem basic?_written {c : Char} {w : List Char} (h : Written false c w)
    (hquote : w.head? ≠ some '"') (rest : List Char) :
    basic? (w ++ rest) = (basic? rest).map (Prod.map (c :: ·) id) := by
  cases h with
  | plain hshown hbackslash =>
      have hshown : isShown c = true := by simpa using hshown
      rw [List.singleton_append, basic?, if_neg (by simpa using hquote), if_neg hbackslash,
        if_pos hshown]
  | escape h => exact basic?_escape (h rest)

theorem basic?_escapedText (run : Nat) (cs rest : List Char) :
    basic? (escapedText false 0 run cs ++ '"' :: rest) = some (cs, rest) := by
  induction cs generalizing run with
  | nil => rw [escapedText, List.nil_append, basic?, if_pos rfl]
  | cons c cs ih =>
      obtain ⟨w, next, hw, htext, hcase⟩ := exists_written false 0 run c cs
      have hquote : w.head? ≠ some '"' :=
        hcase.resolve_left fun h => Nat.not_lt_zero run h.2.2.1
      rw [htext, List.append_assoc, basic?_written hw hquote, ih next]
      rfl

theorem literal?_append {cs : List Char} (hquote : '\'' ∉ cs)
    (hshown : ∀ c ∈ cs, isShown c = true) (rest : List Char) :
    literal? (cs ++ '\'' :: rest) = some (cs, rest) := by
  induction cs with
  | nil => rfl
  | cons c cs ih =>
      simp only [List.mem_cons, not_or, forall_eq_or_imp] at hquote hshown
      rw [List.cons_append, literal?, if_neg (Ne.symm hquote.1), if_pos hshown.1,
        ih hquote.2 hshown.2]
      rfl

/-! ### Three quotes on each side -/

/-- In front of the closing quotes a text is at its end, with two quotes at most, or goes on. -/
theorem closing?_append {q : Char} {t rest : List Char} (ht : (t.takeWhile (· == q)).length ≤ 2)
    (hrest : rest.head? ≠ some q) :
    closing? q (t ++ q :: q :: q :: rest) = if t.all (· == q) then some (t, rest) else none := by
  rcases t with _ | ⟨a, _ | ⟨b, _ | ⟨c, t⟩⟩⟩
  · rcases rest with _ | ⟨d, _ | ⟨e, rest⟩⟩ <;> simp_all [closing?]
  · by_cases ha : a = q
    · rcases rest with _ | ⟨d, rest⟩ <;> simp_all [closing?]
    · simp [closing?, ha]
  · by_cases hab : a = q ∧ b = q
    · simp [closing?, hab]
    · simp_all [closing?]
  · have hne : ¬ (a = q ∧ b = q ∧ c = q) := by
      rintro ⟨rfl, rfl, rfl⟩
      simp at ht
    simp only [closing?, List.cons_append, List.all_cons, Bool.and_eq_true, beq_iff_eq]
    rw [if_neg (by tauto), if_neg (by tauto)]

theorem foldedBreak?_of_escape? {cs rest : List Char} {c : Char}
    (h : escape? cs = some (c, rest)) : foldedBreak? cs = none := by
  unfold escape? at h
  split at h
  · cases h
  · split at h
    case h_10 => cases h
    all_goals rfl

theorem multiBasic?_of_closing {cs : List Char} {r : List Char × List Char}
    (h : closing? '"' cs = some r) : multiBasic? cs = some r := by
  unfold multiBasic?
  rw [h]

theorem multiBasic?_plain {c : Char} {cs : List Char} (hclosing : closing? '"' (c :: cs) = none)
    (hshown : c = '\n' ∨ isShown c = true) (hbackslash : c ≠ '\\') :
    multiBasic? (c :: cs) = (multiBasic? cs).map (Prod.map (c :: ·) id) := by
  rw [multiBasic?.eq_def, hclosing]
  simp only [if_neg hbackslash, if_pos hshown]

theorem multiBasic?_escape {cs rest : List Char} {c : Char}
    (hclosing : closing? '"' ('\\' :: cs) = none) (h : escape? cs = some (c, rest)) :
    multiBasic? ('\\' :: cs) = (multiBasic? rest).map (Prod.map (c :: ·) id) := by
  have hfolded := foldedBreak?_of_escape? h
  rw [multiBasic?.eq_def, hclosing]
  simp only [if_true]
  split
  · simp_all
  · split <;> simp_all

theorem multiBasic?_written {c : Char} {w rest : List Char} (h : Written true c w)
    (hclosing : closing? '"' (w ++ rest) = none) :
    multiBasic? (w ++ rest) = (multiBasic? rest).map (Prod.map (c :: ·) id) := by
  cases h with
  | plain hshown hbackslash =>
      exact multiBasic?_plain hclosing (hshown.symm.imp_left And.right) hbackslash
  | escape h => exact multiBasic?_escape hclosing (h rest)

/-- A text begins with no more quotes than may still follow each other. -/
theorem length_takeWhile_escapedText (keepBreaks : Bool) (limit run : Nat) (cs : List Char) :
    ((escapedText keepBreaks limit run cs).takeWhile (· == '"')).length ≤ limit - run := by
  induction cs generalizing run with
  | nil => exact Nat.zero_le _
  | cons c cs ih =>
      obtain ⟨w, next, hw, htext, ⟨rfl, rfl, hrun, rfl⟩ | hquote⟩ :=
        exists_written keepBreaks limit run c cs
      · have hnext := ih (run + 1)
        rw [htext, List.singleton_append, List.takeWhile_cons_of_pos rfl, List.length_cons]
        omega
      · obtain ⟨d, v, rfl, -⟩ := hw.exists_cons
        have hd : ¬ (d == '"') = true := by simpa using hquote
        rw [htext, List.cons_append, List.takeWhile_cons, if_neg hd]
        exact Nat.zero_le _

theorem escapedText_of_all {keepBreaks : Bool} {limit run : Nat} {cs : List Char}
    (h : (escapedText keepBreaks limit run cs).all (· == '"') = true) :
    escapedText keepBreaks limit run cs = cs := by
  induction cs generalizing run with
  | nil => rfl
  | cons c cs ih =>
      obtain ⟨w, next, hw, htext, ⟨rfl, rfl, hrun, rfl⟩ | hquote⟩ :=
        exists_written keepBreaks limit run c cs
      · rw [htext, List.singleton_append, List.all_cons, Bool.and_eq_true] at h
        rw [htext, List.singleton_append, ih h.2]
      · obtain ⟨d, v, rfl, -⟩ := hw.exists_cons
        rw [htext, List.cons_append, List.all_cons, Bool.and_eq_true] at h
        exact absurd (by simpa using h.1) hquote

theorem multiBasic?_escapedText (run : Nat) (cs : List Char) {rest : List Char}
    (hrest : rest.head? ≠ some '"') :
    multiBasic? (escapedText true 2 run cs ++ '"' :: '"' :: '"' :: rest) = some (cs, rest) := by
  induction cs generalizing run with
  | nil =>
      have hclosing := closing?_append (t := []) (Nat.zero_le 2) hrest
      exact multiBasic?_of_closing hclosing
  | cons c cs ih =>
      have hquotes : ((escapedText true 2 run (c :: cs)).takeWhile (· == '"')).length ≤ 2 :=
        Nat.le_trans (length_takeWhile_escapedText true 2 run (c :: cs)) (Nat.sub_le 2 run)
      have hclosing := closing?_append hquotes hrest
      by_cases hall : (escapedText true 2 run (c :: cs)).all (· == '"') = true
      · -- What is left are quotes, and they are found together with the closing ones.
        rw [if_pos hall, escapedText_of_all hall] at hclosing
        rw [escapedText_of_all hall]
        exact multiBasic?_of_closing hclosing
      · obtain ⟨w, next, hw, htext, -⟩ := exists_written true 2 run c cs
        rw [if_neg hall] at hclosing
        rw [htext, List.append_assoc] at hclosing ⊢
        rw [multiBasic?_written hw hclosing, ih next]
        rfl

/-! ### Runs of quotes -/

theorem longestRun_mono (q : Char) {run run' : Nat} (h : run ≤ run') (cs : List Char) :
    longestRun q run cs ≤ longestRun q run' cs := by
  induction cs generalizing run run' with
  | nil => exact h
  | cons c cs ih =>
      rw [longestRun, longestRun]
      split
      · exact ih (Nat.succ_le_succ h)
      · exact Nat.max_le.mpr ⟨Nat.le_trans h (Nat.le_max_left _ _), Nat.le_max_right _ _⟩

theorem longestRun_le_cons (q : Char) (run : Nat) (c : Char) (cs : List Char) :
    longestRun q 0 cs ≤ longestRun q run (c :: cs) := by
  rw [longestRun]
  split
  · exact longestRun_mono q (Nat.zero_le _) cs
  · exact Nat.le_max_right _ _

theorem length_takeWhile_le_longestRun (q : Char) (run : Nat) (cs : List Char) :
    run + (cs.takeWhile (· == q)).length ≤ longestRun q run cs := by
  induction cs generalizing run with
  | nil => exact Nat.le_refl run
  | cons c cs ih =>
      have hnext := ih (run + 1)
      rw [longestRun, List.takeWhile_cons]
      split
      · rw [List.length_cons]
        omega
      · exact Nat.le_max_left _ _

theorem notMem_of_longestRun {q : Char} {cs : List Char} (h : longestRun q 0 cs = 0) : q ∉ cs := by
  induction cs with
  | nil => simp
  | cons c cs ih =>
      have hfirst := length_takeWhile_le_longestRun q 0 (c :: cs)
      have hnext := longestRun_le_cons q 0 c cs
      have hne : q ≠ c := by
        rintro rfl
        simp [h] at hfirst
      simp [hne, ih (by omega)]

theorem multiLiteral?_append {cs rest : List Char} (hruns : longestRun '\'' 0 cs ≤ 2)
    (hshown : ∀ c ∈ cs, isShown c = true ∨ c = '\n') (hrest : rest.head? ≠ some '\'') :
    multiLiteral? (cs ++ '\'' :: '\'' :: '\'' :: rest) = some (cs, rest) := by
  induction cs with
  | nil =>
      have hclosing := closing?_append (t := []) (Nat.zero_le 2) hrest
      rw [List.nil_append, multiLiteral?, ← List.nil_append ('\'' :: _), hclosing]
      rfl
  | cons c cs ih =>
      have hquotes : ((c :: cs).takeWhile (· == '\'')).length ≤ 2 := by
        have := length_takeWhile_le_longestRun '\'' 0 (c :: cs)
        omega
      have hclosing := closing?_append hquotes hrest
      rw [List.cons_append] at hclosing ⊢
      rw [multiLiteral?, hclosing]
      split
      · rename_i h
        split_ifs at h
        exact h.symm
      · rw [List.forall_mem_cons] at hshown
        rw [if_pos hshown.1.symm, ih (Nat.le_trans (longestRun_le_cons _ 0 c cs) hruns) hshown.2]
        rfl

/-! ### The forms of a quoted text -/

theorem shown_of_hasControl {cs : List Char} (h : (Traits.ofChars cs).hasControl = false) :
    ∀ c ∈ cs, isShown c = true ∨ c = '\n' := by
  intro c hc
  by_cases hbreak : c = '\n'
  · exact .inr hbreak
  · have hcontrol : isControl c = false := by simpa using List.any_eq_false.mp h c hc
    exact .inl (isShown_of_not_isControl hcontrol hbreak)

theorem hasBreak_eq_false_iff {cs : List Char} :
    (Traits.ofChars cs).hasBreak = false ↔ '\n' ∉ cs := by
  show cs.contains '\n' = false ↔ _
  simp

theorem Traits.of_quoting_literal {t : Traits} (h : t.quoting = .literal) :
    t.hasControl = false ∧ t.singles = 0 ∧ t.hasBreak = false := by
  unfold Traits.quoting at h
  split_ifs at h
  simp_all

theorem Traits.of_quoting_multiLiteral {t : Traits} (h : t.quoting = .multiLiteral) :
    t.hasControl = false ∧ t.singles ≤ 2 := by
  unfold Traits.quoting at h
  split_ifs at h
  simp_all

/-- A quoted text has escapes, or it is in a form that needs none. -/
theorem quote_cases (cs : List Char) :
    quote cs = '"' :: (escapedText false 0 0 cs ++ ['"']) ∨
    (quote cs = '\'' :: (cs ++ ['\'']) ∧ '\'' ∉ cs ∧ ∀ c ∈ cs, isShown c = true) ∨
    quote cs = '"' :: '"' :: '"' ::
      (openingBreak (Traits.ofChars cs) ++ escapedText true 2 0 cs ++ ['"', '"', '"']) ∨
    (quote cs = '\'' :: '\'' :: '\'' ::
        (openingBreak (Traits.ofChars cs) ++ cs ++ ['\'', '\'', '\'']) ∧
      longestRun '\'' 0 cs ≤ 2 ∧ ∀ c ∈ cs, isShown c = true ∨ c = '\n') := by
  unfold quote
  dsimp only
  cases hquoting : (Traits.ofChars cs).quoting with
  | basic => exact .inl rfl
  | literal =>
      obtain ⟨hcontrol, hsingles, hbreak⟩ := Traits.of_quoting_literal hquoting
      refine .inr (.inl ⟨rfl, notMem_of_longestRun hsingles, fun c hc => ?_⟩)
      refine (shown_of_hasControl hcontrol c hc).resolve_right ?_
      rintro rfl
      exact hasBreak_eq_false_iff.mp hbreak hc
  | multiBasic => exact .inr (.inr (.inl rfl))
  | multiLiteral =>
      obtain ⟨hcontrol, hsingles⟩ := Traits.of_quoting_multiLiteral hquoting
      exact .inr (.inr (.inr ⟨rfl, hsingles, shown_of_hasControl hcontrol⟩))

theorem lineFeed_of_mem_openingBreak {t : Traits} {d : Char} (h : d ∈ openingBreak t) :
    d = '\n' := by
  unfold openingBreak at h
  split at h
  · exact List.mem_singleton.mp h
  · cases h

/-- A quoted text has no characters that are not shown, but line feeds. -/
theorem shown_of_mem_quote {cs : List Char} {d : Char} (h : d ∈ quote cs) :
    isShown d = true ∨ d = '\n' := by
  have hsingle : isShown '\'' = true := by decide
  have hdouble : isShown '"' = true := by decide
  rcases quote_cases cs with hq | ⟨hq, -, hshown⟩ | hq | ⟨hq, -, hshown⟩
  all_goals
    rw [hq] at h
    simp only [List.mem_cons, List.mem_append, List.not_mem_nil, or_false, or_self,
      or_self_left] at h
  · rcases h with rfl | h | rfl
    · exact .inl hdouble
    · exact shown_of_mem_escapedText h
    · exact .inl hdouble
  · rcases h with rfl | h | rfl
    · exact .inl hsingle
    · exact .inl (hshown d h)
    · exact .inl hsingle
  · rcases h with rfl | (h | h) | rfl
    · exact .inl hdouble
    · exact .inr (lineFeed_of_mem_openingBreak h)
    · exact shown_of_mem_escapedText h
    · exact .inl hdouble
  · rcases h with rfl | (h | h) | rfl
    · exact .inl hsingle
    · exact .inr (lineFeed_of_mem_openingBreak h)
    · exact hshown d h
    · exact .inl hsingle

/-- The line break after the opening quotes is dropped, and no other one. -/
theorem dropBreak_openingBreak {cs t : List Char} {q : Char}
    (ht : t.head? = some '\n' → '\n' ∈ cs) (hq : q ≠ '\n') (rest : List Char) :
    dropBreak (openingBreak (Traits.ofChars cs) ++ (t ++ q :: rest)) = t ++ q :: rest := by
  have hhead : (t ++ q :: rest).head? = some '\n' → '\n' ∈ cs := by
    cases t with
    | nil => simp [hq]
    | cons a t => exact ht
  unfold openingBreak
  by_cases hbreak : (Traits.ofChars cs).hasBreak = true
  · rw [if_pos hbreak]
    rfl
  · rw [if_neg hbreak, List.nil_append]
    generalize t ++ q :: rest = text at hhead ⊢
    unfold dropBreak
    split
    · exact absurd (hhead rfl) (hasBreak_eq_false_iff.mp (by simpa using hbreak))
    · rfl

/-! ### Quotes -/

theorem quoted?_basic {cs : List Char} (h : ¬ ['"', '"'] <+: cs) : quoted? ('"' :: cs) = basic? cs := by
  unfold quoted?
  split <;> simp_all

theorem quoted?_literal {cs : List Char} (h : ¬ ['\'', '\''] <+: cs) :
    quoted? ('\'' :: cs) = literal? cs := by
  unfold quoted?
  split <;> simp_all

/-- Where a text does not begin with the quote, its closing quote is not the second of two. -/
theorem not_prefix_append {q : Char} {t rest : List Char} (ht : t.head? ≠ some q)
    (hrest : rest.head? ≠ some q) : ¬ [q, q] <+: t ++ q :: rest := by
  rcases t with _ | ⟨a, t⟩
  · rcases rest with _ | ⟨b, rest⟩
    · simp
    · simpa [List.cons_prefix_cons, eq_comm] using hrest
  · intro h
    rw [List.cons_append, List.cons_prefix_cons] at h
    simp [h.1] at ht

/-- The text begins as it is written, but for an escape. -/
theorem mem_of_head?_escapedText {keepBreaks : Bool} {limit run : Nat} {cs : List Char} {d : Char}
    (h : (escapedText keepBreaks limit run cs).head? = some d) (hd : d ≠ '\\') : d ∈ cs := by
  cases cs with
  | nil => cases h
  | cons c cs =>
      obtain ⟨w, next, hw, htext, -⟩ := exists_written keepBreaks limit run c cs
      obtain ⟨e, v, rfl, he⟩ := hw.exists_cons
      rw [htext] at h
      cases h
      exact List.mem_cons.mpr (.inl (he.resolve_right hd))

theorem head?_escapedText_ne (keepBreaks : Bool) (run : Nat) (cs : List Char) :
    (escapedText keepBreaks 0 run cs).head? ≠ some '"' := by
  cases cs with
  | nil => simp [escapedText]
  | cons c cs =>
      obtain ⟨w, next, hw, htext, hcase⟩ := exists_written keepBreaks 0 run c cs
      obtain ⟨e, v, rfl, -⟩ := hw.exists_cons
      rw [htext]
      exact hcase.resolve_left fun h => Nat.not_lt_zero run h.2.2.1

/-- What is written of a text is read back up to the closing quotes. -/
theorem quoted?_quote (cs : List Char) {rest : List Char} (hsingle : rest.head? ≠ some '\'')
    (hdouble : rest.head? ≠ some '"') : quoted? (quote cs ++ rest) = some (cs, rest) := by
  rcases quote_cases cs with hq | ⟨hq, hquote, hshown⟩ | hq | ⟨hq, hruns, hshown⟩
  all_goals
    rw [hq]
    simp only [List.cons_append, List.append_assoc, List.nil_append]
  · have hfirst := head?_escapedText_ne false 0 cs
    rw [quoted?_basic (not_prefix_append hfirst hdouble), basic?_escapedText]
  · have hfirst : cs.head? ≠ some '\'' := fun h => hquote (List.mem_of_head? h)
    rw [quoted?_literal (not_prefix_append hfirst hsingle), literal?_append hquote hshown]
  · have hfirst : (escapedText true 2 0 cs).head? = some '\n' → '\n' ∈ cs := fun h =>
      mem_of_head?_escapedText h (by decide)
    show multiBasic? (dropBreak _) = _
    rw [dropBreak_openingBreak hfirst (by decide), multiBasic?_escapedText 0 cs hdouble]
  · show multiLiteral? (dropBreak _) = _
    rw [dropBreak_openingBreak List.mem_of_head? (by decide),
      multiLiteral?_append hruns hshown hsingle]

/-- A quote at the end of the text stands right in front of the closing ones. -/
example : quote ['\'', '"'] = ['"', '"', '"', '\'', '"', '"', '"', '"'] := by decide

end PathQuery.Toml
