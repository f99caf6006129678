import PathQuery.Proofs.Json.Scalar
import PathQuery.Proofs.Toml.Quoted
import PathQuery.Toml.Reader

/-! # Reading back entries of TOML

A text that has an entry on each line, under keys without quotes that differ from each other, is
read as these entries in their order (`read?_lines`).  The value of an entry stands at the end of
its line (`Writes`): a quoted text, digits, a truth value. -/

namespace PathQuery.Toml

/-! ### Values -/

/-- A text that is read as a value up to the end of its line. -/
structure Writes (w : List Char) (v : Value) : Prop where
  solid : ∃ c cs, w = c :: cs ∧ isSpace c = false
  noReturn : '\r' ∉ w
  read (fuel depth : Nat) (rest : List Char) :
    value? (fuel + 1) depth (w ++ '\n' :: rest) = some (v, '\n' :: rest)

theorem writes_quote (s : String) : Writes (quote s.toList) (.string s) := by
  obtain ⟨q, t, hquote, hq⟩ : ∃ q t, quote s.toList = q :: t ∧ (q = '"' ∨ q = '\'') := by
    rcases quote_cases s.toList with h | ⟨h, -⟩ | h | ⟨h, -⟩
    · exact ⟨'"', _, h, .inl rfl⟩
    · exact ⟨'\'', _, h, .inr rfl⟩
    · exact ⟨'"', _, h, .inl rfl⟩
    · exact ⟨'\'', _, h, .inr rfl⟩
  refine ⟨⟨q, t, hquote, ?_⟩, fun h => ?_, fun fuel depth rest => ?_⟩
  · rcases hq with rfl | rfl <;> rfl
  · exact absurd (shown_of_mem_quote h) (by decide)
  · have hread : quoted? (quote s.toList ++ '\n' :: rest) = some (s.toList, '\n' :: rest) :=
      quoted?_quote s.toList (by simp) (by simp)
    have hvalue : value? (fuel + 1) depth (quote s.toList ++ '\n' :: rest) =
        (quoted? (quote s.toList ++ '\n' :: rest)).map
          (Prod.map (fun s => .string (String.ofList s)) id) := by
      rw [hquote]
      rcases hq with rfl | rfl
      · rw [List.cons_append, value?]
      · rw [List.cons_append, value?]
    rw [hvalue, hread, Option.map_some, Prod.map_apply, String.ofList_toList, id]

theorem isSpace_eq_false {p : Char → Bool} (hblank : p ' ' = false) (htab : p '\t' = false)
    {c : Char} (h : p c = true) : isSpace c = false := by
  rw [isSpace, Bool.or_eq_false_iff, beq_eq_false_iff_ne, beq_eq_false_iff_ne]
  constructor
  · rintro rfl
    simp [hblank] at h
  · rintro rfl
    simp [htab] at h

theorem word?_lineFeed {w : List Char} (hw : ∀ c ∈ w, isWordChar c = true) (rest : List Char) :
    word? (w ++ '\n' :: rest) = (wordValue? w).map fun v => (v, '\n' :: rest) := by
  have hbreak : isWordChar '\n' = false := by decide
  unfold word?
  rw [List.takeWhile_append_of_pos hw, List.dropWhile_append_of_pos hw]
  simp [hbreak]

theorem value?_of_isWordChar {c : Char} (h : isWordChar c = true) (fuel depth : Nat)
    (cs : List Char) : value? (fuel + 1) depth (c :: cs) = word? (c :: cs) := by
  unfold value?
  split
  case h_5 => rfl
  all_goals
    rename_i heq
    cases heq
    exact absurd h (by decide)

/-- A word is read up to the end of its line. -/
theorem writes_word {w : List Char} {v : Value} (hne : w ≠ [])
    (hw : ∀ c ∈ w, isWordChar c = true) (hv : wordValue? w = some v) : Writes w v := by
  obtain ⟨c, cs, rfl⟩ := List.exists_cons_of_ne_nil hne
  have hc := hw c List.mem_cons_self
  refine ⟨⟨c, cs, rfl, isSpace_eq_false (by decide) (by decide) hc⟩,
    fun h => absurd (hw _ h) (by decide), fun fuel depth rest => ?_⟩
  rw [List.cons_append, value?_of_isWordChar hc, ← List.cons_append, word?_lineFeed hw, hv,
    Option.map_some]

theorem writes_boolean (b : Bool) : Writes (toString b).toList (.boolean b) := by
  cases b with
  | false => exact writes_word (by decide) (List.all_eq_true.mp (by decide)) rfl
  | true => exact writes_word (by decide) (List.all_eq_true.mp (by decide)) rfl

/-! ### Digits -/

theorem eq_cons_cons_of_twoDigits? {cs rest : List Char} {n : Nat}
    (h : twoDigits? cs = some (n, rest)) : ∃ a b, cs = a :: b :: rest := by
  unfold twoDigits? at h
  split at h
  · rename_i a b more
    split_ifs at h
    cases h
    exact ⟨a, b, rfl⟩
  · cases h

theorem afterDate?_eq_none {cs : List Char} (h : '-' ∉ cs) : afterDate? cs = none := by
  unfold afterDate?
  split
  · rfl
  · rename_i hcentury
    obtain ⟨a, b, rfl⟩ := eq_cons_cons_of_twoDigits? hcentury
    split
    · rename_i hyear
      obtain ⟨c, d, rfl⟩ := eq_cons_cons_of_twoDigits? hyear
      simp at h
    · rfl

theorem afterTime?_eq_none {cs : List Char} (h : ':' ∉ cs) : afterTime? cs = none := by
  have hminutes : afterMinutes? cs = none := by
    unfold afterMinutes?
    split
    · rename_i hhour
      obtain ⟨a, b, rfl⟩ := eq_cons_cons_of_twoDigits? hhour
      simp at h
    · rfl
  rw [afterTime?, hminutes]

theorem isMoment_of_isDigit {cs : List Char} (h : ∀ c ∈ cs, c.isDigit = true) :
    isMoment cs = false := by
  have hminus : '-' ∉ cs := fun hc => absurd (h _ hc) (by decide)
  have hcolon : ':' ∉ cs := fun hc => absurd (h _ hc) (by decide)
  rw [isMoment, afterDate?_eq_none hminus, afterTime?_eq_none hcolon]
  rfl

theorem ungroup?_of_isDigit {cs : List Char} (hne : cs ≠ []) (h : ∀ c ∈ cs, c.isDigit = true) :
    ungroup? Char.isDigit cs = some cs := by
  induction cs with
  | nil => exact absurd rfl hne
  | cons c cs ih =>
      rw [List.forall_mem_cons] at h
      unfold ungroup?
      rw [if_pos h.1]
      split
      · rfl
      · exact absurd (h.2 '_' List.mem_cons_self) (by decide)
      · rename_i hcs _
        rw [ih hcs h.2, Option.map_some]

theorem decimalDigits?_toDigits (n : Nat) :
    decimalDigits? (Nat.toDigits 10 n) = some (Nat.toDigits 10 n) := by
  unfold decimalDigits?
  rw [ungroup?_of_isDigit Nat.toDigits_ne_nil fun c => Json.isDigit_of_mem_toDigits]
  split
  · rename_i h
    cases n with
    | zero => cases h
    | succ n =>
        refine absurd ?_ (Json.head?_toDigits_ne_zero (Nat.succ_pos n))
        rw [Option.some.inj h]
        rfl
  · rfl

theorem integer?_toDigits {n : Nat} (h : n ≤ maxInteger) :
    integer? (Nat.toDigits 10 n) = some (n : Int) := by
  have hdigits : ∀ c ∈ Nat.toDigits 10 n, c.isDigit = true := fun c => Json.isDigit_of_mem_toDigits
  have hdecimal := decimalDigits?_toDigits n
  have hvalue := Json.digitsValue_toDigits n
  generalize Nat.toDigits 10 n = ds at hdigits hdecimal hvalue ⊢
  have hsign : Decimal.splitSign ds = (false, ds) := by
    unfold Decimal.splitSign
    split
    · exact absurd (hdigits '-' List.mem_cons_self) (by decide)
    · exact absurd (hdigits '+' List.mem_cons_self) (by decide)
    · rfl
  unfold integer?
  split
  case h_4 =>
    rw [hsign]
    simp only [hdecimal, hvalue, boundedNat?, if_pos h]
    rfl
  all_goals exact absurd (hdigits _ (List.mem_cons_of_mem _ List.mem_cons_self)) (by decide)

theorem wordValue?_toDigits {n : Nat} (h : n ≤ maxInteger) :
    wordValue? (Nat.toDigits 10 n) = some (.integer n) := by
  have hdigits : ∀ c ∈ Nat.toDigits 10 n, c.isDigit = true := fun c => Json.isDigit_of_mem_toDigits
  have hinteger := integer?_toDigits h
  generalize Nat.toDigits 10 n = ds at hdigits hinteger ⊢
  have htrue : ds ≠ "true".toList := by
    rintro rfl
    exact absurd (hdigits 't' (by decide)) (by decide)
  have hfalse : ds ≠ "false".toList := by
    rintro rfl
    exact absurd (hdigits 'f' (by decide)) (by decide)
  unfold wordValue?
  rw [if_neg (by simpa using htrue), if_neg (by simpa using hfalse),
    if_neg (by simp [isMoment_of_isDigit hdigits]), hinteger]

theorem writes_natural {n : Nat} (h : n ≤ maxInteger) : Writes (Nat.toDigits 10 n) (.integer n) := by
  refine writes_word Nat.toDigits_ne_nil (fun c hc => ?_) (wordValue?_toDigits h)
  simp [isWordChar, Char.isAlphanum, Json.isDigit_of_mem_toDigits hc]

/-! ### Lines -/

theorem dropSpaces_cons {c : Char} (h : isSpace c = false) (cs : List Char) :
    dropSpaces (c :: cs) = c :: cs := by
  simp [dropSpaces, h]

theorem isSpace_of_isBare {c : Char} (h : isBare c = true) : isSpace c = false :=
  isSpace_eq_false (by decide) (by decide) h

/-- An entry as it stands on a line: a key without quotes and a text that is read as its value. -/
structure Entry where
  key : String
  written : List Char
  value : Value
  bare : ∀ c ∈ key.toList, isBare c = true
  nonempty : key.toList ≠ []
  writes : Writes written value

/-- The line of an entry. -/
def Entry.line (e : Entry) : List Char :=
  e.key.toList ++ [' ', '=', ' '] ++ e.written ++ ['\n']

theorem Entry.exists_cons (e : Entry) : ∃ c cs, e.key.toList = c :: cs ∧ isBare c = true := by
  obtain ⟨c, cs, h⟩ := List.exists_cons_of_ne_nil e.nonempty
  exact ⟨c, cs, h, e.bare c (h ▸ List.mem_cons_self)⟩

/-- A line does not begin with what is no part of a key. -/
theorem Entry.front_ne (e : Entry) {q : Char} (hq : isBare q = false) (rest cs : List Char) :
    e.key.toList ++ rest ≠ q :: cs := by
  obtain ⟨c, ds, hkey, hc⟩ := e.exists_cons
  intro h
  rw [hkey, List.cons_append] at h
  cases h
  rw [hq] at hc
  cases hc

theorem Entry.keyPart? (e : Entry) (rest : List Char) :
    keyPart? (e.key.toList ++ ' ' :: rest) = some (e.key, ' ' :: rest) := by
  have hblank : isBare ' ' = false := by decide
  unfold Toml.keyPart?
  split
  · rename_i h
    exact absurd h (e.front_ne (by decide) _ _)
  · rename_i h
    exact absurd h (e.front_ne (by decide) _ _)
  · rw [List.takeWhile_append_of_pos e.bare, List.dropWhile_append_of_pos e.bare]
    simp [hblank, e.nonempty]

theorem Entry.key? (e : Entry) (limit : Nat) (rest : List Char) :
    key? (limit + 1) (e.key.toList ++ ' ' :: '=' :: rest) = some ([], e.key, '=' :: rest) := by
  obtain ⟨c, cs, hkey, hc⟩ := e.exists_cons
  have hdrop : dropSpaces (e.key.toList ++ ' ' :: '=' :: rest) =
      e.key.toList ++ ' ' :: '=' :: rest := by
    rw [hkey]
    exact dropSpaces_cons (isSpace_of_isBare hc) _
  rw [Toml.key?, hdrop, e.keyPart?]
  rfl

theorem line?_of_key? {c : Char} {cs more tail rest : List Char} {path : List String}
    {key : String} {v : Value} (hc : isBare c = true)
    (hkey : key? maxDepth (c :: cs) = some (path, key, '=' :: more))
    (hvalue : value? (more.length + 1) maxDepth (dropSpaces more) = some (v, tail))
    (hend : lineEnd? tail = some rest) :
    line? (c :: cs) = some (.entry path key v, rest) := by
  unfold line?
  rw [dropSpaces_cons (isSpace_of_isBare hc)]
  split
  case h_6 =>
    simp only [hkey, hvalue, hend, Option.map_some]
  all_goals
    rename_i h
    cases h
    try exact absurd hc (by decide)

theorem line?_entry (e : Entry) (rest : List Char) :
    line? (e.line ++ rest) = some (.entry [] e.key e.value, rest) := by
  obtain ⟨c, cs, hkey, hc⟩ := e.exists_cons
  obtain ⟨d, ds, hwritten, hd⟩ := e.writes.solid
  have hline : e.line ++ rest =
      e.key.toList ++ ' ' :: '=' :: ' ' :: (e.written ++ '\n' :: rest) := by
    simp [Entry.line]
  have hdrop : dropSpaces (' ' :: (e.written ++ '\n' :: rest)) = e.written ++ '\n' :: rest := by
    show dropSpaces (e.written ++ '\n' :: rest) = _
    rw [hwritten]
    exact dropSpaces_cons hd _
  have hread := e.key? 78 (' ' :: (e.written ++ '\n' :: rest))
  have hvalue : value? ((' ' :: (e.written ++ '\n' :: rest)).length + 1) maxDepth
      (dropSpaces (' ' :: (e.written ++ '\n' :: rest))) = some (e.value, '\n' :: rest) := by
    rw [hdrop]
    exact e.writes.read _ maxDepth rest
  rw [hline]
  rw [hkey, List.cons_append] at hread ⊢
  exact line?_of_key? hc hread hvalue rfl

theorem lines?_entries (es : List Entry) {fuel : Nat} (h : es.length < fuel) :
    lines? fuel (es.flatMap Entry.line) = some (es.map fun e => .entry [] e.key e.value) := by
  induction es generalizing fuel with
  | nil =>
      obtain ⟨fuel, rfl⟩ := Nat.exists_eq_add_one_of_ne_zero (Nat.ne_of_gt h)
      rfl
  | cons e es ih =>
      obtain ⟨fuel, rfl⟩ := Nat.exists_eq_add_one_of_ne_zero (Nat.ne_of_gt (Nat.zero_lt_of_lt h))
      obtain ⟨c, cs, hkey, -⟩ := e.exists_cons
      have hread := line?_entry e (es.flatMap Entry.line)
      have hfront : ∃ ds, e.line ++ es.flatMap Entry.line = c :: ds := by
        simp [Entry.line, hkey]
      obtain ⟨ds, hfront⟩ := hfront
      rw [List.flatMap_cons, hfront, lines?, ← hfront, hread]
      dsimp only
      rw [ih (by simpa using h)]
      rfl

/-! ### Tables -/

theorem Table.alter_of_notMem {t : Table} {key : String} (h : key ∉ t.map Prod.fst)
    (f : Option Item → Option Item) :
    t.alter key f = (f none).map fun item => t ++ [(key, item)] := by
  induction t with
  | nil => rfl
  | cons entry t ih =>
      obtain ⟨k, item⟩ := entry
      simp only [List.map_cons, List.mem_cons, not_or] at h
      rw [Table.alter, if_neg (Ne.symm h.1), ih h.2, Option.map_map]
      rfl

/-- Entries under further keys come behind those of the table. -/
theorem Draft.foldlM_add (es : List Entry) {t : Table}
    (hdistinct : (t.map Prod.fst ++ es.map Entry.key).Nodup) :
    (es.map fun e => Line.entry [] e.key e.value).foldlM Draft.add ⟨t, none⟩ =
      some ⟨t ++ es.map fun e => (e.key, .value e.value), none⟩ := by
  induction es generalizing t with
  | nil => simp
  | cons e es ih =>
      have hnew : e.key ∉ t.map Prod.fst := fun h =>
        (List.nodup_append.mp hdistinct).2.2 _ h _ List.mem_cons_self rfl
      have hadd : Draft.add ⟨t, none⟩ (.entry [] e.key e.value) =
          some ⟨t ++ [(e.key, .value e.value)], none⟩ := by
        show (Table.alter e.key _ t).map _ = _
        rw [Table.alter_of_notMem hnew]
        rfl
      rw [List.map_cons, List.foldlM_cons, hadd]
      show List.foldlM _ _ _ = _
      rw [ih (by simpa using hdistinct)]
      simp

theorem entryValues_map (es : List Entry) :
    entryValues (es.map fun e => (e.key, .value e.value)) = es.map fun e => (e.key, e.value) := by
  induction es with
  | nil => rfl
  | cons e es ih =>
      rw [List.map_cons, entryValues, ih]
      rfl

/-! ### Texts -/

theorem unifyBreaks_of_notMem {cs : List Char} (h : '\r' ∉ cs) : unifyBreaks cs = cs := by
  fun_induction unifyBreaks cs with
  | case1 cs ih => simp at h
  | case2 c cs hne ih => rw [ih fun hc => h (List.mem_cons_of_mem c hc)]
  | case3 => rfl

theorem Entry.noReturn (e : Entry) : '\r' ∉ e.line := by
  have hkey : '\r' ∉ e.key.toList := fun h => absurd (e.bare _ h) (by decide)
  simp [Entry.line, hkey, e.writes.noReturn]

theorem Entry.length_line_pos (e : Entry) : 0 < e.line.length := by
  rw [Entry.line, List.length_append]
  exact Nat.succ_pos _

theorem length_le_length_lines (es : List Entry) :
    es.length ≤ (es.flatMap Entry.line).length := by
  induction es with
  | nil => exact Nat.le_refl 0
  | cons e es ih =>
      have hpos := e.length_line_pos
      rw [List.flatMap_cons, List.length_append, List.length_cons]
      omega

theorem dropMark_lines (es : List Entry) :
    dropMark (es.flatMap Entry.line) = es.flatMap Entry.line := by
  unfold dropMark
  split
  · rename_i cs h
    cases es with
    | nil => cases h
    | cons e es =>
        simp only [List.flatMap_cons, Entry.line, List.append_assoc] at h
        exact absurd h (e.front_ne (by decide) _ _)
  · rfl

/-- Lines of entries under distinct keys are read as these entries. -/
theorem read?_lines (es : List Entry) (hdistinct : (es.map Entry.key).Nodup) :
    read? (String.ofList (es.flatMap Entry.line)) = some (es.map fun e => (e.key, e.value)) := by
  have hreturn : '\r' ∉ es.flatMap Entry.line := by
    intro h
    obtain ⟨e, -, he⟩ := List.mem_flatMap.mp h
    exact e.noReturn he
  have hlines := lines?_entries es (Nat.lt_succ_of_le (length_le_length_lines es))
  have hdraft := Draft.foldlM_add es (t := []) hdistinct
  unfold read?
  rw [String.toList_ofList, dropMark_lines, unifyBreaks_of_notMem hreturn]
  simp only [hlines, hdraft, Option.bind_eq_bind, Option.bind_some, List.nil_append,
    entryValues_map]

end PathQuery.Toml
