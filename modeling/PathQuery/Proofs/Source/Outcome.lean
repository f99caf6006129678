import PathQuery.Proofs.Source.Records

/-! # What a text of records gives

A text of records gives the records on the lines that are not blank, all of them and in their order.
It is refused for its first line that is neither blank nor a record, or if all its lines are blank
(`readRecords_outcome`).

The reader takes the lines one by one with their numbers, so the statements about lines are for a
first line of any number. -/

namespace PathQuery

/-- A line that is neither blank nor a record. -/
def IsBadLine (record : String → Option Doc) (line : List Char) : Prop :=
  Text.allBlank line = false ∧ record (String.ofList line) = none

/-- The first bad one of some lines, where the number of the first of them is `n`, has the number `m`. -/
def FirstBadLine (record : String → Option Doc) (n : Nat) (lines : List (List Char)) (m : Nat) : Prop :=
  ∃ before line after, lines = before ++ line :: after ∧ m = n + before.length ∧
    IsBadLine record line ∧ ∀ l ∈ before, ¬ IsBadLine record l

/-- Each line that is not blank holds a record, and these are the records in their order. -/
def HoldRecords (record : String → Option Doc) (lines : List (List Char)) (ds : List Doc) : Prop :=
  (lines.filter (!Text.allBlank ·)).map (fun line => record (String.ofList line)) = ds.map some

variable {record : String → Option Doc} {n m : Nat} {line : List Char} {lines : List (List Char)}
  {ds : List Doc}

/-! ### Lines one by one -/

theorem not_isBadLine_of_blank (h : Text.allBlank line = true) : ¬ IsBadLine record line := by
  rintro ⟨hblank, -⟩
  rw [h] at hblank
  cases hblank

theorem firstBadLine_cons_of_bad (h : IsBadLine record line) :
    FirstBadLine record n (line :: lines) m ↔ m = n := by
  constructor
  · rintro ⟨before, l, after, hlines, rfl, -, hbefore⟩
    cases before with
    | nil => rfl
    | cons first before =>
        cases hlines
        exact absurd h (hbefore _ List.mem_cons_self)
  · rintro rfl
    exact ⟨[], line, lines, rfl, rfl, h, by simp⟩

theorem firstBadLine_cons_of_not_bad (h : ¬ IsBadLine record line) :
    FirstBadLine record n (line :: lines) m ↔ FirstBadLine record (n + 1) lines m := by
  constructor
  · rintro ⟨before, l, after, hlines, rfl, hbad, hbefore⟩
    cases before with
    | nil =>
        cases hlines
        exact absurd hbad h
    | cons first before =>
        cases hlines
        refine ⟨before, l, after, rfl, ?_, hbad, fun l hl => hbefore l (List.mem_cons_of_mem _ hl)⟩
        rw [List.length_cons]
        omega
  · rintro ⟨before, l, after, rfl, rfl, hbad, hbefore⟩
    refine ⟨line :: before, l, after, rfl, ?_, hbad, List.forall_mem_cons.mpr ⟨h, hbefore⟩⟩
    rw [List.length_cons]
    omega

theorem holdRecords_cons_of_blank (h : Text.allBlank line = true) :
    HoldRecords record (line :: lines) ds ↔ HoldRecords record lines ds := by
  rw [HoldRecords, List.filter_cons_of_neg (by simp [h])]
  rfl

theorem holdRecords_cons_of_record {d : Doc} (h : Text.allBlank line = false)
    (hd : record (String.ofList line) = some d) :
    HoldRecords record (line :: lines) ds ↔ ∃ ds', HoldRecords record lines ds' ∧ d :: ds' = ds := by
  rw [HoldRecords, List.filter_cons_of_pos (by simp [h]), List.map_cons, hd]
  cases ds with
  | nil => simp
  | cons d' ds' => simp [HoldRecords, and_comm]

theorem not_holdRecords_cons_of_bad (h : IsBadLine record line) :
    ¬ HoldRecords record (line :: lines) ds := by
  rw [HoldRecords, List.filter_cons_of_pos (by simp [h.1]), List.map_cons, h.2]
  cases ds <;> simp

/-! ### All lines -/

theorem recordsFrom_eq_ok_iff :
    recordsFrom record n lines = .ok ds ↔ HoldRecords record lines ds := by
  fun_induction recordsFrom record n lines generalizing ds with
  | case1 => cases ds <;> simp [HoldRecords]
  | case2 n line lines hblank ih => rw [ih, holdRecords_cons_of_blank hblank]
  | case3 n line lines hblank hnone =>
      exact iff_of_false (by simp) (not_holdRecords_cons_of_bad ⟨by simpa using hblank, hnone⟩)
  | case4 n line lines hblank d hd ih =>
      rw [map_eq_ok_iff, holdRecords_cons_of_record (by simpa using hblank) hd]
      exact exists_congr fun ds' => and_congr_left' ih

theorem recordsFrom_eq_badRecord_iff :
    recordsFrom record n lines = .error (.badRecord m) ↔ FirstBadLine record n lines m := by
  fun_induction recordsFrom record n lines with
  | case1 n =>
      refine iff_of_false (by simp) ?_
      rintro ⟨before, line, after, hlines, -⟩
      simp at hlines
  | case2 n line lines hblank ih =>
      rw [ih, firstBadLine_cons_of_not_bad (not_isBadLine_of_blank hblank)]
  | case3 n line lines hblank hnone =>
      rw [firstBadLine_cons_of_bad ⟨by simpa using hblank, hnone⟩, Except.error.injEq,
        LoadError.badRecord.injEq, eq_comm]
  | case4 n line lines hblank d hd ih =>
      rw [map_eq_error_iff, ih, firstBadLine_cons_of_not_bad]
      exact fun hbad => by simp [hbad.2] at hd

theorem recordsFrom_ne_noRecords : recordsFrom record n lines ≠ .error .noRecords := by
  fun_induction recordsFrom record n lines with
  | case1 => simp
  | case2 n line lines hblank ih => exact ih
  | case3 => simp
  | case4 n line lines hblank d hd ih => exact fun h => ih (map_eq_error_iff.mp h)

/-! ### Texts -/

/-- The sequence of some records, if there is one. -/
def sequenceOf : List Doc → Except LoadError Doc
  | [] => .error .noRecords
  | d :: ds => .ok (.seq (d :: ds))

theorem sequenceOf_eq_ok_iff {d : Doc} : sequenceOf ds = .ok d ↔ ds ≠ [] ∧ d = .seq ds := by
  cases ds with
  | nil => simp [sequenceOf]
  | cons d' ds => simp [sequenceOf, eq_comm]

theorem sequenceOf_eq_error_iff {e : LoadError} :
    sequenceOf ds = .error e ↔ ds = [] ∧ e = .noRecords := by
  cases ds with
  | nil => simp [sequenceOf, eq_comm]
  | cons d' ds => simp [sequenceOf]

theorem readRecords_eq_bind (record : String → Option Doc) (text : String) :
    readRecords record text = recordsFrom record 1 (Text.lines text.toList) >>= sequenceOf := by
  unfold readRecords
  cases recordsFrom record 1 (Text.lines text.toList) with
  | error e => rfl
  | ok ds => cases ds <;> rfl

variable (record) in
theorem holdRecords_nil_iff : HoldRecords record lines [] ↔ ∀ l ∈ lines, Text.allBlank l = true := by
  simp [HoldRecords]

theorem HoldRecords.ne_nil_iff (h : HoldRecords record lines ds) :
    ds ≠ [] ↔ ∃ l ∈ lines, Text.allBlank l = false := by
  have hnil : ds = [] ↔ lines.filter (!Text.allBlank ·) = [] := by
    rw [← List.map_eq_nil_iff (f := some), ← h, List.map_eq_nil_iff]
  simp [hnil, List.filter_eq_nil_iff]

theorem exists_holdRecords_iff :
    (∃ ds, HoldRecords record lines ds) ↔
      ∀ l ∈ lines, Text.allBlank l = false → ∃ d, record (String.ofList l) = some d := by
  induction lines with
  | nil => exact iff_of_true ⟨[], rfl⟩ (by simp)
  | cons line lines ih =>
      rw [List.forall_mem_cons, ← ih]
      cases hblank : Text.allBlank line with
      | true => simp [holdRecords_cons_of_blank hblank]
      | false =>
          cases hrecord : record (String.ofList line) with
          | none => simp [not_holdRecords_cons_of_bad ⟨hblank, hrecord⟩]
          | some d => simp [holdRecords_cons_of_record hblank hrecord]

theorem readRecords_eq_ok_iff {text : String} {d : Doc} :
    readRecords record text = .ok d ↔
      ∃ ds, recordsFrom record 1 (Text.lines text.toList) = .ok ds ∧ ds ≠ [] ∧ d = .seq ds := by
  rw [readRecords_eq_bind, bind_eq_ok_iff]
  simp only [sequenceOf_eq_ok_iff]

theorem readRecords_eq_badRecord_iff {text : String} :
    readRecords record text = .error (.badRecord n) ↔
      recordsFrom record 1 (Text.lines text.toList) = .error (.badRecord n) := by
  rw [readRecords_eq_bind, bind_eq_error_iff]
  simp [sequenceOf_eq_error_iff]

theorem readRecords_eq_noRecords_iff {text : String} :
    readRecords record text = .error .noRecords ↔
      recordsFrom record 1 (Text.lines text.toList) = .ok [] := by
  rw [readRecords_eq_bind, bind_eq_error_iff, or_iff_right recordsFrom_ne_noRecords]
  simp [sequenceOf_eq_error_iff]

/-! ### Messages -/

theorem toList_message_badRecord (n : Nat) :
    (LoadError.badRecord n).message.toList =
      "Invalid JSON on line ".toList ++ Nat.toDigits 10 n := by
  show ("Invalid JSON on line " ++ Nat.repr n).toList = _
  rw [String.toList_append, Nat.toList_repr]

theorem message_badRecord_inj (h : (LoadError.badRecord m).message = (LoadError.badRecord n).message) :
    m = n := by
  have hdigits : Nat.toDigits 10 m = Nat.toDigits 10 n := by
    have hchars := congrArg String.toList h
    rwa [toList_message_badRecord, toList_message_badRecord, List.append_cancel_left_eq] at hchars
  rw [← Nat.ofDigitChars_ten_toDigits (n := m), hdigits, Nat.ofDigitChars_ten_toDigits]

theorem message_badRecord_ne_noRecords :
    (LoadError.badRecord n).message ≠ LoadError.noRecords.message := by
  intro h
  have hfront := congrArg (fun s => s.toList.head?) h
  rw [toList_message_badRecord] at hfront
  replace hfront : some 'I' = some 'N' := hfront
  exact absurd hfront (by decide)

/-- The causes for which texts of records are refused are told apart by their messages. -/
theorem RecordsError.message_inj {e e' : LoadError} (he : RecordsError e) (he' : RecordsError e')
    (h : e.message = e'.message) : e = e' := by
  cases he with
  | badRecord =>
      cases he' with
      | badRecord => rw [message_badRecord_inj h]
      | noRecords => exact absurd h message_badRecord_ne_noRecords
  | noRecords =>
      cases he' with
      | badRecord => exact absurd h.symm message_badRecord_ne_noRecords
      | noRecords => rfl

/-- A text of records is refused for a cause when it is refused with the message for the cause. -/
theorem exists_message_iff {text : String} {e : LoadError} (he : RecordsError e) :
    (∃ e', readRecords record text = .error e' ∧ e'.message = e.message) ↔
      readRecords record text = .error e := by
  constructor
  · rintro ⟨e', h, hmessage⟩
    rwa [(failsWith_readRecords record text e' h).message_inj he hmessage] at h
  · intro h
    exact ⟨e, h, rfl⟩

/-- **Reading a text of records.**  With the lines of a text cut at its line feeds: the text is read if
there is a line that is not blank and each such line is a record, and then its document is the
sequence of these records; it is refused for a line by its number if this is the first one that is
neither blank nor a record; and it is refused for want of records if all its lines are blank. -/
theorem readRecords_outcome (record : String → Option Doc) (text : String) :
    ((∃ d, readRecords record text = .ok d) ↔
      (∃ line ∈ Text.splitLines text.toList, Text.allBlank line = false) ∧
      ∀ line ∈ Text.splitLines text.toList, Text.allBlank line = false →
        ∃ d, record (String.ofList line) = some d) ∧
    (∀ d, readRecords record text = .ok d →
      ∃ ds, d = .seq ds ∧ HoldRecords record (Text.splitLines text.toList) ds) ∧
    (∀ n, (∃ e, readRecords record text = .error e ∧
        e.message = "Invalid JSON on line " ++ toString n) ↔
      FirstBadLine record 1 (Text.splitLines text.toList) n) ∧
    ((∃ e, readRecords record text = .error e ∧
        e.message = "No valid JSON found in JSONL content") ↔
      ∀ line ∈ Text.splitLines text.toList, Text.allBlank line = true) := by
  rw [← Text.lines_eq_splitLines]
  refine ⟨?_, ?_, ?_, ?_⟩
  · rw [← exists_holdRecords_iff]
    constructor
    · rintro ⟨d, h⟩
      obtain ⟨ds, hds, hne, -⟩ := readRecords_eq_ok_iff.mp h
      have hds := recordsFrom_eq_ok_iff.mp hds
      exact ⟨hds.ne_nil_iff.mp hne, ds, hds⟩
    · rintro ⟨hline, ds, hds⟩
      have hne : ds ≠ [] := hds.ne_nil_iff.mpr hline
      exact ⟨.seq ds, readRecords_eq_ok_iff.mpr ⟨ds, recordsFrom_eq_ok_iff.mpr hds, hne, rfl⟩⟩
  · intro d h
    obtain ⟨ds, hds, -, rfl⟩ := readRecords_eq_ok_iff.mp h
    exact ⟨ds, rfl, recordsFrom_eq_ok_iff.mp hds⟩
  · intro n
    rw [← recordsFrom_eq_badRecord_iff, ← readRecords_eq_badRecord_iff]
    exact exists_message_iff .badRecord
  · rw [← holdRecords_nil_iff record, ← recordsFrom_eq_ok_iff (n := 1),
      ← readRecords_eq_noRecords_iff]
    exact exists_message_iff .noRecords

end PathQuery
