import PathQuery.Proofs.Json.Ending
import PathQuery.Proofs.Source.Outcome

/-! # Joined texts of records

A line feed between two texts of records joins their records (`readRecords_join`).  The lines of the
second text count on from those of the first, of which there is one more than it has line feeds.

The first text gets a line feed behind its last line, which may be empty then, or lose a carriage
return at its end.  Neither changes the records if a record is read with such a carriage return as
without it (`recordsFrom_endedLines`). -/

namespace PathQuery

/-- A cause with the number of a line counted from further above. -/
def LoadError.below (k : Nat) : LoadError → LoadError
  | .badRecord line => .badRecord (k + line)
  | e => e

variable {record : String → Option Doc}

/-! ### Lines one after the other -/

/-- Lines further below have the same records, and are refused for a line further below. -/
theorem recordsFrom_add (record : String → Option Doc) (k n : Nat) (lines : List (List Char)) :
    recordsFrom record (k + n) lines = (recordsFrom record n lines).mapError (LoadError.below k) := by
  fun_induction recordsFrom record n lines with
  | case1 => rfl
  | case2 n line lines hblank ih => rw [recordsFrom_cons_of_blank hblank, Nat.add_assoc, ih]
  | case3 n line lines hblank hnone =>
      rw [recordsFrom_cons_of_bad (by simpa using hblank) hnone]
      rfl
  | case4 n line lines hblank d hd ih =>
      rw [recordsFrom_cons_of_record (by simpa using hblank) hd, Nat.add_assoc, ih, mapError_map]

theorem recordsFrom_append (record : String → Option Doc) (n : Nat) (xs ys : List (List Char)) :
    recordsFrom record n (xs ++ ys) = recordsFrom record n xs >>= fun ds =>
      (recordsFrom record (n + xs.length) ys).map (ds ++ ·) := by
  fun_induction recordsFrom record n xs with
  | case1 n =>
      show recordsFrom record n ys = (recordsFrom record n ys).map id
      cases recordsFrom record n ys <;> rfl
  | case2 n line lines hblank ih =>
      rw [List.cons_append, recordsFrom_cons_of_blank hblank, ih, List.length_cons, Nat.add_assoc,
        Nat.add_comm 1]
  | case3 n line lines hblank hnone =>
      rw [List.cons_append, recordsFrom_cons_of_bad (by simpa using hblank) hnone]
      rfl
  | case4 n line lines hblank d hd ih =>
      rw [List.cons_append, recordsFrom_cons_of_record (by simpa using hblank) hd, ih,
        List.length_cons, Nat.add_assoc, Nat.add_comm 1]
      cases recordsFrom record (n + 1) lines with
      | error e => rfl
      | ok ds =>
          show ((recordsFrom record _ ys).map (ds ++ ·)).map (d :: ·) =
            (recordsFrom record _ ys).map (d :: ds ++ ·)
          cases recordsFrom record (n + (lines.length + 1)) ys <;> rfl

/-- A last line is read as it is before a line feed. -/
theorem recordsFrom_withoutReturn (hreturn : ∀ line, record (line ++ "\r") = record line) (n : Nat)
    (piece : List Char) :
    recordsFrom record n [Text.withoutReturn piece] =
      recordsFrom record n ([piece].filter (!·.isEmpty)) := by
  by_cases hlast : piece.getLast? = some '\r'
  · obtain ⟨front, rfl⟩ := List.getLast?_eq_some_iff.mp hlast
    have hblank : Text.allBlank (front ++ ['\r']) = Text.allBlank front := by
      simp [Text.allBlank, Text.isBlank]
    have hrecord : record (String.ofList (front ++ ['\r'])) = record (String.ofList front) := by
      rw [String.ofList_append]
      exact hreturn _
    rw [Text.withoutReturn_append_return, List.filter_cons_of_pos (by simp), List.filter_nil]
    simp only [recordsFrom, hblank, hrecord]
  · rw [Text.withoutReturn_of_ne hlast]
    cases piece with
    | nil => rfl
    | cons c cs => rfl

/-- A line feed behind a text changes none of its records. -/
theorem recordsFrom_endedLines (hreturn : ∀ line, record (line ++ "\r") = record line) (n : Nat)
    (cs : List Char) :
    recordsFrom record n (Text.endedLines cs) = recordsFrom record n (Text.lines cs) := by
  obtain ⟨front, piece, hlines, hended⟩ := Text.exists_lines_endedLines cs
  rw [hlines, hended, recordsFrom_append, recordsFrom_append]
  simp only [recordsFrom_withoutReturn hreturn]

/-! ### Texts -/

theorem recordsFrom_join (hreturn : ∀ line, record (line ++ "\r") = record line) (a b : String) :
    recordsFrom record 1 (Text.lines (a ++ "\n" ++ b).toList) =
      recordsFrom record 1 (Text.lines a.toList) >>= fun ds =>
        ((recordsFrom record 1 (Text.lines b.toList)).mapError
          (.below (a.toList.count '\n' + 1))).map (ds ++ ·) := by
  have hchars : (a ++ "\n" ++ b).toList = a.toList ++ '\n' :: b.toList := by simp
  rw [hchars, Text.lines_append_lineFeed, recordsFrom_append, recordsFrom_endedLines hreturn,
    Text.length_endedLines, Nat.add_comm 1, recordsFrom_add]

theorem recordsFrom_of_allBlank {n : Nat} {lines : List (List Char)}
    (h : ∀ line ∈ lines, Text.allBlank line = true) : recordsFrom record n lines = .ok [] :=
  recordsFrom_eq_ok_iff.mpr ((holdRecords_nil_iff record).mpr h)

/-- **Joining texts of records.**  Let a record be read with a carriage return at its end as without
it, and let a line feed join two texts.  The records of both texts are the records of the joined
text.  A line for which the first text is refused is the line for which the joined text is refused;
a line for which the second text is refused is this line of the joined text, below all lines of the
first text, if the first text has no such line.  A text of blank lines adds nothing to the other. -/
theorem readRecords_join (hreturn : ∀ line, record (line ++ "\r") = record line) (a b : String) :
    (∀ xs ys, readRecords record a = .ok (.seq xs) → readRecords record b = .ok (.seq ys) →
      readRecords record (a ++ "\n" ++ b) = .ok (.seq (xs ++ ys))) ∧
    (∀ n, readRecords record a = .error (.badRecord n) →
      readRecords record (a ++ "\n" ++ b) = .error (.badRecord n)) ∧
    ((∀ line ∈ Text.splitLines a.toList, Text.allBlank line = true) →
      readRecords record (a ++ "\n" ++ b) =
        (readRecords record b).mapError (.below (a.toList.count '\n' + 1))) ∧
    ((∀ line ∈ Text.splitLines b.toList, Text.allBlank line = true) →
      readRecords record (a ++ "\n" ++ b) = readRecords record a) ∧
    (∀ d n, readRecords record a = .ok d → readRecords record b = .error (.badRecord n) →
      readRecords record (a ++ "\n" ++ b) = .error (.badRecord (a.toList.count '\n' + 1 + n))) := by
  have hjoin := recordsFrom_join hreturn a b
  rw [← Text.lines_eq_splitLines, ← Text.lines_eq_splitLines]
  refine ⟨?_, ?_, ?_, ?_, ?_⟩
  · intro xs ys ha hb
    obtain ⟨xs, ha, hne, ⟨⟩⟩ := readRecords_eq_ok_iff.mp ha
    obtain ⟨ys, hb, -, ⟨⟩⟩ := readRecords_eq_ok_iff.mp hb
    rw [ha, hb] at hjoin
    have hne : xs ++ ys ≠ [] := List.append_ne_nil_of_left_ne_nil hne ys
    exact readRecords_eq_ok_iff.mpr ⟨xs ++ ys, hjoin, hne, rfl⟩
  · intro n ha
    rw [readRecords_eq_badRecord_iff.mp ha] at hjoin
    exact readRecords_eq_badRecord_iff.mpr hjoin
  · intro ha
    rw [recordsFrom_of_allBlank ha] at hjoin
    rw [readRecords_eq_bind, readRecords_eq_bind, hjoin]
    rcases recordsFrom record 1 (Text.lines b.toList) with e | _ | ⟨d, ds⟩ <;> rfl
  · intro hb
    rw [recordsFrom_of_allBlank hb] at hjoin
    rw [readRecords_eq_bind, readRecords_eq_bind, hjoin]
    rcases recordsFrom record 1 (Text.lines a.toList) with e | ds
    · rfl
    · show sequenceOf (ds ++ []) = sequenceOf ds
      rw [List.append_nil]
  · intro d n ha hb
    obtain ⟨ds, ha, -, -⟩ := readRecords_eq_ok_iff.mp ha
    rw [ha, readRecords_eq_badRecord_iff.mp hb] at hjoin
    exact readRecords_eq_badRecord_iff.mpr hjoin

/-- A text that ends with a carriage return, and a text with a blank line and a bad one. -/
theorem readRecords_join_bareReturn :
    (∀ line, Json.read? (line ++ "\r") = Json.read? line) ∧
    readRecords Json.read? "[1]\r" = .ok (.seq [.seq [.int 1]]) ∧
    readRecords Json.read? "\n[" = .error (.badRecord 2) ∧
    readRecords Json.read? ("[1]\r" ++ "\n" ++ "\n[") = .error (.badRecord 3) := by
  have ha : readRecords Json.read? "[1]\r" = .ok (.seq [.seq [.int 1]]) := by
    with_unfolding_all rfl
  have hb : readRecords Json.read? "\n[" = .error (.badRecord 2) := by with_unfolding_all rfl
  refine ⟨Json.read?_append_return, ha, hb, ?_⟩
  exact (readRecords_join Json.read?_append_return "[1]\r" "\n[").2.2.2.2 _ 2 ha hb

end PathQuery
