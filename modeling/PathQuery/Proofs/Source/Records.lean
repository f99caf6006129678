import Mathlib.Data.List.Forall2
import PathQuery.Proofs.Text.Lines
import PathQuery.Result
import PathQuery.Source.Records

/-! # Texts of records

Lines that are ended one after the other and hold records give these records (`readRecords_eq_ok`).
A text of records is refused only for a line that is no record and for want of a record
(`failsWith_readRecords`). -/

namespace PathQuery

/-- A line that holds a record, without a character at which lines end. -/
structure RecordLine (record : String → Option Doc) (line : List Char) (d : Doc) : Prop where
  no_lineFeed : '\n' ∉ line
  no_return : '\r' ∉ line
  not_blank : Text.allBlank line = false
  read : record (String.ofList line) = some d

theorem recordsFrom_eq_ok {record : String → Option Doc} {lines : List (List Char)} {ds : List Doc}
    (h : List.Forall₂ (RecordLine record) lines ds) (n : Nat) :
    recordsFrom record n lines = .ok ds := by
  induction h generalizing n with
  | nil => exact recordsFrom_nil
  | cons hline _ ih =>
      rw [recordsFrom_cons_of_record hline.not_blank hline.read, ih (n + 1)]
      rfl

/-- A text of ended lines of records is read as the sequence of the records. -/
theorem readRecords_eq_ok {record : String → Option Doc} {text : String}
    {parts : List (List Char)} {ds : List Doc} (htext : text.toList = parts.flatMap (· ++ ['\n']))
    (h : List.Forall₂ (RecordLine record) parts ds) (hne : ds ≠ []) :
    readRecords record text = .ok (.seq ds) := by
  have hlines : ∀ line ∈ parts, '\n' ∉ line ∧ '\r' ∉ line :=
    ((List.forall₂_and_left parts ds).mp
      (h.imp fun _ _ hline => ⟨⟨hline.no_lineFeed, hline.no_return⟩, hline⟩)).1
  obtain ⟨d, rest, rfl⟩ := List.exists_cons_of_ne_nil hne
  unfold readRecords
  rw [htext, Text.lines_flatMap hlines, recordsFrom_eq_ok h 1]

/-- The causes for which a text of records is refused. -/
inductive RecordsError : LoadError → Prop
  | badRecord {line : Nat} : RecordsError (.badRecord line)
  | noRecords : RecordsError .noRecords

theorem failsWith_recordsFrom (record : String → Option Doc) (n : Nat) (lines : List (List Char)) :
    FailsWith RecordsError (recordsFrom record n lines) := by
  fun_induction recordsFrom record n lines with
  | case1 => exact failsWith_ok []
  | case2 n line lines hblank ih => exact ih
  | case3 => exact failsWith_error .badRecord
  | case4 n line lines hblank d hd ih => exact ih.map (d :: ·)

theorem failsWith_readRecords (record : String → Option Doc) (text : String) :
    FailsWith RecordsError (readRecords record text) := by
  have hlines := failsWith_recordsFrom record 1 (Text.lines text.toList)
  unfold readRecords
  split
  · rename_i e he
    exact failsWith_error (hlines e he)
  · exact failsWith_error .noRecords
  · exact failsWith_ok _

end PathQuery
