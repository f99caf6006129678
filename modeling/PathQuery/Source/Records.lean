import PathQuery.Doc.Basic
import PathQuery.Source.Fault
import PathQuery.Text.Blank
import PathQuery.Text.Lines

/-! # Records

A text of records has one document on each line that is not blank.  Its document is the sequence of
the records.  Lines are numbered from 1, the blank ones too.

How one line is read is a parameter, `record`. -/

namespace PathQuery

/-- The records on lines of which the first one has the number `n`. -/
def recordsFrom (record : String → Option Doc) (n : Nat) :
    List (List Char) → Except LoadError (List Doc)
  | [] => .ok []
  | line :: lines =>
    if Text.allBlank line then recordsFrom record (n + 1) lines
    else
      match record (String.ofList line) with
      | none => .error (.badRecord n)
      | some d => (recordsFrom record (n + 1) lines).map (d :: ·)

/-- The records of a text, of which there has to be one. -/
def readRecords (record : String → Option Doc) (text : String) : Except LoadError Doc :=
  match recordsFrom record 1 (Text.lines text.toList) with
  | .error e => .error e
  | .ok [] => .error .noRecords
  | .ok (d :: ds) => .ok (.seq (d :: ds))

/-! ### Facts -/

variable {record : String → Option Doc} {n : Nat} {line : List Char} {lines : List (List Char)}

@[simp] theorem recordsFrom_nil : recordsFrom record n [] = .ok [] := rfl

theorem recordsFrom_cons_of_blank (h : Text.allBlank line = true) :
    recordsFrom record n (line :: lines) = recordsFrom record (n + 1) lines := by
  simp [recordsFrom, h]

theorem recordsFrom_cons_of_record {d : Doc} (h : Text.allBlank line = false)
    (hd : record (String.ofList line) = some d) :
    recordsFrom record n (line :: lines) =
      (recordsFrom record (n + 1) lines).map (d :: ·) := by
  simp [recordsFrom, h, hd]

theorem recordsFrom_cons_of_bad (h : Text.allBlank line = false)
    (hd : record (String.ofList line) = none) :
    recordsFrom record n (line :: lines) = .error (.badRecord n) := by
  simp [recordsFrom, h, hd]

end PathQuery
