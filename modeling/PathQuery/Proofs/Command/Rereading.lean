import PathQuery.Proofs.Command.Outcome
import PathQuery.Proofs.Json.Rereading
import PathQuery.Proofs.Source.Records

/-! # Reading back what a query shows

What a query shows in JSON can be loaded again as a text of records, which are the nodes shown
(`readRecords_run`), if these are documents that JSON holds as they are (`Doc.IsRecord`). -/

namespace PathQuery

/-- A document that JSON holds as it is, with different keys in each mapping and fewer containers
one inside the other than a reader opens. -/
structure Doc.IsRecord (d : Doc) : Prop where
  json : d.IsJson
  keys : d.DistinctKeys
  depth : d.depth < 128

/-! ### Lines -/

/-- A text of a document that is not nested too deeply is a line of a text of records. -/
theorem Json.Written.recordLine {cs : List Char} {d : Doc} (h : Written cs d)
    (hdepth : d.depth < 128) : RecordLine Json.read? cs d where
  no_lineFeed hc := absurd (h.printable _ hc) (by decide)
  no_return hc := absurd (h.printable _ hc) (by decide)
  not_blank := by
    obtain ⟨c, hc, hblank⟩ := h.not_blank
    exact List.all_eq_false.mpr ⟨c, hc, by rw [hblank]; exact Bool.false_ne_true⟩
  read := h.read? (Nat.le_of_lt_succ hdepth)

theorem Doc.IsRecord.exists_recordLine {d : Doc} (h : d.IsRecord) :
    ∃ line, Json.chars d = .ok line ∧ RecordLine Json.read? line d := by
  obtain ⟨line, hchars, hline⟩ := Json.exists_written h.json h.keys
  exact ⟨line, hchars, hline.recordLine h.depth⟩

theorem exists_recordLines {ds : List Doc} (h : ∀ d ∈ ds, d.IsRecord) :
    ∃ lines, List.Forall₂ (RecordLine Json.read?) lines ds ∧
      Format.json.records ds = ⟨lines.map fun line => String.ofList line ++ "\n", none⟩ := by
  induction ds with
  | nil => exact ⟨[], .nil, rfl⟩
  | cons d ds ih =>
      obtain ⟨hd, hds⟩ := List.forall_mem_cons.mp h
      obtain ⟨line, hchars, hline⟩ := hd.exists_recordLine
      obtain ⟨lines, hlines, hrecords⟩ := ih hds
      have hrecord : Format.json.record d = .ok (String.ofList line ++ "\n") := by
        rw [Format.record, Json.write, hchars]
        rfl
      refine ⟨line :: lines, .cons hline hlines, ?_⟩
      rw [Format.records, hrecord, hrecords]
      rfl

theorem toList_output_lines (lines : List (List Char)) :
    (Outcome.mk (lines.map fun line => String.ofList line ++ "\n") none).output.toList =
      lines.flatMap (· ++ ['\n']) := by
  show (String.join _).toList = _
  rw [String.toList_join, List.flatMap_map]
  refine congrArg (lines.flatMap ·) (funext fun line => ?_)
  rw [String.toList_append, String.toList_ofList]
  rfl

/-- Records of JSON are shown without a failure and read back from the output. -/
theorem readRecords_output {ds : List Doc} (h : ∀ d ∈ ds, d.IsRecord) (hne : ds ≠ []) :
    (Format.json.records ds).status = 0 ∧
    readRecords Json.read? (Format.json.records ds).output = .ok (.seq ds) := by
  obtain ⟨lines, hlines, hrecords⟩ := exists_recordLines h
  rw [hrecords]
  exact ⟨rfl, readRecords_eq_ok (toList_output_lines lines) hlines hne⟩

/-! ### Queries -/

/-- **Reading back the output.**  Let a query show nodes in JSON, at least one, that are records of
JSON.  Then it succeeds, and its output is read as a text of records that are the nodes selected,
in their order, or the first one if only this is asked for. -/
theorem readRecords_run {o : Options} {formats : Formats} {s : Settings} {world : World Id} {p : Path}
    {d n : Doc} {ns : List Doc} (hpath : Path.parse o.expression = .ok p)
    (hquery : o.showSteps = false) (hload : o.load formats world = .ok d)
    (hformat : o.outputFormat s = .ok .json) (hmatches : p.eval d = n :: ns)
    (hrecords : ∀ r ∈ o.matched s p d, r.IsRecord) :
    (o.run formats s world).status = 0 ∧
    readRecords Json.read? (o.run formats s world).output =
      .ok (.seq (if o.firstOnly || s.firstOnly then [n] else n :: ns)) := by
  have hshown : o.matched s p d = if o.firstOnly || s.firstOnly then [n] else n :: ns := by
    rw [Options.matched, hmatches]
    rfl
  have hne : o.matched s p d ≠ [] := by
    rw [hshown]
    split <;> exact List.cons_ne_nil _ _
  rw [run_eq_records hpath hquery hload hformat, ← hshown]
  exact readRecords_output hrecords hne

/-- Documents with control characters, a quote and integers in them. -/
def shownRecords : List Doc :=
  [.string "a\nb\x01",
    .map [(.string "\"", .seq [.int (-5), .null, .bool true]), (.string "", .int (2 ^ 64 - 1))]]

/-- The text of these documents as records. -/
def shownText : String :=
  "\"a\\nb\\u0001\"\n" ++ "\x7b\"\\\"\":[-5,null,true],\"\":18446744073709551615\x7d\n"

/-- The query for two records of a file, the second one first. -/
def swappedRecords : Options := ⟨"$[1,0]", some "in.jsonl", false, some "json", false⟩

/-- Files that all have this text. -/
def shownFiles : World Id := ⟨fun _ => some shownText.toUTF8, none⟩

theorem isRecord_of_mem_shownRecords : ∀ d ∈ shownRecords, d.IsRecord := by
  have hline : Doc.IsRecord (.string "a\nb\x01") :=
    ⟨by simp [Doc.IsJson, Doc.IsJsonNode], by decide, by decide⟩
  have hmap : Doc.IsRecord (.map [(.string "\"", .seq [.int (-5), .null, .bool true]),
      (.string "", .int (2 ^ 64 - 1))]) := by
    refine ⟨?_, ?_, by decide⟩
    · simp [Doc.IsJson, Doc.IsJsonNode, wordCount, halfWordCount, -Prod.forall, -List.mem_cons,
        List.forall_mem_cons]
    · simp [Doc.DistinctKeys, Doc.mappings, Doc.sameKey]
  exact List.forall_mem_cons.mpr ⟨hline, List.forall_mem_singleton.mpr hmap⟩

theorem output_shownRecords : (Format.json.records shownRecords).output = shownText := by
  decide +kernel

/-- Two records are shown in the other order. -/
theorem readRecords_run_swappedRecords :
    swappedRecords.load Formats.standard shownFiles = .ok (.seq shownRecords) ∧
    (swappedRecords.run Formats.standard .default shownFiles).status = 0 ∧
    readRecords Json.read? (swappedRecords.run Formats.standard .default shownFiles).output =
      .ok (.seq shownRecords.reverse) := by
  have htext : readRecords Json.read? shownText = .ok (.seq shownRecords) := by
    rw [← output_shownRecords]
    exact (readRecords_output isRecord_of_mem_shownRecords (List.cons_ne_nil _ _)).2
  have hload : swappedRecords.load Formats.standard shownFiles = .ok (.seq shownRecords) := by
    show Formats.standard.load "in.jsonl" (some shownText.toUTF8) = _
    rw [Formats.load_of_text _ (by decide), Formats.parseFile, if_pos (by decide)]
    exact htext
  have hpath : Path.parse "$[1,0]" = .ok ⟨[.pick (.positions [1, 0])]⟩ := by decide +kernel
  have hmatches : Path.eval ⟨[.pick (.positions [1, 0])]⟩ (.seq shownRecords) =
      shownRecords.reverse := rfl
  refine ⟨hload, readRecords_run hpath rfl hload rfl hmatches ?_⟩
  intro r hr
  exact isRecord_of_mem_shownRecords r (List.mem_reverse.mp hr)

end PathQuery
