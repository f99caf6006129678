import Mathlib.Data.List.Basic
import Mathlib.Data.List.Induction
import PathQuery.Proofs.Source.Records
import PathQuery.Proofs.Text.Bytes
import PathQuery.Source.Standard

/-! # Compressed files

A file may be compressed if `.gz` is appended to its name: it then loads to what the plain file
loads to, or fails for the same reason (`load_append_gz`).

The name is looked at twice.  Whether the file is compressed is a matter of its last component
(`isCompressedName_append`), whether it holds records a matter of the end of the text
(`isRecordsName_append`).  The two agree about the appended ending as soon as the name ends in the
name of a file, so that the ending does not become a component of its own. -/

namespace PathQuery

open Text

/-- A name that ends in the name of a file: something follows its last slash. -/
def EndsInFileName (name : List Char) : Prop := ∃ c, name.getLast? = some c ∧ c ≠ '/'

/-- The ending of the names of compressed files. -/
def archiveEnding : List Char := ['.', 'g', 'z']

theorem toList_append_gz (name : String) :
    (name ++ ".gz").toList = name.toList ++ archiveEnding := by
  rw [String.toList_append]
  rfl

/-! ### Compressed names -/

theorem exists_last_component (name : List Char) :
    ∃ dirs component, ∀ more, '/' ∉ more →
      (name ++ more).splitOn '/' = dirs ++ [component ++ more] := by
  induction name using List.reverseRecOn with
  | nil => exact ⟨[], [], fun more hmore => List.splitOn_eq_singleton hmore⟩
  | append_singleton name c ih =>
      by_cases hc : c = '/'
      · subst hc
        refine ⟨name.splitOn '/', [], fun more hmore => ?_⟩
        rw [List.append_assoc, List.singleton_append, List.splitOn_append_cons_self,
          List.splitOn_eq_singleton hmore, List.nil_append]
      · obtain ⟨dirs, component, hsplit⟩ := ih
        refine ⟨dirs, component ++ [c], fun more hmore => ?_⟩
        have hnot : '/' ∉ c :: more := by
          rw [List.mem_cons, not_or]
          exact ⟨Ne.symm hc, hmore⟩
        rw [List.append_assoc, List.singleton_append, hsplit _ hnot, List.append_assoc,
          List.singleton_append]

theorem extension?_append {component : List Char} (h : component ≠ []) :
    extension? (component ++ archiveEnding) = some ['g', 'z'] := by
  obtain ⟨c, cs, hreverse⟩ := List.exists_cons_of_ne_nil (List.reverse_ne_nil_iff.mpr h)
  unfold extension?
  rw [List.reverse_append, hreverse]
  rfl

theorem getLast?_nameComponents {name component : List Char} {dirs : List (List Char)}
    (h : name.splitOn '/' = dirs ++ [component])
    (hkept : (component != [] && component != ['.']) = true) :
    (nameComponents name).getLast? = some component := by
  unfold nameComponents
  rw [h, List.filter_append, List.filter_singleton, hkept, cond_true, List.getLast?_concat]

theorem isCompressedName_append {name : String} (h : EndsInFileName name.toList) :
    isCompressedName (name ++ ".gz") = true := by
  obtain ⟨c, hlast, hc⟩ := h
  obtain ⟨front, hfront⟩ := List.getLast?_eq_some_iff.mp hlast
  obtain ⟨dirs, component, hsplit⟩ := exists_last_component front
  have hnot : '/' ∉ c :: archiveEnding := by
    rw [List.mem_cons, not_or]
    exact ⟨Ne.symm hc, by decide⟩
  have hcomponents : (name ++ ".gz").toList.splitOn '/' =
      dirs ++ [component ++ c :: archiveEnding] := by
    rw [toList_append_gz, hfront, List.append_assoc, List.singleton_append, hsplit _ hnot]
  have hkept : ((component ++ c :: archiveEnding) != [] &&
      (component ++ c :: archiveEnding) != ['.']) = true := by
    cases component <;> simp [archiveEnding]
  have hne : component ++ [c] ≠ [] := by simp
  unfold isCompressedName
  rw [getLast?_nameComponents hcomponents hkept, List.append_cons]
  dsimp only
  rw [extension?_append hne]
  rfl

/-! ### Names of records -/

/-- A text with an ending of files of records ends neither with a slash nor as the names of
compressed files do. -/
theorem exists_getLast?_of_any {cs : List Char}
    (h : (recordEndings.any fun ending => ending.isSuffixOf cs) = true) :
    ∃ c, cs.getLast? = some c ∧ c ≠ '/' ∧ c ≠ 'z' := by
  obtain ⟨ending, hending, hends⟩ := List.any_eq_true.mp h
  obtain ⟨front, rfl⟩ := List.isSuffixOf_iff_suffix.mp hends
  have hlast : ∃ c, ending.getLast? = some c ∧ c ≠ '/' ∧ c ≠ 'z' := by
    simp only [recordEndings, List.mem_cons, List.not_mem_nil, or_false] at hending
    rcases hending with rfl | rfl
    · exact ⟨'l', by decide, by decide, by decide⟩
    · exact ⟨'n', by decide, by decide, by decide⟩
  obtain ⟨c, hc, hne⟩ := hlast
  exact ⟨c, by rw [List.getLast?_append, hc, Option.some_or], hne⟩

theorem withoutCompression_append (name : List Char) :
    withoutCompression (name ++ archiveEnding) = name := by
  have hsuffix : ['.', 'g', 'z'].isSuffixOf (name ++ archiveEnding) = true :=
    List.isSuffixOf_iff_suffix.mpr (List.suffix_append name archiveEnding)
  unfold withoutCompression
  rw [if_pos hsuffix, List.length_append]
  exact List.take_left

/-- The ending of compressed files has no part in whether a file holds records. -/
theorem isRecordsName_append {name : String} (h : isCompressedName name = false) :
    isRecordsName (name ++ ".gz") = isRecordsName name := by
  unfold isRecordsName
  rw [toList_append_gz, withoutCompression_append]
  by_cases hsuffix : ['.', 'g', 'z'].isSuffixOf name.toList = true
  · obtain ⟨front, hfront⟩ : ∃ front, front ++ archiveEnding = name.toList :=
      List.isSuffixOf_iff_suffix.mp hsuffix
    rw [← hfront, withoutCompression_append]
    have hwhole : (recordEndings.any fun e => e.isSuffixOf (front ++ archiveEnding)) = false := by
      apply Bool.eq_false_iff.mpr
      intro hany
      obtain ⟨c, hc, -, hz⟩ := exists_getLast?_of_any hany
      rw [List.getLast?_append] at hc
      exact hz (Option.some.inj hc).symm
    have hfile : (recordEndings.any fun e => e.isSuffixOf front) = false := by
      apply Bool.eq_false_iff.mpr
      intro hany
      obtain ⟨c, hc, hslash, -⟩ := exists_getLast?_of_any hany
      have hname : String.ofList front ++ ".gz" = name := by
        rw [← String.toList_inj, toList_append_gz, String.toList_ofList, hfront]
      have hcompressed : isCompressedName (String.ofList front ++ ".gz") = true := by
        apply isCompressedName_append
        rw [String.toList_ofList]
        exact ⟨c, hc, hslash⟩
      rw [hname, h] at hcompressed
      cases hcompressed
    rw [hwhole, hfile]
  · rw [withoutCompression, if_neg hsuffix]

/-! ### Loading -/

theorem RecordsError.rename {e : LoadError} (h : RecordsError e) (name : String) :
    e.rename name = e := by
  cases h <;> rfl

namespace Formats

variable (f : Formats)

theorem mapError_parse_file (name name' text : String) :
    (f.parse (.file name) text).mapError (.rename name') = f.parse (.file name') text := by
  unfold parse
  cases f.document text <;> rfl

/-- Two names that agree on whether they are those of records give a text the same meaning. -/
theorem parseFile_rename {name name' : String} (h : isRecordsName name' = isRecordsName name)
    (text : String) :
    f.parseFile name' text = (f.parseFile name text).mapError (.rename name') := by
  unfold parseFile
  rw [h]
  split
  · exact (mapError_eq_self ((failsWith_readRecords f.record text).mono
      fun e he => he.rename name')).symm
  · exact (f.mapError_parse_file name name' text).symm

theorem load_of_text {name : String} (h : isCompressedName name = false) (text : String) :
    f.load name (some text.toUTF8) = f.parseFile name text := by
  unfold load fileText
  rw [h, if_neg Bool.false_ne_true, Option.bind_some, fromUTF8?_toUTF8]
  rfl

theorem expandText_of_expand {text : String} {bytes : ByteArray}
    (h : f.expand bytes = some text.toUTF8) : f.expandText bytes = .ok text := by
  unfold expandText
  rw [h, Option.bind_some, fromUTF8?_toUTF8]

theorem load_of_archive {name text : String} {bytes : ByteArray} (h : isCompressedName name = true)
    (hbytes : f.expand bytes = some text.toUTF8) :
    f.load name (some bytes) = f.parseFile name text := by
  unfold load fileText
  rw [if_pos h]
  dsimp only
  rw [f.expandText_of_expand hbytes]
  rfl

/-- **Compressed files.**  Let a name end in the name of a file that is not compressed, and let some
bytes expand to a text.  With the ending of compressed files the name holds records exactly if it
does without, and the bytes under that name load to what the text loads to under the name, or fail
for the same cause, but for the name in it. -/
theorem load_append_gz {name text : String} {bytes : ByteArray}
    (hname : EndsInFileName name.toList) (hplain : isCompressedName name = false)
    (hbytes : f.expand bytes = some text.toUTF8) :
    isRecordsName (name ++ ".gz") = isRecordsName name ∧
    f.load (name ++ ".gz") (some bytes) =
      (f.load name (some text.toUTF8)).mapError (.rename (name ++ ".gz")) := by
  have hrecords := isRecordsName_append hplain
  refine ⟨hrecords, ?_⟩
  rw [f.load_of_archive (isCompressedName_append hname) hbytes, f.load_of_text hplain]
  exact f.parseFile_rename hrecords text

/-- A list of an empty list, in one stored block. -/
def storedList : ByteArray :=
  ⟨#[0x1F, 0x8B, 8, 0, 0, 0, 0, 0, 0, 0xFF, 1, 4, 0, 0xFB, 0xFF, 0x5B, 0x5B, 0x5D,
    0x5D, 0xBE, 0x98, 0x6E, 0x47, 4, 0, 0, 0]⟩

/-- A name that consists of an ending of records only. -/
theorem load_append_gz_storedList :
    EndsInFileName "d.gz/.jsonl".toList ∧ isCompressedName "d.gz/.jsonl" = false ∧
    Formats.standard.expand storedList = some "[[]]".toUTF8 ∧
    isRecordsName ("d.gz/.jsonl" ++ ".gz") = true ∧
    Formats.standard.load ("d.gz/.jsonl" ++ ".gz") (some storedList) =
      .ok (.seq [.seq [.seq []]]) := by
  have hname : EndsInFileName "d.gz/.jsonl".toList := ⟨'l', by decide, by decide⟩
  have hplain : isCompressedName "d.gz/.jsonl" = false := by decide
  have hbytes : Formats.standard.expand storedList = some "[[]]".toUTF8 := by
    decide +kernel
  have htext : Formats.standard.load "d.gz/.jsonl" (some "[[]]".toUTF8) =
      .ok (.seq [.seq [.seq []]]) := by
    rw [load_of_text _ hplain]
    cbv
  obtain ⟨hrecords, hload⟩ := load_append_gz Formats.standard hname hplain hbytes
  rw [htext] at hload
  exact ⟨hname, hplain, hbytes, hrecords.trans (by decide), hload⟩

end Formats

end PathQuery
