import PathQuery.Proofs.Source.Archive

/-! # The standard input

What a file says by its name, the standard input says by its first two bytes.  No text begins with
the two bytes of compressed data (`isCompressedData_toUTF8`), and compressed data do begin with them,
so that the bytes decide between the two as the name does.  A document that loads from a file loads
from the standard input as well (`loadInput_cases`). -/

namespace PathQuery

open Text

/-! ### The first two bytes -/

theorem isCompressedData_iff (bytes : ByteArray) :
    isCompressedData bytes = true ↔ bytes[0]? = some 0x1F ∧ bytes[1]? = some 0x8B := by
  unfold isCompressedData
  rw [Bool.and_eq_true, beq_iff_eq, beq_iff_eq]

/-- No text begins as compressed data do: the second byte would belong to a character that has not
begun. -/
theorem isCompressedData_toUTF8 (text : String) : isCompressedData text.toUTF8 = false := by
  apply Bool.eq_false_iff.mpr
  intro h
  obtain ⟨hzero, hone⟩ := (isCompressedData_iff _).mp h
  rw [getElem?_toUTF8] at hzero hone
  have hfirst : UInt8.IsUTF8FirstByte 0x8B := isUTF8FirstByte_of_getElem?_one (by decide) hzero hone
  exact absurd hfirst (by decide)

namespace Gzip

/-- The number in the first two bytes, the low one first. -/
theorem exists_of_littleEndian?_two {bytes : ByteArray} {n : Nat} {b : Bits}
    (h : Bits.littleEndian? 2 ⟨bytes, 0⟩ = some (n, b)) :
    ∃ low high, bytes[0]? = some low ∧ bytes[1]? = some high ∧
      n = low.toNat + 256 * high.toNat := by
  obtain ⟨⟨front, b'⟩, hbytes, hn⟩ := Option.bind_eq_some_iff.mp h
  cases hn
  unfold Bits.bytes? Bits.align at hbytes
  dsimp only at hbytes
  obtain ⟨hsize, hfront⟩ := Option.ite_none_right_eq_some.mp hbytes
  cases hfront
  obtain ⟨⟨bytes⟩⟩ := bytes
  match bytes, hsize with
  | low :: high :: rest, _ =>
    refine ⟨low, high, rfl, rfl, ?_⟩
    have hdata : (ByteArray.extract ⟨⟨low :: high :: rest⟩⟩ 0 2).data = #[low, high] := by
      rw [ByteArray.data_extract]
      simp
    show Array.foldr _ 0 (ByteArray.extract ⟨⟨low :: high :: rest⟩⟩ 0 2).data = _
    rw [hdata]
    simp

theorem isCompressedData_of_expand? {bytes out : ByteArray} (h : expand? bytes = some out) :
    isCompressedData bytes = true := by
  obtain ⟨b, hheader, -⟩ := Option.bind_eq_some_iff.mp h
  obtain ⟨⟨magic, b⟩, hmagic, hrest⟩ := Option.bind_eq_some_iff.mp hheader
  obtain ⟨⟨method, b⟩, -, hrest⟩ := Option.bind_eq_some_iff.mp hrest
  obtain ⟨⟨flags, b⟩, -, hrest⟩ := Option.bind_eq_some_iff.mp hrest
  obtain ⟨hchecks, -⟩ := Option.ite_none_right_eq_some.mp hrest
  rw [Bool.and_eq_true, Bool.and_eq_true, beq_iff_eq] at hchecks
  obtain ⟨low, high, hzero, hone, hnumber⟩ := exists_of_littleEndian?_two hmagic
  have hlow := low.toNat_lt
  have hhigh := high.toNat_lt
  rw [hchecks.1.1, magicNumber] at hnumber
  have hlow : low = 0x1F := UInt8.toNat_inj.mp (show low.toNat = 0x1F by omega)
  have hhigh : high = 0x8B := UInt8.toNat_inj.mp (show high.toNat = 0x8B by omega)
  subst hlow
  subst hhigh
  exact (isCompressedData_iff _).mpr ⟨hzero, hone⟩

end Gzip

/-! ### Loading -/

namespace Formats

variable (f : Formats)

theorem parse_document_eq_ok_iff {origin : Origin} {text : String} {d : Doc} :
    f.parse origin text = .ok d ↔ f.document text = some d := by
  unfold parse
  cases f.document text with
  | none => exact iff_of_false (fun h => nomatch h) (fun h => nomatch h)
  | some d' => rw [Except.ok.injEq, Option.some.injEq]

theorem parse_input (text : String) :
    f.parse .input text = (f.parse .text text).mapError fun _ => .malformed .input := by
  unfold parse
  cases f.document text <;> rfl

theorem loadInput_toUTF8 (text : String) : f.loadInput text.toUTF8 = f.parse .input text := by
  unfold loadInput inputText
  rw [isCompressedData_toUTF8, if_neg Bool.false_ne_true, fromUTF8?_toUTF8]
  rfl

theorem loadInput_of_expand {bytes : ByteArray} {text : String}
    (hmagic : isCompressedData bytes = true) (h : f.expand bytes = some text.toUTF8) :
    f.loadInput bytes = f.parse .input text := by
  unfold loadInput inputText
  rw [if_pos hmagic, f.expandText_of_expand h]
  rfl

theorem eq_of_readText {bytes? : Option ByteArray} {e : LoadError} {text : String}
    (h : (match bytes?.bind String.fromUTF8? with
      | some text => Except.ok text
      | none => .error e) = .ok text) : bytes? = some text.toUTF8 := by
  split at h
  · rename_i text' htext
    cases h
    obtain ⟨bytes, hbytes, htext⟩ := Option.bind_eq_some_iff.mp htext
    rw [hbytes, toUTF8_of_fromUTF8? htext]
  · cases h

theorem eq_of_expandText {bytes : ByteArray} {text : String} (h : f.expandText bytes = .ok text) :
    f.expand bytes = some text.toUTF8 :=
  eq_of_readText h

/-- The text of the standard input is what the bytes are, or what they expand to. -/
theorem eq_of_inputText {bytes : ByteArray} {text : String} (h : f.inputText bytes = .ok text) :
    bytes = text.toUTF8 ∨ f.expand bytes = some text.toUTF8 := by
  unfold inputText at h
  split at h
  · exact .inr (f.eq_of_expandText h)
  · exact .inl (Option.some.inj (@eq_of_readText (some bytes) _ _ h))

theorem eq_of_fileText {name text : String} {bytes : ByteArray}
    (h : f.fileText name (some bytes) = .ok text) :
    bytes = text.toUTF8 ∨ f.expand bytes = some text.toUTF8 := by
  unfold fileText at h
  split at h
  · exact .inr (f.eq_of_expandText h)
  · exact .inl (Option.some.inj (eq_of_readText h))

/-- **The standard input.**  Let only data be expanded that begin with the two bytes of compressed
data.  Bytes are never a text and expandable at once.  If they are a text or expand to one, they load
from the standard input to the document that this text is, or fail as it does; else they fail.  What
loads from a file that does not hold records loads from the standard input to the same document. -/
theorem loadInput_cases (hmagic : ∀ bytes expanded, f.expand bytes = some expanded →
      isCompressedData bytes = true) (bytes : ByteArray) :
    (∀ text : String, bytes = text.toUTF8 → isCompressedData bytes = false ∧ f.expand bytes = none) ∧
    (∀ text : String, bytes = text.toUTF8 ∨ f.expand bytes = some text.toUTF8 →
      f.loadInput bytes = (f.parse .text text).mapError fun _ => .malformed .input) ∧
    ((∀ text : String, bytes ≠ text.toUTF8 ∧ f.expand bytes ≠ some text.toUTF8) →
      ∃ e, f.loadInput bytes = .error e) ∧
    ∀ name d, isRecordsName name = false → f.load name (some bytes) = .ok d →
      f.loadInput bytes = .ok d := by
  have htext : ∀ text : String, bytes = text.toUTF8 ∨ f.expand bytes = some text.toUTF8 →
      f.loadInput bytes = f.parse .input text := by
    rintro text (rfl | hexpand)
    · exact f.loadInput_toUTF8 text
    · exact f.loadInput_of_expand (hmagic _ _ hexpand) hexpand
  refine ⟨?_, ?_, ?_, ?_⟩
  · rintro text rfl
    refine ⟨isCompressedData_toUTF8 text, Option.eq_none_iff_forall_ne_some.mpr ?_⟩
    intro expanded hexpand
    have hdata := hmagic _ _ hexpand
    rw [isCompressedData_toUTF8] at hdata
    cases hdata
  · intro text h
    rw [htext text h, parse_input]
  · intro hno
    cases hinput : f.inputText bytes with
    | error e =>
        refine ⟨e, ?_⟩
        unfold loadInput
        rw [hinput]
        rfl
    | ok text =>
        rcases f.eq_of_inputText hinput with h | h
        · exact absurd h (hno text).1
        · exact absurd h (hno text).2
  · intro name d hname hload
    obtain ⟨text, hfile, hparse⟩ := bind_eq_ok_iff.mp hload
    rw [parseFile, hname, if_neg Bool.false_ne_true] at hparse
    rw [htext text (f.eq_of_fileText hfile)]
    exact f.parse_document_eq_ok_iff.mpr (f.parse_document_eq_ok_iff.mp hparse)

/-- Compressed bytes, from a file and from the standard input. -/
theorem loadInput_cases_storedList :
    (∀ bytes expanded, Formats.standard.expand bytes = some expanded →
      isCompressedData bytes = true) ∧
    isRecordsName "list.gz" = false ∧
    Formats.standard.load "list.gz" (some storedList) = .ok (.seq [.seq []]) ∧
    Formats.standard.loadInput storedList = .ok (.seq [.seq []]) := by
  have hmagic : ∀ bytes expanded, Formats.standard.expand bytes = some expanded →
      isCompressedData bytes = true := fun _ _ h => Gzip.isCompressedData_of_expand? h
  have hname : isRecordsName "list.gz" = false := by decide
  have hbytes : Formats.standard.expand storedList = some "[[]]".toUTF8 := by
    decide +kernel
  have hdocument : Formats.standard.document "[[]]" = some (.seq [.seq []]) := by
    have htokens : Yaml.tokens? "[[]]".toList =
        some [.flowSeqStart, .flowSeqStart, .flowSeqEnd, .flowSeqEnd] := by decide +kernel
    show Yaml.read? "[[]]" = _
    rw [Yaml.read?, htokens]
    rfl
  have hload : Formats.standard.load "list.gz" (some storedList) = .ok (.seq [.seq []]) := by
    rw [load_of_archive _ (by decide) hbytes, parseFile, hname, if_neg Bool.false_ne_true]
    exact (parse_document_eq_ok_iff _).mpr hdocument
  obtain ⟨-, -, -, hinput⟩ := loadInput_cases Formats.standard hmagic storedList
  exact ⟨hmagic, hname, hload, hinput "list.gz" _ hname hload⟩

end Formats

end PathQuery
