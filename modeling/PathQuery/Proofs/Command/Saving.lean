import PathQuery.Proofs.Text.Bytes
import PathQuery.Proofs.Toml.Entry
import PathQuery.Settings

/-! # Loading saved settings

Settings whose capacity is an integer of TOML are saved and loaded again as they were, whatever the
file held before; other settings are not saved, and the file stays as it was (`load_save`). -/

namespace PathQuery.Settings

open Toml (Entry)

def entries (s : Settings) (h : s.cacheCapacity ≤ Toml.maxInteger) : List Entry :=
  [⟨"output_format", Toml.quote s.outputFormat.toList, .string s.outputFormat,
      List.all_eq_true.mp (by decide), by decide, Toml.writes_quote s.outputFormat⟩,
    ⟨"cache_capacity", Nat.toDigits 10 s.cacheCapacity, .integer s.cacheCapacity,
      List.all_eq_true.mp (by decide), by decide, Toml.writes_natural h⟩,
    ⟨"first_only", (toString s.firstOnly).toList, .boolean s.firstOnly,
      List.all_eq_true.mp (by decide), by decide, Toml.writes_boolean s.firstOnly⟩]

theorem lines_eq_flatMap (s : Settings) (h : s.cacheCapacity ≤ Toml.maxInteger) :
    s.lines = (s.entries h).flatMap Entry.line := by
  have hformat : "output_format = ".toList = "output_format".toList ++ [' ', '=', ' '] := by decide
  have hcapacity : "cache_capacity = ".toList = "cache_capacity".toList ++ [' ', '=', ' '] := by
    decide
  have hfirst : "first_only = ".toList = "first_only".toList ++ [' ', '=', ' '] := by decide
  have hdigits : (toString s.cacheCapacity).toList = Nat.toDigits 10 s.cacheCapacity :=
    Nat.toList_repr
  unfold lines
  rw [hformat, hcapacity, hfirst, hdigits]
  simp only [entries, Entry.line, List.flatMap_cons, List.flatMap_nil, List.append_assoc,
    List.append_nil]

theorem ofTable?_entries (s : Settings) (h : s.cacheCapacity ≤ Toml.maxInteger) :
    ofTable? ((s.entries h).map fun e => (e.key, e.value)) = some s := by
  simp [entries, ofTable?, field?, List.lookup_cons, textOf, natOf, boolOf]

theorem ofText_lines (s : Settings) (h : s.cacheCapacity ≤ Toml.maxInteger) :
    ofText (String.ofList s.lines) = s := by
  have hdistinct : ((s.entries h).map Entry.key).Nodup := by
    simp [entries]
  rw [ofText, lines_eq_flatMap s h, Toml.read?_lines _ hdistinct, Option.bind_some,
    ofTable?_entries, Option.getD_some]

theorem load_toUTF8 (text : String) : load (some text.toUTF8) = ofText text := by
  unfold load
  rw [Option.bind_some, Text.fromUTF8?_toUTF8]

/-! ### Saving -/

theorem save_of_le {s : Settings} (h : s.cacheCapacity ≤ Toml.maxInteger)
    (file : Option ByteArray) : s.save file = (none, some (String.ofList s.lines).toUTF8) := by
  have htext : s.text = .ok (String.ofList s.lines) := if_pos h
  rw [save, htext]

theorem save_of_lt {s : Settings} (h : Toml.maxInteger < s.cacheCapacity)
    (file : Option ByteArray) : s.save file = (some .capacityTooLarge, file) := by
  have htext : s.text = .error .capacityTooLarge := if_neg (Nat.not_le_of_lt h)
  rw [save, htext]

theorem le_maxInteger_iff {n : Nat} : n ≤ Toml.maxInteger ↔ n < 2 ^ 63 := by
  unfold Toml.maxInteger halfWordCount
  omega

/-- Settings that can be saved are loaded as they were; a refusal leaves the file as it was. -/
theorem load_save (s : Settings) (file : Option ByteArray) :
    (s.cacheCapacity < 2 ^ 63 → (s.save file).1 = none ∧ load (s.save file).2 = s) ∧
      (2 ^ 63 ≤ s.cacheCapacity →
        (s.save file).1 = some .capacityTooLarge ∧ (s.save file).2 = file) := by
  constructor
  · intro h
    have hsmall := le_maxInteger_iff.mpr h
    rw [save_of_le hsmall]
    exact ⟨rfl, (load_toUTF8 _).trans (ofText_lines s hsmall)⟩
  · intro h
    have hlarge : Toml.maxInteger < s.cacheCapacity :=
      Nat.lt_of_not_le fun hle => Nat.not_lt_of_le h (le_maxInteger_iff.mp hle)
    rw [save_of_lt hlarge]
    exact ⟨rfl, rfl⟩

/-- A format that has to be escaped, with the largest capacity that can be saved; and the first
capacity that cannot. -/
theorem load_save_mixedQuotes :
    (((Settings.mk "'''\"\"\"\\\r\n" (2 ^ 63 - 1) true).save none).1 = none ∧
      load ((Settings.mk "'''\"\"\"\\\r\n" (2 ^ 63 - 1) true).save none).2 =
        Settings.mk "'''\"\"\"\\\r\n" (2 ^ 63 - 1) true) ∧
    (((Settings.mk "json" (2 ^ 63) false).save (some "first_only = true".toUTF8)).1 =
        some .capacityTooLarge ∧
      ((Settings.mk "json" (2 ^ 63) false).save (some "first_only = true".toUTF8)).2 =
        some "first_only = true".toUTF8) :=
  ⟨(load_save (Settings.mk "'''\"\"\"\\\r\n" (2 ^ 63 - 1) true) none).1 (by decide),
    (load_save (Settings.mk "json" (2 ^ 63) false) (some "first_only = true".toUTF8)).2
      (by decide)⟩

end PathQuery.Settings
