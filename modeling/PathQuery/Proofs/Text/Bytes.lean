import PathQuery.Proofs.Text.Boundary

/-! # Texts as bytes

A text is stored as its bytes in UTF-8, and bytes are those of at most one text
(`toUTF8_of_fromUTF8?`).  After a character of one byte the next one begins, so that no text has a
control character with a continuation byte behind it (`isUTF8FirstByte_of_getElem?_one`), and the
byte of such a character is inside no other one: where the byte is, the character stands
(`byteAt?_eq_some_iff`). -/

namespace PathQuery.Text

theorem fromUTF8?_toUTF8 (s : String) : String.fromUTF8? s.toUTF8 = some s := by
  unfold String.fromUTF8?
  exact dif_pos s.isValidUTF8

theorem toUTF8_of_fromUTF8? {bytes : ByteArray} {s : String}
    (h : String.fromUTF8? bytes = some s) : s.toUTF8 = bytes := by
  unfold String.fromUTF8? at h
  split at h
  · cases h
    rfl
  · cases h

theorem getElem?_toByteArray (bytes : List UInt8) (i : Nat) : bytes.toByteArray[i]? = bytes[i]? := by
  by_cases h : i < bytes.length
  · have hsize : i < bytes.toByteArray.size := by rwa [List.size_toByteArray]
    rw [getElem?_pos _ i hsize, List.getElem?_eq_getElem h, List.getElem_toByteArray]
  · have hsize : ¬ i < bytes.toByteArray.size := by rwa [List.size_toByteArray]
    rw [getElem?_neg _ i hsize, List.getElem?_eq_none (Nat.le_of_not_lt h)]

theorem getElem?_toUTF8 (s : String) (i : Nat) :
    s.toUTF8[i]? = (s.toList.flatMap String.utf8EncodeChar)[i]? := by
  have hbytes : s.toUTF8 = (s.toList.flatMap String.utf8EncodeChar).toByteArray :=
    String.utf8Encode_toList.symm
  rw [hbytes, getElem?_toByteArray]

theorem isUTF8FirstByte_of_getElem?_zero {cs : List Char} {b : UInt8}
    (h : (cs.flatMap String.utf8EncodeChar)[0]? = some b) : b.IsUTF8FirstByte := by
  cases cs with
  | nil => cases h
  | cons c cs =>
      have hpos : 0 < (String.utf8EncodeChar c).length := by
        rw [String.length_utf8EncodeChar]
        exact c.utf8Size_pos
      rw [List.flatMap_cons, List.getElem?_append_left hpos, List.getElem?_eq_getElem hpos] at h
      cases h
      exact UInt8.isUTF8FirstByte_getElem_zero_utf8EncodeChar

/-- A character whose first byte lies in the first half has no further bytes. -/
theorem length_utf8EncodeChar_of_getElem?_zero {c : Char} {a : UInt8} (ha : a.toNat < 0x80)
    (h : (String.utf8EncodeChar c)[0]? = some a) : (String.utf8EncodeChar c).length = 1 := by
  unfold String.utf8EncodeChar at h ⊢
  dsimp only at h ⊢
  split at h
  · rename_i hsmall
    rw [if_pos hsmall]
    rfl
  · exfalso
    split at h <;> try split at h
    all_goals
      cases h
      rw [UInt8.toNat_ofNat'] at ha
      omega

/-- A byte that is a character of its own is followed by the first byte of the next one. -/
theorem isUTF8FirstByte_of_getElem?_one {cs : List Char} {a b : UInt8} (ha : a.toNat < 0x80)
    (hzero : (cs.flatMap String.utf8EncodeChar)[0]? = some a)
    (hone : (cs.flatMap String.utf8EncodeChar)[1]? = some b) : b.IsUTF8FirstByte := by
  cases cs with
  | nil => cases hzero
  | cons c cs =>
      have hpos : 0 < (String.utf8EncodeChar c).length := by
        rw [String.length_utf8EncodeChar]
        exact c.utf8Size_pos
      rw [List.flatMap_cons, List.getElem?_append_left hpos] at hzero
      have hlength := length_utf8EncodeChar_of_getElem?_zero ha hzero
      rw [List.flatMap_cons, List.getElem?_append_right (Nat.le_of_eq hlength), hlength] at hone
      exact isUTF8FirstByte_of_getElem?_zero hone

/-! ### The bytes of a text -/

theorem length_flatMap_utf8EncodeChar (cs : List Char) :
    (cs.flatMap String.utf8EncodeChar).length = byteSize cs := by
  induction cs with
  | nil => rfl
  | cons c cs ih =>
      rw [List.flatMap_cons, List.length_append, ih, String.length_utf8EncodeChar, byteSize_cons]

theorem byteAt?_eq_none_iff (cs : List Char) (n : Nat) :
    byteAt? cs n = none ↔ byteSize cs ≤ n := by
  unfold byteAt?
  rw [List.getElem?_eq_none_iff, length_flatMap_utf8EncodeChar]

theorem byteAt?_eq_none_iff_of_dropBytes? {cs rest : List Char} {n : Nat}
    (h : dropBytes? n cs = some rest) : byteAt? cs n = none ↔ rest = [] := by
  obtain ⟨front, rfl, rfl⟩ := (dropBytes?_eq_some_iff _ _ _).mp h
  rw [byteAt?_eq_none_iff, byteSize_append]
  cases rest with
  | nil => simp
  | cons c rest =>
      have hpos := byteSize_cons_pos c rest
      exact iff_of_false (by omega) (List.cons_ne_nil c rest)

/-! ### Characters of one byte -/

section oneByte
variable {c : Char} (hc : c.utf8Size = 1)

include hc

theorem utf8EncodeChar_of_utf8Size : String.utf8EncodeChar c = [c.toUInt8] :=
  String.utf8EncodeChar_eq_singleton hc

theorem toNat_toUInt8_of_utf8Size : c.toUInt8.toNat = c.toNat := by
  have hval : c.val.toNat ≤ 127 := Char.utf8Size_eq_one_iff.mp hc
  show c.val.toUInt8.toNat = c.val.toNat
  rw [UInt32.toNat_toUInt8]
  exact Nat.mod_eq_of_lt (by omega)

theorem isUTF8FirstByte_toUInt8 : c.toUInt8.IsUTF8FirstByte := by
  have hzero : ([c].flatMap String.utf8EncodeChar)[0]? = some c.toUInt8 := by
    rw [List.flatMap_singleton, utf8EncodeChar_of_utf8Size hc]
    rfl
  exact isUTF8FirstByte_of_getElem?_zero hzero

theorem eq_of_getElem?_zero {d : Char} (h : (String.utf8EncodeChar d)[0]? = some c.toUInt8) :
    d = c := by
  have hval : c.val.toNat ≤ 127 := Char.utf8Size_eq_one_iff.mp hc
  have hsmall : c.toUInt8.toNat < 0x80 := by
    rw [toNat_toUInt8_of_utf8Size hc]
    exact Nat.lt_succ_of_le hval
  have hlength := length_utf8EncodeChar_of_getElem?_zero hsmall h
  rw [String.length_utf8EncodeChar] at hlength
  rw [utf8EncodeChar_of_utf8Size hlength] at h
  have hbyte : d.toUInt8 = c.toUInt8 := Option.some.inj h
  refine Char.toNat_inj.mp ?_
  rw [← toNat_toUInt8_of_utf8Size hlength, hbyte, toNat_toUInt8_of_utf8Size hc]

/-- **A character of one byte stands wherever its byte is.** -/
theorem byteAt?_eq_some_iff (cs : List Char) (n : Nat) :
    byteAt? cs n = some c.toUInt8 ↔ CharAt cs n c := by
  rw [charAt_iff_dropBytes?]
  unfold byteAt?
  fun_induction dropBytes? n cs with
  | case1 cs =>
      cases cs with
      | nil => simp
      | cons d cs =>
          have hpos : 0 < (String.utf8EncodeChar d).length := by
            rw [String.length_utf8EncodeChar]
            exact d.utf8Size_pos
          rw [List.flatMap_cons, List.getElem?_append_left hpos]
          constructor
          · intro h
            exact ⟨cs, by rw [eq_of_getElem?_zero hc h]⟩
          · rintro ⟨back, h⟩
            obtain ⟨rfl, -⟩ := List.cons.inj (Option.some.inj h)
            rw [utf8EncodeChar_of_utf8Size hc]
            rfl
  | case2 => simp
  | case3 n d cs hle ih =>
      have hlength : (String.utf8EncodeChar d).length ≤ n + 1 := by
        rwa [String.length_utf8EncodeChar]
      rw [List.flatMap_cons, List.getElem?_append_right hlength, String.length_utf8EncodeChar]
      exact ih
  | case4 n d cs hle =>
      have hlt : n + 1 < (String.utf8EncodeChar d).length := by
        rw [String.length_utf8EncodeChar]
        exact Nat.lt_of_not_le hle
      rw [List.flatMap_cons, List.getElem?_append_left hlt, List.getElem?_eq_getElem hlt]
      constructor
      · intro h
        have hfirst := isUTF8FirstByte_toUInt8 hc
        rw [← Option.some.inj h, UInt8.isUTF8FirstByte_getElem_utf8EncodeChar] at hfirst
        exact absurd hfirst (Nat.succ_ne_zero n)
      · rintro ⟨_, h⟩
        cases h

end oneByte

end PathQuery.Text
