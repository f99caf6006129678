/-! # Byte offsets into a text

Positions are byte offsets into the UTF-8 form of a text.  `byteSize` is the length in bytes,
`dropBytes?` and `takeBytes?` cut at an offset and refuse one beyond the end or inside a
character, and `sliceBytes?` is the text between two offsets. -/

namespace PathQuery.Text

/-- The number of bytes of a text in UTF-8. -/
def byteSize : List Char → Nat
  | [] => 0
  | c :: cs => c.utf8Size + byteSize cs

/-- The text from a byte offset on, if the offset is a character boundary of the text. -/
def dropBytes? : Nat → List Char → Option (List Char)
  | 0, cs => some cs
  | _ + 1, [] => none
  | n + 1, c :: cs => if c.utf8Size ≤ n + 1 then dropBytes? (n + 1 - c.utf8Size) cs else none

/-- The text before a byte offset, if the offset is a character boundary of the text. -/
def takeBytes? : Nat → List Char → Option (List Char)
  | 0, _ => some []
  | _ + 1, [] => none
  | n + 1, c :: cs =>
    if c.utf8Size ≤ n + 1 then (takeBytes? (n + 1 - c.utf8Size) cs).map (c :: ·) else none

/-- The text from offset `a` to offset `b`, if both are boundaries and `a` is not after `b`. -/
def sliceBytes? (cs : List Char) (a b : Nat) : Option (List Char) :=
  if a ≤ b then (dropBytes? a cs).bind (takeBytes? (b - a)) else none

/-- The byte at an offset of the UTF-8 form. -/
def byteAt? (cs : List Char) (n : Nat) : Option UInt8 :=
  (cs.flatMap String.utf8EncodeChar)[n]?

/-! ### Facts -/

@[simp] theorem byteSize_nil : byteSize [] = 0 := rfl

@[simp] theorem byteSize_cons (c : Char) (cs : List Char) :
    byteSize (c :: cs) = c.utf8Size + byteSize cs := rfl

@[simp] theorem byteSize_append (a b : List Char) :
    byteSize (a ++ b) = byteSize a + byteSize b := by
  induction a with
  | nil => simp
  | cons c cs ih => simp [ih, Nat.add_assoc]

@[simp] theorem dropBytes?_zero (cs : List Char) : dropBytes? 0 cs = some cs := by
  cases cs <;> rfl

@[simp] theorem takeBytes?_zero (cs : List Char) : takeBytes? 0 cs = some [] := by
  cases cs <;> rfl

theorem dropBytes?_byteSize_append (a b : List Char) :
    dropBytes? (byteSize a) (a ++ b) = some b := by
  induction a with
  | nil => simp
  | cons c cs ih =>
    have h : 0 < c.utf8Size := Char.utf8Size_pos c
    obtain ⟨n, hn⟩ : ∃ n, byteSize (c :: cs) = n + 1 := ⟨byteSize (c :: cs) - 1, by simp; omega⟩
    rw [hn, List.cons_append, dropBytes?, ← hn]
    simp [ih]

theorem takeBytes?_byteSize_append (a b : List Char) :
    takeBytes? (byteSize a) (a ++ b) = some a := by
  induction a with
  | nil => simp
  | cons c cs ih =>
    have h : 0 < c.utf8Size := Char.utf8Size_pos c
    obtain ⟨n, hn⟩ : ∃ n, byteSize (c :: cs) = n + 1 := ⟨byteSize (c :: cs) - 1, by simp; omega⟩
    rw [hn, List.cons_append, takeBytes?, ← hn]
    simp [ih]

end PathQuery.Text
