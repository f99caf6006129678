/-! # Blank characters

`isBlank` is the Unicode property White_Space, the only notion of blank in path expressions and
in record files.  `trim` drops blanks from both ends of a text; a text is blank when nothing is
left of it (`allBlank`). -/

namespace PathQuery.Text

/-- The characters with the Unicode property White_Space, by code point. -/
def isBlank (c : Char) : Bool :=
  let n := c.toNat
  (0x09 ≤ n && n ≤ 0x0D) || n == 0x20 || n == 0x85 || n == 0xA0 || n == 0x1680 ||
    (0x2000 ≤ n && n ≤ 0x200A) || n == 0x2028 || n == 0x2029 || n == 0x202F || n == 0x205F ||
    n == 0x3000

def trimStart (cs : List Char) : List Char := cs.dropWhile isBlank

def trimEnd (cs : List Char) : List Char := (cs.reverse.dropWhile isBlank).reverse

def trim (cs : List Char) : List Char := trimEnd (trimStart cs)

/-- A text of blanks only, the empty text included. -/
def allBlank (cs : List Char) : Bool := cs.all isBlank

/-! ### Facts -/

@[simp] theorem trimStart_nil : trimStart [] = [] := rfl

@[simp] theorem trimEnd_nil : trimEnd [] = [] := rfl

@[simp] theorem trim_nil : trim [] = [] := rfl

theorem trimStart_cons (c : Char) (cs : List Char) :
    trimStart (c :: cs) = if isBlank c then trimStart cs else c :: cs := by
  by_cases h : isBlank c <;> simp [trimStart, h]

theorem trimStart_length_le (cs : List Char) : (trimStart cs).length ≤ cs.length :=
  (List.dropWhile_sublist isBlank).length_le

theorem trimStart_eq_nil_iff (cs : List Char) : trimStart cs = [] ↔ ∀ c ∈ cs, isBlank c := by
  induction cs with
  | nil => simp
  | cons c cs ih => by_cases h : isBlank c <;> simp [trimStart_cons, h, ih]

end PathQuery.Text
