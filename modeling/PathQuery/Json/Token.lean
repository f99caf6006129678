import PathQuery.Decimal.Scale
import PathQuery.Doc.Basic
import PathQuery.Text.Hexadecimal

/-! # Tokens of JSON

`tokens?` cuts a JSON text into its tokens: brackets, braces, colons, commas, and scalars, which are
documents already.  The spellings are those of the standard and no others: no leading zeros, no
comments, no control characters in texts, escapes of surrogates only in pairs.

Integers that fit into a word of 64 bits, signed or unsigned, are integers.  All other numbers, and
`-0`, are doubles: the digits that fit into an unsigned word are scaled by the power of ten that
is left (`Number.toDouble?`).  A number too large for a double is no number. -/

namespace PathQuery.Json

/-- A token; its scalars are documents. -/
inductive Token where
  | openSeq
  | closeSeq
  | openMap
  | closeMap
  | colon
  | comma
  | scalar (d : Doc)
  deriving Repr

/-- The characters that may stand between tokens. -/
def isSpace (c : Char) : Bool := c == ' ' || c == '\n' || c == '\t' || c == '\r'

/-! ### Texts -/

/-- Four hexadecimal digits and what follows them. -/
def unit? : List Char → Option (Nat × List Char)
  | a :: b :: c :: d :: rest =>
    match Text.hexValue? a, Text.hexValue? b, Text.hexValue? c, Text.hexValue? d with
    | some a, some b, some c, some d => some (((a * 16 + b) * 16 + c) * 16 + d, rest)
    | _, _, _, _ => none
  | _ => none

/-- The character of a pair of surrogates. -/
def pairedChar (high low : Nat) : Char :=
  Char.ofNat (0x10000 + (high - 0xD800) * 0x400 + (low - 0xDC00))

/-- The character of an escape, given what follows its backslash, and what follows the escape. -/
def escaped? : List Char → Option (Char × List Char)
  | [] => none
  | c :: cs =>
    match c with
    | '"' => some ('"', cs)
    | '\\' => some ('\\', cs)
    | '/' => some ('/', cs)
    | 'b' => some ('\x08', cs)
    | 'f' => some ('\x0c', cs)
    | 'n' => some ('\n', cs)
    | 'r' => some ('\r', cs)
    | 't' => some ('\t', cs)
    | 'u' =>
      match unit? cs with
      | none => none
      | some (u, rest) =>
        if u < 0xD800 ∨ 0xDFFF < u then some (Char.ofNat u, rest)
        else if 0xDC00 ≤ u then none
        else
          match rest with
          | '\\' :: 'u' :: rest =>
            match unit? rest with
            | some (v, rest) =>
              if 0xDC00 ≤ v ∧ v ≤ 0xDFFF then some (pairedChar u v, rest) else none
            | none => none
          | _ => none
    | _ => none

theorem length_lt_of_unit? {cs rest : List Char} {n : Nat} (h : unit? cs = some (n, rest)) :
    rest.length < cs.length := by
  unfold unit? at h
  split at h
  · split at h
    · simp at h
      simp [← h.2]
      omega
    · simp at h
  · simp at h

theorem length_lt_of_escaped? {cs rest : List Char} {c : Char}
    (h : escaped? cs = some (c, rest)) : rest.length < cs.length := by
  unfold escaped? at h
  split at h
  · simp at h
  · rename_i d ds
    split at h
    any_goals (simp at h; simp [← h.2])
    · split at h
      · simp at h
      · rename_i u r hu
        have := length_lt_of_unit? hu
        split at h
        · simp at h
          simp [← h.2]
          omega
        · split at h
          · simp at h
          · split at h
            · rename_i r'
              split at h
              · rename_i v r'' hv
                have hv := length_lt_of_unit? hv
                simp at this ⊢ h
                rw [← h.2.2]
                omega
              · simp at h
            · simp at h
    · simp at h

/-- Reads a text after its opening quote: its characters and what follows the closing quote. -/
def textBody? (cs : List Char) : Option (List Char × List Char) :=
  match cs with
  | [] => none
  | c :: cs =>
    if c = '"' then some ([], cs)
    else if c = '\\' then
      match _h : escaped? cs with
      | none => none
      | some (d, rest) => (textBody? rest).map (Prod.map (d :: ·) id)
    else if c.toNat < 0x20 then none
    else (textBody? cs).map (Prod.map (c :: ·) id)
termination_by cs.length
decreasing_by
  · have := length_lt_of_escaped? _h
    simp
    omega
  · simp

theorem length_lt_of_textBody? {cs body rest : List Char}
    (h : textBody? cs = some (body, rest)) : rest.length < cs.length := by
  fun_induction textBody? cs generalizing body rest with
  | case1 => simp at h
  | case2 => simp at h; simp [← h.2]
  | case3 => simp at h
  | case4 c d rest' hd _ ih =>
    obtain ⟨⟨u, v⟩, hr, hu⟩ := Option.map_eq_some_iff.1 h
    have := ih hr
    have := length_lt_of_escaped? hd
    simp at hu
    simp [← hu.2]
    omega
  | case5 => simp at h
  | case6 c cs _ _ _ ih =>
    obtain ⟨⟨u, v⟩, hr, hu⟩ := Option.map_eq_some_iff.1 h
    have := ih hr
    simp at hu
    simp [← hu.2]
    omega

/-! ### Numbers -/

/-- A number as it is written.  Without a point and without an exponent it is an integer. -/
structure Number where
  negative : Bool
  whole : List Char
  part : List Char
  exponent : Int
  isInteger : Bool
  deriving DecidableEq, Repr

namespace Number

/-- Appends digits to a number as long as the result is a word, and the digits left. -/
def fill (n : Nat) : List Char → Nat × List Char
  | [] => (n, [])
  | d :: ds =>
    let m := 10 * n + (d.toNat - 48)
    if m < wordCount then fill m ds else (n, d :: ds)

/-- The double of a number, if it is not too large. -/
def toDouble? (x : Number) : Option Binary64 :=
  let (n, dropped) := fill 0 x.whole
  let (n, ignored) := fill n x.part
  let e : Int := dropped.length - (x.part.length - ignored.length : Nat) + x.exponent
  (Decimal.scale (.ofRatio false n 1) e).map fun y => .ofMagnitude x.negative y.magnitudeBits

def toDoc? (x : Number) : Option Doc :=
  let n := Decimal.digitsValue x.whole
  if x.isInteger && !x.negative && n < wordCount then some (.int n)
  else if x.isInteger && x.negative && n ≠ 0 && n ≤ halfWordCount then some (.int (-(n : Int)))
  else x.toDouble?.map Doc.float

end Number

/-- Reads an exponent, if there is one: its value and what follows it. -/
def exponent? (cs : List Char) : Option (Option Int × List Char) :=
  match cs with
  | [] => some (none, [])
  | c :: r =>
    if c = 'e' ∨ c = 'E' then
      let (negative, r) := Decimal.splitSign r
      let ds := r.takeWhile Char.isDigit
      if ds.isEmpty then none
      else
        let n : Int := Decimal.digitsValue ds
        some (some (if negative then -n else n), r.dropWhile Char.isDigit)
    else some (none, c :: r)

/-- Reads the digits after a point, if there is one: the digits and what follows them. -/
def fraction? (cs : List Char) : Option (Option (List Char) × List Char) :=
  match cs with
  | '.' :: r =>
    let ds := r.takeWhile Char.isDigit
    if ds.isEmpty then none else some (some ds, r.dropWhile Char.isDigit)
  | r => some (none, r)

/-- Reads a number without its sign, and what follows it. -/
def unsigned? (negative : Bool) (cs : List Char) : Option (Number × List Char) :=
  let whole := cs.takeWhile Char.isDigit
  if whole.isEmpty ∨ (whole.head? = some '0' ∧ 1 < whole.length) then none
  else do
    let (part, rest) ← fraction? (cs.dropWhile Char.isDigit)
    let (exponent, rest) ← exponent? rest
    some (⟨negative, whole, part.getD [], exponent.getD 0, part.isNone && exponent.isNone⟩, rest)

def number? (cs : List Char) : Option (Number × List Char) :=
  match cs with
  | '-' :: r => unsigned? true r
  | r => unsigned? false r

theorem length_le_of_exponent? {cs rest : List Char} {e : Option Int}
    (h : exponent? cs = some (e, rest)) : rest.length ≤ cs.length := by
  unfold exponent? at h
  split at h
  · simp at h
    simp [← h.2]
  · rename_i c r
    split at h
    · have hs : (Decimal.splitSign r).2.length ≤ r.length := by
        unfold Decimal.splitSign
        split <;> simp
      have := (List.dropWhile_sublist (l := (Decimal.splitSign r).2) Char.isDigit).length_le
      simp only at h
      split at h
      · simp at h
      · simp at h
        rw [← h.2]
        simp
        omega
    · simp at h
      simp [← h.2]

theorem length_le_of_fraction? {cs rest : List Char} {p : Option (List Char)}
    (h : fraction? cs = some (p, rest)) : rest.length ≤ cs.length := by
  unfold fraction? at h
  split at h
  · rename_i r
    have := (List.dropWhile_sublist (l := r) Char.isDigit).length_le
    simp only at h
    split at h
    · simp at h
    · simp at h
      rw [← h.2]
      simp
      omega
  · simp at h
    simp [← h.2]

theorem length_lt_of_unsigned? {negative : Bool} {cs rest : List Char} {x : Number}
    (h : unsigned? negative cs = some (x, rest)) : rest.length < cs.length := by
  unfold unsigned? at h
  simp only at h
  split at h
  · simp at h
  · rename_i hw
    simp only [Option.bind_eq_bind, Option.bind_eq_some_iff, Option.some.injEq,
      Prod.mk.injEq] at h
    obtain ⟨⟨p, r⟩, hp, ⟨e, r'⟩, he, _, rfl⟩ := h
    have h1 := length_le_of_fraction? hp
    have h2 := length_le_of_exponent? he
    have h3 : (cs.takeWhile Char.isDigit).length + (cs.dropWhile Char.isDigit).length =
        cs.length := by
      rw [← List.length_append, List.takeWhile_append_dropWhile]
    have h4 : 0 < (cs.takeWhile Char.isDigit).length := by
      cases ht : cs.takeWhile Char.isDigit with
      | nil => simp [ht] at hw
      | cons => simp
    simp only at h1 h2 ⊢
    omega

theorem length_lt_of_number? {cs rest : List Char} {x : Number}
    (h : number? cs = some (x, rest)) : rest.length < cs.length := by
  unfold number? at h
  split at h
  · have := length_lt_of_unsigned? h
    simp
    omega
  · exact length_lt_of_unsigned? h

/-! ### Tokens -/

/-- What follows a word, if the text begins with the word. -/
def dropWord? : (word cs : List Char) → Option (List Char)
  | [], cs => some cs
  | _ :: _, [] => none
  | w :: ws, c :: cs => if w = c then dropWord? ws cs else none

theorem length_le_of_dropWord? {word cs rest : List Char} (h : dropWord? word cs = some rest) :
    rest.length ≤ cs.length := by
  fun_induction dropWord? word cs with
  | case1 => simp_all
  | case2 => simp at h
  | case3 w ws cs ih =>
    have := ih h
    simp
    omega
  | case4 => simp at h

/-- Reads the token that begins with a character, and what follows it. -/
def token? (c : Char) (cs : List Char) : Option (Token × List Char) :=
  match c with
  | '[' => some (.openSeq, cs)
  | ']' => some (.closeSeq, cs)
  | '\x7b' => some (.openMap, cs)
  | '\x7d' => some (.closeMap, cs)
  | ':' => some (.colon, cs)
  | ',' => some (.comma, cs)
  | '"' => (textBody? cs).map (Prod.map (fun s => .scalar (.string (String.ofList s))) id)
  | 'n' => (dropWord? ['u', 'l', 'l'] cs).map fun r => (.scalar .null, r)
  | 't' => (dropWord? ['r', 'u', 'e'] cs).map fun r => (.scalar (.bool true), r)
  | 'f' => (dropWord? ['a', 'l', 's', 'e'] cs).map fun r => (.scalar (.bool false), r)
  | c =>
    match number? (c :: cs) with
    | some (x, rest) => x.toDoc?.map fun d => (.scalar d, rest)
    | none => none

theorem length_le_of_token? {c : Char} {cs rest : List Char} {t : Token}
    (h : token? c cs = some (t, rest)) : rest.length ≤ cs.length := by
  unfold token? at h
  split at h
  any_goals (simp at h; simp [← h.2])
  · obtain ⟨⟨s, r⟩, hs, hr⟩ := Option.map_eq_some_iff.1 h
    have := length_lt_of_textBody? hs
    simp at hr
    rw [← hr.2]
    omega
  any_goals
    obtain ⟨r, hs, hr⟩ := Option.map_eq_some_iff.1 h
    have := length_le_of_dropWord? hs
    simp at hr
    rw [← hr.2]
    omega
  · split at h
    · rename_i x r hx
      have := length_lt_of_number? hx
      obtain ⟨d, _, hr⟩ := Option.map_eq_some_iff.1 h
      simp at hr this
      rw [← hr.2]
      omega
    · simp at h

def tokens? (cs : List Char) : Option (List Token) :=
  match cs with
  | [] => some []
  | c :: cs =>
    if isSpace c then tokens? cs
    else
      match _h : token? c cs with
      | none => none
      | some (t, rest) => (tokens? rest).map (t :: ·)
termination_by cs.length
decreasing_by
  · simp
  · have := length_le_of_token? _h
    simp
    omega

/-! ### Facts -/

theorem textBody?_escape {cs rest : List Char} {d : Char} (h : escaped? cs = some (d, rest)) :
    textBody? ('\\' :: cs) = (textBody? rest).map (Prod.map (d :: ·) id) := by
  rw [textBody?, if_neg (by decide), if_pos rfl]
  split <;> simp_all

theorem textBody?_escape_eq_none {cs : List Char} (h : escaped? cs = none) :
    textBody? ('\\' :: cs) = none := by
  rw [textBody?, if_neg (by decide), if_pos rfl]
  split <;> simp_all

theorem tokens?_cons {c : Char} {cs rest : List Char} {t : Token} (hspace : isSpace c = false)
    (h : token? c cs = some (t, rest)) : tokens? (c :: cs) = (tokens? rest).map (t :: ·) := by
  rw [tokens?, hspace, if_neg Bool.false_ne_true]
  split <;> simp_all

theorem tokens?_cons_eq_none {c : Char} {cs : List Char} (hspace : isSpace c = false)
    (h : token? c cs = none) : tokens? (c :: cs) = none := by
  rw [tokens?, hspace, if_neg Bool.false_ne_true]
  split <;> simp_all

end PathQuery.Json
