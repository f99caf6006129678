import PathQuery.Json.Token
import PathQuery.Json.Writer
import PathQuery.Proofs.Path.Canonical

/-! # Reading back scalars in JSON

What JSON writes of a text or of an integer is one token, and it is read back as this text or this
integer (`token?_quote`, `token?_decimal`).  A text ends with its closing quote.  An integer ends
where something else begins, so that it has to be followed by a separator, the end of a container
or nothing (`Ends`). -/

namespace PathQuery.Json

/-- What may follow a value: nothing, a comma or the end of a container. -/
def Ends (rest : List Char) : Prop := ∀ c ∈ rest.head?, c = ',' ∨ c = ']' ∨ c = '\x7d'

theorem ends_nil : Ends [] := by
  intro c h
  cases h

theorem ends_cons {c : Char} (h : c = ',' ∨ c = ']' ∨ c = '\x7d') (cs : List Char) :
    Ends (c :: cs) := by
  intro d hd
  cases hd
  exact h

/-! ### Texts -/

theorem hexValue?_digitChar {n : Nat} (h : n < 16) :
    Text.hexValue? (Nat.digitChar n) = some n := by
  have hdigits : ∀ m < 16, Text.hexValue? (Nat.digitChar m) = some m := by decide
  exact hdigits n h

theorem unit?_byte {n : Nat} (h : n < 256) (rest : List Char) :
    unit? ('0' :: '0' :: Nat.digitChar (n / 16) :: Nat.digitChar (n % 16) :: rest) =
      some (n, rest) := by
  have hzero : Text.hexValue? '0' = some 0 := by decide
  have hhigh := hexValue?_digitChar (n := n / 16) (by omega)
  have hlow := hexValue?_digitChar (n := n % 16) (by omega)
  have hvalue : ((0 * 16 + 0) * 16 + n / 16) * 16 + n % 16 = n := by omega
  simp only [unit?, hzero, hhigh, hlow, hvalue]

theorem escaped?_byte {c : Char} (h : c.toNat < 256) (rest : List Char) :
    escaped? ('u' :: '0' :: '0' :: Nat.digitChar (c.toNat / 16) :: Nat.digitChar (c.toNat % 16) ::
      rest) = some (c, rest) := by
  unfold escaped?
  dsimp only
  rw [unit?_byte h]
  dsimp only
  rw [if_pos (by omega), Char.ofNat_toNat]
  rfl

theorem textBody?_escapeChar (c : Char) (rest : List Char) :
    textBody? (escapeChar c ++ rest) = (textBody? rest).map (Prod.map (c :: ·) id) := by
  unfold escapeChar
  split_ifs with hquote hbackslash hb hf hn hr ht hcontrol
  all_goals try subst c
  all_goals try exact textBody?_escape rfl
  · exact textBody?_escape (escaped?_byte (by omega) rest)
  · rw [List.singleton_append, textBody?, if_neg hquote, if_neg hbackslash, if_neg hcontrol]

/-- A written text is read back up to its closing quote. -/
theorem textBody?_flatMap_escapeChar (cs rest : List Char) :
    textBody? (cs.flatMap escapeChar ++ '"' :: rest) = some (cs, rest) := by
  induction cs with
  | nil => rw [List.flatMap_nil, List.nil_append, textBody?, if_pos rfl]
  | cons c cs ih =>
      rw [List.flatMap_cons, List.append_assoc, textBody?_escapeChar, ih]
      rfl

theorem token?_quote (s : String) (rest : List Char) :
    token? '"' (s.toList.flatMap escapeChar ++ '"' :: rest) =
      some (.scalar (.string s), rest) := by
  show (textBody? _).map _ = _
  rw [textBody?_flatMap_escapeChar, Option.map_some]
  show some (Token.scalar (.string (String.ofList s.toList)), rest) = _
  rw [String.ofList_toList]

/-! ### Integers -/

theorem head?_toDigits_ne_zero {n : Nat} (h : 0 < n) :
    (Nat.toDigits 10 n).head? ≠ some '0' := by
  induction n using Nat.strongRecOn with
  | ind n ih =>
      by_cases hsmall : n < 10
      · have hdigits : ∀ m < 10, 0 < m → [Nat.digitChar m].head? ≠ some '0' := by decide
        rw [Nat.toDigits_of_lt_base hsmall]
        exact hdigits n hsmall h
      · obtain ⟨c, cs, hfront⟩ :=
          List.exists_cons_of_ne_nil (Nat.toDigits_ne_nil (n := n / 10) (b := 10))
        have hne := ih (n / 10) (by omega) (by omega)
        rw [Nat.toDigits_of_base_le (by decide) (by omega)]
        rw [hfront] at hne ⊢
        exact hne

theorem digitsValue_toDigits (n : Nat) : Decimal.digitsValue (Nat.toDigits 10 n) = n := by
  have hvalue := Nat.ofDigitChars_ten_toDigits (n := n)
  rw [Nat.ofDigitChars_eq_foldl] at hvalue
  exact hvalue

theorem isDigit_of_mem_toDigits {n : Nat} {c : Char} (h : c ∈ Nat.toDigits 10 n) :
    c.isDigit = true :=
  Nat.isDigit_of_mem_toDigits (by decide) (by decide) h

/-- Nothing of what may follow a value belongs to a number. -/
theorem Ends.number {rest : List Char} (h : Ends rest) :
    rest.takeWhile Char.isDigit = [] ∧ rest.dropWhile Char.isDigit = rest ∧
      fraction? rest = some (none, rest) ∧ exponent? rest = some (none, rest) := by
  cases rest with
  | nil => exact ⟨rfl, rfl, rfl, rfl⟩
  | cons c cs => rcases h c rfl with rfl | rfl | rfl <;> exact ⟨rfl, rfl, rfl, rfl⟩

theorem unsigned?_toDigits (negative : Bool) (n : Nat) {rest : List Char} (h : Ends rest) :
    unsigned? negative (Nat.toDigits 10 n ++ rest) =
      some (⟨negative, Nat.toDigits 10 n, [], 0, true⟩, rest) := by
  obtain ⟨htake, hdrop, hfraction, hexponent⟩ := h.number
  have hdigits : ∀ c ∈ Nat.toDigits 10 n, c.isDigit = true := fun c => isDigit_of_mem_toDigits
  have hwhole : ¬ ((Nat.toDigits 10 n).isEmpty = true ∨
      ((Nat.toDigits 10 n).head? = some '0' ∧ 1 < (Nat.toDigits 10 n).length)) := by
    rw [List.isEmpty_iff, not_or]
    refine ⟨Nat.toDigits_ne_nil, ?_⟩
    rintro ⟨hhead, hlength⟩
    cases n with
    | zero => exact absurd hlength (by decide)
    | succ n => exact head?_toDigits_ne_zero (Nat.succ_pos n) hhead
  unfold unsigned?
  rw [List.takeWhile_append_of_pos hdigits, List.dropWhile_append_of_pos hdigits, htake, hdrop,
    List.append_nil]
  dsimp only
  rw [if_neg hwhole, hfraction]
  show (exponent? rest >>= fun _ => _) = _
  rw [hexponent]
  rfl

/-- A digit or a sign begins a number. -/
theorem token?_of_number {c : Char} (h : c.isDigit = true ∨ c = '-') {cs rest : List Char}
    {x : Number} {d : Doc} (hx : number? (c :: cs) = some (x, rest)) (hd : x.toDoc? = some d) :
    token? c cs = some (.scalar d, rest) := by
  unfold token?
  split
  case h_11 =>
    rw [hx]
    dsimp only
    rw [hd, Option.map_some]
  all_goals exact absurd h (by decide)

theorem toDoc?_natural {n : Nat} (h : n < wordCount) :
    Number.toDoc? ⟨false, Nat.toDigits 10 n, [], 0, true⟩ = some (.int n) := by
  simp [Number.toDoc?, digitsValue_toDigits, h]

theorem toDoc?_negative {n : Nat} (hpos : 0 < n) (h : n ≤ halfWordCount) :
    Number.toDoc? ⟨true, Nat.toDigits 10 n, [], 0, true⟩ = some (.int (-(n : Int))) := by
  simp [Number.toDoc?, digitsValue_toDigits, h, Nat.pos_iff_ne_zero.mp hpos]

/-- An integer that is a word, signed or not, is one token. -/
theorem token?_decimal {n : Int} (hlow : -(halfWordCount : Int) ≤ n) (hhigh : n < wordCount)
    {c : Char} {cs : List Char} (hcs : decimal n = c :: cs) {rest : List Char} (hrest : Ends rest) :
    token? c (cs ++ rest) = some (.scalar (.int n), rest) := by
  cases n with
  | ofNat n =>
      rw [decimal_ofNat] at hcs
      have hc : c.isDigit = true := isDigit_of_mem_toDigits (hcs ▸ List.mem_cons_self)
      refine token?_of_number (.inl hc) ?_ (toDoc?_natural (Int.ofNat_lt.mp hhigh))
      rw [← List.cons_append, ← hcs]
      unfold number?
      split
      · rename_i hminus
        rw [hcs] at hminus
        cases hminus
        cases hc
      · exact unsigned?_toDigits false n hrest
  | negSucc n =>
      rw [decimal_negSucc] at hcs
      cases hcs
      refine token?_of_number (.inr rfl) (unsigned?_toDigits true (n + 1) hrest) ?_
      exact toDoc?_negative (Nat.succ_pos n) (by omega)

end PathQuery.Json
