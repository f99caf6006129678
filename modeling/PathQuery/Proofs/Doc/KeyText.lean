import PathQuery.Proofs.Path.Canonical
import PathQuery.Doc.Basic

/-! # The texts of numbers and truth values as keys

A path names a number or a truth value that is a key by its text (`Doc.numberText?`).  Such a text
is never empty (`ne_empty_of_numberText?`), and a number is never written like a truth value
(`isNumber_ne_bool`): numbers are written with the characters `IsNumeralChar`, among which the `t`
of one truth value and the `s` of the other are not. -/

namespace PathQuery.Doc

open Decimal

def isNumber : Doc → Bool
  | .int _ => true
  | .float _ => true
  | _ => false

/-- The characters that numbers are written with. -/
def IsNumeralChar (c : Char) : Prop :=
  c.isDigit = true ∨ c ∈ ['-', '.', 'e', 'n', 'a', 'i', 'f']

instance (c : Char) : Decidable (IsNumeralChar c) := inferInstanceAs (Decidable (_ ∨ _))

/-! ### Characters of numbers -/

theorem isNumeralChar_decimal (n : Int) : ∀ c ∈ decimal n, IsNumeralChar c := by
  intro c hc
  rcases (literal_decimal n).chars c hc with hdigit | rfl
  · exact .inl hdigit
  · decide

theorem isNumeralChar_shortest (m : Nat) (q : Int) :
    ∀ c ∈ (shortest m q).digits, IsNumeralChar c := by
  intro c hc
  unfold shortest at hc
  have hkept := (List.dropWhile_sublist _).subset (List.mem_reverse.mp hc)
  exact .inl (Nat.isDigit_of_mem_toDigits (by decide) (by decide) (List.mem_reverse.mp hkept))

theorem isNumeralChar_replicate (n : Nat) : ∀ c ∈ List.replicate n '0', IsNumeralChar c := by
  intro c hc
  rw [List.eq_of_mem_replicate hc]
  decide

theorem isNumeralChar_magnitude {d : Digits} (hd : ∀ c ∈ d.digits, IsNumeralChar c) :
    ∀ c ∈ floatLayout.magnitude d, IsNumeralChar c := by
  have htake : ∀ n, ∀ c ∈ d.digits.take n, IsNumeralChar c :=
    fun n c hc => hd c (List.mem_of_mem_take hc)
  have hdrop : ∀ n, ∀ c ∈ d.digits.drop n, IsNumeralChar c :=
    fun n c hc => hd c (List.mem_of_mem_drop hc)
  have hpoint : IsNumeralChar '.' := by decide
  have hzero : IsNumeralChar '0' := by decide
  have hletter : IsNumeralChar 'e' := by decide
  unfold Layout.magnitude
  dsimp only
  split_ifs <;> simp only [List.forall_mem_append, List.forall_mem_cons]
  · exact ⟨⟨hd, isNumeralChar_replicate _⟩, hpoint, hzero, List.forall_mem_nil _⟩
  · exact ⟨htake _, hpoint, hdrop _⟩
  · exact ⟨⟨hzero, hpoint, isNumeralChar_replicate _⟩, hd⟩
  · exact ⟨⟨htake _, List.forall_mem_nil _⟩, hletter, isNumeralChar_decimal _⟩
  · exact ⟨⟨htake _, hpoint, hdrop _⟩, hletter, isNumeralChar_decimal _⟩

/-- A double is written as a word, as zero or as a magnitude, perhaps with a sign. -/
theorem floatText_cases (P : List Char → Prop) (sign : ∀ cs, P cs → P ('-' :: cs))
    (nan : P ".nan".toList) (infinity : P ".inf".toList) (zero : P ['0', '.', '0'])
    (magnitude : ∀ m q, P (floatLayout.magnitude (shortest m q))) (x : Binary64) :
    P (floatText x).toList := by
  have hsigned : ∀ (negative : Bool) (cs : List Char), P cs →
      P (if negative then '-' :: cs else cs) := by
    intro negative cs hcs
    cases negative with
    | false => exact hcs
    | true => exact sign cs hcs
  unfold floatText Layout.write
  rw [String.toList_ofList]
  dsimp only
  split
  · exact nan
  · exact hsigned _ _ infinity
  · apply hsigned
    split_ifs
    · exact zero
    · exact magnitude _ _

theorem isNumeralChar_floatText (x : Binary64) : ∀ c ∈ (floatText x).toList, IsNumeralChar c := by
  apply floatText_cases fun cs => ∀ c ∈ cs, IsNumeralChar c
  · intro cs hcs
    exact List.forall_mem_cons.mpr ⟨by decide, hcs⟩
  · simp [IsNumeralChar]
  · simp [IsNumeralChar]
  · simp [IsNumeralChar]
  · intro m q
    exact isNumeralChar_magnitude (isNumeralChar_shortest m q)

theorem magnitude_ne_nil (d : Digits) : floatLayout.magnitude d ≠ [] := by
  unfold Layout.magnitude
  dsimp only
  split_ifs <;> simp

theorem floatText_ne_nil (x : Binary64) : (floatText x).toList ≠ [] := by
  apply floatText_cases fun cs => cs ≠ []
  · intro cs _
    exact List.cons_ne_nil '-' cs
  · decide
  · decide
  · decide
  · intro m q
    exact magnitude_ne_nil _

/-! ### Texts of keys -/

theorem exists_text_of_isNumber {k : Doc} (h : k.isNumber = true) :
    ∃ t, k.numberText? = some t ∧ ∀ c ∈ t.toList, IsNumeralChar c := by
  cases k with
  | int n => exact ⟨toString n, rfl, isNumeralChar_decimal n⟩
  | float x => exact ⟨floatText x, rfl, isNumeralChar_floatText x⟩
  | _ => cases h

theorem isNumber_ne_bool {k : Doc} (h : k.isNumber = true) (b : Bool) :
    k.numberText? ≠ (bool b).numberText? := by
  obtain ⟨t, ht, hchars⟩ := exists_text_of_isNumber h
  intro heq
  rw [ht] at heq
  cases b with
  | true =>
      cases heq
      exact absurd (hchars 't' (by decide)) (by decide)
  | false =>
      cases heq
      exact absurd (hchars 's' (by decide)) (by decide)

/-- What has a text and is no number is a truth value. -/
theorem exists_bool_of_numberText? {k : Doc} {t : String} (h : k.numberText? = some t)
    (hk : k.isNumber = false) : ∃ b, k = bool b := by
  cases k with
  | bool b => exact ⟨b, rfl⟩
  | int n => cases hk
  | float x => cases hk
  | _ => cases h

theorem numberText?_bool_inj {a b : Bool} (h : (bool a).numberText? = (bool b).numberText?) :
    a = b := by
  revert a b
  decide

theorem ne_empty_of_numberText? {k : Doc} {t : String} (h : k.numberText? = some t) : t ≠ "" := by
  intro hempty
  have hnil : t.toList = [] := String.toList_eq_nil_iff.mpr hempty
  cases k with
  | int n =>
      cases h
      exact (literal_decimal n).ne_nil hnil
  | float x =>
      cases h
      exact floatText_ne_nil x hnil
  | bool b =>
      cases h
      cases b <;> exact absurd hnil (by decide)
  | _ => cases h

end PathQuery.Doc
