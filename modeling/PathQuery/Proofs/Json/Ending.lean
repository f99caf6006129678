import Mathlib.Tactic.SplitIfs
import PathQuery.Json.Reader

/-! # The end of a JSON text

A carriage return behind a text is no part of any token, so that a JSON text has the same document
with it and without it (`read?_append_return`).  A reader of a token leaves it over, or refuses the
text with it and without it (`LeavesReturn`). -/

namespace PathQuery.Json

variable {α : Type}

/-- A carriage return behind a text is a part of what a reader leaves over. -/
def LeavesReturn (f : List Char → Option (α × List Char)) : Prop :=
  ∀ cs, f (cs ++ ['\r']) = (f cs).map (Prod.map id (· ++ ['\r']))

theorem takeWhile_append_return {p : Char → Bool} (h : p '\r' = false) (cs : List Char) :
    (cs ++ ['\r']).takeWhile p = cs.takeWhile p := by
  induction cs with
  | nil => simp [h]
  | cons c cs ih => simp only [List.cons_append, List.takeWhile_cons, ih]

theorem dropWhile_append_return {p : Char → Bool} (h : p '\r' = false) (cs : List Char) :
    (cs ++ ['\r']).dropWhile p = cs.dropWhile p ++ ['\r'] := by
  induction cs with
  | nil => simp [h]
  | cons c cs ih =>
      simp only [List.cons_append, List.dropWhile_cons, ih]
      split <;> rfl

/-! ### Texts -/

theorem leavesReturn_unit? : LeavesReturn unit? := by
  intro cs
  have hreturn : Text.hexValue? '\r' = none := by decide
  rcases cs with _ | ⟨a, _ | ⟨b, _ | ⟨c, _ | ⟨d, rest⟩⟩⟩⟩
  · rfl
  · rfl
  · rfl
  · simp [unit?, hreturn]
  · simp only [List.cons_append, unit?]
    split <;> rfl

theorem leavesReturn_escaped? : LeavesReturn escaped? := by
  intro cs
  cases cs with
  | nil => rfl
  | cons c cs =>
      simp only [List.cons_append, escaped?]
      split
      all_goals try rfl
      rw [leavesReturn_unit? cs]
      rcases unit? cs with _ | ⟨u, rest⟩
      · rfl
      · simp only [Option.map_some, Prod.map_apply, id]
        split_ifs
        · rfl
        · rfl
        · rcases rest with _ | ⟨a, _ | ⟨b, rest⟩⟩
          · rfl
          · simp
          · simp only [List.cons_append]
            split
            · rename_i h
              simp only [List.cons.injEq] at h
              obtain ⟨rfl, rfl, rfl⟩ := h
              simp only [leavesReturn_unit? rest]
              rcases unit? rest with _ | ⟨v, more⟩
              · rfl
              · simp only [Option.map_some, Prod.map_apply, id]
                split_ifs
                · rw [Option.map_some, Prod.map_apply, id]
                · rfl
            · split
              · simp_all
              · rfl

theorem leavesReturn_textBody? : LeavesReturn textBody? := by
  intro cs
  fun_induction textBody? cs with
  | case1 => simp [textBody?]
  | case2 cs => simp [textBody?]
  | case3 cs hescape hquote =>
      have hreturn : escaped? (cs ++ ['\r']) = none := by
        rw [leavesReturn_escaped? cs, hescape, Option.map_none]
      exact textBody?_escape_eq_none hreturn
  | case4 cs d rest hescape hquote ih =>
      have hreturn : escaped? (cs ++ ['\r']) = some (d, rest ++ ['\r']) := by
        rw [leavesReturn_escaped? cs, hescape]
        rfl
      rw [List.cons_append, textBody?_escape hreturn, ih, Option.map_map, Option.map_map]
      rfl
  | case5 c cs hquote hbackslash hcontrol =>
      rw [List.cons_append, textBody?, if_neg hquote, if_neg hbackslash, if_pos hcontrol]
      rfl
  | case6 c cs hquote hbackslash hcontrol ih =>
      rw [List.cons_append, textBody?, if_neg hquote, if_neg hbackslash, if_neg hcontrol, ih,
        Option.map_map, Option.map_map]
      rfl

/-! ### Numbers -/

theorem splitSign_append_return (cs : List Char) :
    Decimal.splitSign (cs ++ ['\r']) = Prod.map id (· ++ ['\r']) (Decimal.splitSign cs) := by
  cases cs with
  | nil => rfl
  | cons c cs =>
      unfold Decimal.splitSign
      split
      · simp_all
      · simp_all
      · simp_all

theorem leavesReturn_exponent? : LeavesReturn exponent? := by
  intro cs
  have hdigit : Char.isDigit '\r' = false := by decide
  cases cs with
  | nil => rfl
  | cons c cs =>
      simp only [List.cons_append, exponent?, splitSign_append_return, Prod.map_fst, Prod.map_snd,
        id, takeWhile_append_return hdigit, dropWhile_append_return hdigit]
      split_ifs <;> rfl

theorem leavesReturn_fraction? : LeavesReturn fraction? := by
  intro cs
  have hdigit : Char.isDigit '\r' = false := by decide
  unfold fraction?
  split
  · rename_i r hr
    rcases cs with _ | ⟨c, cs⟩
    · simp at hr
    · simp only [List.cons_append, List.cons.injEq] at hr
      obtain ⟨rfl, rfl⟩ := hr
      simp only [takeWhile_append_return hdigit, dropWhile_append_return hdigit]
      split_ifs <;> rfl
  · rename_i hr
    split
    · exact absurd rfl (hr _)
    · rfl

theorem leavesReturn_unsigned? (negative : Bool) : LeavesReturn (unsigned? negative) := by
  intro cs
  have hdigit : Char.isDigit '\r' = false := by decide
  simp only [unsigned?, takeWhile_append_return hdigit, dropWhile_append_return hdigit]
  split_ifs
  · rfl
  · rw [leavesReturn_fraction? (cs.dropWhile Char.isDigit)]
    rcases fraction? (cs.dropWhile Char.isDigit) with _ | ⟨part, rest⟩
    · rfl
    · simp [leavesReturn_exponent? rest]
      rcases exponent? rest with _ | ⟨exponent, rest⟩ <;> rfl

theorem leavesReturn_number? : LeavesReturn number? := by
  intro cs
  cases cs with
  | nil => rfl
  | cons c cs =>
      by_cases hc : c = '-'
      · subst hc
        exact leavesReturn_unsigned? true cs
      · have hnumber : ∀ rest, number? (c :: rest) = unsigned? false (c :: rest) := by
          intro rest
          unfold number?
          split <;> simp_all
        rw [List.cons_append, hnumber, hnumber, ← List.cons_append, leavesReturn_unsigned?]

/-! ### Tokens -/

theorem leavesReturn_dropWord? {word : List Char} (h : '\r' ∉ word) (cs : List Char) :
    dropWord? word (cs ++ ['\r']) = (dropWord? word cs).map (· ++ ['\r']) := by
  fun_induction dropWord? word cs with
  | case1 cs => simp [dropWord?]
  | case2 w ws =>
      have hw : w ≠ '\r' := fun e => h (e ▸ List.mem_cons_self)
      rw [List.nil_append, dropWord?, if_neg hw, Option.map_none]
  | case3 ws c cs ih =>
      rw [List.cons_append, dropWord?, if_pos rfl, ih fun hmem => h (List.mem_cons_of_mem c hmem)]
  | case4 w ws c cs hne => simp [dropWord?, hne]

theorem leavesReturn_token? (c : Char) : LeavesReturn (token? c) := by
  intro cs
  unfold token?
  split
  all_goals try rfl
  · rw [leavesReturn_textBody? cs, Option.map_map, Option.map_map]
    rfl
  · rw [leavesReturn_dropWord? (by decide), Option.map_map, Option.map_map]
    rfl
  · rw [leavesReturn_dropWord? (by decide), Option.map_map, Option.map_map]
    rfl
  · rw [leavesReturn_dropWord? (by decide), Option.map_map, Option.map_map]
    rfl
  · rw [← List.cons_append, leavesReturn_number?]
    rcases number? (c :: cs) with _ | ⟨x, rest⟩
    · rfl
    · simp only [Option.map_some, Prod.map_apply, Option.map_map]
      rfl

theorem tokens?_append_return (cs : List Char) : tokens? (cs ++ ['\r']) = tokens? cs := by
  fun_induction tokens? cs with
  | case1 => simp [tokens?, isSpace]
  | case2 c cs hspace ih => rw [List.cons_append, tokens?, if_pos hspace, ih]
  | case3 c cs hspace hnone =>
      have hreturn : token? c (cs ++ ['\r']) = none := by
        rw [leavesReturn_token? c cs, hnone, Option.map_none]
      exact tokens?_cons_eq_none (by simpa using hspace) hreturn
  | case4 c cs hspace t rest hsome ih =>
      have hreturn : token? c (cs ++ ['\r']) = some (t, rest ++ ['\r']) := by
        rw [leavesReturn_token? c cs, hsome]
        rfl
      rw [List.cons_append, tokens?_cons (by simpa using hspace) hreturn, ih]

/-- A carriage return behind a JSON text changes nothing. -/
theorem read?_append_return (text : String) : read? (text ++ "\r") = read? text := by
  show (tokens? (text ++ "\r").toList).bind ofTokens? = _
  rw [String.toList_append]
  exact congrArg (·.bind ofTokens?) (tokens?_append_return text.toList)

end PathQuery.Json
