import PathQuery.Proofs.Path.Refusal
import PathQuery.Proofs.Text.Boundary
import PathQuery.Query

/-! # Expressions one after another

What stands behind an accepted expression is read as it would be read behind the dollar sign alone:
the steps are appended, the selections are composed, and an error is the same one further on
(`parse_append`).

No reader looks at what it has read before.  It only knows at which byte it is, and this shows in
nothing but the offsets of errors: every reader, started `n` bytes further on, answers the same but
for its error, which is moved by `n` bytes (`PathError.shift`, `readSegments_shift`). -/

namespace PathQuery

open Grammar

/-! ### Errors further on -/

def Expected.shift (n : Nat) : Expected → Expected
  | .closeBracket opening => .closeBracket (opening + n)
  | e => e

def Fault.shift (n : Nat) : Fault → Fault
  | .insideCharacter offset byte => .insideCharacter (offset + n) byte
  | .danglingEscapeAt offset => .danglingEscapeAt (offset + n)
  | .noContent opening close => .noContent (opening + n) (close + n)
  | .emptyBrackets opening => .emptyBrackets (opening + n)
  | f => f

/-- The error of the same kind at a place `n` bytes further on. -/
def PathError.shift (n : Nat) : PathError → PathError
  | .unexpected offset found expected => .unexpected (offset + n) found (expected.shift n)
  | .ended expected => .ended (expected.shift n)
  | .invalid fault => .invalid (fault.shift n)

/-! ### Readers further on -/

theorem splitClose_shift (n opening : Nat) (quoted : Bool) (offset : Nat) (cs : List Char) :
    splitClose (opening + n) quoted (offset + n) cs =
      (splitClose opening quoted offset cs).mapError (PathError.shift n) := by
  fun_induction splitClose opening quoted offset cs with
  | case1 => rfl
  | case2 => rfl
  | case3 offset cs => exact splitClose_close (offset + n) cs
  | case4 offset c cs hc ih =>
      rw [splitClose.eq_3, if_neg hc, Nat.add_right_comm, ih, mapError_map]
  | case5 => rfl
  | case6 offset d ds ih =>
      have hsize : Char.utf8Size '\\' = 1 := rfl
      rw [splitClose_escape, mapError_map, ← ih, hsize]
      congr 2
      omega
  | case7 offset c cs hc ih =>
      rw [splitClose_quoted hc, Nat.add_right_comm, ih, mapError_map]

theorem shift_of_elementError {e : PathError} (h : ElementError e) (n : Nat) : e.shift n = e := by
  cases h <;> rfl

theorem shift_of_quoteError {e : PathError} (h : QuoteError e) (n : Nat) : e.shift n = e := by
  cases h <;> rfl

/-- Where its bracket opens shows only in the error for a blank content. -/
theorem ofContent_shift (n opening : Nat) (cs : List Char) :
    Step.ofContent (opening + n) cs =
      (Step.ofContent opening cs).mapError (PathError.shift n) := by
  by_cases hb : Text.allBlank cs = true
  · rw [ofContent_of_allBlank hb, ofContent_of_allBlank hb]
    rfl
  · have hsame : Step.ofContent (opening + n) cs = Step.ofContent opening cs := by
      unfold Step.ofContent
      rw [if_neg hb, if_neg hb]
    rw [hsame]
    refine (mapError_eq_self ?_).symm
    intro e he
    rcases failsWith_ofContent hb opening e he with helement | ⟨hquote, -⟩
    · exact shift_of_elementError helement n
    · exact shift_of_quoteError hquote n

/-- A step that was read further on, and the text behind it. -/
def readFurther (n : Nat) (r : Step × Nat × List Char) : Step × Nat × List Char :=
  (r.1, r.2.1 + n, r.2.2)

theorem readOpened_shift (n opening : Nat) (cs : List Char) :
    readOpened (opening + n) cs =
      ((readOpened opening cs).map (readFurther n)).mapError (PathError.shift n) := by
  unfold readOpened
  rw [Nat.add_right_comm opening n 1, splitClose_shift]
  cases splitClose opening false (opening + 1) cs with
  | error e => rfl
  | ok r =>
      show (Step.ofContent (opening + n) r.1 >>= fun step =>
          Except.ok (step, opening + n + 2 + Text.byteSize r.1, r.2)) =
        ((Step.ofContent opening r.1 >>= fun step =>
          Except.ok (step, opening + 2 + Text.byteSize r.1, r.2)).map (readFurther n)).mapError
            (PathError.shift n)
      rw [ofContent_shift]
      cases Step.ofContent opening r.1 with
      | error e => rfl
      | ok step =>
          have hnext : opening + n + 2 + Text.byteSize r.1 =
              opening + 2 + Text.byteSize r.1 + n := by omega
          show Except.ok (step, _, r.2) = Except.ok (step, _, r.2)
          rw [hnext]

theorem readSegment_shift (n offset : Nat) (cs : List Char) :
    readSegment (offset + n) cs =
      ((readSegment offset cs).map (readFurther n)).mapError (PathError.shift n) := by
  unfold readSegment
  split
  · rfl
  · exact readOpened_shift n offset _
  · rw [Nat.add_right_comm, readOpened_shift]
    cases readOpened (offset + 2) _ <;> rfl
  · show Except.error _ = Except.error _
    rw [Nat.add_right_comm]
    rfl
  · rfl
  · rfl

/-- **Reading further on changes nothing but the places of errors.** -/
theorem readSegments_shift (n offset : Nat) (cs : List Char) :
    readSegments (offset + n) cs = (readSegments offset cs).mapError (PathError.shift n) := by
  fun_induction readSegments offset cs with
  | case1 offset cs hnil =>
      rw [List.isEmpty_iff.mp hnil]
      exact readSegments_nil (offset + n)
  | case2 offset cs hne e hseg =>
      have hcs : cs ≠ [] := fun h => hne (List.isEmpty_iff.mpr h)
      rw [readSegments_of_ne_nil _ hcs, readSegment_shift, hseg]
      rfl
  | case3 offset cs hne step next rest hseg ih =>
      have hcs : cs ≠ [] := fun h => hne (List.isEmpty_iff.mpr h)
      rw [readSegments_of_ne_nil _ hcs, readSegment_shift, hseg]
      show (readSegments (next + n) rest).map _ = _
      rw [ih, mapError_map]

/-! ### Concatenation -/

theorem parse_dollar (p : String) {cs : List Char} (h : p.toList = '$' :: cs) :
    Path.parse p = (readSegments 1 cs).map Path.mk := by
  unfold Path.parse Path.ofChars
  rw [h]
  exact if_pos rfl

theorem parse_append_eq {p : String} {ts : List Step} (hp : Path.parse p = .ok ⟨ts⟩) (s : String) :
    Path.parse (p ++ s) =
      ((Path.parse ("$" ++ s)).map fun q => ⟨ts ++ q.steps⟩).mapError
        (PathError.shift (p.utf8ByteSize - 1)) := by
  obtain ⟨cs, hchars, hsegments⟩ := exists_segments_of_parse hp
  have hfirst : (p ++ s).toList = '$' :: (cs ++ s.toList) := by
    rw [String.toList_append, hchars]
    rfl
  have hsecond : ("$" ++ s).toList = '$' :: s.toList := by
    rw [String.toList_append]
    rfl
  have hplace : p.utf8ByteSize - 1 = Text.byteSize cs := by
    rw [← Text.byteSize_toList, hchars]
    exact Nat.add_sub_cancel_left 1 (Text.byteSize cs)
  rw [parse_dollar _ hfirst, parse_dollar _ hsecond, readSegments_append hsegments,
    readSegments_shift, hplace]
  cases readSegments 1 s.toList <;> rfl

theorem eval_append (ts us : List Step) (d : Doc) :
    Path.eval ⟨ts ++ us⟩ d = (Path.eval ⟨ts⟩ d).flatMap (Path.eval ⟨us⟩) := by
  show Step.applyAll (ts ++ us) [d] = _
  rw [Step.applyAll_append, Step.applyAll_eq_flatMap]
  rfl

/-- **Concatenation.**  Behind an accepted expression a text is accepted exactly if it is accepted
behind the dollar sign.  Then its steps are appended, and what they select is selected from every
node that the expression selects, in order.  If it is refused, it is refused for the same error,
further on by the bytes of the expression behind its dollar sign. -/
theorem parse_append {p : String} {ts : List Step} (hp : Path.parse p = .ok ⟨ts⟩) (s : String) :
    ((∃ q, Path.parse (p ++ s) = .ok q) ↔ ∃ q, Path.parse ("$" ++ s) = .ok q) ∧
    (∀ us, Path.parse ("$" ++ s) = .ok ⟨us⟩ → Path.parse (p ++ s) = .ok ⟨ts ++ us⟩ ∧
      ∀ d, Path.eval ⟨ts ++ us⟩ d = (Path.eval ⟨ts⟩ d).flatMap (Path.eval ⟨us⟩)) ∧
    ∀ e, Path.parse ("$" ++ s) = .error e →
      Path.parse (p ++ s) = .error (e.shift (p.utf8ByteSize - 1)) := by
  have happend := parse_append_eq hp s
  refine ⟨?_, ?_, ?_⟩
  · rw [happend]
    cases Path.parse ("$" ++ s) with
    | ok q => exact iff_of_true ⟨_, rfl⟩ ⟨q, rfl⟩
    | error e => exact iff_of_false (fun ⟨_, h⟩ => nomatch h) (fun ⟨_, h⟩ => nomatch h)
  · intro us hus
    rw [happend, hus]
    exact ⟨rfl, eval_append ts us⟩
  · intro e he
    rw [happend, he]
    rfl

/-- A scan behind a key, and a letter of two bytes where a segment should begin. -/
theorem parse_append_key :
    Path.parse "$['é']" = .ok ⟨[.name "é"]⟩ ∧
    Path.parse ("$['é']" ++ "..[0]") = .ok ⟨[.name "é", .scan (.positions [0])]⟩ ∧
    Path.parse ("$['é']" ++ "[1]é") = .error (.unexpected 10 'é' .segmentStart) := by
  have hkey : Path.parse "$['é']" = .ok ⟨[.name "é"]⟩ := by decide +kernel
  have hscan : Path.parse ("$" ++ "..[0]") = .ok ⟨[.scan (.positions [0])]⟩ := by decide +kernel
  have hstray : Path.parse ("$" ++ "[1]é") = .error (.unexpected 4 'é' .segmentStart) := by
    decide +kernel
  obtain ⟨-, hok, -⟩ := parse_append hkey "..[0]"
  obtain ⟨-, -, herr⟩ := parse_append hkey "[1]é"
  exact ⟨hkey, (hok _ hscan).1, herr _ hstray⟩

end PathQuery
