/-! # Results

Readers answer in `Except`: a value or the cause of the refusal.  `map_eq_ok_iff` and
`bind_eq_ok_iff` say when a mapped or a chained result is a value.

`FailsWith P x` says that `x` is a value or fails for a cause with the property `P`; it is kept by the
ways in which results are put together. -/

namespace PathQuery

variable {ε α β : Type}

theorem map_eq_ok_iff {f : α → β} {x : Except ε α} {b : β} :
    x.map f = .ok b ↔ ∃ a, x = .ok a ∧ f a = b := by
  cases x <;> simp [Except.map]

theorem map_eq_error_iff {f : α → β} {x : Except ε α} {e : ε} :
    x.map f = .error e ↔ x = .error e := by
  cases x <;> simp [Except.map]

theorem bind_eq_ok_iff {f : α → Except ε β} {x : Except ε α} {b : β} :
    x >>= f = .ok b ↔ ∃ a, x = .ok a ∧ f a = .ok b := by
  cases x <;> simp [bind, Except.bind]

theorem bind_eq_error_iff {f : α → Except ε β} {x : Except ε α} {e : ε} :
    x >>= f = .error e ↔ x = .error e ∨ ∃ a, x = .ok a ∧ f a = .error e := by
  cases x <;> simp [bind, Except.bind]

/-! ### Causes -/

section failsWith
variable {P Q : ε → Prop} {x : Except ε α}

/-- If there is no value, the cause has a property. -/
def FailsWith (P : ε → Prop) (x : Except ε α) : Prop := ∀ e, x = .error e → P e

theorem failsWith_ok (a : α) : FailsWith P (.ok a) := by
  intro e h
  cases h

theorem failsWith_error {e : ε} (h : P e) : FailsWith P (.error e : Except ε α) := by
  intro e' h'
  cases h'
  exact h

theorem FailsWith.mono (hx : FailsWith P x) (h : ∀ e, P e → Q e) : FailsWith Q x :=
  fun e he => h e (hx e he)

theorem FailsWith.map (hx : FailsWith P x) (f : α → β) : FailsWith P (x.map f) := by
  intro e h
  exact hx e (map_eq_error_iff.mp h)

theorem FailsWith.bind {f : α → Except ε β} (hx : FailsWith P x)
    (hf : ∀ a, x = .ok a → FailsWith P (f a)) : FailsWith P (x >>= f) := by
  intro e h
  rcases bind_eq_error_iff.mp h with h | ⟨a, ha, h⟩
  · exact hx e h
  · exact hf a ha e h

theorem failsWith_mapM {f : α → Except ε β} (hf : ∀ a, FailsWith P (f a)) (as : List α) :
    FailsWith P (as.mapM f) := by
  induction as with
  | nil => exact failsWith_ok []
  | cons a as ih =>
      rw [List.mapM_cons]
      refine (hf a).bind ?_
      intro b _
      refine ih.bind ?_
      intro bs _
      exact failsWith_ok (b :: bs)

theorem mapError_map {ε' : Type} (x : Except ε α) (f : α → β) (g : ε → ε') :
    (x.map f).mapError g = (x.mapError g).map f := by
  cases x <;> rfl

theorem mapError_eq_self {g : ε → ε} (h : FailsWith (fun e => g e = e) x) :
    x.mapError g = x := by
  cases x with
  | ok a => rfl
  | error e => exact congrArg Except.error (h e rfl)

end failsWith

end PathQuery
