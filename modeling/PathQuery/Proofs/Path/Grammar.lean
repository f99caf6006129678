import Mathlib.Data.Int.Range
import PathQuery.Path.Step
import PathQuery.Text.Blank
import PathQuery.Word

/-! # The grammar of path expressions

The texts that are path expressions, together with the steps they stand for, as inductive
relations that mention no reader:

* `Integer cs n`: an optional minus sign and decimal digits, with a value that is a word;
* `Quoted cs k`: the inside of a quoted key, where a backslash stands before any character;
* `Content cs s`: the content of a bracket and the step it names, one constructor for an index,
  a list of indices, a slice, one key and a list of keys;
* `Segment cs s`: a bracket, with `..` in front of it for a step at every depth;
* `Expression cs ss`: a dollar sign and segments.

`Padded` puts blanks around a text, and `Separated` puts a separator between texts. -/

namespace PathQuery.Grammar

variable {α : Type}

/-! ### Blanks and separators -/

/-- A text of blanks, perhaps empty. -/
def Blanks (cs : List Char) : Prop := ∀ c ∈ cs, Text.isBlank c = true

/-- A text of `G` with blanks on both sides. -/
inductive Padded (G : List Char → α → Prop) : List Char → α → Prop
  | mk {l m r : List Char} {a : α} : Blanks l → G m a → Blanks r → Padded G (l ++ m ++ r) a

/-- Texts of `G`, at least one, with a separator between them. -/
inductive Separated (sep : Char) (G : List Char → α → Prop) : List Char → List α → Prop
  | one {m : List Char} {a : α} : G m a → Separated sep G m [a]
  | cons {m rest : List Char} {a : α} {as : List α} :
      G m a → Separated sep G rest as → Separated sep G (m ++ sep :: rest) (a :: as)

/-! ### Integers -/

/-- Decimal digits, at least one, and the number they write. -/
structure Numeral (ds : List Char) (n : Nat) : Prop where
  ne_nil : ds ≠ []
  digits : ∀ c ∈ ds, c.isDigit = true
  value : Nat.ofDigitChars 10 ds 0 = n

/-- A numeral, perhaps with a minus sign. -/
inductive Literal : List Char → Int → Prop
  | natural {ds : List Char} {n : Nat} : Numeral ds n → Literal ds n
  | negative {ds : List Char} {n : Nat} : Numeral ds n → Literal ('-' :: ds) (-n)

/-- A literal whose value is a word. -/
def Integer (cs : List Char) (n : Int) : Prop := Literal cs n ∧ InWord n

/-! ### Slices -/

/-- A bound of a slice: an integer between blanks, or blanks only. -/
inductive Bound : List Char → Option Int → Prop
  | absent {ws : List Char} : Blanks ws → Bound ws none
  | present {cs : List Char} {n : Int} : Padded Integer cs n → Bound cs (some n)

/-- The step of a slice with a start and perhaps an end.  Positions that are known and not too
many are listed; there is no step if they are known and there is none. -/
inductive Slice (start : Int) : Option Int → Step → Prop
  | listed {stop : Int} : 0 ≤ start → start < stop → stop - start ≤ 1024 →
      Slice start (some stop) (.pick (.positions (Int.range start stop)))
  | clamped {stop : Int} : 0 ≤ stop → start < 0 ∨ 1024 < stop - start →
      Slice start (some stop) (.pick (.span ⟨start, some stop, 0⟩))
  | fromEnd {stop : Int} : stop < 0 → Slice start (some stop) (.pick (.span ⟨start, none, stop⟩))
  | toEnd : Slice start none (.pick (.span ⟨start, none, 0⟩))

/-! ### Keys -/

/-- The inside of a quoted key and the key. -/
inductive Quoted : List Char → List Char → Prop
  | nil : Quoted [] []
  | plain {c : Char} {cs k : List Char} :
      c ≠ '\'' → c ≠ '\\' → Quoted cs k → Quoted (c :: cs) (c :: k)
  | escaped {c : Char} {cs k : List Char} : Quoted cs k → Quoted ('\\' :: c :: cs) (c :: k)

/-- An element of a list of keys: the key, and whether it stands in quotes. -/
structure KeyItem where
  key : String
  inQuotes : Bool

/-- A key in quotes is not empty; one without quotes is an integer and keeps its digits. -/
inductive Key : List Char → KeyItem → Prop
  | quoted {cs k : List Char} :
      Quoted cs k → k ≠ [] → Key ('\'' :: cs ++ ['\'']) ⟨String.ofList k, true⟩
  | bare {cs : List Char} {n : Int} : Integer cs n → Key cs ⟨String.ofList cs, false⟩

/-- A list of keys with at least one in quotes. -/
def KeyList (cs : List Char) (items : List KeyItem) : Prop :=
  Separated ',' (Padded Key) cs items ∧ ∃ i ∈ items, i.inQuotes = true

/-! ### Contents, segments, expressions -/

/-- The content of a bracket and the step it names. -/
inductive Content : List Char → Step → Prop
  | index {cs : List Char} {n : Int} : Padded Integer cs n → Content cs (.index n)
  | positions {cs : List Char} {is : List Int} :
      Separated ',' (Padded Integer) cs is → 2 ≤ is.length → Content cs (.pick (.positions is))
  | slice {a b : List Char} {start stop : Option Int} {s : Step} :
      Bound a start → Bound b stop → Slice (start.getD 0) stop s → Content (a ++ ':' :: b) s
  | name {cs : List Char} {i : KeyItem} : KeyList cs [i] → Content cs (.name i.key)
  | names {cs : List Char} {items : List KeyItem} : KeyList cs items → 2 ≤ items.length →
      Content cs (.pick (.names (items.map KeyItem.key)))

/-- A step and the step that does at every node what it does at one. -/
inductive Deep : Step → Step → Prop
  | index {i : Int} : Deep (.index i) (.scan (.positions [i]))
  | name {k : String} : Deep (.name k) (.scan (.names [k]))
  | pick {p : Pick} : Deep (.pick p) (.scan p)

/-- A bracket, or `..` and a bracket. -/
inductive Segment : List Char → Step → Prop
  | bracket {cs : List Char} {s : Step} : Content cs s → Segment ('[' :: cs ++ [']']) s
  | dots {cs : List Char} {s t : Step} :
      Content cs s → Deep s t → Segment ('.' :: '.' :: '[' :: cs ++ [']']) t

inductive Segments : List Char → List Step → Prop
  | nil : Segments [] []
  | cons {cs rest : List Char} {s : Step} {ss : List Step} :
      Segment cs s → Segments rest ss → Segments (cs ++ rest) (s :: ss)

/-- A dollar sign and segments. -/
inductive Expression : List Char → List Step → Prop
  | mk {cs : List Char} {ss : List Step} : Segments cs ss → Expression ('$' :: cs) ss

end PathQuery.Grammar
