import PathQuery.Decimal.Shortest

/-! # How a double is written

A double is written with its shortest digits.  A `Layout` fixes the rest: from which size on an
exponent is used, whether a positive exponent has a sign, and the words for what is not a number.
A finite double always shows a point or an exponent, so that it cannot be taken for an integer.

`ofChars?` reads a decimal: digits with at most one point, at least one digit, and possibly an
exponent. -/

namespace PathQuery.Decimal

/-- The choices in the written form of a double. -/
structure Layout where
  /-- The largest place of the point that is written without an exponent. -/
  maxPoint : Int
  /-- The smallest place of the point that is written without an exponent. -/
  minPoint : Int
  /-- Whether a positive exponent has a plus sign. -/
  plusSign : Bool
  nan : String
  infinity : String
  deriving DecidableEq, Repr

/-- The exponent after the letter. -/
def Layout.exponent (l : Layout) (e : Int) : List Char :=
  (if l.plusSign && 0 ≤ e then ['+'] else []) ++ (toString e).toList

/-- Digits with a point or an exponent. -/
def Layout.magnitude (l : Layout) (d : Digits) : List Char :=
  let n : Int := d.digits.length
  if n ≤ d.point ∧ d.point ≤ l.maxPoint then
    d.digits ++ List.replicate (d.point - n).toNat '0' ++ ['.', '0']
  else if 0 < d.point ∧ d.point ≤ l.maxPoint then
    d.digits.take d.point.toNat ++ '.' :: d.digits.drop d.point.toNat
  else if l.minPoint ≤ d.point ∧ d.point ≤ 0 then
    '0' :: '.' :: List.replicate (-d.point).toNat '0' ++ d.digits
  else
    d.digits.take 1 ++ (if n = 1 then [] else '.' :: d.digits.drop 1) ++
      'e' :: l.exponent (d.point - 1)

/-- The written form of a double. -/
def Layout.write (l : Layout) (x : Binary64) : List Char :=
  let signed (negative : Bool) (cs : List Char) := if negative then '-' :: cs else cs
  match x.value with
  | .nan => l.nan.toList
  | .infinite negative => signed negative l.infinity.toList
  | .finite negative m q =>
    signed negative (if m = 0 then ['0', '.', '0'] else l.magnitude (shortest m q))

/-! ### Reading -/

/-- A decimal as it is written, `digits · 10^exponent` with a sign. -/
structure Written where
  negative : Bool
  digits : Nat
  exponent : Int
  deriving DecidableEq, Repr

/-- The double nearest to a written decimal. -/
def Written.toBinary64 (w : Written) : Binary64 := .ofDecimal w.negative w.digits w.exponent

/-- The number that decimal digits write. -/
def digitsValue (ds : List Char) : Nat := ds.foldl (fun n c => 10 * n + (c.toNat - 48)) 0

/-- A sign, if there is one, and what follows it. -/
def splitSign : List Char → Bool × List Char
  | '-' :: cs => (true, cs)
  | '+' :: cs => (false, cs)
  | cs => (false, cs)

/-- The exponent after the letter: digits, possibly with a sign. -/
def exponentOfChars? (cs : List Char) : Option Int :=
  let (negative, ds) := splitSign cs
  if ds ≠ [] ∧ ds.all Char.isDigit then
    some (if negative then -(digitsValue ds : Int) else digitsValue ds)
  else none

/-- Reads a decimal: a sign, digits with at most one point among or around them, and an exponent,
where the sign and the exponent may be missing. -/
def ofChars? (cs : List Char) : Option Written :=
  let (negative, cs) := splitSign cs
  let whole := cs.takeWhile Char.isDigit
  let afterWhole := cs.dropWhile Char.isDigit
  let (part, tail) := match afterWhole with
    | '.' :: r => (r.takeWhile Char.isDigit, r.dropWhile Char.isDigit)
    | r => ([], r)
  if whole.isEmpty && part.isEmpty then none
  else
    let written (e : Int) : Written := ⟨negative, digitsValue (whole ++ part), e - part.length⟩
    match tail with
    | [] => some (written 0)
    | c :: r => if c = 'e' ∨ c = 'E' then (exponentOfChars? r).map written else none

end PathQuery.Decimal
