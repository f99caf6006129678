import PathQuery.Decimal.Binary64

/-! # The shortest decimal that reads back

`shortest m q` are the fewest decimal digits that round to the double `m · 2^q`, and of those with
the fewest digits the nearest.  A decimal reads back when it lies between the midpoints to the
neighbouring doubles (`RoundingInterval`), the midpoints included when the mantissa is even.

For 1, 2, … 17 digits the two decimals next to the double are tried; the first count of digits with
a hit wins, and of two hits the nearer one, of two equally near ones the even one.  Seventeen
digits always suffice. -/

namespace PathQuery.Decimal

/-- The digits `d₁d₂…` and the place of the point of the number `0.d₁d₂… · 10^point`. -/
structure Digits where
  digits : List Char
  point : Int
  deriving DecidableEq, Repr

/-- The quotient `num / den`. -/
structure Ratio where
  num : Nat
  den : Nat
  deriving DecidableEq, Repr

namespace Ratio

def lt (a b : Ratio) : Bool := a.num * b.den < b.num * a.den

def le (a b : Ratio) : Bool := a.num * b.den ≤ b.num * a.den

/-- `m · 2^q`. -/
def ofBinary (m : Nat) (q : Int) : Ratio :=
  if 0 ≤ q then ⟨m * Nat.pow 2 q.toNat, 1⟩ else ⟨m, Nat.pow 2 (-q).toNat⟩

/-- `c · 10^e`. -/
def ofDecimal (c : Nat) (e : Int) : Ratio :=
  if 0 ≤ e then ⟨c * Nat.pow 10 e.toNat, 1⟩ else ⟨c, Nat.pow 10 (-e).toNat⟩

def distance (a b : Ratio) : Ratio :=
  ⟨(a.num * b.den - b.num * a.den) + (b.num * a.den - a.num * b.den), a.den * b.den⟩

end Ratio

/-- The numbers that round to a double. -/
structure RoundingInterval where
  low : Ratio
  high : Ratio
  closed : Bool
  deriving DecidableEq, Repr

namespace RoundingInterval

def contains (i : RoundingInterval) (x : Ratio) : Bool :=
  if i.closed then i.low.le x && x.le i.high else i.low.lt x && x.lt i.high

/-- The numbers that round to `m · 2^q`.  Below a power of two the doubles lie twice as dense, so
that the lower midpoint is half as far. -/
def ofBinary (m : Nat) (q : Int) : RoundingInterval where
  low := if m = Binary64.hiddenBit ∧ -1074 < q then Ratio.ofBinary (4 * m - 1) (q - 2)
    else Ratio.ofBinary (4 * m - 2) (q - 2)
  high := Ratio.ofBinary (4 * m + 2) (q - 2)
  closed := m % 2 = 0

end RoundingInterval

/-- The number of places that a quotient below 1 has to be moved to reach a tenth, at most
`fuel`. -/
def leadingZeros (x : Ratio) : (fuel : Nat) → Nat
  | 0 => 0
  | fuel + 1 => if x.den ≤ x.num * 10 then 0 else leadingZeros ⟨x.num * 10, x.den⟩ fuel + 1

/-- The `point` with `10^(point - 1) ≤ x < 10^point` for a positive quotient of the size of a
double. -/
def pointOf (x : Ratio) : Int :=
  if x.den ≤ x.num then ((Nat.toDigits 10 (x.num / x.den)).length : Int)
  else -(leadingZeros x 400 : Int)

/-- The decimals of `n` digits next to `x`, of which the one in the interval that is nearer to
`x`. -/
def nearestOfCount (i : RoundingInterval) (x : Ratio) (point : Int) (n : Nat) : Option Nat :=
  let e := point - n
  let floor :=
    if 0 ≤ e then x.num / (x.den * Nat.pow 10 e.toNat)
    else x.num * Nat.pow 10 (-e).toNat / x.den
  let below := Ratio.ofDecimal floor e
  let above := Ratio.ofDecimal (floor + 1) e
  match i.contains below, i.contains above with
  | false, false => none
  | true, false => some floor
  | false, true => some (floor + 1)
  | true, true =>
    let down := x.distance below
    let up := x.distance above
    if down.lt up then some floor
    else if up.lt down then some (floor + 1)
    else if floor % 2 = 0 then some floor else some (floor + 1)

/-- Tries counts of digits from `n` on. -/
def shortestFrom (i : RoundingInterval) (x : Ratio) (point : Int) (n : Nat) :
    (fuel : Nat) → Nat × Nat
  | 0 => (0, n)
  | fuel + 1 =>
    match nearestOfCount i x point n with
    | some c => (c, n)
    | none => shortestFrom i x point (n + 1) fuel

/-- The shortest digits of the positive double `m · 2^q`. -/
def shortest (m : Nat) (q : Int) : Digits :=
  let x := Ratio.ofBinary m q
  let point := pointOf x
  let (c, n) := shortestFrom (RoundingInterval.ofBinary m q) x point 1 17
  let digits := Nat.toDigits 10 c
  let kept := (digits.reverse.dropWhile (· == '0')).reverse
  ⟨kept, point + digits.length - n⟩

end PathQuery.Decimal
