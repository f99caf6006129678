import PathQuery.Decimal.Shortest

/-! # Scaling a double by a power of ten

`scale x e` multiplies or divides a positive double by the double nearest to `10^|e|`, with one
rounding, and answers nothing when the product is too large.  Powers below `10^-308` are taken in
several divisions.  The result may differ in the last place from the double nearest to the exact
product; texts of records are read this way. -/

namespace PathQuery.Decimal

/-- The magnitude of a finite double as a quotient. -/
def ratioOf? (x : Binary64) : Option Ratio :=
  match x.value with
  | .finite _ m q => some (Ratio.ofBinary m q)
  | _ => none

/-- The double nearest to a quotient. -/
def ofRatio (r : Ratio) : Binary64 := .ofRatio false r.num r.den

/-- The largest exponent of ten of a double. -/
def maxTen : Nat := 308

/-- The double nearest to `10^k`. -/
def powerOfTen (k : Nat) : Binary64 := .ofDecimal false 1 k

def product (x y : Binary64) : Binary64 :=
  match ratioOf? x, ratioOf? y with
  | some a, some b => ofRatio ⟨a.num * b.num, a.den * b.den⟩
  | _, _ => .infinity false

def quotient (x y : Binary64) : Binary64 :=
  match ratioOf? x, ratioOf? y with
  | some a, some b => ofRatio ⟨a.num * b.den, a.den * b.num⟩
  | _, _ => .zero false

/-- Scales a double by `10^e`, in at most `fuel` divisions by the largest power of ten. -/
def scaleFrom (x : Binary64) (e : Int) : (fuel : Nat) → Option Binary64
  | 0 => some x
  | fuel + 1 =>
    if e.natAbs ≤ maxTen then
      if 0 ≤ e then
        let y := product x (powerOfTen e.natAbs)
        if y.isFinite then some y else none
      else some (quotient x (powerOfTen e.natAbs))
    else if x.magnitudeBits = 0 then some x
    else if 0 ≤ e then none
    else scaleFrom (quotient x (powerOfTen maxTen)) (e + maxTen) fuel

/-- Scales a double below `2^64` by `10^e`; three divisions by the largest power of ten leave
nothing of it. -/
def scale (x : Binary64) (e : Int) : Option Binary64 := scaleFrom x e 5

end PathQuery.Decimal
