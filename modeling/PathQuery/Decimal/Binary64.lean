import PathQuery.Word

/-! # Binary floating-point numbers of 64 bits

A `Binary64` is the bit pattern of an IEEE 754 double.  `value` decodes it into an infinity, a NaN
or a magnitude `m · 2^q` with a sign, where `m < 2^53` and `-1074 ≤ q`.

`ofRatio` is rounding: the double nearest to a quotient, of two equally near ones the one with the
even mantissa; a quotient too large for a finite double gives an infinity. -/

namespace PathQuery

/-- A double, given by its bits. -/
structure Binary64 where
  bits : UInt64
  deriving DecidableEq, Repr

namespace Binary64

/-- What a bit pattern stands for. -/
inductive Value where
  | nan
  | infinite (negative : Bool)
  | finite (negative : Bool) (m : Nat) (q : Int)
  deriving DecidableEq, Repr

/-- The number of the bits without the sign. -/
def magnitudeBits (x : Binary64) : Nat := x.bits.toNat % halfWordCount

/-- The sign bit. -/
def isNegative (x : Binary64) : Bool := halfWordCount ≤ x.bits.toNat

/-- The leading bit of a mantissa, which is not stored. -/
def hiddenBit : Nat := 0x10000000000000

/-- The bits of the magnitude of an infinity, above those of all finite doubles. -/
def infinityBits : Nat := 0x7FF * hiddenBit

/-- Decodes a bit pattern. -/
def value (x : Binary64) : Value :=
  let n := x.magnitudeBits
  if n = infinityBits then .infinite x.isNegative
  else if infinityBits < n then .nan
  else
    let e : Nat := n / hiddenBit
    if e = 0 then .finite x.isNegative n (-1074)
    else .finite x.isNegative (n % hiddenBit + hiddenBit) ((e : Int) - 1075)

def isFinite (x : Binary64) : Bool := x.magnitudeBits < infinityBits

/-- The double with a sign and the bits of a magnitude. -/
def ofMagnitude (negative : Bool) (n : Nat) : Binary64 :=
  ⟨UInt64.ofNat (if negative then n + halfWordCount else n)⟩

/-- The NaN without sign or payload. -/
def nan : Binary64 := ofMagnitude false (infinityBits + hiddenBit / 2)

def infinity (negative : Bool) : Binary64 := ofMagnitude negative infinityBits

def zero (negative : Bool) : Binary64 := ofMagnitude negative 0

/-- The quotient of two naturals rounded to the nearest natural, a tie to the even one. -/
def roundQuotient (num den : Nat) : Nat :=
  let m := num / den
  let r := num % den
  if den < 2 * r ∨ (den = 2 * r ∧ m % 2 = 1) then m + 1 else m

/-- The bits of the magnitude nearest to `num / den`, which must be positive.  The mantissa is
taken with 53 bits, or with the fewer that the least exponent leaves; a mantissa that rounds up to
the next power of two carries into the exponent bits, as it should. -/
def magnitudeOfRatio (num den : Nat) : Nat :=
  let guess : Int := (num.log2 : Int) - den.log2 - 53
  let q0 := max guess (-1074)
  let scaled (q : Int) : Nat × Nat :=
    if 0 ≤ q then (num, den * Nat.pow 2 q.toNat) else (num * Nat.pow 2 (-q).toNat, den)
  let (a0, b0) := scaled q0
  let q := if 2 * hiddenBit ≤ a0 / b0 then q0 + 1 else q0
  let (a, b) := scaled q
  min ((q + 1074).toNat * hiddenBit + roundQuotient a b) infinityBits

/-- The double nearest to a quotient, with a sign. -/
def ofRatio (negative : Bool) (num den : Nat) : Binary64 :=
  ofMagnitude negative (if num = 0 then 0 else magnitudeOfRatio num den)

/-- The double nearest to `digits · 10^exponent`, with a sign.  Decimal exponents far outside the
range of doubles are decided without the power: nothing of at least 10^310 is finite, and nothing
below 10^-330 rounds to more than zero. -/
def ofDecimal (negative : Bool) (digits : Nat) (exponent : Int) : Binary64 :=
  let point : Int := (Nat.toDigits 10 digits).length + exponent
  if digits = 0 ∨ point < -330 then zero negative
  else if 310 < point then infinity negative
  else if 0 ≤ exponent then ofRatio negative (digits * Nat.pow 10 exponent.toNat) 1
  else ofRatio negative digits (Nat.pow 10 (-exponent).toNat)

/-- Whether two doubles are the same number: both zeros are one number, and so are all NaNs. -/
def same (x y : Binary64) : Bool :=
  match x.value, y.value with
  | .nan, .nan => true
  | .finite _ 0 _, .finite _ 0 _ => true
  | _, _ => x.bits == y.bits

end Binary64

end PathQuery
