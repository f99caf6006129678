/-! # Hexadecimal digits

Reading takes digits of both cases, writing gives the upper one. -/

namespace PathQuery.Text

def hexValue? (c : Char) : Option Nat :=
  if '0' ≤ c ∧ c ≤ '9' then some (c.toNat - 48)
  else if 'a' ≤ c ∧ c ≤ 'f' then some (c.toNat - 87)
  else if 'A' ≤ c ∧ c ≤ 'F' then some (c.toNat - 55)
  else none

/-- The number that digits of a base up to 16 write, if there is at least one. -/
def radixValue? (base : Nat) (ds : List Char) : Option Nat :=
  if ds.isEmpty then none
  else ds.foldl (fun n d => do
    let v ← hexValue? d
    if v < base then some ((← n) * base + v) else none) (some 0)

/-- The character of a code point that is not a surrogate. -/
def scalarChar? (n : Nat) : Option Char :=
  if n < 0xD800 ∨ (0xDFFF < n ∧ n ≤ 0x10FFFF) then some (Char.ofNat n) else none

/-- The character whose code point is written in exactly `width` digits at the front, and what
follows them. -/
def codePoint? (width : Nat) (cs : List Char) : Option (Char × List Char) :=
  if (cs.take width).length < width then none
  else do
    let n ← radixValue? 16 (cs.take width)
    let c ← scalarChar? n
    some (c, cs.drop width)

def upperHex (n : Nat) : Char := (Nat.digitChar n).toUpper

/-- The last `width` hexadecimal digits of a number. -/
def hexPadded (n : Nat) : (width : Nat) → List Char
  | 0 => []
  | width + 1 => hexPadded (n / 16) width ++ [upperHex (n % 16)]

end PathQuery.Text
