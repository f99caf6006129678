/-! # Reading bits

`Bits` are bytes with a position, counted in bits.  A byte gives its low bits first, and a number
of several bits its low bits first (`number?`).  Bytes are read from the next byte boundary on
(`bytes?`).  All readers answer nothing when the bytes end too early. -/

namespace PathQuery.Gzip

/-- Bytes that have been read up to a bit. -/
structure Bits where
  bytes : ByteArray
  position : Nat

namespace Bits

/-- The number of bits that have not been read. -/
def left (b : Bits) : Nat := 8 * b.bytes.size - b.position

def bit? (b : Bits) : Option (Nat × Bits) :=
  match b.bytes[b.position / 8]? with
  | none => none
  | some byte =>
    some (((byte >>> (b.position % 8).toUInt8) &&& 1).toNat, { b with position := b.position + 1 })

/-- The number in the next `n` bits. -/
def number? : (n : Nat) → Bits → Option (Nat × Bits)
  | 0, b => some (0, b)
  | n + 1, b => do
    let (low, b) ← b.bit?
    let (high, b) ← number? n b
    some (low + 2 * high, b)

/-- Goes on to the next byte boundary. -/
def align (b : Bits) : Bits := { b with position := (b.position + 7) / 8 * 8 }

/-- The next `n` bytes, after a byte boundary. -/
def bytes? (n : Nat) (b : Bits) : Option (ByteArray × Bits) :=
  let b := b.align
  let start := b.position / 8
  if start + n ≤ b.bytes.size then
    some (b.bytes.extract start (start + n), { b with position := 8 * (start + n) })
  else none

/-- The number in the next `n` bytes, the low ones first. -/
def littleEndian? (n : Nat) (b : Bits) : Option (Nat × Bits) := do
  let (bytes, b) ← b.bytes? n
  some (bytes.data.foldr (fun byte high => byte.toNat + 256 * high) 0, b)

/-- The bytes up to a zero byte, at most `limit` of them, after a byte boundary. -/
def untilZero? (limit : Nat) (b : Bits) : Option Bits :=
  let b := b.align
  let start := b.position / 8
  let rec go : (n : Nat) → (i : Nat) → Option Bits
    | 0, _ => none
    | n + 1, i =>
      match b.bytes[i]? with
      | none => none
      | some byte => if byte == 0 then some { b with position := 8 * (i + 1) } else go n (i + 1)
  go (limit + 1) start

end Bits

end PathQuery.Gzip
