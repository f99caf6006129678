import PathQuery.Gzip.Checksum
import PathQuery.Gzip.Inflate

/-! # Compressed files

A compressed file begins with a header, in which the bits of one byte (`Flag`) tell what else it
holds; then come the compressed data, and at last the checksum and the size of the expanded bytes.
`expand?` checks all of these and answers the expanded bytes.  What follows is not looked at. -/

namespace PathQuery.Gzip

/-- The bits of the header that tell what it holds. -/
inductive Flag where
  /-- The file is thought to be a text. -/
  | text
  /-- The header ends with a checksum. -/
  | checksum
  /-- There is an extra field. -/
  | extra
  /-- There is a file name. -/
  | name
  /-- There is a comment. -/
  | comment
  deriving DecidableEq, Repr

def Flag.place : Flag → Nat
  | .text => 0
  | .checksum => 1
  | .extra => 2
  | .name => 3
  | .comment => 4

/-- The bytes of flags are below this bound: the bits that are no flags have to be zero. -/
def flagBound : Nat := 32

def hasFlag (flags : Nat) (f : Flag) : Bool := flags.testBit f.place

/-- The longest name or comment, in bytes. -/
def maxHeaderField : Nat := 65535

/-- The two bytes that compressed files begin with, as one number. -/
def magicNumber : Nat := 0x8B1F

/-- The number of the only method of compression. -/
def deflateMethod : Nat := 8

/-- Reads something if a flag says that it is there. -/
def whenFlag (flags : Nat) (f : Flag) (read : Bits → Option Bits) (b : Bits) : Option Bits :=
  if hasFlag flags f then read b else some b

def skipExtra? (b : Bits) : Option Bits := do
  let (length, b) ← b.littleEndian? 2
  (b.bytes? length).map Prod.snd

/-- Checks the checksum of the header, half of the checksum of the bytes before. -/
def checkHeader? (b : Bits) : Option Bits := do
  let header := b.bytes.extract 0 (b.position / 8)
  let (sum, b) ← b.littleEndian? 2
  if sum == (crc32 header).toNat % 0x10000 then some b else none

/-- Reads a header at the beginning. -/
def skipHeader? (b : Bits) : Option Bits := do
  let (magic, b) ← b.littleEndian? 2
  let (method, b) ← b.littleEndian? 1
  let (flags, b) ← b.littleEndian? 1
  if magic == magicNumber && method == deflateMethod && flags < flagBound then
    let (_, b) ← b.bytes? 6
    let b ← whenFlag flags .extra skipExtra? b
    let b ← whenFlag flags .name (Bits.untilZero? maxHeaderField) b
    let b ← whenFlag flags .comment (Bits.untilZero? maxHeaderField) b
    whenFlag flags .checksum checkHeader? b
  else none

/-- The expanded bytes of a compressed file. -/
def expand? (bytes : ByteArray) : Option ByteArray := do
  let b ← skipHeader? ⟨bytes, 0⟩
  let (out, b) ← inflate? b
  let (sum, b) ← b.littleEndian? 4
  let (size, _) ← b.littleEndian? 4
  if sum == (crc32 out).toNat && size == out.size % 0x100000000 then some out else none

end PathQuery.Gzip
