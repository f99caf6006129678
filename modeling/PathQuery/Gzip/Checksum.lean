/-! # Checksums

`crc32` is the cyclic redundancy check of compressed files: the remainder of the bytes, low bits
first, by the polynomial 0xEDB88320, with the register inverted before and after. -/

namespace PathQuery.Gzip

/-- The register after one bit. -/
def crcBit (r : UInt32) : UInt32 := if r &&& 1 == 1 then (r >>> 1) ^^^ 0xEDB88320 else r >>> 1

/-- The register after `n` bits. -/
def crcBits : Nat → UInt32 → UInt32
  | 0, r => r
  | n + 1, r => crcBits n (crcBit r)

/-- The register after one byte. -/
def crcByte (r : UInt32) (b : UInt8) : UInt32 := crcBits 8 (r ^^^ b.toUInt32)

/-- The checksum of bytes. -/
def crc32 (bytes : ByteArray) : UInt32 := bytes.data.foldl crcByte 0xFFFFFFFF ^^^ 0xFFFFFFFF

example : crc32 "123456789".toUTF8 = 0xCBF43926 := by decide +kernel

end PathQuery.Gzip
