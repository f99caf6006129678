import PathQuery.Gzip.Code

/-! # Expanding

Compressed data are blocks.  A block is stored as it is, or it is a list of symbols in the words of
two codes: a byte, the end of the block, or a copy of bytes that were written before, given by its
length and its distance.  The two codes are fixed, or the block begins with the lengths of their
words, themselves in a code.

`inflate?` answers the expanded bytes and what follows the last block.  Every symbol and every block
takes at least one bit, so the number of bits bounds the number of steps. -/

namespace PathQuery.Gzip

/-- A number that is a base and further bits. -/
structure Range where
  base : Nat
  bits : Nat

/-- Ranges that follow each other, given by their numbers of bits. -/
def consecutiveRanges (base : Nat) : List Nat → List Range
  | [] => []
  | bits :: more => ⟨base, bits⟩ :: consecutiveRanges (base + Nat.pow 2 bits) more

/-- The lengths of copies, for the symbols from 257 on. -/
def copyLengths : Array Range :=
  (consecutiveRanges 3
    [0, 0, 0, 0, 0, 0, 0, 0, 1, 1, 1, 1, 2, 2, 2, 2, 3, 3, 3, 3, 4, 4, 4, 4, 5, 5, 5, 5]
      ++ [(⟨258, 0⟩ : Range)]).toArray

def copyDistances : Array Range :=
  (consecutiveRanges 1
    [0, 0, 0, 0, 1, 1, 2, 2, 3, 3, 4, 4, 5, 5, 6, 6, 7, 7, 8, 8, 9, 9, 10, 10, 11, 11, 12, 12,
      13, 13]).toArray

def Range.number? (r : Range) (b : Bits) : Option (Nat × Bits) :=
  (b.number? r.bits).map fun (n, b) => (r.base + n, b)

def endOfBlock : Nat := 256

/-- The two codes of a block. -/
structure Codes where
  /-- The code of bytes, of the end and of the lengths of copies. -/
  main : Code
  /-- The code of the distances of copies. -/
  distance : Code

/-- Appends a copy of `n` bytes from a distance back; the copy may run into itself. -/
def copyBack (distance : Nat) : (n : Nat) → ByteArray → ByteArray
  | 0, out => out
  | n + 1, out => copyBack distance n (out.push (out[out.size - distance]?.getD 0))

/-- Expands the symbols of a block, at most `fuel` of them. -/
def inflateSymbols (codes : Codes) :
    (fuel : Nat) → ByteArray → Bits → Option (ByteArray × Bits)
  | 0, _, _ => none
  | fuel + 1, out, b =>
    match codes.main.symbol? b with
    | none => none
    | some (s, b) =>
      if s < endOfBlock then inflateSymbols codes fuel (out.push s.toUInt8) b
      else if s == endOfBlock then some (out, b)
      else
        match copyLengths[s - (endOfBlock + 1)]? with
        | none => none
        | some range =>
          match range.number? b with
          | none => none
          | some (length, b) =>
            match codes.distance.symbol? b with
            | none => none
            | some (d, b) =>
              match copyDistances[d]?.bind fun range => range.number? b with
              | none => none
              | some (distance, b) =>
                if distance ≤ out.size then
                  inflateSymbols codes fuel (copyBack distance length out) b
                else none

/-! ### The codes -/

/-- The codes of a block that does not describe them. -/
def fixedCodes : Codes :=
  ⟨Code.ofLengths (Array.replicate 144 8 ++ Array.replicate 112 9 ++ Array.replicate 24 7
      ++ Array.replicate 8 8),
    Code.ofLengths (Array.replicate 32 5)⟩

/-- The order in which the lengths of the words for lengths are given. -/
def lengthOrder : List Nat := [16, 17, 18, 0, 8, 7, 9, 6, 10, 5, 11, 4, 12, 3, 13, 2, 14, 1, 15]

/-- Reads the lengths of the words for lengths. -/
def readLengthLengths : (n : Nat) → (order : List Nat) → Array Nat → Bits → Option (Array Nat × Bits)
  | 0, _, lengths, b => some (lengths, b)
  | _ + 1, [], _, _ => none
  | n + 1, s :: order, lengths, b => do
    let (length, b) ← b.number? 3
    readLengthLengths n order (lengths.setIfInBounds s length) b

/-- Reads lengths of words until there are `total`: a length, the last one again 3 to 6 times, or
3 to 10 or 11 to 138 zeros. -/
def readLengths (code : Code) (total : Nat) :
    (fuel : Nat) → Array Nat → Bits → Option (Array Nat × Bits)
  | 0, _, _ => none
  | fuel + 1, lengths, b => do
    if total ≤ lengths.size then
      if lengths.size == total then some (lengths, b) else none
    else
      let (s, b) ← code.symbol? b
      if s ≤ maxWordLength then readLengths code total fuel (lengths.push s) b
      else
        let (length, range) ← match s with
          | 16 => lengths.back?.map fun last => (last, (⟨3, 2⟩ : Range))
          | 17 => some (0, ⟨3, 3⟩)
          | _ => some (0, ⟨11, 7⟩)
        let (n, b) ← range.number? b
        readLengths code total fuel (lengths ++ Array.replicate n length) b

/-- Whether a code may be used: every sequence of bits has to begin with a word, unless there is at
most one word. -/
def Code.isUsable (c : Code) : Bool := c.isComplete || c.isTrivial

/-- Reads the codes of a block. -/
def readCodes? (b : Bits) : Option (Codes × Bits) := do
  let (mainCount, b) ← (⟨257, 5⟩ : Range).number? b
  let (distanceCount, b) ← (⟨1, 5⟩ : Range).number? b
  let (lengthCount, b) ← (⟨4, 4⟩ : Range).number? b
  if 286 < mainCount || copyDistances.size < distanceCount then none
  else
    let (lengthLengths, b) ← readLengthLengths lengthCount lengthOrder (Array.replicate 19 0) b
    let code := Code.ofLengths lengthLengths
    if !code.isComplete then none
    else
      let total := mainCount + distanceCount
      let (lengths, b) ← readLengths code total (total + 1) #[] b
      let codes : Codes :=
        ⟨Code.ofLengths (lengths.extract 0 mainCount), Code.ofLengths (lengths.extract mainCount total)⟩
      if codes.main.isUsable && codes.distance.isUsable then some (codes, b) else none

/-! ### Blocks -/

/-- Expands a stored block: its length, the length again with all bits inverted, the bytes. -/
def inflateStored (out : ByteArray) (b : Bits) : Option (ByteArray × Bits) := do
  let (length, b) ← b.littleEndian? 2
  let (check, b) ← b.littleEndian? 2
  if length + check == 0xFFFF then
    let (bytes, b) ← b.bytes? length
    some (out ++ bytes, b)
  else none

/-- Expands blocks up to the last one, at most `fuel` of them. -/
def inflateBlocks : (fuel : Nat) → ByteArray → Bits → Option (ByteArray × Bits)
  | 0, _, _ => none
  | fuel + 1, out, b => do
    let (last, b) ← b.bit?
    let (kind, b) ← b.number? 2
    let (out, b) ← match kind with
      | 0 => inflateStored out b
      | 1 => inflateSymbols fixedCodes b.left out b
      | 2 => do
        let (codes, b) ← readCodes? b
        inflateSymbols codes b.left out b
      | _ => none
    if last == 1 then some (out, b) else inflateBlocks fuel out b

/-- Expands compressed data; answers the bytes and what follows the data. -/
def inflate? (b : Bits) : Option (ByteArray × Bits) := inflateBlocks b.left ByteArray.empty b

end PathQuery.Gzip
