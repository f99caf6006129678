import PathQuery.Gzip.Bits

/-! # Canonical codes

A canonical code gives bit words to symbols so that a shorter word comes before every longer one
and words of one length go up with the symbols.  It is known from the lengths of the words alone,
where the length 0 means that a symbol has no word.

`Code.ofLengths` counts the words of each length and lists the symbols in the order of their words;
`Code.symbol?` reads a word bit by bit. -/

namespace PathQuery.Gzip

def maxWordLength : Nat := 15

/-- A canonical code. -/
structure Code where
  /-- How many words have the lengths 1, 2, 3, … -/
  counts : List Nat
  /-- The symbols in the order of their words. -/
  symbols : Array Nat

namespace Code

/-- The symbols whose words have a length. -/
def symbolsOfLength (lengths : Array Nat) (length : Nat) : Array Nat :=
  (Array.range lengths.size).filter fun s => lengths[s]? == some length

/-- The code whose words have the given lengths, those of the symbols 0, 1, 2, … -/
def ofLengths (lengths : Array Nat) : Code :=
  let groups := (List.range maxWordLength).map fun n => symbolsOfLength lengths (n + 1)
  ⟨groups.map Array.size, groups.foldl (· ++ ·) #[]⟩

/-- How many words of the longest length are free after words of the given lengths; nothing if
there are more words than the lengths allow. -/
def freeWords : (counts : List Nat) → (free : Nat) → Option Nat
  | [], free => some free
  | n :: counts, free => if n ≤ 2 * free then freeWords counts (2 * free - n) else none

/-- Whether every sequence of bits begins with a word. -/
def isComplete (c : Code) : Bool := freeWords c.counts 1 == some 0

/-- Whether the code has at most one word. -/
def isTrivial (c : Code) : Bool := c.symbols.size ≤ 1

/-- Reads a word.  `word` are the bits so far, `first` is the first word of this length and `index`
the number of shorter words. -/
def symbolFrom? (symbols : Array Nat) :
    (counts : List Nat) → (word first index : Nat) → Bits → Option (Nat × Bits)
  | [], _, _, _, _ => none
  | count :: counts, word, first, index, b =>
    match b.bit? with
    | none => none
    | some (bit, b) =>
      let word := 2 * word + bit
      let first := 2 * first
      if word < first + count then
        (symbols[index + (word - first)]?).map fun s => (s, b)
      else symbolFrom? symbols counts word (first + count) (index + count) b

/-- The symbol of the next word. -/
def symbol? (c : Code) (b : Bits) : Option (Nat × Bits) := symbolFrom? c.symbols c.counts 0 0 0 b

end Code

end PathQuery.Gzip
