/-! # Words of 64 bits

The integers of expressions are signed words; documents hold signed and unsigned ones. -/

namespace PathQuery

/-- The number of words. -/
def wordCount : Nat := 0x10000000000000000

/-- Half the number of words, the first number that is no signed word. -/
def halfWordCount : Nat := 0x8000000000000000

/-- The integers that are signed words. -/
def InWord (n : Int) : Prop := -0x8000000000000000 ≤ n ∧ n < 0x8000000000000000

instance (n : Int) : Decidable (InWord n) := inferInstanceAs (Decidable (_ ∧ _))

end PathQuery
