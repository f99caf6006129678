import PathQuery.Decimal.Layout

/-! # Documents

A `Doc` is a tree of scalars, sequences, mappings and tagged values.  The entries of a mapping stand
in the order of the text; their keys may be any documents.  A tag begins with `!`.

Numbers have one text (`numberText?`), the one by which a path can name a numeric key.  Keys are
compared by `sameKey`: numbers by value, mappings without regard to order. -/

namespace PathQuery

/-- A document. -/
inductive Doc where
  | null
  | bool (b : Bool)
  | int (n : Int)
  | float (x : Binary64)
  | string (s : String)
  | seq (items : List Doc)
  | map (entries : List (Doc × Doc))
  | tagged (tag : String) (value : Doc)
  deriving Repr

namespace Doc

/-- Doubles are written out up to 16 places before the point and 4 zeros after it. -/
def floatLayout : Decimal.Layout := ⟨16, -4, false, ".nan", ".inf"⟩

def floatText (x : Binary64) : String := String.ofList (floatLayout.write x)

def boolText (b : Bool) : String := if b then "true" else "false"

/-- The text by which a number or a truth value can be named. -/
def numberText? : Doc → Option String
  | .int n => some (toString n)
  | .float x => some (floatText x)
  | .bool b => some (boolText b)
  | _ => none

/-! ### Keys -/

mutual

/-- Whether two documents are the same key of a mapping. -/
def sameKey : Doc → Doc → Bool
  | .null, .null => true
  | .bool a, .bool b => a == b
  | .int a, .int b => a == b
  | .float a, .float b => a.same b
  | .string a, .string b => a == b
  | .seq as, .seq bs => sameItems as bs
  | .map as, .map bs => as.length == bs.length && sameEntries as bs
  | .tagged s a, .tagged t b => s == t && sameKey a b
  | _, _ => false

/-- Whether two sequences have the same items. -/
def sameItems : List Doc → List Doc → Bool
  | [], [] => true
  | a :: as, b :: bs => sameKey a b && sameItems as bs
  | _, _ => false

/-- Whether every entry of the first mapping is an entry of the second one. -/
def sameEntries : List (Doc × Doc) → List (Doc × Doc) → Bool
  | [], _ => true
  | (k, v) :: as, bs => sameEntry k v bs && sameEntries as bs

/-- Whether an entry is among the entries of a mapping. -/
def sameEntry (k v : Doc) : List (Doc × Doc) → Bool
  | [] => false
  | (k', v') :: bs => (sameKey k k' && sameKey v v') || sameEntry k v bs

end

def hasKey (entries : List (Doc × Doc)) (k : Doc) : Bool := entries.any fun e => sameKey k e.1

end Doc

end PathQuery
