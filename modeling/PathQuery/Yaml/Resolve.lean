import PathQuery.Doc.Basic
import PathQuery.Yaml.Tag

/-! # What scalars of YAML mean

A plain scalar without a tag is null, a truth value, an integer, a double, or else a text
(`plainDoc?`); a scalar in quotes is a text.  A core tag asks for a type, and the scalar must be
written as one of that type; a tag of the document itself makes a tagged value (`scalarDoc?`).

Integers have to fit into a word of 64 bits, signed or unsigned.  One that does not, but would fit
into 128 bits, has no meaning; beyond that the digits are those of a double.  Digits that begin
with a zero are a text. -/

namespace PathQuery.Yaml

/-! ### Integers -/

/-- What a text is as an integer. -/
inductive IntReading where
  | int (n : Int)
  | tooLarge
  | notInt
  deriving DecidableEq, Repr

/-- Digits that begin with a zero, after a sign or without one. -/
def hasLeadingZero (cs : List Char) : Bool :=
  let ds := match cs with
    | '-' :: r => r
    | '+' :: r => r
    | r => r
  1 < ds.length && ds.head? == some '0' && ds.all Char.isDigit

/-- The magnitude of an integer without its sign, in base 16, 8, 2 or 10. -/
def magnitude? : List Char → Option Nat
  | '0' :: 'x' :: ds => Text.radixValue? 16 ds
  | '0' :: 'o' :: ds => Text.radixValue? 8 ds
  | '0' :: 'b' :: ds => Text.radixValue? 2 ds
  | ds => if hasLeadingZero ds then none else Text.radixValue? 10 ds

def readInt (cs : List Char) : IntReading :=
  let (negative, ds) := Decimal.splitSign cs
  match magnitude? ds with
  | none => .notInt
  | some n =>
    if negative then
      if n ≤ halfWordCount then .int (-(n : Int))
      else if n ≤ halfWordCount * wordCount then .tooLarge
      else .notInt
    else if n < wordCount then .int n
    else if n < wordCount * wordCount then .tooLarge
    else .notInt

/-! ### Other types -/

def isNullWord (cs : List Char) : Bool :=
  ["null", "Null", "NULL", "~"].any fun w => w.toList == cs

def boolOfWord? (cs : List Char) : Option Bool :=
  if ["true", "True", "TRUE"].any fun w => w.toList == cs then some true
  else if ["false", "False", "FALSE"].any fun w => w.toList == cs then some false
  else none

/-- The double of a text: a decimal, or one of the words for the infinities and for NaN.  A decimal
too large for a double is no double. -/
def readFloat? (cs : List Char) : Option Binary64 :=
  let isWord (ws : List String) (cs : List Char) := ws.any fun w => w.toList == cs
  let unsigned := match cs with
    | '+' :: r => r
    | r => r
  if isWord [".inf", ".Inf", ".INF"] unsigned then some (.infinity false)
  else if isWord ["-.inf", "-.Inf", "-.INF"] cs then some (.infinity true)
  else if isWord [".nan", ".NaN", ".NAN"] cs then some .nan
  else
    match Decimal.ofChars? cs with
    | some w => if w.toBinary64.isFinite then some w.toBinary64 else none
    | none => none

/-! ### Scalars -/

/-- The meaning of a plain scalar without a tag. -/
def plainDoc? (cs : List Char) : Option Doc :=
  if cs.isEmpty || isNullWord cs then some .null
  else
    match boolOfWord? cs with
    | some b => some (.bool b)
    | none =>
      match readInt cs with
      | .int n => some (.int n)
      | .tooLarge => none
      | .notInt =>
        match (if hasLeadingZero cs then none else readFloat? cs) with
        | some x => some (.float x)
        | none => some (.string (String.ofList cs))

/-- The meaning of a scalar without a tag. -/
def untaggedDoc? (plain : Bool) (cs : List Char) : Option Doc :=
  if plain then plainDoc? cs else some (.string (String.ofList cs))

/-- The meaning of a scalar with a core tag of the given name. -/
def coreDoc? (name : List UInt8) (cs : List Char) : Option Doc :=
  if name == bytesOf "bool".toList then (boolOfWord? cs).map Doc.bool
  else if name == bytesOf "int".toList then
    match readInt cs with
    | .int n => some (.int n)
    | _ => none
  else if name == bytesOf "float".toList then (readFloat? cs).map Doc.float
  else if name == bytesOf "null".toList then (if isNullWord cs then some .null else none)
  else some (.string (String.ofList cs))

/-- Whether a tag is one of the document itself. -/
def isLocal (tag : List UInt8) : Bool := (bytesOf ['!']).isPrefixOf tag

/-- The name of a tag of the document itself, given what follows its exclamation mark.  A second mark
in front of a name has no meaning; without a name the mark itself is the name. -/
def tagName : List Char → List Char
  | [] => ['!']
  | '!' :: c :: cs => c :: cs
  | cs => cs

/-- Puts the tag of a document around a value.  Tags of other origin, and tags that are no text, say
nothing about a value. -/
def withTag (tag : Option (List UInt8)) (value : Doc) : Doc :=
  match (tag.filter isLocal).bind fun bytes => String.fromUTF8? ⟨bytes.toArray⟩ with
  | some text => .tagged (String.ofList ('!' :: tagName (text.toList.drop 1))) value
  | none => value

/-- The meaning of a scalar. -/
def scalarDoc? (tag : Option (List UInt8)) (plain : Bool) (cs : List Char) : Option Doc :=
  match tag with
  | none => untaggedDoc? plain cs
  | some bytes =>
    if isLocal bytes then (untaggedDoc? plain cs).map (withTag tag)
    else if TagTable.core.isPrefixOf bytes then coreDoc? (bytes.drop TagTable.core.length) cs
    else some (.string (String.ofList cs))

end PathQuery.Yaml
