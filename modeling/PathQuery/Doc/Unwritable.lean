/-! # Documents that have no text

Some documents cannot be written in some format.  `Unwritable` are the reasons: in JSON a key has to
be a text or a scalar that has one, in YAML no tag may stand right inside another. -/

namespace PathQuery

/-- Why a document cannot be written. -/
inductive Unwritable where
  | keyWithoutText
  | keyNotFinite
  | tagInTag
  deriving DecidableEq, Repr

def Unwritable.message : Unwritable → String
  | .keyWithoutText => "key must be a string"
  | .keyNotFinite => "float key must be finite (got NaN or +/-inf)"
  | .tagInTag => "serializing nested enums in YAML is not supported yet"

end PathQuery
