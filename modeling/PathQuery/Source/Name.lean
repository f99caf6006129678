/-! # File names

The name of a file tells whether it is compressed and whether it holds records.  The first is a
matter of the last component of the name and of its extension, which a component that begins with
its only dot does not have; the second is a matter of the end of the name alone. -/

namespace PathQuery

/-- The components of a name that name something. -/
def nameComponents (name : List Char) : List (List Char) :=
  (name.splitOn '/').filter fun part => part != [] && part != ['.']

/-- What follows the last dot of a component, if something is before it. -/
def extension? (component : List Char) : Option (List Char) :=
  match component.reverse.dropWhile (· != '.') with
  | _ :: _ :: _ => some (component.reverse.takeWhile (· != '.')).reverse
  | _ => none

/-- Whether a name says that the file is compressed. -/
def isCompressedName (name : String) : Bool :=
  match (nameComponents name.toList).getLast? with
  | some component => extension? component == some ['g', 'z']
  | none => false

/-- A name without the ending of compressed files. -/
def withoutCompression (name : List Char) : List Char :=
  if [ '.', 'g', 'z'].isSuffixOf name then name.take (name.length - 3) else name

def recordEndings : List (List Char) := [".jsonl".toList, ".ndjson".toList]

/-- Whether a name says that the file holds records. -/
def isRecordsName (name : String) : Bool :=
  recordEndings.any fun ending => ending.isSuffixOf (withoutCompression name.toList)

end PathQuery
