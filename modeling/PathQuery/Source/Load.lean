import PathQuery.Source.Name
import PathQuery.Source.Records

/-! # Loading documents

A document is loaded from a text, from a file or from the standard input.  The name of a file says
whether its bytes are compressed and whether its text holds records; the standard input is
compressed if it begins with the two bytes that compressed data begin with, and holds one document.

The three formats are parameters, collected in `Formats`. -/

namespace PathQuery

/-- How the formats are read. -/
structure Formats where
  /-- Reads a document. -/
  document : String → Option Doc
  /-- Reads a record. -/
  record : String → Option Doc
  /-- Expands compressed bytes. -/
  expand : ByteArray → Option ByteArray

/-- Whether bytes begin as compressed data do. -/
def isCompressedData (bytes : ByteArray) : Bool :=
  bytes[0]? == some 0x1F && bytes[1]? == some 0x8B

namespace Formats

variable (f : Formats)

/-- The document of a text that stands somewhere. -/
def parse (origin : Origin) (text : String) : Except LoadError Doc :=
  match f.document text with
  | some d => .ok d
  | none => .error (.malformed origin)

/-- The text in compressed bytes. -/
def expandText (bytes : ByteArray) : Except LoadError String :=
  match (f.expand bytes).bind String.fromUTF8? with
  | some text => .ok text
  | none => .error .damagedArchive

/-- The text of a file with the given bytes, which are absent if the file cannot be read. -/
def fileText (name : String) (bytes? : Option ByteArray) : Except LoadError String :=
  if isCompressedName name then
    match bytes? with
    | some bytes => f.expandText bytes
    | none => .error .unreadableArchive
  else
    match bytes?.bind String.fromUTF8? with
    | some text => .ok text
    | none => .error (.unreadable name)

/-- The document of a text from a file. -/
def parseFile (name : String) (text : String) : Except LoadError Doc :=
  if isRecordsName name then readRecords f.record text else f.parse (.file name) text

/-- The document of a file with the given bytes. -/
def load (name : String) (bytes? : Option ByteArray) : Except LoadError Doc :=
  (f.fileText name bytes?).bind (f.parseFile name)

/-- The text of the standard input. -/
def inputText (bytes : ByteArray) : Except LoadError String :=
  if isCompressedData bytes then f.expandText bytes
  else
    match String.fromUTF8? bytes with
    | some text => .ok text
    | none => .error .notText

/-- The document of the standard input. -/
def loadInput (bytes : ByteArray) : Except LoadError Doc :=
  (f.inputText bytes).bind (f.parse .input)

end Formats

end PathQuery
