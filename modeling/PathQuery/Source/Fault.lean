/-! # Why no document could be loaded

A `LoadError` is the cause.  `LoadError.chain` says it in a row of messages from the general to the
particular; `message` joins them all and `headline` is the first one. -/

namespace PathQuery

/-- Where the text of a document stands. -/
inductive Origin where
  /-- A text at hand. -/
  | text
  /-- A file. -/
  | file (name : String)
  /-- The standard input. -/
  | input
  deriving DecidableEq, Repr

/-- Why no document could be loaded. -/
inductive LoadError where
  /-- A file is missing or is no text. -/
  | unreadable (name : String)
  /-- A compressed file is missing. -/
  | unreadableArchive
  /-- Compressed data are damaged or hold no text. -/
  | damagedArchive
  /-- The standard input cannot be read. -/
  | unreadableInput
  /-- The standard input is no text. -/
  | notText
  /-- A text is no document. -/
  | malformed (origin : Origin)
  /-- A line of a file of records is no record. -/
  | badRecord (line : Nat)
  /-- A file of records has none. -/
  | noRecords
  deriving DecidableEq, Repr

namespace LoadError

/-- The messages for a text that is no document. -/
def malformedChain : Origin → List String
  | .text => ["Invalid YAML/JSON document"]
  | .file name => ["Failed to parse " ++ name, "Invalid YAML/JSON document"]
  | .input => ["Failed to parse document from stdin", "Invalid YAML/JSON document"]

/-- The messages for a cause, the most general one first. -/
def chain : LoadError → List String
  | .unreadable name => ["Failed to read " ++ name]
  | .unreadableArchive => ["Failed to open gzipped file"]
  | .damagedArchive => ["Failed to decompress gzip data - input may be corrupted"]
  | .unreadableInput => ["Failed to read from stdin"]
  | .notText => ["Invalid UTF-8 in stdin"]
  | .malformed origin => malformedChain origin
  | .badRecord line => ["Invalid JSON on line " ++ toString line]
  | .noRecords => ["No valid JSON found in JSONL content"]

def message (e : LoadError) : String := String.intercalate ": " e.chain

/-- The most general message. -/
def headline (e : LoadError) : String := e.chain.headD ""

/-- A cause with another file name in place of the one it names. -/
def rename (name : String) : LoadError → LoadError
  | .unreadable _ => .unreadable name
  | .malformed (.file _) => .malformed (.file name)
  | e => e

end LoadError

end PathQuery
