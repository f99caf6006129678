import PathQuery.Cache
import PathQuery.Toml.Reader
import PathQuery.Toml.Writer

/-! # Settings

The settings of the command line stand in a file of TOML.  A file that is missing, is no text, is
no TOML or gives a setting a value of the wrong type leaves all settings at their defaults; so does
a setting that is not given.  Other keys are not looked at.

A capacity that is no integer of TOML cannot be saved, and then nothing is written. -/

namespace PathQuery

/-- The settings of the command line. -/
structure Settings where
  outputFormat : String
  cacheCapacity : Nat
  firstOnly : Bool
  deriving DecidableEq, Repr

namespace Settings

/-- The settings where none are given. -/
def default : Settings := ⟨"yaml", Cache.defaultCapacity, false⟩

/-- Whether two texts are the same but for the case of ASCII letters. -/
def sameWord (a b : String) : Bool := a.toList.map Char.toLower == b.toList.map Char.toLower

def isJson (s : Settings) : Bool := sameWord s.outputFormat "json"

/-! ### Reading -/

/-- A setting of a table, if it has the right type. -/
def field? {α : Type} (entries : List (String × Toml.Value)) (key : String) (missing : α)
    (ofValue : Toml.Value → Option α) : Option α :=
  match entries.lookup key with
  | none => some missing
  | some v => ofValue v

def textOf : Toml.Value → Option String
  | .string s => some s
  | _ => none

def natOf : Toml.Value → Option Nat
  | .integer n => if 0 ≤ n then some n.toNat else none
  | _ => none

def boolOf : Toml.Value → Option Bool
  | .boolean b => some b
  | _ => none

/-- The settings of a table. -/
def ofTable? (entries : List (String × Toml.Value)) : Option Settings := do
  let outputFormat ← field? entries "output_format" default.outputFormat textOf
  let cacheCapacity ← field? entries "cache_capacity" default.cacheCapacity natOf
  let firstOnly ← field? entries "first_only" default.firstOnly boolOf
  some ⟨outputFormat, cacheCapacity, firstOnly⟩

def ofText (text : String) : Settings := ((Toml.read? text).bind ofTable?).getD default

def load (file : Option ByteArray) : Settings :=
  match file.bind String.fromUTF8? with
  | some text => ofText text
  | none => default

/-! ### Saving -/

/-- Why settings cannot be saved. -/
inductive SaveError where
  | capacityTooLarge
  deriving DecidableEq, Repr

/-- The lines of a file with the settings. -/
def lines (s : Settings) : List Char :=
  "output_format = ".toList ++ Toml.quote s.outputFormat.toList ++ ['\n']
    ++ "cache_capacity = ".toList ++ (toString s.cacheCapacity).toList ++ ['\n']
    ++ "first_only = ".toList ++ (toString s.firstOnly).toList ++ ['\n']

def text (s : Settings) : Except SaveError String :=
  if s.cacheCapacity ≤ Toml.maxInteger then .ok (String.ofList s.lines)
  else .error .capacityTooLarge

/-- Saves the settings into a file, which may be missing: the cause of a refusal, if there is one,
and the file afterwards. -/
def save (s : Settings) (file : Option ByteArray) : Option SaveError × Option ByteArray :=
  match s.text with
  | .ok text => (none, some text.toUTF8)
  | .error e => (some e, file)

end Settings

end PathQuery
