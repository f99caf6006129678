import PathQuery.Command.Run
import PathQuery.Source.Standard

/-! # The command line

Reads the arguments, the settings of the user, the files and the standard input, and prints what
the query shows. -/

namespace PathQuery.Main

def readFile (name : String) : IO (Option ByteArray) := do
  try
    return some (← IO.FS.readBinFile name)
  catch _ =>
    return none

/-- The bytes of a stream after those that have been read. -/
partial def readAll (stream : IO.FS.Stream) (bytes : ByteArray) : IO ByteArray := do
  let more ← stream.read 65536
  if more.isEmpty then return bytes
  readAll stream (bytes ++ more)

/-- The bytes of the standard input, if it can be read. -/
def readInput : IO (Option ByteArray) := do
  try
    return some (← readAll (← IO.getStdin) ByteArray.empty)
  catch _ =>
    return none

/-- The files and the standard input of the process. -/
def world : World IO where
  file := readFile
  input := readInput

def settings : IO Settings := do
  match ← IO.getEnv "HOME" with
  | some home => return Settings.load (← readFile (home ++ "/.config/pathlite/config.toml"))
  | none => return Settings.default

end PathQuery.Main

open PathQuery in
/-- Runs the command line and answers its exit status. -/
def main (args : List String) : IO UInt32 := do
  match Invocation.ofArgs args with
  | .error e =>
    IO.eprint ("error: " ++ e.message ++ "\n\n" ++ helpText)
    return 2
  | .ok .version =>
    IO.print versionText
    return 0
  | .ok .help =>
    IO.print helpText
    return 0
  | .ok (.query o) =>
    let outcome ← o.run Formats.standard (← Main.settings) Main.world
    IO.print outcome.output
    if let some e := outcome.failure then
      IO.eprint ("Error: " ++ e.message ++ "\n")
    return outcome.status.toUInt32
