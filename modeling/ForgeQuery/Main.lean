import ForgeQuery.Command.Conclusion
import ForgeQuery.Json.Printer

/-!
# The command

The outer layer: it collects the surroundings of a run and puts its conclusion into effect.
-/

namespace ForgeQuery

/-- The contents of a file, if it can be read. -/
def readFile? (path : String) : IO (Option (List UInt8)) := do
  try
    let bytes ← IO.FS.readBinFile path
    return some bytes.toList
  catch _ => return none

/-- Everything that is left of a stream, behind what has been read of it. -/
partial def readRest (stream : IO.FS.Stream) (sofar : ByteArray) : IO ByteArray := do
  let bytes ← stream.read 65536
  if bytes.isEmpty then return sofar else readRest stream (sofar ++ bytes)

/-- Everything on the standard input. -/
def readInput : IO (List UInt8) := do
  let bytes ← readRest (← IO.getStdin) ByteArray.empty
  return bytes.toList

/-- The environment variables that settings fall back on. -/
def readEnvironment : IO (List (String × String)) := do
  let names := Setting.all.filterMap Setting.fallback?
  names.filterMapM fun name => do return (← IO.getEnv name).map fun value => (name, value)

end ForgeQuery

open ForgeQuery

/-- Execute the command. -/
def main (arguments : List String) : IO UInt32 := do
  let settings ← readEnvironment
  let environment (name : String) : Option String := settings.lookup name
  let (paths, wantsInput) :=
    match Options.parse environment arguments with
    | .ok o => (o.files, o.readsInput)
    | .error _ => ([], false)
  let files ← paths.mapM fun path => do return (path, ← readFile? path)
  let input ← if wantsInput then readInput else pure []
  let conclusion := runCommand
    { arguments, environment, file := fun path => (files.lookup path).join, input }
  for report in conclusion.log do
    IO.eprintln report.toJson.compact
  IO.print conclusion.ending.output
  if let some message := conclusion.ending.message? then
    IO.eprintln ("Error: " ++ message)
  return UInt32.ofNat conclusion.ending.code
