import Instrument.Command.Run

namespace Instrument.Command

def readFile? (path : String) : IO (Option (String × FileBody)) := do
  try
    let text ← IO.FS.readFile path
    return some (Text.normalPath path, .text text)
  catch _ => return none

def isDirectory (path : String) : IO Bool := do
  try
    let found ← IO.FS.realPath path
    found.isDir
  catch _ => return false

def readFolder (paths : List String) : IO Folder := do
  let files ← paths.mapM readFile?
  let directories ← paths.filterM isDirectory
  return ⟨files.filterMap id, directories.map Text.normalPath⟩

def readSettings : IO Settings := do
  let names := [Settings.catalogVariable, Settings.strictVariable, Settings.levelVariable]
  let values ← names.mapM fun name => do return (name, ← IO.getEnv name)
  return Settings.ofEnvironment fun name => (values.lookup name).join

def reportUsage (e : UsageError) : IO UInt32 := do
  IO.eprintln ("Error: " ++ e.message)
  return 2

def finish (style : LogStyle) (t : Transcript) : IO UInt32 := do
  IO.print t.output
  IO.eprint (t.errors style)
  match t.ending with
  | .faulted f => IO.eprintln f.message
  | _ => pure ()
  return t.ending.code.toUInt32

end Instrument.Command

open Instrument Instrument.Command in
def main (arguments : List String) : IO UInt32 := do
  let settings ← readSettings
  match Invocation.read .whole arguments with
  | .error e => reportUsage e
  | .ok invocation =>
    let folder ← readFolder (invocation.request.paths settings)
    match invocation.request.run settings folder with
    | .error e => reportUsage e
    | .ok t => finish (logStyle .whole settings invocation.verbose) t
