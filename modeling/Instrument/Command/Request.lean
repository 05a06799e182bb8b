import Instrument.Command.Arguments

namespace Instrument.Command

inductive Request
  | validateCatalog (strict : Bool) (path chords : Option String)
  | showCatalog (asJson : Bool)
  | checkDocument (file : String) (strict : Bool)
  | dumpDocument (file : String) (strict : Bool)
  | listActions (file scope : String) (evaluate : Bool)

def Request.files : Request → List String
  | validateCatalog _ path chords => path.toList ++ chords.toList
  | showCatalog _ => []
  | checkDocument file _ | dumpDocument file _ | listActions file _ _ => [file]

/-- Where the reading of arguments begins: with all commands, or within one group of them. -/
inductive Entry
  | whole
  | catalogGroup
  | documentGroup
  deriving DecidableEq

structure Invocation where
  verbose : Bool
  request : Request

namespace Request

def readValidate (arguments : List String) : Except UsageError Request := do
  let a ← Arguments.read [.flag "--strict", .valued "--path", .valued "--chords"] true .none
    arguments
  a.noOthers
  return validateCatalog (a.has "--strict") (a.value? "--path") (a.value? "--chords")

def readShow (arguments : List String) : Except UsageError Request := do
  let a ← Arguments.read [.flag "--json"] true .none arguments
  a.noOthers
  return showCatalog (a.has "--json")

def readCheck (arguments : List String) : Except UsageError Request := do
  let a ← Arguments.read [.flag "--strict"] true .none arguments
  return checkDocument (← a.single "FILE") (a.has "--strict")

def readDump (arguments : List String) : Except UsageError Request := do
  let a ← Arguments.read [.flag "--strict"] true .none arguments
  return dumpDocument (← a.single "FILE") (a.has "--strict")

def readActions (arguments : List String) : Except UsageError Request := do
  let a ← Arguments.read [.valued "--scope", .flag "--evaluate"] true .none arguments
  let file ← a.single "FILE"
  match a.value? "--scope" with
  | some scope => return listActions file scope (a.has "--evaluate")
  | none => throw (.optionMissing "--scope")

def cutCommand (forms : List OptionForm) (arguments : List String) :
    Except UsageError (Arguments × String × List String) := do
  let a ← Arguments.read forms false .none arguments
  match a.others with
  | [] => throw .commandMissing
  | name :: rest => return (a, name, rest)

def readCatalogGroup (arguments : List String) : Except UsageError Request := do
  let (_, name, rest) ← cutCommand [] arguments
  match name with
  | "validate" => readValidate rest
  | "show" => readShow rest
  | _ => throw (.commandUnknown name)

def readDocumentGroup (arguments : List String) : Except UsageError Request := do
  let (_, name, rest) ← cutCommand [] arguments
  match name with
  | "check" => readCheck rest
  | "dump" => readDump rest
  | "actions" => readActions rest
  | _ => throw (.commandUnknown name)

end Request

def Invocation.read (entry : Entry) (arguments : List String) : Except UsageError Invocation :=
  match entry with
  | .catalogGroup => (⟨false, ·⟩) <$> Request.readCatalogGroup arguments
  | .documentGroup => (⟨false, ·⟩) <$> Request.readDocumentGroup arguments
  | .whole => do
    let (a, name, rest) ← Request.cutCommand [⟨"--verbose", some 'v', false⟩] arguments
    let request ← match name with
      | "catalog" => Request.readCatalogGroup rest
      | "document" => Request.readDocumentGroup rest
      | _ => throw (.commandUnknown name)
    return ⟨a.has "--verbose", request⟩

end Instrument.Command
