import Instrument.Command.Catalogs
import Instrument.Document.Reading
import Instrument.Store.Actions
import Instrument.Store.Resolution

namespace Instrument.Command

open Document (Reader)

def readDocument (settings : Settings) (folder : Folder) (path : String) (strict : Bool) :
    Act Reader := do
  let c ← requireCatalog settings folder
  match Document.usable c with
  | .error e => Act.fault (.load e)
  | .ok c =>
    match Document.trace c (strict || settings.strict) (folder.text path) with
    | .ok reading =>
      Act.log reading.final.notes
      return reading.final
    | .error interruption =>
      Act.log interruption.reader.notes
      Act.fault (.unlisted interruption.cause)

def issueLines (path : String) (r : Reader) : List String :=
  (Document.report r).map fun issue => Text.normalPath path ++ ":" ++ issue.text

def componentCount (s : Store) : Nat := s.names.values.countP (!·.isVariable)

def checkDocument (settings : Settings) (folder : Folder) (path : String) (strict : Bool) :
    Act Unit := do
  let r ← readDocument settings folder path strict
  for line in issueLines path r do Act.out line
  let warnings := r.warnings.length
  if !r.succeeds then
    Act.out ("\n" ++ toString r.errors.length ++ " error(s) found" ++ andWarnings warnings)
    Act.fail
  if warnings > 0 then Act.out (toString warnings ++ " warning(s) found.")
  Act.out ("\n" ++ toString (componentCount r.store) ++ " component(s), "
    ++ toString r.store.triggers.size ++ " trigger scope(s)")
  Act.out "Document is valid."

def dumpDocument (settings : Settings) (folder : Folder) (path : String) (strict : Bool) :
    Act Unit := do
  let r ← readDocument settings folder path strict
  for line in issueLines path r do Act.err line
  match r.store.snapshot with
  | .ok d => printJson true d
  | .error e => Act.fault (.datum e)
  if !r.succeeds then Act.fail

/-- A number that is not finite is spelt out, since JSON has none. -/
def jsonNumber : Datum → Datum
  | .number (.float x) =>
    if (Number.float x).isFinite then .float x else .text (Number.floatText x)
  | d => d

def resolvedAction (s : Store) (scope : String) (action : Action) : Act Datum :=
  match action, action.toDatum with
  | .setValue _ v _, .record fields => do
    let resolved := (s.resolveValue v (some scope) .null).run
    Act.log resolved.notes
    match resolved.value with
    | .ok d => return .record (fields ++ [("resolved", jsonNumber d)])
    | .error h => Act.fault (.halt h)
  | _, d => return d

def listActions (settings : Settings) (folder : Folder) (path scope : String) (evaluate : Bool) :
    Act Unit := do
  let r ← readDocument settings folder path false
  for line in issueLines path r do Act.err line
  if (r.store.trigger? scope).isNone then
    let known := ", ".intercalate r.store.triggers.keys
    Act.err ("Error: Unknown scope '" ++ scope ++ "' (known: "
      ++ (if known = "" then "none" else known) ++ ")")
    Act.fail
  match r.store.actions scope with
  | .error e => Act.fault (.datum e)
  | .ok actions =>
    let data ← if evaluate then actions.mapM (resolvedAction r.store scope)
      else pure (actions.map (·.toDatum))
    printJson false (.list data)

end Instrument.Command
