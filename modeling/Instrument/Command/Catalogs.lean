import Instrument.Catalog.Shipped
import Instrument.Catalog.Validation
import Instrument.Command.Folder
import Instrument.Command.Transcript
import Instrument.Settings
import Instrument.Text.Order

namespace Instrument.Command

def catalogFile (folder : Folder) (path : Option String) : DataFile :=
  match path with
  | some path => folder.dataFile path
  | none => Catalog.Shipped.file

def chordFile (folder : Folder) (path : Option String) : DataFile :=
  match path with
  | some path => folder.dataFile path
  | none => Catalog.Shipped.chordFile

/-- Loads a catalog. Faults that are foreseen are for the caller to report. -/
def loadCatalog (file chords : DataFile) : Act (Except Catalog.LoadError Catalog) := do
  match Catalog.load file chords with
  | .ok c =>
    Act.log [.catalogLoaded file.path c.components.size c.triggers.size]
    return .ok c
  | .error e => if e.isForeseen then return .error e else Act.fault (.load e)

def andWarnings (count : Nat) : String :=
  if count = 0 then "" else ", " ++ toString count ++ " warning(s)"

def reportCatalog (c : Catalog) : Act Unit := do
  Act.out ("\nLoaded " ++ toString c.components.size ++ " component kinds:")
  for kind in Text.sorted c.componentKinds do
    if let some schema := c.component? kind then
      Act.out ("  ✓ " ++ kind ++ " (" ++ schema.role.name ++ ", "
        ++ toString schema.attributes.size ++ " attributes)")
  Act.out ("Loaded " ++ toString c.triggers.size ++ " trigger kinds: "
    ++ ", ".intercalate (Text.sorted c.triggerKinds))
  Act.out "\nCatalog is valid."

def validateCatalog (file chords : DataFile) (strict : Bool) : Act Unit := do
  let issues := Catalog.validate file (some chords) strict
  if file.isFile then Act.log [.catalogValidated file.path issues.length]
  for issue in issues do Act.out issue.text
  let errors := issues.countP (·.severity == .error)
  let warnings := issues.countP (·.severity == .warning)
  if errors > 0 then
    Act.out ("\n" ++ toString errors ++ " schema error(s) found" ++ andWarnings warnings)
    Act.fail
  if warnings > 0 then Act.out (toString warnings ++ " warning(s) found.")
  match ← loadCatalog file chords with
  | .ok c => reportCatalog c
  | .error e =>
    Act.err ("\nSemantic validation failed: " ++ e.message)
    Act.fail

def listing (c : Catalog) : List String :=
  ["Components:"]
    ++ c.components.entries.map (fun (kind, schema) =>
      "  " ++ kind ++ " [" ++ schema.role.name ++ "]: "
        ++ ", ".intercalate schema.attributes.keys)
    ++ ["Triggers:"]
    ++ c.triggers.entries.map fun (kind, schema) =>
      let attributes := ", ".intercalate schema.attributes.keys
      "  " ++ kind ++ (if schema.requiresName.isYes then " <name>" else "") ++ ": "
        ++ (if attributes = "" then "-" else attributes)

def printJson (allowNotFinite : Bool) (d : Datum) : Act Unit :=
  match Json.indented allowNotFinite d with
  | .ok text => Act.out text
  | .error f => Act.fault (.json f)

def requireCatalog (settings : Settings) (folder : Folder) : Act Catalog := do
  match ← loadCatalog (catalogFile folder settings.catalogPath) Catalog.Shipped.chordFile with
  | .ok c => return c
  | .error e =>
    Act.err ("Error: " ++ e.message)
    Act.fail

def showCatalog (settings : Settings) (folder : Folder) (asJson : Bool) : Act Unit := do
  let c ← requireCatalog settings folder
  if asJson then printJson true c.summary
  else for line in listing c do Act.out line

end Instrument.Command
