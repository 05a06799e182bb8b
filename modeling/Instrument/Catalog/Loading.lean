import Instrument.Catalog.DataFile
import Instrument.Catalog.Schema
import Instrument.Datum.Printer

namespace Instrument.Catalog

/-- Why data files give no catalog. -/
inductive LoadError
  | missing (path : String)
  | directory (path : String)
  | malformed (path : String)
  | notMapping (path : String)
  | chordsNotList (path : String)
  | chordNotMapping (index : Nat) (path : String)
  | chordUnnamed (index : Nat) (path : String)
  | chordSemitones (name path : String)
  | unknownRole (kind : String) (role : Datum)
  | unknownType (owner attr : String) (type : Datum)
  | noValues (owner attr : String)
  | unknownReference (owner attr : String) (reference : Datum)
  | attributesForbidden (trigger : String)
  | unknownKind (owner attr : String) (kind : Datum)
  | acceptsNothing (owner attr : String)
  | noComponents
  | notIterable (type : String)
  | unhashable (type : String)
  /-- Something other than a mapping where one is read. -/
  | lacks (type method : String)

namespace LoadError

def isTypeFault : LoadError → Bool
  | notIterable _ | unhashable _ | lacks _ _ => true
  | _ => false

/-- Whether the fault is foreseen: one in the catalog, rather than in the type of a datum or in what
lies at the path. -/
def isForeseen : LoadError → Bool
  | directory _ => false
  | e => !e.isTypeFault

def attributeName (owner attr : String) : String := "'" ++ owner ++ "." ++ attr ++ "'"

def message : LoadError → String
  | missing path => "Catalog file not found: " ++ path
  | directory path => "[Errno 21] Is a directory: " ++ Text.quoted path
  | malformed path => "Invalid YAML in " ++ path
  | notMapping path => "Catalog file " ++ path ++ " must contain a mapping"
  | chordsNotList path => "'chords' in " ++ path ++ " must be a list"
  | chordNotMapping index path =>
    "Chord entry " ++ toString index ++ " in " ++ path ++ " must be a mapping"
  | chordUnnamed index path =>
    "Chord entry " ++ toString index ++ " in " ++ path ++ " needs a string 'name'"
  | chordSemitones name path =>
    "Chord '" ++ name ++ "' in " ++ path ++ " needs a list of integer 'semitones'"
  | unknownRole kind role => "Component '" ++ kind ++ "' has unknown role '" ++ role.shown ++ "'"
  | unknownType owner attr type =>
    "Attribute " ++ attributeName owner attr ++ " has unknown type '" ++ type.shown ++ "'"
  | noValues owner attr =>
    "Enum attribute " ++ attributeName owner attr ++ " has no values"
  | unknownReference owner attr reference =>
    "Attribute " ++ attributeName owner attr ++ ": " ++ reference.quoted
      ++ " is not a valid AttributeType"
  | attributesForbidden trigger =>
    "Trigger '" ++ trigger ++ "' declares attributes but canHaveAttributes is false"
  | unknownKind owner attr kind =>
    "Attribute " ++ attributeName owner attr ++ " references unknown component kind '"
      ++ kind.shown ++ "'"
  | acceptsNothing owner attr =>
    "Component reference " ++ attributeName owner attr ++ " has no acceptsComponents"
  | noComponents => "Document parser requires a loaded catalog with component kinds"
  | notIterable type => "'" ++ type ++ "' object is not iterable"
  | unhashable type => "unhashable type: '" ++ type ++ "'"
  | lacks type method => "'" ++ type ++ "' object has no attribute '" ++ method ++ "'"

end LoadError

/-- The members that a datum runs through: the items of a list, the keys of a record, the characters
of a text. -/
def membersOf : Datum → Except LoadError (List Datum)
  | .list items => .ok items
  | .record fields => .ok (fields.map fun f => .text f.1)
  | .text s => .ok (s.toList.map fun c => .text (String.singleton c))
  | d => .error (.notIterable d.typeName)

def membersAt (key : String) (d : Datum) : Except LoadError (List Datum) :=
  match d.field? key with
  | some members => membersOf members
  | none => .ok []

/-- Fails where a mapping is read and there is none. Whatever is empty counts as an empty one. -/
def requireMapping (method : String) (d : Datum) : Except LoadError Unit :=
  match d with
  | .record _ => .ok ()
  | d => if d.isYes then .error (.lacks d.typeName method) else .ok ()

def mappingIn (f : DataFile) : Except LoadError Datum :=
  match f.content with
  | .absent => .error (.missing f.path)
  | .directory => .error (.directory f.path)
  | .malformed => .error (.malformed f.path)
  | .data (.record fields) => .ok (.record fields)
  | .data _ => .error (.notMapping f.path)

def wholeNumber? : Datum → Option Int
  | .number (.int i) => some i
  | _ => none

def semitones? (d : Datum) : Option (List Int) :=
  match d.field? "semitones" with
  | none => some []
  | some (.list items) => items.mapM wholeNumber?
  | some _ => none

def loadChord (path : String) (index : Nat) (d : Datum) :
    Except LoadError (String × List Int) :=
  match d with
  | .record _ =>
    match d.field "name" with
    | .text name =>
      if name = "" then .error (.chordUnnamed index path)
      else match semitones? d with
        | some steps => .ok (name, steps.filter (· != 0))
        | none => .error (.chordSemitones name path)
    | _ => .error (.chordUnnamed index path)
  | _ => .error (.chordNotMapping index path)

def loadChordsFrom (path : String) (index : Nat) (chords : Table (List Int)) :
    List Datum → Except LoadError (Table (List Int))
  | [] => .ok chords
  | d :: rest =>
    match loadChord path index d with
    | .error e => .error e
    | .ok (name, steps) => loadChordsFrom path (index + 1) (chords.insert name steps) rest

/-- The chords of a file, none when there is no file. The root of a chord is implied and left out. -/
def loadChords (f : DataFile) : Except LoadError (Table (List Int)) :=
  if !f.exists? then .ok .empty
  else match mappingIn f with
    | .error e => .error e
    | .ok d =>
      match (d.field "chords").orElse (.list []) with
      | .list entries => loadChordsFrom f.path 0 .empty entries
      | _ => .error (.chordsNotList f.path)

def loadReferences (owner name : String) :
    List Datum → Except LoadError (List AttributeType)
  | [] => .ok []
  | d :: rest =>
    match AttributeType.ofDatum? d with
    | none => .error (.unknownReference owner name d)
    | some type => (type :: ·) <$> loadReferences owner name rest

/-- The values an attribute lists: those it writes out, or the chords behind the word for none. -/
def listedValues (chords : Table (List Int)) (d : Datum) : Except LoadError (List Datum) := do
  let written ← membersAt "values" d
  match d.field "valuesFrom" with
  | .text "chords" => return .text "none" :: chords.keys.map .text
  | _ => return written

def loadAttribute (chords : Table (List Int)) (owner name : String) (d : Datum) :
    Except LoadError AttributeSchema := do
  requireMapping "get" d
  match AttributeType.ofDatum? (d.field "type") with
  | none => .error (.unknownType owner name (d.field "type"))
  | some type => do
    let values ← listedValues chords d
    if type == .choice && values.isEmpty then throw (.noValues owner name)
    let canReference ← loadReferences owner name (← membersAt "canReference" d)
    let acceptsComponents ← membersAt "acceptsComponents" d
    let acceptsModulation ← membersAt "acceptsModulation" d
    return {
      name, type, values, canReference
      default := d.field "default"
      min := d.field "min"
      max := d.field "max"
      step := d.field "step"
      unit := d.field "unit"
      description := (d.field? "description").getD (.text "")
      allowCustom := (d.field? "allowCustom").getD (.bool false)
      modulationMode := d.field "modulationMode"
      acceptsComponents := acceptsComponents.filterMap Datum.text?
      acceptsModulation := acceptsModulation.filterMap Datum.text? }

def loadEntries {α : Type} (load : String → Datum → Except LoadError α) (loaded : Table α) :
    List (String × Datum) → Except LoadError (Table α)
  | [] => .ok loaded
  | (key, d) :: rest =>
    match load key d with
    | .error e => .error e
    | .ok a => loadEntries load (loaded.insert key a) rest

def loadAttributes (chords : Table (List Int)) (owner : String) (d : Datum) :
    Except LoadError (Table AttributeSchema) := do
  requireMapping "items" d
  loadEntries (loadAttribute chords owner) .empty d.fields

def loadComponent (chords : Table (List Int)) (kind : String) (d : Datum) :
    Except LoadError ComponentSchema := do
  requireMapping "get" d
  match ComponentRole.ofDatum? (d.field "role") with
  | none => .error (.unknownRole kind (d.field "role"))
  | some role => do
    let attributes ← loadAttributes chords kind (d.field "attributes")
    return { kind, role, attributes, description := (d.field? "description").getD (.text "") }

def loadTrigger (chords : Table (List Int)) (kind : String) (d : Datum) :
    Except LoadError TriggerSchema := do
  requireMapping "get" d
  let canHaveAttributes := (d.field? "canHaveAttributes").getD (.bool false)
  let attributes ← loadAttributes chords kind (d.field "attributes")
  if !attributes.isEmpty && !canHaveAttributes.isYes then throw (.attributesForbidden kind)
  return {
    kind, canHaveAttributes, attributes
    requiresName := (d.field? "requiresName").getD (.bool false)
    canContainComponents := (d.field? "canContainComponents").getD (.bool true)
    canOverrideVariables := (d.field? "canOverrideVariables").getD (.bool true)
    description := (d.field? "description").getD (.text "") }

def checkKinds (components : Table ComponentSchema) (owner name : String) :
    List Datum → Except LoadError Unit
  | [] => .ok ()
  | d :: rest =>
    match d with
    | .list _ | .record _ => .error (.unhashable d.typeName)
    | .text kind =>
      if components.contains kind then checkKinds components owner name rest
      else .error (.unknownKind owner name d)
    | _ => .error (.unknownKind owner name d)

def checkAttribute (components : Table ComponentSchema) (owner name : String) (d : Datum) :
    Except LoadError Unit := do
  let direct ← membersAt "acceptsComponents" d
  let modulating ← membersAt "acceptsModulation" d
  checkKinds components owner name (direct ++ modulating)
  if AttributeType.ofDatum? (d.field "type") == some .componentRef && direct.isEmpty then
    throw (.acceptsNothing owner name)

def checkOwners (components : Table ComponentSchema) (owners : List (String × Datum)) :
    Except LoadError Unit :=
  owners.forM fun owner => (owner.2.field "attributes").fields.forM fun a =>
    checkAttribute components owner.1 a.1 a.2

/-- The catalog in a data file, with the chords of a chord file. The chords come first, since an
attribute may take its values from them, and the kinds that attributes accept are looked up last. The
first fault in that order is the one reported. -/
def load (file chordFile : DataFile) : Except LoadError Catalog := do
  let chords ← loadChords chordFile
  let d ← mappingIn file
  let componentData := (d.field "components").fields
  let triggerData := (d.field "triggers").fields
  requireMapping "items" (d.field "components")
  let components ← loadEntries (loadComponent chords) .empty componentData
  requireMapping "items" (d.field "triggers")
  let triggers ← loadEntries (loadTrigger chords) .empty triggerData
  checkOwners components (componentData ++ triggerData)
  return ⟨components, triggers, chords⟩

end Instrument.Catalog
