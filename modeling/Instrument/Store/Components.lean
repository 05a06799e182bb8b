import Instrument.Store.Basic

namespace Instrument

namespace ComponentTables

def find? (tables : ComponentTables) (kind name : String) : Option Component :=
  (tables.get? kind).bind (·.get? name)

def ofKind (tables : ComponentTables) (kind : String) : Table Component :=
  (tables.get? kind).getD .empty

def place (tables : ComponentTables) (kind name : String) (c : Component) : ComponentTables :=
  tables.insert kind ((ofKind tables kind).insert name c)

/-- Takes a component out. The table of its kind stays, even with nothing in it. -/
def remove (tables : ComponentTables) (kind name : String) : ComponentTables :=
  tables.modify kind (·.erase name)

def change (tables : ComponentTables) (kind name : String) (f : Component → Component) :
    ComponentTables :=
  tables.modify kind (·.modify name f)

end ComponentTables

def Component.isSame (a b : Component) : Bool :=
  a.name == b.name && a.kind == b.kind && a.scope == b.scope && a.key == b.key
    && a.edition == b.edition

namespace Store

def tablesFor (s : Store) (info : NameInfo) : Option ComponentTables :=
  match info.scope with
  | .global => some s.components
  | .trigger => (s.trigger? (info.key.getD "")).map (·.components)

def changeTables (s : Store) (info : NameInfo) (f : ComponentTables → ComponentTables) : Store :=
  match info.scope with
  | .global => { s with components := f s.components }
  | .trigger => { s with triggers := s.triggers.modify (info.key.getD "") fun t =>
      { t with components := f t.components } }

def componentInfo? (s : Store) (name : String) : Option NameInfo :=
  (s.nameInfo? name).filter (!·.isVariable)

def component? (s : Store) (name : String) : Option Component :=
  (s.componentInfo? name).bind fun info =>
    (s.tablesFor info).bind fun tables => ComponentTables.find? tables info.kind name

def readAttributes (attributes : Table Cell) :
    List (String × Datum) → Except DatumError (Table Cell)
  | [] => .ok attributes
  | (attr, d) :: rest =>
    match Cell.ofDatum d with
    | .error e => .error e
    | .ok cell => readAttributes (attributes.insert attr cell) rest

def placeComponent (s : Store) (c : Component) : Store :=
  match c.scope with
  | .global => { s with components := ComponentTables.place s.components c.kind c.name c }
  | .trigger => s.changeTrigger (c.key.getD "") fun t =>
      { t with components := ComponentTables.place t.components c.kind c.name c }

/-- Adds a component. The answer is no where the name is taken. The name is registered before the
attributes are read. -/
def addComponent (s : Store) (kind name : String) (scope : ScopeKind) (key : Option String)
    (attributes : List (String × Datum)) : Outcome Bool :=
  if scope.lacksKey key then .failed s .componentWithoutKey
  else match s.register? name ⟨scope, kind, key⟩ with
    | none => .refused s name
    | some registered =>
      match readAttributes .empty attributes with
      | .error e => .failed registered (.datum e)
      | .ok cells =>
        .done (registered.placeComponent
          { kind, name, scope, key := scope.keyFor key, attributes := cells }) true

def removeComponent (s : Store) (name : String) : Outcome Bool :=
  match s.componentInfo? name with
  | none => .done s false
  | some info =>
    .done ((s.changeTables info fun t => ComponentTables.remove t info.kind name).unregister name)
      true

def componentsOfKind (s : Store) (kind : String) (scope : ScopeKind) (key : Option String) :
    Table Component :=
  match scope with
  | .global => ComponentTables.ofKind s.components kind
  | .trigger => match s.trigger? (key.getD "") with
    | some t => ComponentTables.ofKind t.components kind
    | none => .empty

/-- Lays one table of components over another, with a note for each that hides a different one. -/
def overlayTable (scope : Option String) (base : Table Component) :
    List (String × Component) → Noted (Table Component)
  | [] => pure base
  | (name, c) :: rest => do
    if (base.get? name).any fun other => !other.isSame c then Noted.note (.shadowed name scope)
    overlayTable scope (base.insert name c) rest

def overlay (scope : Option String) (base : ComponentTables) :
    List (String × Table Component) → Noted ComponentTables
  | [] => pure base
  | (kind, table) :: rest => do
    let laid ← overlayTable scope (ComponentTables.ofKind base kind) table.entries
    overlay scope (base.insert kind laid) rest

def overlayTrigger (s : Store) (key : Option String) (base : ComponentTables) :
    Noted ComponentTables :=
  match s.trigger? (key.getD "") with
  | some t => overlay key base t.components.entries
  | none => pure base

def componentsIn (s : Store) (scope : ScopeKind) (key : Option String) : Noted ComponentTables :=
  match scope with
  | .global => pure s.components
  | .trigger => s.overlayTrigger key s.components

/-- The components of a voice that sounds: global, then of its note, then of its key. -/
def voiceComponents (s : Store) (noteKey : String) (keyKey : Option String) :
    Noted ComponentTables := do
  let noted ← s.componentsIn .trigger (some noteKey)
  match keyKey with
  | none => pure noted
  | some key => if key = "" then pure noted else s.overlayTrigger (some key) noted

end Store

end Instrument
