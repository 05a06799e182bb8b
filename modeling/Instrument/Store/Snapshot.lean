import Instrument.Store.Basic

namespace Instrument

namespace Snapshot

def orNull : Option String → Datum
  | some s => .text s
  | none => .null

def table {α : Type} (f : α → Except DatumError Datum) (t : Table α) :
    Except DatumError Datum := do
  return .record (← t.entries.mapM fun p => do return (p.1, ← f p.2))

def cell : Cell → Except DatumError Datum
  | .ok a => .ok a.toDatum
  | .error (.foreign value modulation) => Attribute.partsToDatum value modulation
  | .error e => .error e

def value : Option Value → Except DatumError Datum
  | some v => .ok v.toDatum
  | none => .error (.untold .null)

def component (c : Component) : Except DatumError Datum := do
  let attributes ← table cell c.attributes
  return .record [("kind", .text c.kind), ("name", .text c.name), ("scope", .text c.scope.name),
    ("scopeKey", orNull c.key), ("attributes", attributes)]

def components (tables : ComponentTables) : Except DatumError Datum :=
  table (table component) tables

def trigger (t : Trigger) : Except DatumError Datum := do
  let owned ← components t.components
  let attributes ← table cell t.attributes
  let overrides ← table value t.overrides
  return .record [("key", .text t.key), ("kind", .text t.kind), ("components", owned),
    ("attributes", attributes), ("variableOverrides", overrides)]

def variableData (v : Variable) : Except DatumError Datum := do
  let content ← value v.value
  return .record [("name", .text v.name), ("value", content), ("min", v.lower), ("max", v.upper),
    ("line", match v.line with | some line => .int line | none => .null)]

def nameInfo (info : NameInfo) : Datum :=
  .record [("scope", .text info.scope.name), ("kind", .text info.kind),
    ("scopeKey", orNull info.key)]

end Snapshot

def Store.snapshot (s : Store) : Except DatumError Datum := do
  let components ← Snapshot.components s.components
  let triggers ← Snapshot.table Snapshot.trigger s.triggers
  let declared ← Snapshot.table Snapshot.variableData s.globalVariables
  let localVariables ← Snapshot.table (Snapshot.table Snapshot.variableData) s.localVariables
  return .record [("components", components), ("triggers", triggers),
    ("variables", .record [("global", declared), ("triggers", localVariables)]),
    ("names", .record (s.names.entries.map fun p => (p.1, Snapshot.nameInfo p.2)))]

end Instrument
