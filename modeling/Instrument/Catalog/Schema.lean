import Instrument.Datum.Basic
import Instrument.Table

namespace Instrument

inductive AttributeType
  | number
  | integer
  | percentage
  | timeMs
  | timeSec
  | frequency
  | choice
  | variableRef
  | componentRef
  deriving DecidableEq

namespace AttributeType

def name : AttributeType → String
  | number => "number"
  | integer => "integer"
  | percentage => "percentage"
  | timeMs => "time_ms"
  | timeSec => "time_sec"
  | frequency => "frequency"
  | choice => "enum"
  | variableRef => "variable_ref"
  | componentRef => "component_ref"

def all : List AttributeType :=
  [number, integer, percentage, timeMs, timeSec, frequency, choice, variableRef, componentRef]

def ofName? (s : String) : Option AttributeType := all.find? (·.name == s)

def ofDatum? : Datum → Option AttributeType
  | .text s => ofName? s
  | _ => none

def isNumeric : AttributeType → Bool
  | number | integer | percentage | timeMs | timeSec | frequency => true
  | choice | variableRef | componentRef => false

end AttributeType

inductive ComponentRole
  | source
  | modulator
  | processor
  deriving DecidableEq

namespace ComponentRole

def name : ComponentRole → String
  | source => "source"
  | modulator => "modulator"
  | processor => "processor"

def ofDatum? : Datum → Option ComponentRole
  | .text s => [source, modulator, processor].find? (·.name == s)
  | _ => none

end ComponentRole

structure AttributeSchema where
  name : String
  type : AttributeType
  default : Datum
  min : Datum
  max : Datum
  step : Datum
  unit : Datum
  description : Datum
  values : List Datum
  allowCustom : Datum
  modulationMode : Datum
  canReference : List AttributeType
  acceptsComponents : List String
  acceptsModulation : List String

namespace AttributeSchema

def isReference (a : AttributeSchema) : Bool := a.type == .componentRef

def isNumeric (a : AttributeSchema) : Bool := a.type.isNumeric

def receivesModulation (a : AttributeSchema) : Bool := !a.acceptsModulation.isEmpty

/-- Whether a bare word given to the attribute may name a component. -/
def resolvesComponents (a : AttributeSchema) : Bool := a.isReference || a.receivesModulation

def canReferenceVariables (a : AttributeSchema) : Bool := a.canReference.contains .variableRef

/-- The kinds of component that may stand in the attribute, or modulate it when it takes a value of
its own. -/
def allowList (a : AttributeSchema) : List String :=
  if a.isReference then a.acceptsComponents else a.acceptsModulation

def accepts (a : AttributeSchema) (kind : String) : Bool := a.allowList.contains kind

def lists (a : AttributeSchema) (text : String) : Bool :=
  a.values.any fun
    | .text s => s == text
    | _ => false

end AttributeSchema

structure ComponentSchema where
  kind : String
  role : ComponentRole
  attributes : Table AttributeSchema
  description : Datum

structure TriggerSchema where
  kind : String
  requiresName : Datum
  canHaveAttributes : Datum
  canContainComponents : Datum
  canOverrideVariables : Datum
  attributes : Table AttributeSchema
  description : Datum

/-- The kinds of component and trigger, and the intervals of chords in semitones above their root. -/
structure Catalog where
  components : Table ComponentSchema
  triggers : Table TriggerSchema
  chords : Table (List Int)

namespace Catalog

def empty : Catalog := ⟨.empty, .empty, .empty⟩

def component? (c : Catalog) (kind : String) : Option ComponentSchema := c.components.get? kind

def trigger? (c : Catalog) (kind : String) : Option TriggerSchema := c.triggers.get? kind

def componentAttribute? (c : Catalog) (kind attr : String) : Option AttributeSchema :=
  (c.component? kind).bind (·.attributes.get? attr)

def triggerAttribute? (c : Catalog) (kind attr : String) : Option AttributeSchema :=
  (c.trigger? kind).bind (·.attributes.get? attr)

def isComponentKind (c : Catalog) (kind : String) : Bool := c.components.contains kind

def isTriggerKind (c : Catalog) (kind : String) : Bool := c.triggers.contains kind

def componentKinds (c : Catalog) : List String := c.components.keys

def triggerKinds (c : Catalog) : List String := c.triggers.keys

def modulatorKinds (c : Catalog) : List String :=
  (c.components.entries.filter fun p => p.2.role == .modulator).map Prod.fst

def attributeAccepts (c : Catalog) (kind attr other : String) : Bool :=
  (c.componentAttribute? kind attr).any (·.accepts other)

def triggerAttributeAccepts (c : Catalog) (kind attr other : String) : Bool :=
  (c.triggerAttribute? kind attr).any (·.accepts other)

def attributeReferencesVariables (c : Catalog) (kind attr : String) : Bool :=
  (c.componentAttribute? kind attr).any (·.canReferenceVariables)

def chordIntervals (c : Catalog) (name : String) : List Int := (c.chords.get? name).getD []

def summary (c : Catalog) : Datum :=
  let names (t : Table AttributeSchema) : Datum := .list (t.keys.map .text)
  .record [
    ("components", .record (c.components.entries.map fun (kind, s) =>
      (kind, .record [("role", .text s.role.name), ("attributes", names s.attributes)]))),
    ("triggers", .record (c.triggers.entries.map fun (kind, s) =>
      (kind, .record [("requiresName", s.requiresName), ("attributes", names s.attributes)])))]

end Catalog

end Instrument
