import Instrument.Catalog.Schema
import Instrument.Document.Issue
import Instrument.Document.Owner

namespace Instrument.Document

/-- An attribute after a word was bound, and what there is to say about that. -/
structure Bound where
  attr : Attribute
  complaint : Option Complaint

namespace Bound

def clean (a : Attribute) : Bound := ⟨a, none⟩

def raw (current : Attribute) (word : String) (complaint : Complaint) : Bound :=
  ⟨current.withValue (some (.literal (.text word))), some complaint⟩

end Bound

/-- Attaches a modulator that stands where a value belongs, and gives the default as the value; not
where there is a modulation already. -/
def moveModulator? (current : Attribute) (attr : String) (schema : AttributeSchema)
    (modulator : ComponentRef) : Option Bound :=
  if current.modulation.isSome then none
  else
    let value := match schema.default with
      | .null => none
      | d => some (.literal (Datum.ofText d.shown.toList))
    some ⟨⟨value, some modulator⟩,
      some (.modulatorMoved attr modulator.name.shown schema.default)⟩

def refusal (attr kind : String) (schema : AttributeSchema) : Complaint :=
  if schema.isReference then .componentRefused attr kind schema.allowList
  else .modulatorRefused attr kind schema.allowList

/-- Binds a component of an accepted kind: as the value of an attribute that takes components, else
as its modulator. -/
def bindComponent (strict : Bool) (attr : String) (schema : AttributeSchema) (current : Attribute)
    (word kind : String) : Bound :=
  if schema.isReference then
    .clean (current.withValue (some (.componentRef (.bound word kind))))
  else if strict then .raw current word (.modulatorAsValue attr word)
  else match moveModulator? current attr schema (.bound word kind) with
    | some moved => moved
    | none => .raw current word (.alreadyModulated attr word)

def bindWord (strict : Bool) (owner : Owner) (attr : String) (schema : AttributeSchema)
    (current : Attribute) (word : String) (info : Option NameInfo) : Bound :=
  match info with
  | none => .raw current word (.unknownName word attr owner.describe)
  | some info =>
    if info.isVariable then
      if schema.canReferenceVariables then .clean (current.withValue (some (.variableRef (.text word))))
      else .raw current word (.noVariables attr)
    else if !schema.resolvesComponents then .raw current word (.noComponents attr word)
    else if !schema.accepts info.kind then .raw current word (refusal attr info.kind schema)
    else bindComponent strict attr schema current word info.kind

/-- The kind of a modulator named on a line of its own, or why the name cannot be bound. -/
def bindModulator (modulators : List String) (attr : String) (schema : Option AttributeSchema)
    (name : String) (info : Option NameInfo) : Except Complaint String :=
  match info.filter (!·.isVariable) with
  | none => .error (.modulatorUnknown name)
  | some info =>
    if !modulators.contains info.kind then .error (.notModulator name info.kind modulators)
    else match schema with
      | none => .ok info.kind
      | some schema =>
        if !schema.receivesModulation then .error (.noModulation attr)
        else if !schema.acceptsModulation.contains info.kind then
          .error (.modulatorRefused attr info.kind schema.acceptsModulation)
        else .ok info.kind

end Instrument.Document
