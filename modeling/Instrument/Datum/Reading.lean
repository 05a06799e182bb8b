import Instrument.Datum.Printer
import Instrument.Number.Reader

namespace Instrument

/-- Why a datum is no attribute value or no attribute. -/
inductive DatumError
  | missingField (key : String)
  | unknownType (type : Datum)
  | boolean (d : Datum)
  | unsupported (d : Datum)
  | modulationNotComponent (v : Value)
  | foreign (value modulation : Datum)
  | lacks (d : Datum) (ability : String)

namespace DatumError

def untold (d : Datum) : DatumError := .lacks d "to_dict"

def lackMessage (d : Datum) (ability : String) : String :=
  "'" ++ d.typeName ++ "' object has no attribute '" ++ ability ++ "'"

def message : DatumError → String
  | missingField key => Text.quoted key
  | unknownType type => "Unknown attribute value type: " ++ type.quoted
  | boolean d => "Boolean is not a valid attribute value: " ++ d.quoted
  | unsupported d => "Unsupported attribute value: " ++ d.quoted
  | modulationNotComponent v => "Modulation must be a component reference: " ++ v.quoted
  | foreign _ modulation => lackMessage modulation "resolved"
  | lacks d ability => lackMessage d ability

end DatumError

namespace ComponentRef

def toDatum (ref : ComponentRef) : Datum :=
  .record [("type", .text "component_ref"), ("name", ref.name), ("kind", ref.kind)]

end ComponentRef

namespace Value

def toDatum : Value → Datum
  | literal content => .record [("type", .text "literal"), ("value", content)]
  | variableRef name => .record [("type", .text "variable_ref"), ("name", name)]
  | componentRef ref => ref.toDatum
  | expression source => .record [("type", .text "expression"), ("source", source)]
  | unresolved word => .record [("type", .text "unresolved"), ("text", word)]

def requiredField (key : String) (d : Datum) : Except DatumError Datum :=
  match d.field? key with
  | some content => .ok content
  | none => .error (.missingField key)

/-- Reads the record of a value. What it holds under the key of its type is taken as it is. -/
def ofRecord (d : Datum) : Except DatumError Value :=
  match d.field "type" with
  | .text "literal" => literal <$> requiredField "value" d
  | .text "variable_ref" => variableRef <$> requiredField "name" d
  | .text "component_ref" =>
    (fun name => componentRef ⟨name, d.field "kind"⟩) <$> requiredField "name" d
  | .text "expression" => expression <$> requiredField "source" d
  | .text "unresolved" => unresolved <$> requiredField "text" d
  | type => .error (.unknownType type)

def ofRecord? : Datum → Except DatumError (Option Value)
  | .null => .ok none
  | d => some <$> ofRecord d

def ofDatum : Datum → Except DatumError (Option Value)
  | .null => .ok none
  | .value v => .ok (some v)
  | .record fields => some <$> ofRecord (.record fields)
  | .number n => .ok (some (literal (.number n)))
  | .text s => .ok (some (literal (.text s)))
  | .bool b => .error (.boolean (.bool b))
  | d => .error (.unsupported d)

def ofOption : Option Value → Datum
  | some v => v.toDatum
  | none => .null

end Value

namespace Attribute

def toDatum (a : Attribute) : Datum :=
  .record [("value", Value.ofOption a.value),
    ("modulation", match a.modulation with | some ref => ref.toDatum | none => .null)]

/-- A record with a value or a modulation, and no type of its own, describes a whole attribute. -/
def isRecordForm (d : Datum) : Bool :=
  (d.hasField "value" || d.hasField "modulation") && !d.hasField "type"

def modulationOf (d : Datum) : Except DatumError (Option ComponentRef) := do
  match ← Value.ofDatum d with
  | none => return none
  | some (.componentRef ref) => return some ref
  | some other => throw (.modulationNotComponent other)

def ofParts : Datum → Datum → Except DatumError Attribute
  | .null, .null => .ok ⟨none, none⟩
  | .value v, .null => .ok ⟨some v, none⟩
  | .null, .value (.componentRef ref) => .ok ⟨none, some ref⟩
  | .value v, .value (.componentRef ref) => .ok ⟨some v, some ref⟩
  | value, modulation => .error (.foreign value modulation)

/-- The attribute that a datum stands for. Whatever stands for a single value gives an attribute
without modulation. -/
def ofDatum (d : Datum) : Except DatumError Attribute :=
  match d with
  | .assigned value modulation => ofParts value modulation
  | d =>
    if isRecordForm d then do
      let modulation ← modulationOf (d.field "modulation")
      let value ← Value.ofDatum (d.field "value")
      return ⟨value, modulation⟩
    else do
      return ⟨← Value.ofDatum d, none⟩

def partToDatum : Datum → Except DatumError Datum
  | .null => .ok .null
  | .value v => .ok v.toDatum
  | d => .error (.untold d)

def partsToDatum (value modulation : Datum) : Except DatumError Datum := do
  let value ← partToDatum value
  let modulation ← partToDatum modulation
  return .record [("value", value), ("modulation", modulation)]

end Attribute

namespace Datum

def looksWhole (cs : List Char) : Bool := cs.all fun c => c != '.' && c != 'e' && c != 'E'

/-- The literal that a text denotes: a number where it reads as a finite one, else the text. A
number without point and exponent is whole. -/
def ofText (cs : List Char) : Datum :=
  match Number.readFloat? cs with
  | none => text (String.ofList cs)
  | some x =>
    if !(Number.float x).isFinite then text (String.ofList cs)
    else match looksWhole cs, Number.wholeValue? x with
      | true, some i => int i
      | _, _ => float x

/-- The number that a datum counts as. A truth value counts as none. -/
def toNumber? : Datum → Option Number
  | number n => some n
  | text s => (Number.readFloat? s.toList).map .float
  | _ => none

end Datum

end Instrument
