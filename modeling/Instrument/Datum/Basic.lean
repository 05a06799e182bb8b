import Instrument.Number.Basic

namespace Instrument

mutual

/-- What an attribute or a variable was given. -/
inductive Value
  | literal (content : Datum)
  | variableRef (name : Datum)
  | componentRef (ref : ComponentRef)
  | expression (source : Datum)
  | unresolved (word : Datum)

/-- A component named by an attribute. The kind is nothing until the name has been bound. -/
structure ComponentRef where
  name : Datum
  kind : Datum

/-- What a data file, an editor or a computation hands over. An editor may put any datum in the place
of a name, a kind or a source; it is kept as it is, and names nothing. -/
inductive Datum
  | null
  | bool (b : Bool)
  | number (n : Number)
  | text (s : String)
  | list (items : List Datum)
  | record (fields : List (String × Datum))
  | value (v : Value)
  | assigned (value modulation : Datum)

end

/-- An attribute: its value, and the component attached to modulate it. -/
structure Attribute where
  value : Option Value
  modulation : Option ComponentRef

instance : Inhabited Datum := ⟨.null⟩

instance : Inhabited Attribute := ⟨⟨none, none⟩⟩

namespace Attribute

def empty : Attribute := ⟨none, none⟩

def withValue (a : Attribute) (value : Option Value) : Attribute := { a with value }

def withModulation (a : Attribute) (modulation : Option ComponentRef) : Attribute :=
  { a with modulation }

end Attribute

def Value.given : Option Value → Datum
  | some v => .value v
  | none => .null

def ComponentRef.given : Option ComponentRef → Datum
  | some ref => .value (.componentRef ref)
  | none => .null

def Datum.isNull : Datum → Bool
  | .null => true
  | _ => false

namespace ComponentRef

def named (name : String) : ComponentRef := ⟨.text name, .null⟩

def bound (name kind : String) : ComponentRef := ⟨.text name, .text kind⟩

def isBound (ref : ComponentRef) : Bool := !ref.kind.isNull

end ComponentRef

mutual

def Value.keyFault? : Value → Option Datum
  | .literal content => content.keyFault?
  | .variableRef name => name.keyFault?
  | .componentRef ref => ref.keyFault?
  | .expression source => source.keyFault?
  | .unresolved word => word.keyFault?

def ComponentRef.keyFault? : ComponentRef → Option Datum
  | ⟨name, kind⟩ => name.keyFault? <|> kind.keyFault?

/-- The first list or record in a datum, if it is made of one: such a datum is no key, and asking
what lies under it is a fault. Under any other datum that is no text there is nothing. -/
def Datum.keyFault? : Datum → Option Datum
  | .list items => some (.list items)
  | .record fields => some (.record fields)
  | .value v => v.keyFault?
  | .assigned value modulation => value.keyFault? <|> modulation.keyFault?
  | _ => none

end

namespace Datum

def int (i : Int) : Datum := number (.int i)

def float (x : Float) : Datum := number (.float x)

def field? (key : String) : Datum → Option Datum
  | record fields => fields.lookup key
  | _ => none

def field (key : String) (d : Datum) : Datum := (d.field? key).getD null

def hasField (key : String) (d : Datum) : Bool := (d.field? key).isSome

def fields : Datum → List (String × Datum)
  | record fields => fields
  | _ => []

def text? : Datum → Option String
  | text s => some s
  | _ => none

/-- Whether a datum counts as a yes: nothing, a no, a zero and whatever is empty do not. -/
def isYes : Datum → Bool
  | null => false
  | bool b => b
  | number n => !n.isZero
  | text s => s != ""
  | list items => !items.isEmpty
  | record fields => !fields.isEmpty
  | value _ => true
  | assigned _ _ => true

def orElse (d other : Datum) : Datum := if d.isYes then d else other

end Datum

end Instrument
