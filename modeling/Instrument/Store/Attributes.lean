import Instrument.Store.Components

namespace Instrument

namespace Cell

def setValue (cell : Cell) (d : Datum) : Except DatumError Cell :=
  match cell with
  | .ok a => (fun v => .ok (a.withValue v)) <$> Value.ofDatum d
  | .error (.foreign _ modulation) =>
    (fun v => Attribute.ofParts (Value.given v) modulation) <$> Value.ofDatum d
  | .error e => .error e

def setModulation (cell : Cell) (modulation : Option ComponentRef) : Except DatumError Cell :=
  match cell with
  | .ok a => .ok (.ok (a.withModulation modulation))
  | .error (.foreign value _) =>
    .ok (Attribute.ofParts value (ComponentRef.given modulation))
  | .error e => .error e

end Cell

def Component.cell? (c : Component) (attr : String) : Option Cell := c.attributes.get? attr

def Component.setCell (c : Component) (attr : String) (cell : Cell) : Component :=
  { c with attributes := c.attributes.insert attr cell }

def Trigger.setCell (t : Trigger) (attr : String) (cell : Cell) : Trigger :=
  { t with attributes := t.attributes.insert attr cell }

namespace Store

def changeComponent (s : Store) (name : String) (f : Component → Component) : Store :=
  match s.componentInfo? name with
  | none => s
  | some info => s.changeTables info fun t => ComponentTables.change t info.kind name f

def updateComponent (s : Store) (name attr : String) (f : Cell → Except DatumError Cell) :
    Outcome Bool :=
  match s.component? name with
  | none => .done s false
  | some c =>
    match f (Cell.ofOption (c.cell? attr)) with
    | .error e => .failed s (.datum e)
    | .ok cell => .done (s.changeComponent name (·.setCell attr cell)) true

def updateComponentAttribute (s : Store) (name attr : String) (d : Datum) : Outcome Bool :=
  s.updateComponent name attr (Cell.setValue · d)

def updateComponentModulation (s : Store) (name attr : String)
    (modulation : Option ComponentRef) : Outcome Bool :=
  s.updateComponent name attr (Cell.setModulation · modulation)

def componentCell? (s : Store) (name attr : String) : Option Cell :=
  (s.component? name).bind (·.cell? attr)

/-- Replaces an attribute of a trigger, which is declared first if it is missing. -/
def updateTrigger (s : Store) (key attr : String) (f : Cell → Except DatumError Cell) :
    Outcome Unit :=
  let declared := s.changeTrigger key id
  match f (Cell.ofOption ((s.triggerOrFresh key "").attributes.get? attr)) with
  | .error e => .failed declared (.datum e)
  | .ok cell => .done (s.changeTrigger key (·.setCell attr cell)) ()

def setTriggerAttribute (s : Store) (key attr : String) (d : Datum) : Outcome Unit :=
  s.updateTrigger key attr (Cell.setValue · d)

def setTriggerModulation (s : Store) (key attr : String) (modulation : Option ComponentRef) :
    Outcome Unit :=
  s.updateTrigger key attr (Cell.setModulation · modulation)

def triggerCells (s : Store) (key : String) : Table Cell :=
  match s.trigger? key with
  | some t => t.attributes
  | none => .empty

def triggerCell? (s : Store) (key attr : String) : Option Cell := (s.triggerCells key).get? attr

end Store

end Instrument
