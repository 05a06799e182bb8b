import Instrument.Store.Operation

namespace Instrument.Store

def keepComponentDatum (s : Store) (name attr : String) (d : Datum) : Store :=
  s.changeComponent name fun c =>
    { c with attributes := c.attributes.insert attr (Attribute.ofDatum d) }

def keepTriggerDatum (s : Store) (key attr : String) (d : Datum) : Store :=
  { s with triggers := s.triggers.modify key fun t =>
      { t with attributes := t.attributes.insert attr (Attribute.ofDatum d) } }

/-- Puts a component into a trigger that is there, under a name of its own. It lies in two places then,
and may stay in the one when it is taken out of the other. -/
def shareComponent (s : Store) (key name other : String) : Store :=
  match s.component? name with
  | none => s
  | some c => { s with triggers := s.triggers.modify key fun t =>
      { t with components := ComponentTables.place t.components c.kind other c } }

def alignTables (c : Component) (tables : ComponentTables) : ComponentTables :=
  tables.map fun _ table => table.map fun _ other => if other.isSame c then c else other

/-- Brings every place where a component lies in line with the one under its name. -/
def align (s : Store) (name : String) : Store :=
  match s.component? name with
  | none => s
  | some c => { s with
      components := alignTables c s.components
      triggers := s.triggers.map fun _ t => { t with components := alignTables c t.components } }

def allComponents (s : Store) : List Component :=
  (s.components :: s.triggers.values.map (·.components)).flatMap fun tables =>
    tables.values.flatMap Table.values

/-- The edition after those of all components of a name, the first one where there are none. -/
def nextEdition (s : Store) (name : String) : Nat :=
  (s.allComponents.filter (·.name == name)).foldl (fun edition c => max edition (c.edition + 1)) 0

def keepShared (s : Store) (name attr : String) (d : Datum) : Store :=
  (s.keepComponentDatum name attr d).align name

end Instrument.Store

namespace Instrument.Operation

/-- Runs an operation on a store in which components may be shared. A component that is added is
none of those that are there, though one of them may bear its name. -/
def runShared (op : Operation) (s : Store) : Outcome Bool :=
  let outcome := op.run s
  match op with
  | setComponentAttribute name _ _ | setComponentModulation name _ _ =>
    { outcome with store := outcome.store.align name }
  | addComponent _ name _ _ _ =>
    match outcome.answer, s.nextEdition name with
    | .ok true, edition + 1 => { outcome with store := outcome.store.changeComponent name fun c =>
        { c with edition := edition + 1 } }
    | _, _ => outcome
  | _ => outcome

end Instrument.Operation
