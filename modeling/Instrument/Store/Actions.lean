import Instrument.Store.Attributes

namespace Instrument

inductive Action
  | setValue (parameter : String) (value : Value) (unit : String)
  | applyModulation (parameter : String) (modulator : ComponentRef)

namespace Action

/-- The attributes that act on a parameter, each with the unit of its value: pitch is added in
cents, volume multiplies by a percentage. -/
def units : List (String × String) := [("pitch", "cents"), ("volume", "percentage")]

def unit? (attr : String) : Option String := units.lookup attr

def toDatum : Action → Datum
  | setValue parameter value unit =>
    .record [("type", .text "set_value"), ("kind", .text parameter), ("value", value.toDatum),
      ("unit", .text unit)]
  | applyModulation parameter modulator =>
    .record [("type", .text "apply_modulation"), ("target", .text parameter),
      ("modulator", modulator.toDatum)]

end Action

def Attribute.actions (parameter unit : String) (a : Attribute) : List Action :=
  (a.value.map fun v => .setValue parameter v unit).toList
    ++ ((a.modulation.filter (·.isBound)).map fun ref => .applyModulation parameter ref).toList

/-- The actions of a cell. Of foreign parts it is told what they lack to be acted on. -/
def Cell.actions (parameter unit : String) : Cell → Except DatumError (List Action)
  | .ok a => .ok (a.actions parameter unit)
  | .error (.foreign value .null) => .error (.untold value)
  | .error (.foreign value (.value (.componentRef _))) => .error (.untold value)
  | .error (.foreign _ modulation) => .error (.lacks modulation "resolved")
  | .error e => .error e

def actionsOf : List (String × Cell) → Except DatumError (List Action)
  | [] => .ok []
  | (attr, cell) :: rest =>
    match Action.unit? attr with
    | none => actionsOf rest
    | some unit =>
      match cell.actions attr unit with
      | .error e => .error e
      | .ok actions => (actions ++ ·) <$> actionsOf rest

def Store.actions (s : Store) (key : String) : Except DatumError (List Action) :=
  actionsOf (s.triggerCells key).entries

end Instrument
