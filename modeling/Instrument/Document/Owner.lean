import Instrument.Store.Attributes

namespace Instrument

inductive Owner
  | component (name kind : String)
  | trigger (key kind : String)
  deriving DecidableEq

namespace Owner

def kind : Owner → String
  | component _ kind => kind
  | trigger _ kind => kind

def describe : Owner → String
  | component name kind => kind ++ " " ++ name
  | trigger key _ => key

end Owner

namespace Store

def read (s : Store) (owner : Owner) (attr : String) : Attribute :=
  let cell := match owner with
    | .component name _ => s.componentCell? name attr
    | .trigger key _ => s.triggerCell? key attr
  (Cell.ofOption cell).attribute

def write (s : Store) (owner : Owner) (attr : String) (a : Attribute) : Store :=
  match owner with
  | .component name _ =>
    let valued := (s.updateComponentAttribute name attr (Value.given a.value)).store
    (valued.updateComponentModulation name attr a.modulation).store
  | .trigger key _ =>
    let valued := (s.setTriggerAttribute key attr (Value.given a.value)).store
    (valued.setTriggerModulation key attr a.modulation).store

end Store

end Instrument
