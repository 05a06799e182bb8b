import Instrument.Store.Attributes
import Instrument.Store.Variables

namespace Instrument

inductive Operation
  | reset
  | declareTrigger (key kind : String)
  | addComponent (kind name : String) (scope : Datum) (key : Option String)
      (attributes : List (String × Datum))
  | removeComponent (name : String)
  | setComponentAttribute (name attr : String) (d : Datum)
  | setComponentModulation (name attr : String) (modulation : Option ComponentRef)
  | addVariable (name : String) (d scope : Datum) (key : Option String) (lower upper : Datum)
      (line : Option Int)
  | removeVariable (name : String)
  | setOverride (name : String) (d : Datum) (key : String)
  | removeOverride (name key : String)
  | setTriggerAttribute (key attr : String) (d : Datum)
  | setTriggerModulation (key attr : String) (modulation : Option ComponentRef)

def Outcome.accepted (o : Outcome Unit) : Outcome Bool := ⟨o.answer.map fun _ => true, o.store, o.notes⟩

def Outcome.inScope (s : Store) (scope : Datum) (run : ScopeKind → Outcome Bool) : Outcome Bool :=
  match ScopeKind.read scope with
  | .ok kind => run kind
  | .error e => .failed s e

def Operation.run (op : Operation) (s : Store) : Outcome Bool :=
  match op with
  | reset => .done .empty true
  | declareTrigger key kind => .done (s.declareTrigger key kind) true
  | addComponent kind name scope key attributes =>
    .inScope s scope fun sc => s.addComponent kind name sc key attributes
  | removeComponent name => s.removeComponent name
  | setComponentAttribute name attr d => s.updateComponentAttribute name attr d
  | setComponentModulation name attr modulation => s.updateComponentModulation name attr modulation
  | addVariable name d scope key lower upper line =>
    .inScope s scope fun sc => s.addVariable name d sc key lower upper line
  | removeVariable name => s.removeVariable name
  | setOverride name d key => (s.setOverride name d key).accepted
  | removeOverride name key => s.removeOverride name key
  | setTriggerAttribute key attr d => (s.setTriggerAttribute key attr d).accepted
  | setTriggerModulation key attr modulation =>
    (s.setTriggerModulation key attr modulation).accepted

/-- The store after a run of operations, whatever each of them answers. -/
def Store.runAll (s : Store) (ops : List Operation) : Store :=
  ops.foldl (fun s op => (op.run s).store) s

end Instrument
