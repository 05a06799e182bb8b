import Instrument.Store.Basic

namespace Instrument.Store

/-- Whether a declaration renews the variable registered under its name: one in the same scope. -/
def renews (s : Store) (name : String) (scope : ScopeKind) (key : Option String) : Bool :=
  (s.nameInfo? name).any fun info =>
    info.isVariable && info.scope == scope && info.key == scope.keyFor key

def placeVariable (s : Store) (v : Variable) : Store :=
  match v.scope with
  | .global => { s with globalVariables := s.globalVariables.insert v.name v }
  | .trigger =>
    let key := v.key.getD ""
    let table := (s.localVariables.get? key).getD .empty
    { s with localVariables := s.localVariables.insert key (table.insert v.name v) }

/-- Declares a variable, or declares it anew in the scope where it lives. The answer is no where the
name is taken otherwise. The name is registered before the value is read. -/
def addVariable (s : Store) (name : String) (d : Datum) (scope : ScopeKind)
    (key : Option String) (lower upper : Datum) (line : Option Int) : Outcome Bool :=
  if scope.lacksKey key then .failed s .variableWithoutKey
  else
    let registered :=
      if s.renews name scope key then some s
      else s.register? name ⟨scope, variableKind, scope.keyFor key⟩
    match registered with
    | none => .refused s name
    | some store =>
      match Value.ofDatum d with
      | .error e => .failed store (.datum e)
      | .ok value =>
        .done (store.placeVariable ⟨name, value, scope, scope.keyFor key, lower, upper, line⟩) true

def variableInfo? (s : Store) (name : String) : Option NameInfo :=
  (s.nameInfo? name).filter (·.isVariable)

def findVariable? (s : Store) (name : String) : Option Variable :=
  (s.variableInfo? name).bind fun info =>
    match info.scope with
    | .global => s.globalVariables.get? name
    | .trigger => (s.localVariables.get? (info.key.getD "")).bind (·.get? name)

def removeVariable (s : Store) (name : String) : Outcome Bool :=
  match s.variableInfo? name with
  | none => .done s false
  | some info =>
    let removed := match info.scope with
      | .global => { s with globalVariables := s.globalVariables.erase name }
      | .trigger => { s with
          localVariables := s.localVariables.modify (info.key.getD "") (·.erase name) }
    .done (removed.unregister name) true

/-- Gives a variable another value within a trigger, which is declared first if it is missing. The
registry is not touched, and the name need not be registered. -/
def setOverride (s : Store) (name : String) (d : Datum) (key : String) : Outcome Unit :=
  match Value.ofDatum d with
  | .error e => .failed (s.changeTrigger key id) (.datum e)
  | .ok value => .done (s.changeTrigger key fun t =>
      { t with overrides := t.overrides.insert name value }) ()

def removeOverride (s : Store) (name key : String) : Outcome Bool :=
  match s.trigger? key with
  | none => .done s false
  | some t =>
    if t.overrides.contains name then
      .done (s.changeTrigger key fun t => { t with overrides := t.overrides.erase name }) true
    else .done s false

def override? (s : Store) (name key : String) : Option (Option Value) :=
  (s.trigger? key).bind (·.overrides.get? name)

def local? (s : Store) (name key : String) : Option Variable :=
  (s.localVariables.get? key).bind (·.get? name)

def globalValue? (s : Store) (name : String) : Option Value :=
  (s.globalVariables.get? name).bind (·.value)

/-- The value that counts for a variable within a trigger: the trigger's own for it, else that of a
variable which lives in the trigger, else that of a global one. Without a trigger only the last. -/
def effective? (s : Store) (name : String) (key : Option String) : Option Value :=
  match key.filter (· != "") with
  | none => s.globalValue? name
  | some key =>
    match s.override? name key with
    | some value => value
    | none =>
      match s.local? name key with
      | some v => v.value
      | none => s.globalValue? name

end Instrument.Store
