import Instrument.Datum.Reading
import Instrument.Log
import Instrument.Table

namespace Instrument

inductive ScopeKind
  | global
  | trigger
  deriving DecidableEq

namespace ScopeKind

def name : ScopeKind → String
  | global => "global"
  | trigger => "trigger"

def ofDatum? : Datum → Option ScopeKind
  | .text s => [global, trigger].find? (·.name == s)
  | _ => none

end ScopeKind

def variableKind : String := "variable"

inductive StoreError
  | unknownScope (scope : Datum)
  | componentWithoutKey
  | variableWithoutKey
  | datum (e : DatumError)

def StoreError.message : StoreError → String
  | unknownScope scope => scope.quoted ++ " is not a valid ScopeKind"
  | componentWithoutKey => "Trigger-scoped components require a scope key"
  | variableWithoutKey => "Trigger-scoped variables require a scope key"
  | datum e => e.message

/-- An attribute as it is kept. Data that no attribute can be read from are kept as the fault of
reading them. -/
abbrev Cell : Type := Except DatumError Attribute

namespace Cell

def ofOption : Option Cell → Cell
  | some cell => cell
  | none => .ok .empty

/-- The cell for a datum. Parts that do not belong together are kept; all other data have to be an
attribute. -/
def ofDatum (d : Datum) : Except DatumError Cell :=
  match Attribute.ofDatum d with
  | .ok a => .ok (.ok a)
  | .error (.foreign value modulation) => .ok (.error (.foreign value modulation))
  | .error e => .error e

def value? : Cell → Except DatumError (Option Value)
  | .ok a => .ok a.value
  | .error (.foreign (.value v) _) => .ok (some v)
  | .error (.foreign _ _) => .ok none
  | .error e => .error e

end Cell

def Cell.attribute : Cell → Attribute
  | .ok a => a
  | .error _ => .empty

structure Component where
  kind : String
  name : String
  scope : ScopeKind
  key : Option String
  attributes : Table Cell
  /-- Tells components apart that agree in everything before: one that was taken out while it still
  lay in a second place, and one added in its stead. No other components need it. -/
  edition : Nat := 0

abbrev ComponentTables : Type := Table (Table Component)

structure Variable where
  name : String
  value : Option Value
  scope : ScopeKind
  key : Option String
  lower : Datum
  upper : Datum
  line : Option Int

/-- A trigger: the components it owns, its attributes, and the values it gives to variables while
it sounds. -/
structure Trigger where
  key : String
  kind : String
  components : ComponentTables
  attributes : Table Cell
  overrides : Table (Option Value)

structure NameInfo where
  scope : ScopeKind
  kind : String
  key : Option String
  deriving DecidableEq

def NameInfo.isVariable (info : NameInfo) : Bool := info.kind == variableKind

structure Store where
  components : ComponentTables
  triggers : Table Trigger
  globalVariables : Table Variable
  localVariables : Table (Table Variable)
  names : Table NameInfo

def makeScopeKey (kind : String) (name : Option String) : String :=
  match name with
  | none => kind
  | some name => if name = "" then kind else kind ++ "_" ++ name

/-- The kind of trigger that a key belongs to: what stands before the first underscore. -/
def triggerKindOfKey (key : String) : String :=
  String.ofList (key.toList.takeWhile (· != '_'))

namespace Store

def empty : Store := ⟨.empty, .empty, .empty, .empty, .empty⟩

def isRegistered (s : Store) (name : String) : Bool := s.names.contains name

def nameInfo? (s : Store) (name : String) : Option NameInfo := s.names.get? name

/-- Registers a name, `none` where it is taken. -/
def register? (s : Store) (name : String) (info : NameInfo) : Option Store :=
  if s.isRegistered name then none else some { s with names := s.names.insert name info }

def unregister (s : Store) (name : String) : Store := { s with names := s.names.erase name }

def trigger? (s : Store) (key : String) : Option Trigger := s.triggers.get? key

/-- A trigger with nothing in it. A kind that is not given is read off the key. -/
def freshTrigger (key kind : String) : Trigger :=
  ⟨key, if kind = "" then triggerKindOfKey key else kind, .empty, .empty, .empty⟩

def triggerOrFresh (s : Store) (key kind : String) : Trigger :=
  (s.trigger? key).getD (freshTrigger key kind)

/-- Makes sure that a trigger is there; one that is keeps its kind. -/
def declareTrigger (s : Store) (key kind : String) : Store :=
  { s with triggers := s.triggers.insert key (s.triggerOrFresh key kind) }

def changeTrigger (s : Store) (key : String) (f : Trigger → Trigger) : Store :=
  { s with triggers := s.triggers.insert key (f (s.triggerOrFresh key "")) }

def triggersOfKind (s : Store) (kind : String) : List String :=
  (s.triggers.entries.filter fun p => p.2.kind == kind).map Prod.fst

end Store

/-- What an operation answers, the store it leaves, and what it notes for the log. An operation that
fails may have changed the store before. -/
structure Outcome (α : Type) where
  answer : Except StoreError α
  store : Store
  notes : List Note

namespace Outcome

variable {α : Type}

def done (store : Store) (a : α) : Outcome α := ⟨.ok a, store, []⟩

def failed (store : Store) (e : StoreError) : Outcome α := ⟨.error e, store, []⟩

def refused (store : Store) (name : String) : Outcome Bool := ⟨.ok false, store, [.nameTaken name]⟩

variable (s : Store) (a : α) (e : StoreError) (name : String)

@[simp] theorem store_done : (done s a).store = s := rfl

@[simp] theorem answer_done : (done s a).answer = .ok a := rfl

@[simp] theorem store_failed : (failed s e : Outcome α).store = s := rfl

@[simp] theorem answer_failed : (failed s e : Outcome α).answer = .error e := rfl

@[simp] theorem store_refused : (refused s name).store = s := rfl

@[simp] theorem answer_refused : (refused s name).answer = .ok false := rfl

end Outcome

def ScopeKind.read (scope : Datum) : Except StoreError ScopeKind :=
  match ofDatum? scope with
  | some kind => .ok kind
  | none => .error (.unknownScope scope)

def ScopeKind.keyFor (scope : ScopeKind) (key : Option String) : Option String :=
  match scope with
  | global => none
  | trigger => key

def ScopeKind.lacksKey (scope : ScopeKind) (key : Option String) : Bool :=
  scope == .trigger && key.getD "" == ""

end Instrument
