import Instrument.Document.Assignment
import Instrument.Store.Components
import Instrument.Store.Variables

namespace Instrument.Document

open Text

structure Frame where
  kind : String
  key : String
  indent : Nat

def globalScope : String := "global"

def Frame.isGlobal (f : Frame) : Bool := f.kind == globalScope

structure ComponentCursor where
  kind : String
  name : String
  indent : Nat

structure AttributeCursor where
  name : String
  indent : Nat
  owner : Owner

/-- The lines on which something was written for the attributes, the latest first. -/
abbrev AttributeLines : Type := List ((Owner × String) × Nat)

/-- What the reader of a document knows after some lines. -/
structure Reader where
  store : Store
  /-- The open triggers, the innermost first. -/
  frames : List Frame
  component : Option ComponentCursor
  trigger : Option Frame
  attr : Option AttributeCursor
  /-- The indent of a refused line, while its body goes on. -/
  skip : Option Nat
  line : Nat
  issues : List Issue
  attributeLines : AttributeLines
  modulationLines : AttributeLines
  notes : List Note

/-- What the first word of a line makes of it. -/
inductive LineKind
  | declaration
  | trigger
  | modulation
  | assignment
  | component
  deriving DecidableEq

def schemaOf (c : Catalog) (owner : Owner) (attr : String) : Option AttributeSchema :=
  match owner with
  | .component _ kind => c.componentAttribute? kind attr
  | .trigger _ kind => c.triggerAttribute? kind attr

def takesAttributes (c : Catalog) : Owner → Bool
  | .component _ _ => true
  | .trigger _ kind => (c.trigger? kind).any (·.canHaveAttributes.isYes)

namespace Reader

def start : Reader := ⟨.empty, [], none, none, none, none, 0, [], [], [], []⟩

def complainAt (line : Nat) (complaint : Complaint) (r : Reader) : Reader :=
  { r with issues := r.issues ++ [⟨line, complaint⟩] }

def complain (complaint : Complaint) (r : Reader) : Reader := r.complainAt r.line complaint

def complainAll (complaints : List Complaint) (r : Reader) : Reader :=
  complaints.foldl (fun r complaint => r.complain complaint) r

/-- Refuses a line together with its body. -/
def refuse (indent : Nat) (complaint : Complaint) (r : Reader) : Reader :=
  { r.complain complaint with skip := some indent }

def follow {α : Type} (outcome : Outcome α) (r : Reader) : Reader :=
  { r with store := outcome.store, notes := r.notes ++ outcome.notes }

def scope (r : Reader) : Option Frame := r.frames.head?.filter (!·.isGlobal)

def owner (r : Reader) : Option Owner :=
  match r.component with
  | some cursor => some (.component cursor.name cursor.kind)
  | none => r.trigger.map fun frame => .trigger frame.key frame.kind

def skips (indent : Nat) (r : Reader) : Bool := r.skip.any (· < indent)

def closeFrames (indent : Nat) (r : Reader) : Reader :=
  let inner := { r with frames := r.frames.dropWhile (indent ≤ ·.indent) }
  if inner.frames.length < r.frames.length then
    { inner with component := none, trigger := inner.scope, attr := none }
  else inner

/-- Closes whatever a line with this indent does not belong to. -/
def settle (indent : Nat) (r : Reader) : Reader :=
  let closed := { r.closeFrames indent with skip := none }
  { closed with
    component := closed.component.filter (·.indent < indent)
    attr := closed.attr.filter (·.indent < indent) }

/-- Whether an indented line goes on with what is open, rather than opening a component. In a
trigger the name of a kind of component opens one, unless the trigger has an attribute of that
name. -/
def continuesBody (c : Catalog) (indent : Nat) (word : String) (r : Reader) : Bool :=
  if indent = 0 then false
  else if r.component.isSome then true
  else match r.trigger with
    | none => false
    | some frame => !c.isComponentKind word || (c.triggerAttribute? frame.kind word).isSome

def classify (c : Catalog) (indent : Nat) (word : String) (r : Reader) : LineKind :=
  if word = variableWord then .declaration
  else if c.isTriggerKind word then .trigger
  else if word = modulationWord then .modulation
  else if r.continuesBody c indent word then .assignment
  else if c.isComponentKind word then .component
  else .assignment

/-- The value of a variable: arithmetic as written, a reference where the text names a variable, or
a literal. -/
def variableValue (text : List Char) (r : Reader) : Value :=
  let word := String.ofList text
  if !Expr.isArithmetic text && isName text && (r.store.nameInfo? word).any (·.isVariable) then
    .variableRef (.text word)
  else plainValue text

def overridesVariables (c : Catalog) (kind : String) : Bool :=
  (c.trigger? kind).all (·.canOverrideVariables.isYes)

def addVariable (name : String) (value : Value) (range : Option Interval) (scope : ScopeKind)
    (key : Option String) (r : Reader) : Outcome Bool :=
  let limit (f : Interval → Float) : Datum := (range.map fun i => Datum.float (f i)).getD .null
  r.store.addVariable name (.value value) scope key (limit (·.low)) (limit (·.high)) (some r.line)

def declareGlobal (name : String) (value : Value) (range : Option Interval) (r : Reader) :
    Reader :=
  let outcome := r.addVariable name value range .global none
  match outcome.answer with
  | .ok true => r.follow outcome
  | _ => (r.follow outcome).complain (.variableTaken name)

/-- Declares a variable in a trigger, or gives another value to one that is declared elsewhere. -/
def declareIn (c : Catalog) (frame : Frame) (name : String) (value : Value)
    (range : Option Interval) (r : Reader) : Reader :=
  match r.store.nameInfo? name with
  | none => r.follow (r.addVariable name value range .trigger (some frame.key))
  | some info =>
    if !info.isVariable then r.complain (.notVariable name info.kind)
    else if !overridesVariables c frame.kind then r.complain (.overridesForbidden frame.kind)
    else
      let r := if range.isSome then r.complain (.rangeIgnored name) else r
      r.follow (r.store.setOverride name (.value value) frame.key)

def declare (c : Catalog) (content : List Char) (r : Reader) : Reader :=
  match declaration? content with
  | none => r.complain .malformedVariable
  | some (name, text) =>
    let brackets := bracketed? text
    let range := brackets.bind fun b => Interval.read? b.inside
    let text := (brackets.map fun b => strip b.before).getD text
    let value := r.variableValue text
    let r := match brackets, range with
      | some b, none => r.complain (.invalidRange (String.ofList b.inside) name)
      | _, _ => r
    match r.scope with
    | none => r.declareGlobal name value range
    | some frame => r.declareIn c frame name value range

def enter (kind : String) (name : Option String) (indent : Nat) (r : Reader) : Reader :=
  let frame : Frame := ⟨kind, makeScopeKey kind name, indent⟩
  { r with
    frames := frame :: r.frames
    trigger := some frame
    component := none
    attr := none
    store := r.store.declareTrigger frame.key kind }

def openTrigger (c : Catalog) (indent : Nat) (content : List Char) (r : Reader) : Reader :=
  let header := Header.ofContent content
  let name := String.ofList header.rest
  match c.trigger? header.word with
  | none => r.refuse indent (.unknownTrigger header.word)
  | some schema =>
    if schema.requiresName.isYes then
      if header.rest.isEmpty then r.refuse indent (.triggerWithoutName header.word)
      else if (words header.rest).length > 1 then r.refuse indent (.triggerNameOfWords name)
      else r.enter header.word (some name) indent
    else if header.rest.isEmpty then r.enter header.word none indent
    else (r.complain (.triggerNameIgnored header.word name)).enter header.word none indent

def addComponent (kind name : String) (indent : Nat) (scope : ScopeKind) (key : Option String)
    (r : Reader) : Reader :=
  let outcome := r.store.addComponent kind name scope key []
  match outcome.answer with
  | .ok true => { r.follow outcome with component := some ⟨kind, name, indent⟩, attr := none }
  | _ => (r.follow outcome).refuse indent (.componentTaken name)

def containsComponents (c : Catalog) (kind : String) : Bool :=
  (c.trigger? kind).all (·.canContainComponents.isYes)

def openComponent (c : Catalog) (indent : Nat) (content : List Char) (r : Reader) : Reader :=
  let header := Header.ofContent content
  let name := String.ofList header.rest
  if header.rest.isEmpty then r.refuse indent (.componentWithoutName header.word)
  else if !isName header.rest then r.refuse indent (.invalidComponentName name)
  else match r.scope with
    | none => r.addComponent header.word name indent .global none
    | some frame =>
      if !containsComponents c frame.kind then r.refuse indent (.componentsForbidden frame.kind)
      else r.addComponent header.word name indent .trigger (some frame.key)

def writeLine (c : Catalog) (strict : Bool) (indent : Nat) (owner : Owner) (attr : String)
    (text : List Char) (r : Reader) : Reader :=
  let schema := schemaOf c owner attr
  let assigned := assign strict owner attr schema (r.store.read owner attr) text
    (r.store.nameInfo? (String.ofList text))
  let told := if schema.isNone then r.complain (.unknownAttribute attr owner.kind) else r
  { told.complainAll assigned.complaints with
    store := r.store.write owner attr assigned.attr
    attributeLines := ((owner, attr), r.line) :: r.attributeLines
    attr := some ⟨attr, indent, owner⟩ }

def assignLine (c : Catalog) (strict : Bool) (indent : Nat) (content : List Char) (r : Reader) :
    Reader :=
  let header := Header.ofContent content
  match r.owner with
  | none => r.complain (.attributeOutside header.word)
  | some owner =>
    if header.rest.isEmpty then r.complain (.attributeWithoutValue header.word)
    else if !takesAttributes c owner then r.complain (.attributesForbidden owner.kind)
    else r.writeLine c strict indent owner header.word header.rest

def attach (name : String) (r : Reader) : Reader :=
  match r.attr with
  | none => r.complain .modulationOutside
  | some cursor =>
    let current := r.store.read cursor.owner cursor.name
    { r with
      store := r.store.write cursor.owner cursor.name
        (current.withModulation (some (.named name)))
      modulationLines := ((cursor.owner, cursor.name), r.line) :: r.modulationLines }

def modulate (content : List Char) (r : Reader) : Reader :=
  match words content with
  | [] | [_] => r.complain .modulationWithoutName
  | [_, name] => r.attach (String.ofList name)
  | _ => r.complain .modulationOfWords

def act (c : Catalog) (strict : Bool) (indent : Nat) (content : List Char) (r : Reader) :
    LineKind → Reader
  | .declaration => r.declare c content
  | .trigger => r.openTrigger c indent content
  | .modulation => r.modulate content
  | .assignment => r.assignLine c strict indent content
  | .component => r.openComponent c indent content

def dispatch (c : Catalog) (strict : Bool) (indent : Nat) (content : List Char) (r : Reader) :
    Reader :=
  r.act c strict indent content (r.classify c indent (String.ofList (firstWord content)))

/-- Reads the next line. It belongs to the innermost trigger, component or attribute that was opened by
a line indented less, with no line between them indented as little as the opening one. -/
def step (c : Catalog) (strict : Bool) (r : Reader) (line : List Char) : Reader :=
  let r := { r with line := r.line + 1 }
  let content := strip line
  let indent := indentOf line
  if saysNothing content || r.skips indent then r
  else (r.settle indent).dispatch c strict indent content

end Reader

end Instrument.Document
