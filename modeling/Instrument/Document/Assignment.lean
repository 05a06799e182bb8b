import Instrument.Document.Binding
import Instrument.Document.Line
import Instrument.Expr.Token

namespace Instrument.Document

/-- An attribute as a line leaves it, and what there is to say about the line. -/
structure Assigned where
  attr : Attribute
  complaints : List Complaint

namespace Assigned

def clean (a : Attribute) : Assigned := ⟨a, []⟩

def ofBound (b : Bound) : Assigned := ⟨b.attr, b.complaint.toList⟩

def complain (c : Complaint) (a : Assigned) : Assigned := { a with complaints := c :: a.complaints }

end Assigned

def plainValue (text : List Char) : Value :=
  if Expr.isArithmetic text then .expression (.text (String.ofList text))
  else .literal (Datum.ofText text)

def defaultValue (schema : AttributeSchema) : Option Value :=
  match schema.default with
  | .null => none
  | d => some (.literal d)

def choose (attr : String) (schema : AttributeSchema) (current : Attribute) (word : String) :
    Assigned :=
  if schema.lists word || schema.allowCustom.isYes then
    .clean (current.withValue (some (.literal (.text word))))
  else ⟨current.withValue (defaultValue schema), [.invalidChoice word attr schema.values]⟩

/-- Reads a number. Of a text that only begins with one the rest is ignored; for any other text the
default is taken. -/
def measure (attr : String) (schema : AttributeSchema) (current : Attribute) (text : List Char) :
    Assigned :=
  match Datum.ofText text with
  | .text _ =>
    match numberFront? text with
    | some (number, rest) =>
      ⟨current.withValue (some (.literal (Datum.ofText number))),
        [.restIgnored (String.ofList (Text.strip rest)) attr]⟩
    | none =>
      ⟨current.withValue (defaultValue schema),
        [.notNumber attr (String.ofList text) schema.default]⟩
  | d => .clean (current.withValue (some (.literal d)))

def assignTyped (attr : String) (schema : AttributeSchema) (current : Attribute)
    (text : List Char) : Assigned :=
  if schema.type == .choice then choose attr schema current (String.ofList text)
  else if schema.isNumeric && !Expr.isArithmetic text then measure attr schema current text
  else .clean (current.withValue (some (plainValue text)))

/-- Reads a name, `info` being what is registered under it so far. -/
def assignName (strict : Bool) (owner : Owner) (attr : String) (schema : AttributeSchema)
    (current : Attribute) (text : List Char) (info : Option NameInfo) : Assigned :=
  let word := String.ofList text
  if schema.resolvesComponents || schema.canReferenceVariables then
    if info.any fun i => i.isVariable || schema.isReference then
      .ofBound (bindWord strict owner attr schema current word info)
    else if schema.type == .choice then assignTyped attr schema current text
    else .clean (current.withValue (some (.unresolved (.text word))))
  else if info.any (·.isVariable) then
    if schema.isNumeric then ⟨current.withValue (defaultValue schema), [.noVariables attr]⟩
    else (assignTyped attr schema current text).complain (.noVariables attr)
  else assignTyped attr schema current text

/-- Reads the text given to an attribute. One that the catalog does not know takes anything. -/
def assign (strict : Bool) (owner : Owner) (attr : String) (schema : Option AttributeSchema)
    (current : Attribute) (text : List Char) (info : Option NameInfo) : Assigned :=
  match schema with
  | none => .clean (current.withValue (some (plainValue text)))
  | some schema =>
    if Text.isName text then assignName strict owner attr schema current text info
    else assignTyped attr schema current text

end Instrument.Document
