import Instrument.Datum.Printer
import Instrument.Severity

namespace Instrument.Document

inductive Complaint
  -- Variables
  | malformedVariable
  | variableTaken (name : String)
  | notVariable (name kind : String)
  | overridesForbidden (trigger : String)
  | invalidRange (range name : String)
  | rangeIgnored (name : String)
  -- Triggers
  | unknownTrigger (kind : String)
  | triggerWithoutName (kind : String)
  | triggerNameIgnored (kind name : String)
  | triggerNameOfWords (name : String)
  -- Components
  | componentWithoutName (kind : String)
  | invalidComponentName (name : String)
  | componentsForbidden (trigger : String)
  | componentTaken (name : String)
  -- Attributes
  | attributeOutside (attr : String)
  | attributeWithoutValue (attr : String)
  | attributesForbidden (trigger : String)
  | unknownAttribute (attr kind : String)
  | noVariables (attr : String)
  | invalidChoice (word attr : String) (values : List Datum)
  | notNumber (attr text : String) (default : Datum)
  | restIgnored (rest attr : String)
  -- Modulation
  | modulationWithoutName
  | modulationOfWords
  | modulationOutside
  | modulatorUnknown (name : String)
  | notModulator (name kind : String) (modulators : List String)
  | noModulation (attr : String)
  | modulatorRefused (attr kind : String) (allowed : List String)
  -- Names
  | unknownName (name attr owner : String)
  | noComponents (attr name : String)
  | componentRefused (attr kind : String) (allowed : List String)
  | modulatorAsValue (attr name : String)
  | alreadyModulated (attr name : String)
  | modulatorMoved (attr name : String) (default : Datum)

namespace Complaint

def severity : Complaint → Severity
  | invalidRange _ _ | rangeIgnored _ | triggerNameIgnored _ _ | unknownAttribute _ _
  | noVariables _ | notNumber _ _ _ | restIgnored _ _ | modulatorMoved _ _ _ => .warning
  | _ => .error

def marked (s : String) : String := "\"" ++ s ++ "\""

def listed (names : List String) : String := ", ".intercalate names

def message : Complaint → String
  | malformedVariable =>
    "Invalid variable declaration (expected \"variable <name> = <value>\")"
  | variableTaken name => "Variable name " ++ marked name ++ " is already in use"
  | notVariable name kind =>
    "Name " ++ marked name ++ " belongs to a " ++ kind ++ " and cannot be overridden"
  | overridesForbidden trigger => "Trigger " ++ marked trigger ++ " cannot override variables"
  | invalidRange range name =>
    "Invalid range \"[" ++ range ++ "]\" for variable " ++ marked name ++ ", ignoring it"
  | rangeIgnored name => "Range is ignored when overriding variable " ++ marked name
  | unknownTrigger kind => "Unknown trigger type " ++ marked kind
  | triggerWithoutName kind => "Trigger " ++ marked kind ++ " requires a name"
  | triggerNameIgnored kind name =>
    "Trigger " ++ marked kind ++ " does not take a name, ignoring " ++ marked name
  | triggerNameOfWords name => "Trigger name " ++ marked name ++ " must be a single word"
  | componentWithoutName kind => "Component " ++ marked kind ++ " requires a name"
  | invalidComponentName name =>
    "Component name " ++ marked name
      ++ " must be a single word of letters, digits or underscores"
  | componentsForbidden trigger => "Trigger " ++ marked trigger ++ " cannot contain components"
  | componentTaken name => "Component name " ++ marked name ++ " is already in use"
  | attributeOutside attr =>
    "Attribute " ++ marked attr ++ " must be inside a component or trigger"
  | attributeWithoutValue attr => "Attribute " ++ marked attr ++ " requires a value"
  | attributesForbidden trigger => "Trigger " ++ marked trigger ++ " cannot have attributes"
  | unknownAttribute attr kind => "Unknown attribute " ++ marked attr ++ " for " ++ kind
  | noVariables attr => "Attribute " ++ marked attr ++ " cannot reference variables"
  | invalidChoice word attr values =>
    "Invalid enum value " ++ marked word ++ " for attribute " ++ marked attr ++ " (valid: "
      ++ listed (values.map Datum.shown) ++ ")"
  | notNumber attr text default =>
    "Attribute " ++ marked attr ++ " expects a number, got " ++ marked text ++ "; using default "
      ++ default.shown
  | restIgnored rest attr =>
    "Ignoring " ++ marked rest ++ " after the number in attribute " ++ marked attr
  | modulationWithoutName => "Modulation requires a modulator name"
  | modulationOfWords => "Modulation takes a single modulator name"
  | modulationOutside => "Modulation must be nested under an attribute"
  | modulatorUnknown name => "Modulator " ++ marked name ++ " not found or is not a component"
  | notModulator name kind modulators =>
    "Component " ++ marked name ++ " is a " ++ kind
      ++ ", which cannot be used as a modulator (modulators: " ++ listed modulators ++ ")"
  | noModulation attr => "Attribute " ++ marked attr ++ " does not accept modulation"
  | modulatorRefused attr kind allowed =>
    "Attribute " ++ marked attr ++ " cannot accept modulation from " ++ marked kind
      ++ " (allowed: " ++ listed allowed ++ ")"
  | unknownName name attr owner =>
    "Unknown name " ++ marked name ++ " for attribute " ++ marked attr ++ " of " ++ owner
  | noComponents attr name =>
    "Attribute " ++ marked attr ++ " cannot reference component " ++ marked name
  | componentRefused attr kind allowed =>
    "Attribute " ++ marked attr ++ " cannot accept component type " ++ marked kind
      ++ " (allowed: " ++ listed allowed ++ ")"
  | modulatorAsValue attr name =>
    "Attribute " ++ marked attr ++ " takes a value; attach " ++ marked name ++ " with a nested "
      ++ marked ("modulation " ++ name) ++ " line"
  | alreadyModulated attr name =>
    "Attribute " ++ marked attr ++ " already has a modulation; remove " ++ marked name
      ++ " from its value"
  | modulatorMoved attr name default =>
    "Deprecated syntax: " ++ marked (attr ++ " " ++ name) ++ ". Use "
      ++ marked (attr ++ " " ++ default.shown) ++ " with a nested "
      ++ marked ("modulation " ++ name) ++ " line instead"

end Complaint

/-- Why a complaint cannot be worded: a listed value is no text. -/
structure UnlistedValue where
  index : Nat
  value : Datum

def UnlistedValue.message (u : UnlistedValue) : String :=
  "sequence item " ++ toString u.index ++ ": expected str instance, " ++ u.value.typeName
    ++ " found"

def unlisted? (index : Nat) : List Datum → Option UnlistedValue
  | [] => none
  | .text _ :: rest => unlisted? (index + 1) rest
  | d :: _ => some ⟨index, d⟩

def Complaint.unlisted? : Complaint → Option UnlistedValue
  | invalidChoice _ _ values => Document.unlisted? 0 values
  | _ => none

structure Issue where
  line : Nat
  complaint : Complaint

def reportLine (line : Int) (severity : Severity) (message : String) : String :=
  "line " ++ toString line ++ ": [" ++ severity.capitals ++ "] " ++ message

namespace Issue

def severity (i : Issue) : Severity := i.complaint.severity

def message (i : Issue) : String := i.complaint.message

def text (i : Issue) : String := reportLine i.line i.severity i.message

def isError (i : Issue) : Bool := i.severity == .error

end Issue

end Instrument.Document
