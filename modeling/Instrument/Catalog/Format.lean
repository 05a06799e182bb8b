import Instrument.Catalog.Rule

namespace Instrument.Catalog.Format

open Rule

def isSmallOrDigit (c : Char) : Bool := c.isLower || c.isDigit || c == '_'

def kindName : NameForm := ⟨"^[a-z][a-z0-9_]*$", isSmallOrDigit⟩

def attributeName : NameForm := ⟨"^[a-z][a-zA-Z0-9_]*$", fun c => isSmallOrDigit c || c.isUpper⟩

def kindList : List Rule := [shape [.list], items [shape [.text], form kindName], distinct]

def attributeFields : List (String × List Rule) := [
  ("type", [oneOf ["number", "integer", "percentage", "time_ms", "time_sec", "frequency", "enum",
    "variable_ref", "component_ref"]]),
  ("min", [shape [.number]]),
  ("max", [shape [.number]]),
  ("step", [shape [.number], positive]),
  ("default", [shape [.number, .text, .null]]),
  ("unit", [shape [.text]]),
  ("description", [shape [.text]]),
  ("values", [shape [.list], items [shape [.text]]]),
  ("valuesFrom", [oneOf ["chords"]]),
  ("allowCustom", [shape [.bool]]),
  ("modulationMode", [oneOf ["additive", "multiplicative"]]),
  ("canReference", [shape [.list], items [oneOf ["variable_ref", "component_ref"]], distinct]),
  ("acceptsComponents", kindList),
  ("acceptsModulation", kindList)]

def recordOf (needed : List String) (members : List (String × List Rule)) : List Rule :=
  [shape [.record], required needed, closed (members.map Prod.fst), fields members]

def attributeRules : List Rule := recordOf ["type"] attributeFields

def attributesRules : List Rule :=
  [shape [.record], keys [form attributeName], others [] attributeRules]

def componentRules : List Rule := recordOf ["role", "attributes"] [
  ("role", [oneOf ["source", "modulator", "processor"]]),
  ("description", [shape [.text]]),
  ("attributes", attributesRules)]

def triggerRules : List Rule := recordOf [] [
  ("description", [shape [.text]]),
  ("requiresName", [shape [.bool]]),
  ("canHaveAttributes", [shape [.bool]]),
  ("canContainComponents", [shape [.bool]]),
  ("canOverrideVariables", [shape [.bool]]),
  ("attributes", attributesRules)]

def kindsOf (rules : List Rule) : List Rule :=
  [shape [.record], recordNotEmpty, keys [form kindName], others [] rules]

def catalog : List Rule := recordOf ["components", "triggers"] [
  ("components", kindsOf componentRules),
  ("triggers", kindsOf triggerRules)]

def chordRules : List Rule := recordOf ["name", "semitones"] [
  ("name", [shape [.text], textNotEmpty]),
  ("semitones", [shape [.list], items [shape [.integer]], listNotEmpty])]

def chords : List Rule := recordOf ["chords"] [("chords", [shape [.list], items chordRules])]

end Instrument.Catalog.Format
