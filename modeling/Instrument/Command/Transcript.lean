import Instrument.Catalog.Loading
import Instrument.Document.Issue
import Instrument.Json.Printer
import Instrument.Log
import Instrument.Store.Resolution
import Instrument.Store.Snapshot
import Instrument.Text.Control

namespace Instrument.Command

inductive Emission
  | out (line : String)
  | err (line : String)
  | log (note : Note)

inductive Fault
  | load (e : Catalog.LoadError)
  | halt (h : Halt)
  | unlisted (u : Document.UnlistedValue)
  | json (f : Json.Fault)
  | datum (e : DatumError)

def Fault.message : Fault → String
  | load e => e.message
  | halt h => h.message
  | unlisted u => u.message
  | json f => f.message
  | datum e => e.message

inductive Ending
  | completed
  | failed
  | faulted (f : Fault)

def Ending.code : Ending → Nat
  | completed => 0
  | _ => 1

structure Transcript where
  emissions : List Emission
  ending : Ending

/-- Steps of a command. An ending before the last step is thrown. -/
abbrev Act (α : Type) : Type := ExceptT Ending (StateM (List Emission)) α

namespace Act

def emit (e : Emission) : Act Unit := modify (· ++ [e])

def out (line : String) : Act Unit := emit (.out line)

def err (line : String) : Act Unit := emit (.err line)

def log (notes : List Note) : Act Unit := modify (· ++ notes.map .log)

def fail {α : Type} : Act α := throw .failed

def fault {α : Type} (f : Fault) : Act α := throw (.faulted f)

def transcript (act : Act Unit) : Transcript :=
  let (result, emissions) := act.run.run []
  ⟨emissions, match result with
    | .ok () => .completed
    | .error ending => ending⟩

end Act

structure LogStyle where
  rank : Nat
  labelled : Bool

def LogStyle.line? (style : LogStyle) (note : Note) : Option String :=
  if note.level.rank < style.rank then none
  else if style.labelled then
    some (note.level.name ++ " " ++ note.origin ++ ": " ++ note.text)
  else some note.text

def textOf (lines : List String) : String := String.join (lines.map (· ++ "\n"))

namespace Transcript

def plain (line : String) : String := String.ofList (Text.withoutControls line.toList)

def output (t : Transcript) : String :=
  textOf (t.emissions.filterMap fun
    | .out line => some (plain line)
    | _ => none)

def errors (style : LogStyle) (t : Transcript) : String :=
  textOf (t.emissions.filterMap fun
    | .out _ => none
    | .err line => some (plain line)
    | .log note => style.line? note)

end Transcript

end Instrument.Command
