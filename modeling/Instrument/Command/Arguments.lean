namespace Instrument.Command

inductive UsageError
  | unknownOption (option : String)
  | valueMissing (option : String)
  | valueUnexpected (option : String)
  | argumentMissing (name : String)
  | argumentUnexpected (argument : String)
  | optionMissing (option : String)
  | commandMissing
  | commandUnknown (name : String)
  | fileMissing (path : String)

def UsageError.message : UsageError → String
  | unknownOption option => "No such option: " ++ option
  | valueMissing option => "Option '" ++ option ++ "' requires an argument."
  | valueUnexpected option => "Option '" ++ option ++ "' does not take a value."
  | argumentMissing name => "Missing argument '" ++ name ++ "'."
  | argumentUnexpected argument => "Got unexpected extra argument (" ++ argument ++ ")"
  | optionMissing option => "Missing option '" ++ option ++ "'."
  | commandMissing => "Missing command."
  | commandUnknown name => "No such command '" ++ name ++ "'."
  | fileMissing path => "File '" ++ path ++ "' does not exist."

structure OptionForm where
  name : String
  letter : Option Char
  takesValue : Bool

namespace OptionForm

def flag (name : String) : OptionForm := ⟨name, none, false⟩

def valued (name : String) : OptionForm := ⟨name, none, true⟩

end OptionForm

structure Arguments where
  flags : List String
  values : List (String × String)
  others : List String

namespace Arguments

def none : Arguments := ⟨[], [], []⟩

def withFlag (name : String) (a : Arguments) : Arguments := { a with flags := name :: a.flags }

def withValue (name value : String) (a : Arguments) : Arguments :=
  { a with values := (name, value) :: a.values }

def withOthers (more : List String) (a : Arguments) : Arguments :=
  { a with others := a.others ++ more }

def has (name : String) (a : Arguments) : Bool := a.flags.contains name

def value? (name : String) (a : Arguments) : Option String := a.values.lookup name

def isOption (argument : String) : Bool :=
  match argument.toList with
  | '-' :: _ :: _ => true
  | _ => false

def cutAtEquals (argument : String) : String × Option String :=
  let cs := argument.toList
  match cs.dropWhile (· != '=') with
  | [] => (argument, Option.none)
  | _ :: value => (String.ofList (cs.takeWhile (· != '=')), some (String.ofList value))

def readLetters (forms : List OptionForm) (argument : String) (a : Arguments) :
    Except UsageError Arguments :=
  match argument.toList with
  | '-' :: '-' :: _ => .error (.unknownOption argument)
  | '-' :: letters => letters.foldlM (fun a letter =>
      match forms.find? fun form => form.letter == some letter && !form.takesValue with
      | some form => .ok (a.withFlag form.name)
      | Option.none => .error (.unknownOption argument)) a
  | _ => .error (.unknownOption argument)

/-- Reads arguments. Where options may not stand `anywhere`, they end at the first other argument.
Two dashes end them in any case. -/
def read (forms : List OptionForm) (anywhere : Bool) (a : Arguments) :
    List String → Except UsageError Arguments
  | [] => .ok a
  | argument :: rest =>
    if argument = "--" then .ok (a.withOthers rest)
    else if isOption argument then
      let (name, value) := cutAtEquals argument
      match forms.find? (·.name == name), value with
      | Option.none, _ =>
        match readLetters forms argument a with
        | .ok a => read forms anywhere a rest
        | .error e => .error e
      | some ⟨_, _, false⟩, some _ => .error (.valueUnexpected name)
      | some ⟨_, _, false⟩, Option.none => read forms anywhere (a.withFlag name) rest
      | some ⟨_, _, true⟩, some value => read forms anywhere (a.withValue name value) rest
      | some ⟨_, _, true⟩, Option.none =>
        match rest with
        | [] => .error (.valueMissing name)
        | value :: more => read forms anywhere (a.withValue name value) more
    else if anywhere then read forms anywhere (a.withOthers [argument]) rest
    else .ok (a.withOthers (argument :: rest))

def single (name : String) (a : Arguments) : Except UsageError String :=
  match a.others with
  | [] => .error (.argumentMissing name)
  | [argument] => .ok argument
  | _ :: extra :: _ => .error (.argumentUnexpected extra)

def noOthers (a : Arguments) : Except UsageError Unit :=
  match a.others with
  | [] => .ok ()
  | extra :: _ => .error (.argumentUnexpected extra)

end Arguments

end Instrument.Command
