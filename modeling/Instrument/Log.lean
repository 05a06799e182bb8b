import Instrument.Expr.Evaluation

namespace Instrument

inductive Note
  | nameTaken (name : String)
  | selfReference (name : String)
  | shadowed (name : String) (scope : Option String)
  | variableFailed (name : String) (cause : Expr.EvalError)
  | expressionFailed (source : String) (cause : Expr.EvalError)
  | modulatorBound (name kind attr : String)
  | documentRead (lines errors warnings : Nat)
  | catalogLoaded (path : String) (components triggers : Nat)
  | catalogValidated (path : String) (issues : Nat)

namespace Note

inductive Level
  | debug
  | warning
  deriving DecidableEq

def Level.rank : Level → Nat
  | debug => 10
  | warning => 30

def Level.name : Level → String
  | debug => "DEBUG"
  | warning => "WARNING"

def level : Note → Level
  | nameTaken _ | selfReference _ | shadowed _ _ => .warning
  | _ => .debug

def origin : Note → String
  | nameTaken _ | selfReference _ | shadowed _ _ | variableFailed _ _ | expressionFailed _ _ =>
    "synthlang.store.instance_store"
  | modulatorBound _ _ _ => "synthlang.document.resolver"
  | documentRead _ _ _ => "synthlang.document.parser"
  | catalogLoaded _ _ _ => "synthlang.catalog.loader"
  | catalogValidated _ _ => "synthlang.catalog.validator"

def text : Note → String
  | nameTaken name => "Name '" ++ name ++ "' is already registered"
  | selfReference name => "Variable '" ++ name ++ "' refers to itself"
  | shadowed name scope =>
    "Component '" ++ name ++ "' from scope '" ++ scope.getD "None"
      ++ "' shadows another component with the same name"
  | variableFailed name cause => "Variable '" ++ name ++ "' did not evaluate: " ++ cause.message
  | expressionFailed source cause => "Expression '" ++ source ++ "' failed: " ++ cause.message
  | modulatorBound name kind attr =>
    "Bound modulator '" ++ name ++ "' (" ++ kind ++ ") to '" ++ attr ++ "'"
  | documentRead lines errors warnings =>
    "Parsed " ++ toString lines ++ " lines: " ++ toString errors ++ " errors, "
      ++ toString warnings ++ " warnings"
  | catalogLoaded path components triggers =>
    "Loaded catalog " ++ path ++ ": " ++ toString components ++ " component kinds, "
      ++ toString triggers ++ " trigger kinds"
  | catalogValidated path issues =>
    "Validated " ++ path ++ ": " ++ toString issues ++ " issue(s)"

def isLoud (n : Note) : Bool := n.level == .warning

end Note

structure Noted (α : Type) where
  value : α
  notes : List Note

namespace Noted

variable {α β : Type}

@[ext] theorem ext {x y : Noted α} (hv : x.value = y.value) (hn : x.notes = y.notes) : x = y := by
  cases x; cases y; simp_all

protected def pure (a : α) : Noted α := ⟨a, []⟩

protected def bind (x : Noted α) (f : α → Noted β) : Noted β :=
  let y := f x.value
  ⟨y.value, x.notes ++ y.notes⟩

instance : Monad Noted where
  pure := Noted.pure
  bind := Noted.bind

def note (n : Note) : Noted Unit := ⟨(), [n]⟩

@[simp] theorem value_pure (a : α) : (pure a : Noted α).value = a := rfl

@[simp] theorem notes_pure (a : α) : (pure a : Noted α).notes = [] := rfl

@[simp] theorem value_bind (x : Noted α) (f : α → Noted β) :
    (x >>= f).value = (f x.value).value := rfl

@[simp] theorem notes_bind (x : Noted α) (f : α → Noted β) :
    (x >>= f).notes = x.notes ++ (f x.value).notes := rfl

@[simp] theorem value_note (n : Note) : (note n).value = () := rfl

instance : LawfulMonad Noted :=
  LawfulMonad.mk' Noted
    (fun x => by ext <;> simp [Functor.map, Noted.bind, Noted.pure])
    (fun a f => by apply Noted.ext <;> simp)
    (fun x f g => by apply Noted.ext <;> simp [List.append_assoc])

end Noted

end Instrument
