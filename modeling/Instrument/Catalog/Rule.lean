import Instrument.Datum.Order
import Instrument.Datum.Printer
import Instrument.Text.Order

namespace Instrument

namespace Datum

/-- The types that rules tell apart. A whole number is a number too, and so is a binary64 value
without a fraction a whole one. -/
inductive Shape
  | record
  | list
  | text
  | bool
  | null
  | number
  | integer
  deriving DecidableEq

namespace Shape

def name : Shape → String
  | record => "object"
  | list => "array"
  | text => "string"
  | bool => "boolean"
  | null => "null"
  | number => "number"
  | integer => "integer"

def isWhole (x : Float) : Bool :=
  match Binary64.parts? x with
  | none => false
  | some p =>
    let (num, den) := Binary64.divTwoPow p.mantissa 1 (-p.exponent)
    num % den == 0

def holds : Shape → Datum → Bool
  | record, .record _ => true
  | list, .list _ => true
  | text, .text _ => true
  | bool, .bool _ => true
  | null, .null => true
  | number, .number _ => true
  | integer, .number (.int _) => true
  | integer, .number (.float x) => isWhole x
  | _, _ => false

end Shape

end Datum

structure NameForm where
  pattern : String
  follows : Char → Bool

/-- A line feed may stand at the end of the name. -/
def NameForm.accepts (f : NameForm) (s : String) : Bool :=
  match s.toList with
  | [] => false
  | c :: rest =>
    let tail := rest.dropWhile f.follows
    c.isLower && (tail.isEmpty || tail == ['\n'])

/-- What a datum has to be like. A rule that does not concern the type of a datum says nothing about
it. -/
inductive Rule
  | shape (allowed : List Datum.Shape)
  | required (keys : List String)
  | closed (known : List String)
  | others (known : List String) (rules : List Rule)
  | fields (rules : List (String × List Rule))
  | keys (rules : List Rule)
  | items (rules : List Rule)
  | oneOf (options : List String)
  | form (f : NameForm)
  | recordNotEmpty
  | listNotEmpty
  | textNotEmpty
  | distinct
  | positive

inductive Step
  | key (k : String)
  | index (n : Nat)
  deriving DecidableEq

structure Finding where
  path : List Step
  message : String

namespace Finding

def under (step : Step) (f : Finding) : Finding := { f with path := step :: f.path }

def here (message : String) : Finding := ⟨[], message⟩

end Finding

namespace Rule

def unexpectedMessage (extra : List String) : String :=
  "Additional properties are not allowed (" ++ ", ".intercalate ((Text.sorted extra).map Text.quoted)
    ++ (if extra.length = 1 then " was" else " were") ++ " unexpected)"

def missingFindings (names : List String) (d : Datum) : List Finding :=
  (names.filter fun name => !d.hasField name).map fun name =>
    .here (Text.quoted name ++ " is a required property")

def emptyFinding (d : Datum) (isEmpty : Bool) : List Finding :=
  if isEmpty then [.here (d.quoted ++ " should be non-empty")] else []

def positiveFinding (n : Number) : List Finding :=
  if (n.lt (.int 0)) || n.same (.int 0) then
    [.here (n.text ++ " is less than or equal to the minimum of 0")]
  else []

def indexed (check : Datum → List Finding) (from_ : Nat) : List Datum → List Finding
  | [] => []
  | d :: rest => (check d).map (.under (.index from_)) ++ indexed check (from_ + 1) rest

mutual

def check : Rule → Datum → List Finding
  | shape allowed, d =>
    if allowed.any (·.holds d) then []
    else [.here (d.quoted ++ " is not of type "
      ++ ", ".intercalate (allowed.map fun s => Text.quoted s.name))]
  | required names, .record members => missingFindings names (.record members)
  | closed known, .record members =>
    let extra := (members.map Prod.fst).filter (!known.contains ·)
    if extra.isEmpty then [] else [.here (unexpectedMessage extra)]
  | others known rules, .record members =>
    (members.filter (!known.contains ·.1)).flatMap fun f =>
      (checkAll rules f.2).map (.under (.key f.1))
  | fields rules, .record members => checkFields rules (.record members)
  | keys rules, .record members => members.flatMap fun f => checkAll rules (.text f.1)
  | items rules, .list members => indexed (checkAll rules) 0 members
  | oneOf options, d =>
    if options.any (fun s => d.same (.text s)) then []
    else [.here (d.quoted ++ " is not one of " ++ (Datum.list (options.map .text)).quoted)]
  | form f, .text s =>
    if f.accepts s then []
    else [.here (Text.quoted s ++ " does not match " ++ Text.quoted f.pattern)]
  | recordNotEmpty, .record members => emptyFinding (.record members) members.isEmpty
  | listNotEmpty, .list members => emptyFinding (.list members) members.isEmpty
  | textNotEmpty, .text s => emptyFinding (.text s) (s == "")
  | distinct, .list members =>
    if Datum.isDistinct members then []
    else [.here ((Datum.list members).quoted ++ " has non-unique elements")]
  | positive, .number n => positiveFinding n
  | _, _ => []

def checkAll : List Rule → Datum → List Finding
  | [], _ => []
  | rule :: rest, d => check rule d ++ checkAll rest d

def checkFields : List (String × List Rule) → Datum → List Finding
  | [], _ => []
  | (key, rules) :: rest, d =>
    (match d.field? key with
      | some member => (checkAll rules member).map (.under (.key key))
      | none => []) ++ checkFields rest d

end

end Rule

namespace Step

/-- Keys by code point, indexes by size. -/
def before : Step → Step → Bool
  | key a, key b => a < b
  | index a, index b => a < b
  | index _, key _ => true
  | key _, index _ => false

/-- Whether a path comes before another or is equal to it: the first step that differs decides,
and a path comes before its continuations. -/
def pathLe : List Step → List Step → Bool
  | [], _ => true
  | _ :: _, [] => false
  | a :: as, b :: bs => if a = b then pathLe as bs else before a b

def text : Step → String
  | key k => k
  | index n => "[" ++ toString n ++ "]"

def dropSlashes : List Char → List Char
  | '/' :: '[' :: rest => '[' :: dropSlashes rest
  | c :: rest => c :: dropSlashes rest
  | [] => []

/-- Keys are joined by slashes, an index stands in brackets right after what it belongs to. -/
def pathText (path : List Step) : String :=
  String.ofList (dropSlashes ("/".intercalate (path.map text)).toList)

end Step

/-- The findings of a format, ordered by where they are; those at one place keep their order. -/
def Rule.findings (format : List Rule) (d : Datum) : List Finding :=
  (Rule.checkAll format d).mergeSort fun a b => Step.pathLe a.path b.path

end Instrument
