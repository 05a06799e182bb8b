import Instrument.Datum.Reading
import Instrument.Text.Blank
import Instrument.Text.Word

namespace Instrument.Document

open Text

/-- How far a line is indented: a space counts for one, a tab for two. -/
def indentOf : List Char → Nat
  | ' ' :: cs => indentOf cs + 1
  | '\t' :: cs => indentOf cs + 2
  | _ => 0

def saysNothing (content : List Char) : Bool :=
  match content with
  | [] => true
  | c :: _ => c == '#'

def variableWord : String := "variable"

def modulationWord : String := "modulation"

structure Header where
  word : String
  rest : List Char

def Header.ofContent (content : List Char) : Header :=
  let (word, rest) := cutAtSpace content
  ⟨String.ofList word, strip rest⟩

def declaration? (content : List Char) : Option (String × List Char) :=
  let rest := stripStart (content.drop variableWord.length)
  let name := rest.takeWhile isWordChar
  match stripStart (rest.dropWhile isWordChar) with
  | '=' :: more =>
    let text := strip more
    if name.isEmpty || text.isEmpty then none else some (String.ofList name, text)
  | _ => none

/-- What stands in the brackets that end a text, and what stands before them. The brackets hold
something, but no closing bracket, and something stands before them. -/
structure Bracketed where
  before : List Char
  inside : List Char

def bracketFrom (before : List Char) : List Char → Option Bracketed
  | [] => none
  | c :: cs =>
    if c = '[' && !before.isEmpty && !cs.isEmpty && !cs.contains ']' then
      some ⟨before.reverse, cs⟩
    else bracketFrom (c :: before) cs

def bracketed? (text : List Char) : Option Bracketed :=
  match text.reverse with
  | ']' :: rest => bracketFrom [] rest.reverse
  | _ => none

structure Interval where
  low : Float
  high : Float

/-- Reads two numbers with a comma between them, the first no greater than the second. -/
def Interval.read? (cs : List Char) : Option Interval :=
  match cutAt ',' cs with
  | [first, second] => do
    let low ← Number.readFloat? (strip first)
    let high ← Number.readFloat? (strip second)
    if high < low then none else some ⟨low, high⟩
  | _ => none

def exponentFront (cs : List Char) : List Char × List Char :=
  let (mark, body) := cs.splitAt 1
  let (sign, digits) := match body with
    | '-' :: rest => (['-'], rest)
    | '+' :: rest => (['+'], rest)
    | rest => ([], rest)
  match mark, Number.digitsFront digits with
  | _, ([], _) => ([], cs)
  | [e], (size, rest) => if e = 'e' || e = 'E' then (e :: sign ++ size, rest) else ([], cs)
  | _, _ => ([], cs)

def numberFront? (cs : List Char) : Option (List Char × List Char) :=
  let (sign, body) := match cs with
    | '-' :: rest => (['-'], rest)
    | '+' :: rest => (['+'], rest)
    | rest => ([], rest)
  match Number.numeralFront? body with
  | none => none
  | some (numeral, rest) =>
    let (exponent, after) := exponentFront rest
    some (sign ++ numeral ++ exponent, after)

end Instrument.Document
