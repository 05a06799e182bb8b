import Instrument.Datum.Printer
import Instrument.Number.Reader
import Instrument.Text.Word

namespace Instrument.Expr

inductive Kind
  | number
  | name
  | plus
  | minus
  | times
  | divide
  | opening
  | closing
  | ending
  deriving DecidableEq

namespace Kind

def label : Kind → String
  | number => "NUMBER"
  | name => "IDENTIFIER"
  | plus => "PLUS"
  | minus => "MINUS"
  | times => "MULTIPLY"
  | divide => "DIVIDE"
  | opening => "LPAREN"
  | closing => "RPAREN"
  | ending => "EOF"

end Kind

/-- A token: its kind, what it holds, and the place of its first character in the text. A token of a
text holds its number, its name, or its own sign; the end holds nothing. -/
structure Token where
  kind : Kind
  content : Datum
  position : Int

namespace Token

def number (n : Number) (position : Int) : Token := ⟨.number, .number n, position⟩

def name (s : String) (position : Int) : Token := ⟨.name, .text s, position⟩

def ending (position : Int) : Token := ⟨.ending, .null, position⟩

def isEnding (t : Token) : Bool := t.kind == .ending

end Token

def describeToken (label : String) (content : Datum) (position : Int) : String :=
  "Token(" ++ label ++ ", " ++ content.quoted ++ ", pos=" ++ toString position ++ ")"

def Token.describe (t : Token) : String := describeToken t.kind.label t.content t.position

structure LexError where
  found : Char
  position : Nat
  deriving DecidableEq

def LexError.message (e : LexError) : String :=
  "Unexpected character '" ++ String.singleton e.found ++ "' at position " ++ toString e.position

def sign? : Char → Option Kind
  | '+' => some .plus
  | '-' => some .minus
  | '*' => some .times
  | '/' => some .divide
  | '(' => some .opening
  | ')' => some .closing
  | _ => none

/-- The tokens of a text that begins at a place, the end of the text last. -/
def scanFrom (position : Nat) (cs : List Char) : Except (Stop LexError) (List Token) :=
  match cs with
  | [] => .ok [.ending position]
  | c :: rest =>
    if Text.isBlank c then scanFrom (position + 1) rest
    else match sign? c with
      | some kind =>
        (⟨kind, .text (String.singleton c), position⟩ :: ·) <$> scanFrom (position + 1) rest
      | none => match _h : Number.numeralFront? (c :: rest) with
        | some (numeral, after) =>
          match Number.ofNumeral numeral with
          | .error e => .error (.overlong e)
          | .ok n =>
            (Token.number n position :: ·) <$> scanFrom (position + numeral.length) after
        | none =>
          if Text.isNameStart c then
            let name := c :: rest.takeWhile Text.isNameRest
            (Token.name (String.ofList name) position :: ·)
              <$> scanFrom (position + name.length) (rest.dropWhile Text.isNameRest)
          else .error (.fault ⟨c, position⟩)
termination_by cs.length
decreasing_by
  · simp
  · simp
  · exact Number.numeralFront?_length_lt _h
  · have := (List.dropWhile_sublist Text.isNameRest (l := rest)).length_le
    simp only [List.length_cons]
    omega

def scan (source : String) : Except (Stop LexError) (List Token) := scanFrom 0 source.toList

/-- A number as it may stand in a document: an optional minus, digits, and an optional point with
more digits. A line feed may follow. -/
def isPlainNumeral (cs : List Char) : Bool :=
  let body := match cs with
    | '-' :: rest => rest
    | _ => cs
  let (whole, rest) := Number.digitsFront body
  let tail := match rest with
    | '.' :: places => (Number.digitsFront places).2
    | _ => rest
  !whole.isEmpty && (tail.isEmpty || tail == ['\n'])

def isOperator (c : Char) : Bool :=
  c == '+' || c == '-' || c == '*' || c == '/' || c == '(' || c == ')'

/-- Whether a text looks like arithmetic: it holds an operator or a parenthesis and is no plain
number. -/
def isArithmetic (cs : List Char) : Bool := cs.any isOperator && !isPlainNumeral cs

def isArithmeticDatum : Datum → Bool
  | .text s => isArithmetic s.toList
  | _ => false

end Instrument.Expr
