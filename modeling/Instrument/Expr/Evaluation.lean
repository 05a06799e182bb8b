import Instrument.Datum.Arithmetic
import Instrument.Datum.Reading
import Instrument.Expr.Tree

namespace Instrument.Expr

inductive EvalError
  | malformed (source : String) (cause : SyntaxError)
  | unknownVariable (name : String)
  | notNumeric (name : String) (d : Datum)
  | unsubstituted (name : String)
  | unknownUnary (operator : String)
  | unknownOperator (operator : String)
  | unknownNode (label : String)

def EvalError.message : EvalError → String
  | .malformed source cause => "Invalid expression '" ++ source ++ "': " ++ cause.message
  | .unknownVariable name => "Variable '" ++ name ++ "' not found"
  | .notNumeric name d => "Variable '" ++ name ++ "' is not numeric: " ++ d.quoted
  | .unsubstituted name => "Unresolved identifier '" ++ name ++ "'"
  | .unknownUnary operator => "Unknown unary operator: " ++ operator
  | .unknownOperator operator => "Unknown operator: " ++ operator
  | .unknownNode label => "Unknown node type: " ++ label

/-- What ends an evaluation although the expression is not at fault. -/
inductive Escape
  | operand (e : OperandError)
  | overlong (o : Overlong)

def Escape.message : Escape → String
  | .operand e => e.message
  | .overlong o => o.message

/-- An evaluation fails for a reason of the expression, or otherwise. Where every name has given way
to a number, an operand can only be too large. -/
inductive Failure
  | invalid (e : EvalError)
  | escape (e : Escape)

def Failure.message : Failure → String
  | .invalid e => e.message
  | .escape e => e.message

def Failure.ofStop : Stop EvalError → Failure
  | .fault e => .invalid e
  | .overlong o => .escape (.overlong o)

def orOperand (result : Except OperandError Datum) : Except Failure Datum :=
  result.mapError fun e => .escape (.operand e)

def applyUnary (operator : String) (d : Datum) : Except Failure Datum :=
  if operator = "-" then orOperand d.neg else .error (.invalid (.unknownUnary operator))

def applyBinary (operator : String) (left right : Datum) : Except Failure Datum :=
  if operator = "+" then orOperand (left.add right)
  else if operator = "-" then orOperand (left.sub right)
  else if operator = "*" then orOperand (left.mul right)
  else if operator = "/" then orOperand (left.div right)
  else .error (.invalid (.unknownOperator operator))

def Tree.evaluate : Tree → Except Failure Datum
  | number content => .ok content
  | name s => .error (.invalid (.unsubstituted s))
  | unary operator operand =>
    match operand.evaluate with
    | .error e => .error e
    | .ok d => applyUnary operator d
  | binary operator left right =>
    match left.evaluate with
    | .error e => .error e
    | .ok a =>
      match right.evaluate with
      | .error e => .error e
      | .ok b => applyBinary operator a b
  | bare label => .error (.invalid (.unknownNode label))

def numberFor (name : String) : Option Datum → Except (Stop EvalError) Number
  | none => .error (.fault (.unknownVariable name))
  | some .null => .error (.fault (.unknownVariable name))
  | some d => match d.toNumber? with
    | some n => .ok n
    | none => .error (if d.isWritable then .fault (.notNumeric name d) else .overlong .written)

variable {m : Type → Type} [Monad m]

/-- Puts numbers in the place of names. -/
def substituteM (lookup : String → m (Option Datum)) :
    List Token → m (Except (Stop EvalError) (List Token))
  | [] => pure (.ok [])
  | ⟨.name, content, position⟩ :: rest => do
    match numberFor content.shown (← lookup content.shown) with
    | .error e => return .error e
    | .ok n =>
      match ← substituteM lookup rest with
      | .error e => return .error e
      | .ok done => return .ok (.number n position :: done)
  | t :: rest => do
    match ← substituteM lookup rest with
    | .error e => return .error e
    | .ok done => return .ok (t :: done)

def evaluateTokens (source : String) (tokens : List Token) : Except Failure Datum :=
  match parseTokens source.length tokens with
  | .error e => .error (.ofStop (e.stop.map fun cause => .malformed source (.grammatical cause)))
  | .ok tree => tree.evaluate

/-- The value of a text. The names among its tokens give way to numbers before the tokens are read as a
tree, so that a name without a number is what fails also where the tokens form no tree. -/
def evaluateM (lookup : String → m (Option Datum)) (source : String) :
    m (Except Failure Datum) :=
  match scan source with
  | .error e => pure (.error (.ofStop (e.map fun cause => .malformed source (.lexical cause))))
  | .ok tokens => do
    match ← substituteM lookup tokens with
    | .error e => return .error (.ofStop e)
    | .ok done => return evaluateTokens source done

def substitute (lookup : String → Option Datum) (tokens : List Token) :
    Except (Stop EvalError) (List Token) :=
  Id.run (substituteM (m := Id) lookup tokens)

def evaluate (lookup : String → Option Datum) (source : String) : Except Failure Datum :=
  Id.run (evaluateM (m := Id) lookup source)

/-- The value of a text, or nothing where it has none. A number that is too large or too long still
fails. -/
def evaluate? (lookup : String → Option Datum) (source : String) : Except Escape (Option Datum) :=
  match evaluate lookup source with
  | .ok d => .ok (some d)
  | .error (.invalid _) => .ok none
  | .error (.escape e) => .error e

end Instrument.Expr
