import Instrument.Number.Binary64

namespace Instrument

inductive Number
  | int (value : Int)
  | float (value : Float)

/-- What a computation may exceed. -/
inductive Overflow
  | operand
  | quotient
  deriving DecidableEq

def Overflow.message : Overflow → String
  | .operand => "int too large to convert to float"
  | .quotient => "integer division result too large for a float"

namespace Number

instance : Inhabited Number := ⟨.int 0⟩

def ofInt? (i : Int) : Option Float := Binary64.nearest? (i < 0) i.natAbs 1

def toFloat : Number → Except Overflow Float
  | float x => .ok x
  | int i => match ofInt? i with
    | some x => .ok x
    | none => .error .operand

def combine (whole : Int → Int → Int) (other : Float → Float → Float) :
    Number → Number → Except Overflow Number
  | int a, int b => .ok (int (whole a b))
  | a, b => do
    let x ← a.toFloat
    let y ← b.toFloat
    return float (other x y)

def add : Number → Number → Except Overflow Number := combine (· + ·) (· + ·)

def sub : Number → Number → Except Overflow Number := combine (· - ·) (· - ·)

def mul : Number → Number → Except Overflow Number := combine (· * ·) (· * ·)

def neg : Number → Number
  | int i => int (-i)
  | float x => float (-x)

def isZero : Number → Bool
  | int i => i == 0
  | float x => x == 0

def isNaN : Number → Bool
  | int _ => false
  | float x => x.isNaN

def isFinite : Number → Bool
  | int _ => true
  | float x => (Binary64.parts? x).isSome

/-- A quotient by a number other than zero. That of whole numbers is rounded once, from the exact
quotient. -/
def quotient : Number → Number → Except Overflow Number
  | int a, int b =>
    match Binary64.nearest? ((a < 0) != (b < 0)) a.natAbs b.natAbs with
    | some x => .ok (float x)
    | none => .error .quotient
  | a, b => do
    let x ← a.toFloat
    let y ← b.toFloat
    return float (x / y)

/-- Division. By zero it gives an infinity with the sign of both, and no number when the dividend
is zero too or is no number. -/
def div (a b : Number) : Except Overflow Number :=
  if !b.isZero then quotient a b
  else if a.isZero || a.isNaN then .ok (float Binary64.notANumber)
  else do
    let x ← a.toFloat
    let y ← b.toFloat
    return float (Binary64.infinity (Binary64.isNegative x != Binary64.isNegative y))

def fraction? : Number → Option (Int × Nat)
  | int i => some (i, 1)
  | float x => (Binary64.parts? x).map fun p =>
    let (num, den) := Binary64.divTwoPow p.mantissa 1 (-p.exponent)
    (if p.negative then -(num : Int) else num, den)

def side? : Number → Option Bool
  | int _ => none
  | float x => if x.isNaN then none else some (Binary64.isNegative x)

/-- Strictly less, exactly. What is no number is less than nothing and nothing is less than it. -/
def lt (a b : Number) : Bool :=
  match a.fraction?, b.fraction? with
  | some (n, d), some (m, e) => n * e < m * d
  | some _, none => b.side? == some false
  | none, some _ => a.side? == some true
  | none, none => a.side? == some true && b.side? == some false

def same (a b : Number) : Bool := !a.isNaN && !b.isNaN && !lt a b && !lt b a

@[simp] theorem toFloat_float (x : Float) : (float x).toFloat = .ok x := rfl

end Number

end Instrument
