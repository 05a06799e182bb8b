import Instrument.Number.Basic
import Instrument.Number.Decimal
import Instrument.Number.Digits

namespace Instrument.Number

/-- Positional notation is used while the point stands within this many places of the digits: down
to four places right of the point, up to sixteen left of it. -/
def positional (point : Int) : Bool := -4 < point && point ≤ 16

def positionalText (digits : List Char) (point : Int) : List Char :=
  if point ≤ 0 then '0' :: '.' :: List.replicate (-point).toNat '0' ++ digits
  else
    let whole := point.toNat
    if digits.length ≤ whole then
      digits ++ List.replicate (whole - digits.length) '0' ++ ['.', '0']
    else digits.take whole ++ '.' :: digits.drop whole

def scientificText (digits : List Char) (exponent : Int) : List Char :=
  let size := Nat.toDigits 10 exponent.natAbs
  let rest := digits.drop 1
  digits.take 1 ++ (if rest.isEmpty then [] else '.' :: rest)
    ++ 'e' :: (if exponent < 0 then '-' else '+')
    :: List.replicate (2 - size.length) '0' ++ size

def decimalText (d : Decimal) : List Char :=
  let all := Nat.toDigits 10 d.coefficient
  let point := all.length + d.exponent
  let digits := (all.reverse.dropWhile (· == '0')).reverse
  if positional point then positionalText digits point else scientificText digits (point - 1)

def floatText (x : Float) : String :=
  match Binary64.parts? x with
  | none =>
    if x.isNaN then "nan" else if Binary64.isNegative x then "-inf" else "inf"
  | some p =>
    let size :=
      if p.mantissa = 0 then ['0', '.', '0']
      else decimalText (Decimal.shortest p.mantissa p.exponent)
    String.ofList (if p.negative then '-' :: size else size)

def text : Number → String
  | int i => toString i
  | float x => floatText x

def isWritable : Number → Bool
  | int i => (Nat.toDigits 10 i.natAbs).length ≤ digitLimit
  | float _ => true

end Instrument.Number
