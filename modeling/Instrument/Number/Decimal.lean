import Instrument.Number.Binary64

namespace Instrument

structure Decimal where
  coefficient : Nat
  exponent : Int
  deriving DecidableEq

namespace Decimal

def divTenPow (num den : Nat) (k : Int) : Nat × Nat :=
  if 0 ≤ k then (num, den * Nat.pow 10 k.toNat) else (num * Nat.pow 10 (-k).toNat, den)

def width (n : Nat) : Nat := (Nat.toDigits 10 n).length

/-- The nearest binary64 value, an infinity beyond the finite ones. A decimal of fewer than 310
places on either side of the point is rounded exactly; one further out cannot be finite, or is
nearest to zero. -/
def toFloat (negative : Bool) (d : Decimal) : Float :=
  let top := width d.coefficient + d.exponent
  if d.coefficient = 0 || top < -330 then Binary64.zero negative
  else if 310 < top then Binary64.infinity negative
  else
    let (num, den) := divTenPow d.coefficient 1 (-d.exponent)
    (Binary64.nearest? negative num den).getD (Binary64.infinity negative)

/-- The largest `e` with `10 ^ e ≤ num / den`. Three tenths of the binary exponent come within one
of it. -/
def leadingPlace (num den : Nat) : Int :=
  let guess := (((num.log2 : Int) - den.log2) * 30103) / 100000
  let reaches (e : Int) : Bool := let (n, d) := divTenPow num den e; d ≤ n
  if reaches (guess + 1) then guess + 1
  else if reaches guess then guess
  else guess - 1

/-- Whether a decimal rounds to the positive value `mantissa * 2 ^ exponent`. The numbers that do
reach half a last place up and down, down only a quarter where a power of two begins; the ends
belong to them when the mantissa is even. -/
def roundsTo (mantissa : Nat) (exponent : Int) (d : Decimal) : Bool :=
  let down := if mantissa = Nat.pow 2 52 && -1074 < exponent then 1 else 2
  let (tens, parts) := divTenPow d.coefficient 1 (-d.exponent)
  let (num, den) := Binary64.divTwoPow tens parts (exponent - 2)
  let low := (4 * mantissa - down) * den
  let high := (4 * mantissa + 2) * den
  if mantissa % 2 = 0 then low ≤ num && num ≤ high else low < num && num < high

/-- Of the two decimals of so many digits next to a positive value, the nearer one that rounds to
it; of two equally near, the even one. -/
def nearestOfWidth? (mantissa : Nat) (exponent : Int) (digits : Nat) : Option Decimal :=
  let (num, den) := Binary64.divTwoPow mantissa 1 (-exponent)
  let place := leadingPlace num den - digits + 1
  let (n, d) := divTenPow num den place
  let low := n / d
  let twice := 2 * (n % d)
  let fits (c : Nat) : Bool := roundsTo mantissa exponent ⟨c, place⟩
  let pick :=
    if fits low && fits (low + 1) then
      if twice < d || (twice = d && low % 2 = 0) then some low else some (low + 1)
    else if fits low then some low
    else if fits (low + 1) then some (low + 1)
    else none
  pick.map (⟨·, place⟩)

/-- The decimal of fewest digits that rounds to a positive value. Seventeen digits always do. -/
def shortest (mantissa : Nat) (exponent : Int) : Decimal :=
  ((List.range 17).findSome? fun i => nearestOfWidth? mantissa exponent (i + 1)).getD ⟨0, 0⟩

end Decimal

end Instrument
