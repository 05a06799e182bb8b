namespace Instrument.Binary64

/-- A finite value is `mantissa * 2 ^ exponent`, negated when `negative` is set. -/
structure Parts where
  negative : Bool
  mantissa : Nat
  exponent : Int
  deriving DecidableEq

def isNegative (x : Float) : Bool := Nat.pow 2 63 ≤ x.toBits.toNat

def parts? (x : Float) : Option Parts :=
  let body : Nat := x.toBits.toNat % Nat.pow 2 63
  let field : Nat := body / Nat.pow 2 52
  let fraction : Nat := body % Nat.pow 2 52
  if field = 2047 then none
  else if field = 0 then some ⟨isNegative x, fraction, -1074⟩
  else some ⟨isNegative x, Nat.pow 2 52 + fraction, (field : Int) - 1075⟩

/-- The bits of positive infinity. Those of finite positive values lie below, in the order of the
values. -/
def infinityBody : Nat := 2047 * Nat.pow 2 52

def ofBody (negative : Bool) (body : Nat) : Float :=
  Float.ofBits (UInt64.ofNat (if negative then Nat.pow 2 63 + body else body))

def infinity (negative : Bool) : Float := ofBody negative infinityBody

def zero (negative : Bool) : Float := ofBody negative 0

def notANumber : Float := ofBody false (infinityBody + Nat.pow 2 51)

def roundEven (num den : Nat) : Nat :=
  let floor := num / den
  let twice := 2 * (num % den)
  if twice < den then floor
  else if den < twice then floor + 1
  else floor + floor % 2

def divTwoPow (num den : Nat) (k : Int) : Nat × Nat :=
  if 0 ≤ k then (num, den * Nat.pow 2 k.toNat) else (num * Nat.pow 2 (-k).toNat, den)

/-- The exponent of the last binary place kept of a positive quotient: 53 places in all, and none
below `2 ^ -1074`. -/
def lastPlace (num den : Nat) : Int :=
  let guess : Int := (num.log2 : Int) - den.log2
  let (n, d) := divTwoPow num den guess
  let top := if d ≤ n then guess else guess - 1
  max (top - 52) (-1074)

/-- The bits of the value nearest to a quotient. Adding the mantissa to the exponent field lets a
carry out of the mantissa step the exponent. -/
def nearestBody (num den : Nat) : Nat :=
  if num = 0 then 0
  else
    let place := lastPlace num den
    let (n, d) := divTwoPow num den place
    roundEven n d + (place + 1074).toNat * Nat.pow 2 52

/-- The value nearest to `num / den`, a tie going to the even mantissa; `none` where it would lie
beyond the finite values. -/
def nearest? (negative : Bool) (num den : Nat) : Option Float :=
  let body := nearestBody num den
  if body < infinityBody then some (ofBody negative body) else none

theorem roundEven_of_dvd {num den : Nat} (hden : 0 < den) (h : den ∣ num) :
    roundEven num den = num / den := by
  simp [roundEven, Nat.mod_eq_zero_of_dvd h, hden]

theorem nearest?_zero (negative : Bool) (den : Nat) :
    nearest? negative 0 den = some (zero negative) := by
  simp [nearest?, nearestBody, infinityBody, zero]

end Instrument.Binary64
