namespace Instrument.Text

/-- A code point is in the class when an odd number of changes lie at or below it. -/
def changesOdd : List Nat → Nat → Bool
  | [], _ => false
  | bound :: rest, n => if bound ≤ n then !changesOdd rest n else false

end Instrument.Text
