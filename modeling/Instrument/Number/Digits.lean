namespace Instrument

/-- How many digits a whole number may have that is read from a text or written as one. -/
def digitLimit : Nat := 4300

/-- A whole number of more digits: one in a text, with their count, or one that a message would show. -/
inductive Overlong
  | read (digits : Nat)
  | written
  deriving DecidableEq

def Overlong.message : Overlong → String
  | read digits =>
    "Exceeds the limit (" ++ toString digitLimit ++ " digits) for integer string conversion: value has "
      ++ toString digits ++ " digits; use sys.set_int_max_str_digits() to increase the limit"
  | written =>
    "Exceeds the limit (" ++ toString digitLimit ++ " digits) for integer string conversion; "
      ++ "use sys.set_int_max_str_digits() to increase the limit"

/-- What stops a reading: a fault of what is read, or a number in the way that is too long. Only the
first is looked out for by those who read. -/
inductive Stop (ε : Type)
  | fault (e : ε)
  | overlong (o : Overlong)

def Stop.map {ε δ : Type} (f : ε → δ) : Stop ε → Stop δ
  | fault e => .fault (f e)
  | overlong o => .overlong o

end Instrument
