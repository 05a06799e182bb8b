import Instrument.Datum.Printer

namespace Instrument

/-- Why an operation on data has no result. -/
inductive OperandError
  | overflow (o : Overflow)
  | unsupported (operator : String) (left right : Datum)
  | noOpposite (d : Datum)
  | notJoined (left right : Datum)
  | notRepeated (times : Datum)
  | notReal (d : Datum)
  | countTooLarge
  | tooLong

namespace OperandError

def message : OperandError → String
  | overflow o => o.message
  | unsupported operator left right =>
    "unsupported operand type(s) for " ++ operator ++ ": '" ++ left.typeName ++ "' and '"
      ++ right.typeName ++ "'"
  | noOpposite d => "bad operand type for unary -: '" ++ d.typeName ++ "'"
  | notJoined left right =>
    "can only concatenate " ++ left.typeName ++ " (not \"" ++ right.typeName ++ "\") to "
      ++ left.typeName
  | notRepeated times =>
    "can't multiply sequence by non-int of type '" ++ times.typeName ++ "'"
  | notReal d => "must be real number, not " ++ d.typeName
  | countTooLarge => "cannot fit 'int' into an index-sized integer"
  | tooLong => "repeated string is too long"

def isOverflow : OperandError → Bool
  | overflow _ | countTooLarge | tooLong => true
  | _ => false

end OperandError

namespace Datum

def quantity? : Datum → Option Number
  | number n => some n
  | bool b => some (.int b.toNat)
  | _ => none

def ofNumber (result : Except Overflow Number) : Except OperandError Datum :=
  (result.map number).mapError .overflow

def neg (d : Datum) : Except OperandError Datum :=
  match d.quantity? with
  | some n => .ok (number n.neg)
  | none => .error (.noOpposite d)

def join : Datum → Datum → Except OperandError Datum
  | text s, text t => .ok (text (s ++ t))
  | list items, list others => .ok (list (items ++ others))
  | text s, other => .error (.notJoined (text s) other)
  | list items, other => .error (.notJoined (list items) other)
  | a, b => .error (.unsupported "+" a b)

def add (a b : Datum) : Except OperandError Datum :=
  match a.quantity?, b.quantity? with
  | some x, some y => ofNumber (x.add y)
  | _, _ => join a b

def sub (a b : Datum) : Except OperandError Datum :=
  match a.quantity?, b.quantity? with
  | some x, some y => ofNumber (x.sub y)
  | _, _ => .error (.unsupported "-" a b)

def maxLength : Nat := Nat.pow 2 63 - 1

def repetitions (times : Datum) : Except OperandError Nat :=
  match times.quantity? with
  | some (.int i) =>
    if i < -(maxLength + 1) || i > maxLength then .error .countTooLarge else .ok i.toNat
  | _ => .error (.notRepeated times)

def repeatText (s : String) (times : Datum) : Except OperandError Datum := do
  let n ← repetitions times
  if s.length * n > maxLength then throw .tooLong
  return text (String.join (List.replicate (if s = "" then 0 else n) s))

def repeatList (items : List Datum) (times : Datum) : Except OperandError Datum := do
  let n ← repetitions times
  return list (List.replicate (if items.isEmpty then 0 else n) items).flatten

def repeated : Datum → Datum → Except OperandError Datum
  | text s, times => repeatText s times
  | list items, times => repeatList items times
  | times, text s => repeatText s times
  | times, list items => repeatList items times
  | a, b => .error (.unsupported "*" a b)

def mul (a b : Datum) : Except OperandError Datum :=
  match a.quantity?, b.quantity? with
  | some x, some y => ofNumber (x.mul y)
  | _, _ => repeated a b

def div (a b : Datum) : Except OperandError Datum :=
  match a.quantity?, b.quantity? with
  | some x, some y => ofNumber (x.div y)
  | none, some y => .error (if y.isZero then .notReal a else .unsupported "/" a b)
  | _, none => .error (.unsupported "/" a b)

end Datum

end Instrument
