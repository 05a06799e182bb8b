import Instrument.Datum.Basic
import Instrument.Sorting

namespace Instrument

namespace Datum

mutual

def same : Datum → Datum → Bool
  | .null, .null => true
  | .bool a, .bool b => a == b
  | .number a, .number b => a.same b || (a.isNaN && b.isNaN)
  | .text a, .text b => a == b
  | .list a, .list b => sameItems a b
  | .record a, .record b => a.length == b.length && sameFields a b
  | _, _ => false

def sameItems : List Datum → List Datum → Bool
  | [], [] => true
  | a :: as, b :: bs => same a b && sameItems as bs
  | _, _ => false

def sameFields : List (String × Datum) → List (String × Datum) → Bool
  | [], _ => true
  | (key, a) :: rest, other =>
    (match other.lookup key with
      | some b => same a b
      | none => false) && sameFields rest other

end

mutual

/-- The datum with numbers in the place of its truth values. -/
def counted : Datum → Datum
  | .bool b => int b.toNat
  | .list items => .list (countedItems items)
  | .record fields => .record (countedFields fields)
  | d => d

def countedItems : List Datum → List Datum
  | [] => []
  | d :: rest => counted d :: countedItems rest

def countedFields : List (String × Datum) → List (String × Datum)
  | [] => []
  | (key, d) :: rest => (key, counted d) :: countedFields rest

end

mutual

def before? : Datum → Datum → Option Bool
  | .number a, .number b => some (a.lt b)
  | .text a, .text b => some (a < b)
  | .list a, .list b => beforeItems? a b
  | _, _ => none

def beforeItems? : List Datum → List Datum → Option Bool
  | _, [] => some false
  | [], _ :: _ => some true
  | a :: as, b :: bs => if same a b then beforeItems? as bs else before? a b

end

def itemBefore? (a b : Datum) : Option Bool :=
  match a, b with
  | .bool _, _ => none
  | _, .bool _ => none
  | a, b => before? a.counted b.counted

def allDistinct : List Datum → Bool
  | [] => true
  | d :: rest => !rest.any (same d) && allDistinct rest

def neighboursDistinct : List Datum → Bool
  | a :: b :: rest => !same a b && neighboursDistinct (b :: rest)
  | _ => true

/-- Whether a list counts as one without equal items. Items that have an order are compared with
their neighbours in that order only: a truth value between two equal numbers, which it counts as
equal to, keeps them apart. -/
def isDistinct (items : List Datum) : Bool :=
  match Sorting.sort? itemBefore? items with
  | some sorted => neighboursDistinct sorted
  | none => allDistinct items

end Datum

end Instrument
