import Instrument.Text.Blank

namespace Instrument.Text

/-- The slashes that a path begins with: none, one, or exactly two; more count for one. -/
def pathRoot (cs : List Char) : List Char :=
  match (cs.takeWhile (· == '/')).length with
  | 0 => []
  | 2 => ['/', '/']
  | _ => ['/']

def pathComponents (cs : List Char) : List (List Char) :=
  (cutAt '/' cs).filter fun component => component != [] && component != ['.']

def normalPath (path : String) : String :=
  let cs := path.toList
  let normal := String.ofList (pathRoot cs)
    ++ "/".intercalate ((pathComponents cs).map String.ofList)
  if normal = "" then "." else normal

def isUpward (path : String) : Bool := (pathComponents path.toList).all (· == ['.', '.'])

def namesDirectory (path : String) : Bool :=
  match (cutAt '/' path.toList).getLast? with
  | some component => component == [] || component == ['.'] || component == ['.', '.']
  | none => true

end Instrument.Text
