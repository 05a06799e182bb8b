import Instrument.Datum.Basic

namespace Instrument

inductive FileContent
  | absent
  | directory
  | malformed
  | data (d : Datum)

structure DataFile where
  path : String
  content : FileContent

namespace DataFile

def exists? (f : DataFile) : Bool :=
  match f.content with
  | .absent => false
  | _ => true

def isFile (f : DataFile) : Bool :=
  match f.content with
  | .absent | .directory => false
  | _ => true

end DataFile

end Instrument
