import Instrument.Catalog.DataText
import Instrument.Text.PathName

namespace Instrument.Command

inductive FileBody
  | text (s : String)
  /-- The text of some data, of which only the data count. -/
  | data (d : Datum)

structure Folder where
  files : List (String × FileBody)
  directories : List String := []

namespace Folder

def body? (folder : Folder) (path : String) : Option FileBody :=
  folder.files.lookup (Text.normalPath path)

def isDirectory (folder : Folder) (path : String) : Bool :=
  Text.isUpward path || folder.directories.contains (Text.normalPath path)

def holds (folder : Folder) (path : String) : Bool :=
  path != "" && !Text.namesDirectory path && (folder.body? path).isSome

def dataFile (folder : Folder) (path : String) : DataFile :=
  { path := Text.normalPath path
    content := match folder.body? path with
      | none => if folder.isDirectory path then .directory else .absent
      | some (.data d) => .data d
      | some (.text s) => .ofText s }

def text (folder : Folder) (path : String) : String :=
  match folder.body? path with
  | some (.text s) => String.ofList (Text.unifyBreaks s.toList)
  | _ => ""

end Folder

end Instrument.Command
