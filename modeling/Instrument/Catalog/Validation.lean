import Instrument.Catalog.DataFile
import Instrument.Catalog.Format
import Instrument.Severity

namespace Instrument.Catalog

structure FileIssue where
  file : String
  path : String
  severity : Severity
  message : String

def FileIssue.text (i : FileIssue) : String :=
  "[" ++ i.severity.capitals ++ "] " ++ i.file ++ (if i.path = "" then "" else " at " ++ i.path)
    ++ ": " ++ i.message

/-- A default below its least or above its greatest value. A limit that is absent does not bind. -/
def outsideLimits (attr : Datum) : Bool :=
  match attr.field "default" with
  | .number n =>
    (match attr.field "min" with | .number low => n.lt low | _ => false)
      || (match attr.field "max" with | .number high => high.lt n | _ => false)
  | _ => false

def limitMessage (attr : Datum) : String :=
  "default " ++ (attr.field "default").shown ++ " is outside [" ++ (attr.field "min").shown ++ ", "
    ++ (attr.field "max").shown ++ "]"

def limitIssues (file : String) (d : Datum) : List FileIssue :=
  ["components", "triggers"].flatMap fun part =>
    (d.field part).fields.flatMap fun kind =>
      ((kind.2.field "attributes").fields.filter fun a => outsideLimits a.2).map fun a =>
        { file, severity := .warning, message := limitMessage a.2
          path := part ++ "/" ++ kind.1 ++ "/attributes/" ++ a.1 }

def fileIssue (file message : String) : FileIssue := ⟨file, "", .error, message⟩

def formatIssues (format : List Rule) (file : String) (d : Datum) : List FileIssue :=
  (Rule.findings format d).map fun f => ⟨file, Step.pathText f.path, .error, f.message⟩

/-- The issues of a file that is there, in a format; `limits` also looks for defaults outside their
limits. -/
def issuesIn (format : List Rule) (limits : Bool) (f : DataFile) : List FileIssue :=
  match f.content with
  | .absent | .directory => []
  | .malformed => [fileIssue f.path "YAML parse error"]
  | .data .null => [fileIssue f.path "File is empty or contains only whitespace"]
  | .data d =>
    let found := formatIssues format f.path d
    if found.isEmpty && limits then limitIssues f.path d else found

def catalogIssues (f : DataFile) : List FileIssue := issuesIn Format.catalog true f

def chordIssues (f : DataFile) : List FileIssue := issuesIn Format.chords false f

def FileIssue.asError (i : FileIssue) : FileIssue := { i with severity := .error }

def validate (file : DataFile) (chordFile : Option DataFile) (strict : Bool) : List FileIssue :=
  if !file.isFile then [fileIssue file.path ("Catalog file does not exist: " ++ file.path)]
  else
    let found := catalogIssues file ++ (chordFile.map chordIssues).getD []
    if strict then found.map (·.asError) else found

end Instrument.Catalog
