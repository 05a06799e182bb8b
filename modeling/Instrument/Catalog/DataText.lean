import Instrument.Catalog.DataFile
import Instrument.Json.Reader
import Instrument.Text.Blank
import Instrument.Text.Lines

namespace Instrument

def saidLines (cs : List Char) : List (List Char) :=
  ((Text.lines cs).map Text.strip).filter fun line => !line.isEmpty && line.head? != some '#'

def listWord? : List Char → Option String
  | '-' :: ' ' :: rest =>
    let word := Text.strip rest
    if !word.isEmpty && word.all Char.isAlphanum then some (String.ofList word) else none
  | _ => none

def FileContent.ofText (text : String) : FileContent :=
  match saidLines text.toList with
  | [] => .data .null
  | lines =>
    match lines.mapM listWord? with
    | some words => .data (.list (words.map .text))
    | none =>
      match Json.read? false text with
      | some d => .data d
      | none => .malformed

end Instrument
