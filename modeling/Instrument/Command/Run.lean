import Instrument.Command.Documents
import Instrument.Command.Request

namespace Instrument.Command

def Request.act (settings : Settings) (folder : Folder) : Request → Act Unit
  | validateCatalog strict path chords =>
    Command.validateCatalog (catalogFile folder (path.or settings.catalogPath))
      (Command.chordFile folder chords) strict
  | showCatalog asJson => Command.showCatalog settings folder asJson
  | checkDocument file strict => Command.checkDocument settings folder file strict
  | dumpDocument file strict => Command.dumpDocument settings folder file strict
  | listActions file scope evaluate => Command.listActions settings folder file scope evaluate

def Request.run (settings : Settings) (folder : Folder) (request : Request) :
    Except UsageError Transcript :=
  match request.files.find? fun file => !folder.holds file with
  | some file => .error (.fileMissing file)
  | none => .ok (request.act settings folder).transcript

/-- How notes are logged. Within a group of commands nothing is set up for them, so that the loud
ones come as they are. -/
def logStyle (entry : Entry) (settings : Settings) (verbose : Bool) : LogStyle :=
  match entry with
  | .whole => ⟨if verbose then Note.Level.debug.rank else settings.logRank, true⟩
  | _ => ⟨Note.Level.warning.rank, false⟩

def Request.paths (settings : Settings) (request : Request) : List String :=
  request.files ++ settings.catalogPath.toList

end Instrument.Command
