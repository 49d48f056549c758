import LightningTemplate.Conversion
import LightningTemplate.Document.Json
import LightningTemplate.FileSystem
import LightningTemplate.Report.Notes

/-! The files that a converted component becomes: a directory named like the component
with a small first letter, and in it the template, the record for the script side and
the notes. -/
namespace LightningTemplate.Bundle
open Text

def name (component : Text) : Text := uncapitalize component

def directory (output : Path) (component : Text) : Path := output.child (name component)

/-- The names and contents of the files, in the order in which they are written. -/
def files (component : Text) (c : Conversion) : List (Text × Text) :=
  [(name component ++ ".html".toList, c.template),
    (name component ++ ".conversion.json".toList, c.toValue.json),
    (name component ++ ".notes.md".toList, Notes.text component c.findings)]

def writeAll (place : Path) : List (Text × Text) → FileAction Unit
  | [] => return ()
  | f :: fs => do
    FileAction.write (place.child f.1) (Utf8.encode f.2)
    writeAll place fs

def write (output : Path) (component : Text) (c : Conversion) : FileAction Path := do
  let place := directory output component
  FileAction.ensureDirectory place
  writeAll place (files component c)
  return place

end LightningTemplate.Bundle
