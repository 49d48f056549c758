import LightningTemplate.Batch.Run
import LightningTemplate.Document.Yaml.Reader

/-! The command.  It takes a picture of the files that the arguments name, runs the
batch on the picture, and writes down what the batch has changed in it.  The batch takes
no time on a picture, so its clock stands still. -/
namespace LightningTemplate.Command
open Text

def usage : String :=
  "usage: COMMAND [-h] [--output-dir DIRECTORY] [--mapping-config FILE] [--dry-run] [--verbose]
               PATH [PATH ...]

Converts Aura component markup into LWC templates.

  PATH                        component files, or directories that hold some
  -o, --output-dir DIRECTORY  where the bundles are written (./output)
  --mapping-config FILE       component, attribute and slot tables over the built-in ones
  --dry-run                   convert without writing any file
  -v, --verbose               report every step
  -h, --help                  show this text
"

def nameOf (place : Location) : String := String.ofList ('/' :: join ['/'] place)

def contentAt (wanted : Bool) (place : Location) : IO (List UInt8) := do
  if wanted then return (← IO.FS.readBinFile (nameOf place)).toList else return []

def entryAt (wanted : Bool) (place : Location) : IO (List (Location × Entry)) := do
  let p := (← IO.currentDir) / nameOf place
  if ← p.isDir then return [(place, .directory)]
  else if ← p.pathExists then
    return [(place, .file (← contentAt wanted place))]
  else return []

def isComponent (place : Location) : Bool := Batch.extension.isSuffixOf (place.getLast?.getD [])

/-- What stands at a location and below it, down to a depth.  Links below it are not followed. -/
def picture : Nat → Location → IO (List (Location × Entry))
  | 0, _ => return []
  | depth + 1, place => do
    let here ← entryAt (isComponent place) place
    let p := (← IO.currentDir) / nameOf place
    if ← p.isDir then
      let below ← (← p.readDir).toList.mapM fun d => do
        let place := place ++ [d.fileName.toList]
        if (← d.path.symlinkMetadata).type == .symlink then entryAt (isComponent place) place
        else picture depth place
      return here ++ below.flatten
    else return here

def passed (place : Location) : List Text → List Location
  | [] => [place]
  | s :: steps =>
    place :: passed (if s = Path.upStep then place.dropLast else place ++ [s]) steps

def placesOf (working : Location) (p : Path) : List Location :=
  passed (if p.isAbsolute then [] else working) p.steps

def endOf (working : Location) (p : Path) : Location := (placesOf working p).getLast?.getD []

/-- Directories this far below a given one are looked into. -/
def inputDepth : Nat := 100

def outputDepth : Nat := 3

def linksOf (entries : List (Location × Entry)) : IO (List (List Location)) := do
  let named ← entries.mapM fun e => do
    return (Path.stepsOf (← IO.FS.realPath (nameOf e.1)).toString.toList, e.1)
  let groups := (named.map (·.1)).eraseDups.map fun place =>
    (place :: (named.filter (·.1 = place)).map (·.2)).eraseDups
  return groups.filter (1 < ·.length)

def fileSystemFor (o : Options) : IO FileSystem := do
  let working := Path.stepsOf (← IO.currentDir).toString.toList
  let inputs := o.paths.map Path.ofText
  let output := Path.ofText o.output
  let mapping := o.mappingFile.toList.map Path.ofText
  let way := passed [] working ++ (output :: inputs ++ mapping).flatMap (placesOf working)
  let passing ← way.mapM (entryAt false)
  let written ← picture outputDepth (endOf working output)
  let tables ← mapping.mapM fun p => entryAt true (endOf working p)
  let components ← inputs.mapM fun p => picture inputDepth (endOf working p)
  let entries := Keyed.insertAll [] (passing.flatten ++ written ++ components.flatten ++ tables.flatten)
  return { entries := entries, working := working, links := ← linksOf entries }

/-- Writes down the entries that are new or not what they were. -/
def save (before after : FileSystem) : IO Unit :=
  after.entries.forM fun e => do
    if before.entryAt? e.1 ≠ some e.2 then
      match e.2 with
      | .directory => IO.FS.createDirAll (nameOf e.1)
      | .file octets => IO.FS.writeBinFile (nameOf e.1) ⟨octets.toArray⟩

def report (o : Options) (d : Diagnostic) : IO Unit :=
  if o.verbose || d.level != .debug then
    IO.eprintln (String.ofList (d.level.label ++ ' ' :: d.topic.label ++ ": ".toList ++ d.message))
  else return ()

def environment : Batch.Environment := ⟨Yaml.read?, Batch.Clock.still⟩

def convert (o : Options) : IO UInt32 := do
  let before ← fileSystemFor o
  let r := Batch.run environment o before
  r.log.forM (report o)
  save before r.files
  match r.outcome with
  | .error f =>
    IO.eprintln (String.ofList f.message)
    return 1
  | .ok done =>
    IO.print (String.ofList done.console)
    return UInt32.ofNat done.exit

end LightningTemplate.Command

def main (args : List String) : IO UInt32 :=
  match LightningTemplate.Request.ofArguments (args.map String.toList) with
  | .misuse => do
    IO.eprint LightningTemplate.Command.usage
    return 2
  | .help => do
    IO.print LightningTemplate.Command.usage
    return 0
  | .convert o => LightningTemplate.Command.convert o
