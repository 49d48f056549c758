import LightningTemplate.Batch.Attempt
import LightningTemplate.Batch.Collection
import LightningTemplate.CommandLine
import LightningTemplate.Mapping.Override

/-! A whole batch: the paths are checked, the components collected, the mapping read,
and each component is converted on its own.  The reader of mapping files and the clock
are given from outside. -/
namespace LightningTemplate.Batch
open Text

/-- What ends a batch before its first component. -/
inductive Fault
  | file (f : FileFault)
  | undecodable (f : Utf8.Fault)
  | mapping (f : MappingFault)

def Fault.message : Fault → Text
  | .file f => f.message
  | .undecodable f => undecodableMessage f
  | .mapping f => f.message

/-- What a batch takes from around it besides the files: the reader of mapping files, which
gives nothing for a text that is none, and the clock. -/
structure Environment where
  readYaml : Text → Option Value
  clock : Clock

structure Report where
  exit : Nat
  console : Text
  attempts : List Attempt

/-- The files as a batch has left them so far, and the messages up to there. -/
structure Progress where
  files : FileSystem
  log : List Diagnostic

/-- A part of a batch.  Where it ends in a fault, what it did before is done. -/
abbrev Part := EStateM Fault Progress

def Part.ask {α : Type} (answer : FileSystem → Logged Fault α) : Part α := fun b =>
  let told := answer b.files
  match told.outcome with
  | .ok a => .ok a { b with log := b.log ++ told.log }
  | .error f => .error f { b with log := b.log ++ told.log }

def firstMissing? (fs : FileSystem) : List Text → Except FileFault (Option Text)
  | [] => .ok none
  | t :: ts => do
    if ← fs.isPresent (.ofText t) then firstMissing? fs ts else return some t

/-- The start of a character that may go on: also of one half of a pair. -/
def isCutOff (f : Utf8.Fault) (rest : List UInt8) : Bool :=
  f.reason == .unexpectedEnd ||
    f.first == 0xED && rest.length == 2 && (rest.drop 1).all fun b => 0xA0 ≤ b && b ≤ 0xBF

/-- A mapping file is read piece by piece, and a character cut off at its end is a
piece of its own. -/
def inLastPiece (octets : List UInt8) (f : Utf8.Fault) : Utf8.Fault :=
  if isCutOff f (octets.drop f.position) then { f with position := 0 } else f

def loadMapping (readYaml : Text → Option Value) (fs : FileSystem) :
    Option Text → Logged Fault Mapping
  | none => return .builtIn
  | some given => do
    let p := Path.ofText given
    let octets ← Logged.ofOutcome ((fs.read p).mapError .file)
    let t ← Logged.ofOutcome ((decode octets).mapError fun f => .undecodable (inLastPiece octets f))
    match readYaml t with
    | none => .fail (.mapping .malformed)
    | some content => (Mapping.override given p.text content).mapError .mapping

def opening (o : Options) (paths : List Path) : List Text :=
  ("Found ".toList ++ ofNat paths.length ++ " component(s)".toList)
    :: (if o.dryRun then ["Dry-run mode -- nothing will be written".toList] else [])

def stop (exit : Nat) (notice : Text) : Report :=
  ⟨exit, Summary.banner ++ Summary.unlines [notice], []⟩

def reportOn (o : Options) (paths : List Path) (attempts : List Attempt) : Report where
  exit := 0
  console := Summary.banner ++ Summary.unlines (opening o paths ++ attempts.flatMap Attempt.lines)
    ++ Summary.table (attempts.map Attempt.row)
  attempts := attempts

def convertAll (clock : Clock) (o : Options) (m : Mapping) (paths : List Path) : Part Report :=
  fun b =>
    let r := Attempt.runAll ⟨m, .ofText o.output, o.dryRun⟩ clock paths b.files
    .ok (reportOn o paths r.1) ⟨r.2, b.log ++ r.1.flatMap Attempt.log⟩

def course (e : Environment) (o : Options) : Part Report := do
  match ← Part.ask fun fs => .ofOutcome ((firstMissing? fs o.paths).mapError .file) with
  | some t => return stop 1 ("  Input path not found: ".toList ++ t)
  | none =>
    match ← Part.ask fun fs => return collect fs o.paths with
    | [] => return stop 0 "  No .cmp files found.".toList
    | paths =>
      let m ← Part.ask fun fs => loadMapping e.readYaml fs o.mappingFile
      convertAll e.clock o m paths

/-- How a batch has ended, and the files that it has left. -/
structure Run where
  outcome : Except Fault Report
  log : List Diagnostic
  files : FileSystem

def run (e : Environment) (o : Options) (fs : FileSystem) : Run :=
  match (course e o).run ⟨fs, []⟩ with
  | .ok report b => ⟨.ok report, b.log, b.files⟩
  | .error f b => ⟨.error f, b.log, b.files⟩

end LightningTemplate.Batch
