import LightningTemplate.Keyed
import LightningTemplate.Path
import LightningTemplate.Text.Quoted
import LightningTemplate.Text.Utf8

/-! Files and directories, and what can go wrong with them.  A path is walked step by
step from the root or from the working directory, and every place but the last has to
be a directory.  A file may have several names, and what is written under one of them
stands under all.  A file is opened first and then filled, and the device may break off
in between.  An action that fails keeps what it did before. -/
namespace LightningTemplate
open Text

/-- The steps from the root down, none of them upwards. -/
abbrev Location := List Text

inductive Entry
  | directory
  | file (octets : List UInt8)
  deriving DecidableEq, Repr

/-- Where a device stops taking the octets of a file, and why. -/
structure Breach where
  count : Nat
  reason : Text
  deriving DecidableEq, Repr

structure FileSystem where
  entries : List (Location × Entry)
  working : Location
  /-- The names of each file that has several. -/
  links : List (List Location) := []
  /-- What the device makes of octets for a place; nothing is a breach unless it says so. -/
  device : List (Location × Entry) → Location → List UInt8 → Option Breach := fun _ _ _ => none

inductive FileProblem
  | missing | present | notDirectory | isDirectory | nameTooLong | nullCharacter
  | broken (reason : Text)
  deriving DecidableEq, Repr

def FileProblem.text : FileProblem → Text
  | .missing => "[Errno 2] No such file or directory".toList
  | .present => "[Errno 17] File exists".toList
  | .notDirectory => "[Errno 20] Not a directory".toList
  | .isDirectory => "[Errno 21] Is a directory".toList
  | .nameTooLong => "[Errno 36] File name too long".toList
  | .nullCharacter => "embedded null byte".toList
  | .broken reason => reason

def FileProblem.showsPath : FileProblem → Bool
  | .nullCharacter | .broken _ => false
  | _ => true

structure FileFault where
  problem : FileProblem
  path : Path
  deriving DecidableEq, Repr

def FileFault.message (f : FileFault) : Text :=
  f.problem.text ++ if f.problem.showsPath then ": ".toList ++ quoted f.path.text else []

namespace FileSystem

def nameLimit : Nat := 255

def pathLimit : Nat := 4096

/-- What stands at a location; the root is always there. -/
def entryAt? (fs : FileSystem) (place : Location) : Option Entry :=
  match place with
  | [] => some .directory
  | _ :: _ => fs.entries.lookup place

def put (fs : FileSystem) (place : Location) (e : Entry) : FileSystem :=
  { fs with entries := Keyed.insert place e fs.entries }

theorem entryAt?_put (fs : FileSystem) (place other : Location) (e : Entry) (h : place ≠ []) :
    (fs.put place e).entryAt? other = if other = place then some e else fs.entryAt? other := by
  cases other with
  | nil => simp [entryAt?, Ne.symm h]
  | cons a as => simp [entryAt?, put, Keyed.lookup_insert]

/-- One step from a place, which has to be a directory. -/
def step (fs : FileSystem) (place : Location) (s : Text) : Except FileProblem Location :=
  match fs.entryAt? place with
  | none => .error .missing
  | some (.file _) => .error .notDirectory
  | some .directory =>
    if s = Path.upStep then .ok place.dropLast
    else if nameLimit < Utf8.size s then .error .nameTooLong
    else .ok (place ++ [s])

def walk (fs : FileSystem) : Location → List Text → Except FileProblem Location
  | place, [] => .ok place
  | place, s :: steps => (fs.step place s).bind fun next => fs.walk next steps

def locate (fs : FileSystem) (p : Path) : Except FileProblem Location :=
  if p.text.contains '\x00' then .error .nullCharacter
  else if pathLimit ≤ Utf8.size p.text then .error .nameTooLong
  else fs.walk (if p.isAbsolute then [] else fs.working) p.steps

def find (fs : FileSystem) (p : Path) : Except FileProblem Entry :=
  (fs.locate p).bind fun place =>
    match fs.entryAt? place with
    | some e => .ok e
    | none => .error .missing

def isDirectory (fs : FileSystem) (p : Path) : Bool :=
  match fs.find p with
  | .ok .directory => true
  | _ => false

/-- Whether something stands where a path leads; a name that is too long has no answer. -/
def isPresent (fs : FileSystem) (p : Path) : Except FileFault Bool :=
  match fs.find p with
  | .ok _ => .ok true
  | .error .nameTooLong => .error ⟨.nameTooLong, p⟩
  | .error _ => .ok false

def read (fs : FileSystem) (p : Path) : Except FileFault (List UInt8) :=
  match fs.find p with
  | .ok (.file octets) => .ok octets
  | .ok .directory => .error ⟨.isDirectory, p⟩
  | .error problem => .error ⟨problem, p⟩

/-- The place of a file that is to be written; its directory has to be there. -/
def fileAt (fs : FileSystem) (p : Path) : Except FileFault Location :=
  match fs.locate p with
  | .error problem => .error ⟨problem, p⟩
  | .ok place =>
    match fs.entryAt? place with
    | some .directory => .error ⟨.isDirectory, p⟩
    | _ => .ok place

def names (fs : FileSystem) (place : Location) : List Location :=
  place :: fs.links.flatMap fun same => if same.contains place then same else []

/-- The files with this content at a place, under all its names. -/
def fill (fs : FileSystem) (place : Location) (octets : List UInt8) : FileSystem :=
  (fs.names place).foldl (fun fs name => fs.put name (.file octets)) fs

def breach? (fs : FileSystem) (place : Location) (octets : List UInt8) : Option Breach :=
  fs.device fs.entries place octets

def makeDirectory (fs : FileSystem) (p : Path) : Except FileFault FileSystem :=
  match fs.locate p with
  | .error problem => .error ⟨problem, p⟩
  | .ok place =>
    match fs.entryAt? place with
    | some _ => .error ⟨.present, p⟩
    | none => .ok (fs.put place .directory)

def below (fs : FileSystem) (place : Location) : List (List Text × Entry) :=
  fs.entries.filterMap fun e =>
    if place.isPrefixOf e.1 ∧ place.length < e.1.length then some (e.1.drop place.length, e.2)
    else none

end FileSystem

abbrev FileAction := EStateM FileFault FileSystem

namespace FileAction

def openAnew (p : Path) : FileAction Location := fun fs =>
  match fs.fileAt p with
  | .ok place => .ok place (fs.fill place [])
  | .error f => .error f fs

def fillOpen (p : Path) (place : Location) (octets : List UInt8) : FileAction Unit := fun fs =>
  match fs.breach? place octets with
  | none => .ok () (fs.fill place octets)
  | some b => .error ⟨.broken b.reason, p⟩ (fs.fill place (octets.take b.count))

def write (p : Path) (octets : List UInt8) : FileAction Unit := do
  let place ← openAnew p
  fillOpen p place octets

/-- Makes a directory; one that is already there will do.  Where its parent is missing,
another action takes over. -/
def makeOrUse (p : Path) (whenMissing : FileFault → FileAction Unit) : FileAction Unit := fun fs =>
  match fs.makeDirectory p with
  | .ok fs' => .ok () fs'
  | .error f =>
    if f.problem = .missing then whenMissing f fs
    else if fs.isDirectory p then .ok () fs
    else .error f fs

def ensureBackwards (root : Text) : List Text → FileAction Unit
  | [] => makeOrUse ⟨root, []⟩ throw
  | s :: above =>
    let p : Path := ⟨root, (s :: above).reverse⟩
    makeOrUse p fun _ => do
      ensureBackwards root above
      makeOrUse p throw

def ensureDirectory (p : Path) : FileAction Unit := ensureBackwards p.root p.steps.reverse

end FileAction
end LightningTemplate
