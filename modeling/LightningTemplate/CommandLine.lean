import LightningTemplate.Text.Word

/-! The arguments of the command: paths in one row, and flags around them.  A flag may
be cut short as long as it stays the only one, one-letter flags may share a dash, and
after a bare pair of dashes everything is a path. -/
namespace LightningTemplate
open Text

structure Options where
  paths : List Text
  output : Text
  mappingFile : Option Text
  dryRun : Bool
  verbose : Bool
  deriving DecidableEq, Repr

inductive Request
  | convert (o : Options)
  | help
  | misuse
  deriving DecidableEq, Repr

namespace CommandLine

inductive Flag
  | help | output | mappingFile | dryRun | verbose
  deriving DecidableEq, Repr

def Flag.hasValue : Flag → Bool
  | .output | .mappingFile => true
  | _ => false

def spellings : List (Text × Flag) :=
  [("-h".toList, .help), ("--help".toList, .help), ("--output-dir".toList, .output),
    ("-o".toList, .output), ("--mapping-config".toList, .mappingFile),
    ("--dry-run".toList, .dryRun), ("--verbose".toList, .verbose), ("-v".toList, .verbose)]

inductive Argument
  | value (t : Text)
  | separator
  /-- A flag of two dashes, or any flag whose value follows an equals sign. -/
  | long (f : Flag) (value : Option Text)
  /-- The flags that share one dash, as letters. -/
  | letters (t : Text)
  | unknown
  /-- A beginning of several flags. -/
  | ambiguous
  deriving DecidableEq, Repr

/-- Digits, with at most one dot and a digit behind it, after a dash. -/
def isNegativeNumber (t : Text) : Bool :=
  match t with
  | '-' :: rest =>
    let rest := if rest.getLast? = some '\n' then rest.dropLast else rest
    match cut '.' rest with
    | (whole, none) => !whole.isEmpty && whole.all isDigit
    | (whole, some fraction) =>
      whole.all isDigit && !fraction.isEmpty && fraction.all isDigit
  | _ => false

/-- A dashed argument that names no flag: still a path where it looks like one. -/
def unnamed (t : Text) : Argument :=
  if isNegativeNumber t || t.contains ' ' then .value t else .unknown

def ofDashed (t : Text) : Argument :=
  match spellings.lookup t with
  | some f => .long f none
  | none =>
    let named := cut '=' t
    match named.2, spellings.lookup named.1 with
    | some v, some f => .long f (some v)
    | _, _ =>
      match t with
      | '-' :: '-' :: _ =>
        match spellings.filter fun s => named.1.isPrefixOf s.1 with
        | [] => unnamed t
        | [s] => .long s.2 named.2
        | _ => .ambiguous
      | '-' :: c :: rest =>
        match spellings.lookup ['-', c] with
        | some _ => .letters (c :: rest)
        | none => unnamed t
      | _ => .value t

def Argument.ofText (t : Text) : Argument :=
  match t with
  | '-' :: _ :: _ => ofDashed t
  | _ => .value t

/-- The arguments one by one, up to the separator. -/
def classify : List Text → List Argument
  | [] => []
  | t :: ts =>
    if t = ['-', '-'] then .separator :: ts.map .value else .ofText t :: classify ts

inductive Phase
  | before | during | after
  deriving DecidableEq, Repr

structure State where
  options : Options
  phase : Phase
  /-- Something was given that has no place. -/
  excess : Bool

def State.start : State :=
  ⟨⟨[], "./output".toList, none, false, false⟩, .before, false⟩

def State.addPath (s : State) (t : Text) : State :=
  if s.phase = .after then { s with excess := true }
  else { s with phase := .during, options := { s.options with paths := s.options.paths ++ [t] } }

def State.endRow (s : State) : State :=
  if s.phase = .during then { s with phase := .after } else s

/-- A flag without a value; asking for help ends the reading. -/
def State.raise (s : State) : Flag → Option State
  | .help => none
  | .dryRun => some { s with options := { s.options with dryRun := true } }
  | .verbose => some { s with options := { s.options with verbose := true } }
  | .output | .mappingFile => some s

def State.setValue (s : State) (f : Flag) (t : Text) : State :=
  match f with
  | .output => { s with options := { s.options with output := t } }
  | .mappingFile => { s with options := { s.options with mappingFile := some t } }
  | _ => s

inductive Letters
  /-- Flags without values, and whether a letter behind them is unknown. -/
  | flags (fs : List Flag) (excess : Bool)
  /-- Flags without values, then one whose value is the rest of the letters. -/
  | value (fs : List Flag) (f : Flag) (t : Text)
  /-- Flags without values, then one whose value has to follow. -/
  | pending (fs : List Flag) (f : Flag)
  | misuse

def Letters.add (f : Flag) : Letters → Letters
  | .flags fs e => .flags (f :: fs) e
  | .value fs g t => .value (f :: fs) g t
  | .pending fs g => .pending (f :: fs) g
  | .misuse => .misuse

/-- The value that stands right behind a letter; an equals sign before it is dropped. -/
def attached : Text → Text
  | '=' :: rest => rest
  | t => t

/-- Reads letters.  Behind a flag without a value only a letter may follow. -/
def readLetters : Text → Letters
  | [] => .flags [] false
  | c :: rest =>
    match spellings.lookup ['-', c] with
    | none => .flags [] true
    | some f =>
      if f.hasValue then if rest.isEmpty then .pending [] f else .value [] f (attached rest)
      else if rest.head?.any fun c => c == '-' || c == '=' then .misuse
      else (readLetters rest).add f

def raiseAll (s : State) : List Flag → Option State
  | [] => some s
  | f :: fs => (s.raise f).bind fun s => raiseAll s fs

def finish (s : State) : Request :=
  if s.excess || s.options.paths.isEmpty then .misuse else .convert s.options

/-- Reads arguments from the left; the first fault or call for help decides. -/
def read (s : State) : List Argument → Request
  | [] => finish s
  | .value t :: rest => read (s.addPath t) rest
  | .separator :: rest =>
    if s.phase = .during || !rest.isEmpty then read s rest else read { s with excess := true } rest
  | .unknown :: rest => read { s.endRow with excess := true } rest
  | .ambiguous :: _ => .misuse
  | .long f v :: rest =>
    let s := s.endRow
    match f.hasValue, v, rest with
    | true, some t, rest => read (s.setValue f t) rest
    | true, none, .value t :: rest => read (s.setValue f t) rest
    | true, none, _ => .misuse
    | false, some _, _ => .misuse
    | false, none, rest =>
      match s.raise f with
      | some s => read s rest
      | none => .help
  | .letters t :: rest =>
    let s := s.endRow
    match readLetters t with
    | .misuse => .misuse
    | .flags fs e =>
      match raiseAll s fs with
      | some s => read { s with excess := s.excess || e } rest
      | none => .help
    | .value fs f t =>
      match raiseAll s fs with
      | some s => read (s.setValue f t) rest
      | none => .help
    | .pending fs f =>
      match rest with
      | .value t :: rest =>
        match raiseAll s fs with
        | some s => read (s.setValue f t) rest
        | none => .help
      | _ => .misuse

end CommandLine

/-- What the arguments ask for.  A beginning of several flags is misuse wherever it stands. -/
def Request.ofArguments (args : List Text) : Request :=
  let classified := CommandLine.classify args
  if classified.contains .ambiguous then .misuse
  else CommandLine.read .start classified

end LightningTemplate
