import LightningTemplate.Batch.Bundle
import LightningTemplate.Batch.Clock
import LightningTemplate.Component
import LightningTemplate.Report.Summary
import LightningTemplate.Text.Lines

/-! The conversion of one component file, from its octets to its bundle.  Whatever goes
wrong becomes the outcome of this component. -/
namespace LightningTemplate.Batch
open Text

inductive Failure
  | unreadable (f : FileFault)
  | undecodable (f : Utf8.Fault)
  | component (f : ComponentFault)
  | unnamed (u : UnnamedComponent)

def undecodableMessage (f : Utf8.Fault) : Text :=
  "'utf-8' codec can't decode byte".toList
    ++ (if f.count = 1 then " 0x".toList ++ hex 2 f.first.toNat ++ " in position ".toList
          ++ ofNat f.position
        else "s in position ".toList ++ ofNat f.position ++ ('-' :: ofNat (f.position + f.count - 1)))
    ++ ": ".toList ++ f.reason.text

def Failure.message : Failure → Text
  | .unreadable f => f.message
  | .undecodable f => undecodableMessage f
  | .component f => f.message
  | .unnamed u => u.message

inductive Outcome
  | unconverted (f : Failure)
  | unwritten (c : Conversion) (f : FileFault)
  /-- Converted, and nothing was to be written. -/
  | previewed (c : Conversion)
  | written (c : Conversion) (bundle : Path)

namespace Outcome

def conversion? : Outcome → Option Conversion
  | .unconverted _ => none
  | .unwritten c _ | .previewed c | .written c _ => some c

/-- What went wrong, if something did. -/
def failure? : Outcome → Option Text
  | .unconverted f => some f.message
  | .unwritten _ f => some f.message
  | .previewed _ | .written _ _ => none

def bundle? : Outcome → Option Path
  | .written _ bundle => some bundle
  | _ => none

end Outcome

structure Attempt where
  path : Path
  outcome : Outcome
  log : List Diagnostic
  moments : Moments

/-- What is the same for all components of a batch. -/
structure Setting where
  mapping : Mapping
  output : Path
  dryRun : Bool

def decode (octets : List UInt8) : Except Utf8.Fault Text :=
  (Utf8.decode octets).map unifyLineEnds

def convertFile (m : Mapping) (fs : FileSystem) (p : Path) : Logged Failure Conversion := do
  let octets ← Logged.ofOutcome ((fs.read p).mapError .unreadable)
  let markup ← Logged.ofOutcome ((decode octets).mapError .undecodable)
  let c ← (Component.read p.stem markup).mapError .component
  (Conversion.convert m c.body).mapError .unnamed

namespace Attempt

/-- Converts the component in a file and, unless it is a dry run, writes its bundle. -/
def run (s : Setting) (moments : Moments) (p : Path) (fs : FileSystem) : Attempt × FileSystem :=
  let r := convertFile s.mapping fs p
  match r.outcome with
  | .error f => (⟨p, .unconverted f, r.log, moments⟩, fs)
  | .ok c =>
    if s.dryRun then (⟨p, .previewed c, r.log, moments⟩, fs)
    else match (Bundle.write s.output p.stem c).run fs with
      | .ok bundle fs' => (⟨p, .written c bundle, r.log, moments⟩, fs')
      | .error f fs' => (⟨p, .unwritten c f, r.log, moments⟩, fs')

def runAll (s : Setting) (clock : Clock) : List Path → FileSystem → List Attempt × FileSystem
  | [], fs => ([], fs)
  | p :: ps, fs =>
    let first := run s (clock 0) p fs
    let rest := runAll s clock.later ps first.2
    (first.1 :: rest.1, rest.2)

def name (a : Attempt) : Text := a.path.stem

def time (a : Attempt) : Text :=
  secondsText ((if a.outcome.failure?.isSome then a.moments.stopped else a.moments.converted)
    - a.moments.start)

def counts (c : Conversion) : List Text :=
  ["   Warnings: ".toList ++ ofNat c.findings.warnings.length,
    "   Getters: ".toList ++ ofNat c.findings.getters.length,
    "   LMS channels: ".toList ++ ofNat c.findings.channels.length,
    "   Record data: ".toList ++ ofNat c.findings.recordData.length]

def lines (a : Attempt) : List Text :=
  [[], "Converting: ".toList ++ a.path.text]
    ++ (a.outcome.conversion?.map counts).getD []
    ++ (a.outcome.bundle?.map fun b =>
      "   Written to: ".toList ++ b.text ++ " (".toList ++ a.time ++ [')']).toList
    ++ (a.outcome.failure?.map ("   Failed: ".toList ++ ·)).toList

/-- Only the start of a failure's message fits into the table. -/
def statusLimit : Nat := 80

def row (a : Attempt) : Summary.Row :=
  match a.outcome.failure?, a.outcome.conversion? with
  | none, some c => ⟨a.name, "Success".toList, a.time, ofNat c.findings.warnings.length⟩
  | failure, _ => ⟨a.name, "Failed: ".toList ++ (failure.getD []).take statusLimit, a.time, ['-']⟩

end Attempt
end LightningTemplate.Batch
