import LightningTemplate.Text.Basic

/-! Paths of files and directories.  Empty steps and steps that stay in place are
dropped when a path is read; steps upwards are kept, since what they lead to depends
on the files. -/
namespace LightningTemplate
open Text

structure Path where
  /-- The slashes at the start: none, one, or two. -/
  root : Text
  steps : List Text
  deriving DecidableEq, Repr

namespace Path

def upStep : Text := ['.', '.']

/-- Exactly two slashes at the start stay two; more of them are one. -/
def rootOf (t : Text) : Text :=
  match t.takeWhile (· == '/') with
  | [] => []
  | ['/', '/'] => ['/', '/']
  | _ => ['/']

def stepsOf (t : Text) : List Text := (splitOn '/' t).filter fun s => s ≠ [] ∧ s ≠ ['.']

def ofText (t : Text) : Path := ⟨rootOf t, stepsOf t⟩

/-- The path as it is shown; the place itself is a dot. -/
def text (p : Path) : Text :=
  match p.root ++ join ['/'] p.steps with
  | [] => ['.']
  | t => t

def isAbsolute (p : Path) : Bool := !p.root.isEmpty

def below (p : Path) (steps : List Text) : Path := ⟨p.root, p.steps ++ steps⟩

def child (p : Path) (name : Text) : Path := p.below (stepsOf name)

def parent (p : Path) : Path := ⟨p.root, p.steps.dropLast⟩

/-- The last step; empty where there is none. -/
def name (p : Path) : Text := p.steps.getLast?.getD []

/-- A name cut before its last dot.  A dot at either end cuts nothing. -/
def splitName (name : Text) : Text × Text :=
  let ending := (name.reverse.takeWhile (· != '.')).reverse
  match name.reverse.dropWhile (· != '.') with
  | _ :: c :: cs => if ending.isEmpty then (name, []) else ((c :: cs).reverse, '.' :: ending)
  | _ => (name, [])

def stem (p : Path) : Text := (splitName p.name).1

def suffix (p : Path) : Text := (splitName p.name).2

def leSteps : List Text → List Text → Bool
  | [], _ => true
  | _ :: _, [] => false
  | a :: as, b :: bs => if a = b then leSteps as bs else Text.le a b

def le (p q : Path) : Bool := leSteps (p.root :: p.steps) (q.root :: q.steps)

end Path
end LightningTemplate
