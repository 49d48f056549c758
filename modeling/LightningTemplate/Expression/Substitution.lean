import LightningTemplate.Expression.Classify

/-! Template bindings in the place of the expressions of a text.  Expressions that
compute are numbered in the order in which they stand and are handed out as the
list of what has to be hoisted. -/
namespace LightningTemplate.Expression
open Text

def getterName (number : Nat) : Text := "computedValue".toList ++ ofNat number

structure Substituted where
  text : Text
  hoisted : List Text
  deriving DecidableEq, Repr

def inBraces (t : Text) : Text := '{' :: (t ++ ['}'])

/-- What a piece becomes when the given number of getters exists already. -/
def Piece.substitute (count : Nat) : Piece → Substituted
  | .char c => ⟨[c], []⟩
  | .expression _ inner =>
    let c := classify inner
    if c.needsGetter then ⟨inBraces (getterName (count + 1)), [c.source]⟩
    else ⟨inBraces c.reference, []⟩

def substitutePieces : Nat → List Piece → Substituted
  | _, [] => ⟨[], []⟩
  | count, p :: ps =>
    let first := p.substitute count
    let others := substitutePieces (count + first.hoisted.length) ps
    ⟨first.text ++ others.text, first.hoisted ++ others.hoisted⟩

def substitute (count : Nat) (t : Text) : Substituted := substitutePieces count (pieces t)

/-- The text inside one pair of braces; other values, stripped, stay as they are. -/
def unbrace (binding : Text) : Text :=
  match strip binding with
  | '{' :: c :: cs => if (c :: cs).getLast? = some '}' then (c :: cs).dropLast else '{' :: c :: cs
  | t => t

end LightningTemplate.Expression
