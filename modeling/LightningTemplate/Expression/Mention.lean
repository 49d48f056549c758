import LightningTemplate.Expression.Scan

/-! The expressions of a markup and what they refer to, as their beginnings tell. -/
namespace LightningTemplate.Expression

inductive Target
  | attributeValue | controller | helper | label | globalId | other
  deriving DecidableEq, Repr

def Target.name : Target → Text
  | .attributeValue => "attribute".toList
  | .controller => "controller".toList
  | .helper => "helper".toList
  | .label => "label".toList
  | .globalId => "globalId".toList
  | .other => "other".toList

structure Mention where
  written : Text
  target : Target
  /-- The stripped inner text without the beginning that told the target. -/
  reference : Text
  deriving DecidableEq, Repr

def beginnings : List (Text × Target) :=
  [("v.".toList, .attributeValue), ("c.".toList, .controller), ("helper.".toList, .helper),
    ("$Label.".toList, .label)]

def targetOf (inner : Text) : Target × Text :=
  match beginnings.find? fun b => b.1.isPrefixOf inner with
  | some b => (b.2, inner.drop b.1.length)
  | none => (if inner = "globalId".toList then .globalId else .other, inner)

def Piece.mention? : Piece → Option Mention
  | .char _ => none
  | .expression sign inner =>
    let r := targetOf (Text.strip inner)
    some ⟨(Piece.expression sign inner).source, r.1, r.2⟩

def mentions (t : Text) : List Mention := (pieces t).filterMap Piece.mention?

end LightningTemplate.Expression
