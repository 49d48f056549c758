import LightningTemplate.Expression.Scan
import LightningTemplate.Expression.Token
import LightningTemplate.Text.Case

/-! What an expression can become in a template.  A bare path, possibly negated,
stays a reference; everything that computes is hoisted into a getter; the rest
passes as it stands. -/
namespace LightningTemplate.Expression
open Text

inductive Kind
  | simpleFlat | simpleDotted | complex | passthrough
  deriving DecidableEq, Repr

def Kind.label : Kind → Text
  | .simpleFlat => "simple-flat".toList
  | .simpleDotted => "simple-dotted".toList
  | .complex => "complex".toList
  | .passthrough => "passthrough".toList

structure Classification where
  kind : Kind
  source : Text
  /-- The reference a template uses; empty for what is hoisted. -/
  reference : Text
  negated : Bool
  deriving DecidableEq, Repr

def Classification.needsGetter (c : Classification) : Bool := c.kind == .complex

def customSuffixes : List Text := ["__c".toList, "__r".toList]

/-- The getter that stands for a record field: custom endings go, the first letter is small. -/
def fieldGetter (field : Text) : Text :=
  match customSuffixes.find? fun s => s.isSuffixOf field && s.length < field.length with
  | some s => uncapitalize (field.take (field.length - s.length))
  | none => uncapitalize field

def ofPath (path : Text) : Kind × Text :=
  match splitOn '.' path with
  | [root] => (if root = "globalId".toList then .simpleFlat else .passthrough, path)
  | [root, name] =>
    if root = ['v'] ∨ root = ['c'] then (.simpleFlat, name) else (.passthrough, path)
  | root :: middle :: last :: more =>
    if root = ['v'] then (.simpleDotted, fieldGetter ((last :: more).getLast (by simp)))
    else if root = "$Label".toList ∧ more = [] then (.simpleFlat, "label".toList ++ middle ++ last)
    else (.passthrough, path)
  | [] => (.passthrough, path)

def TokenKind.computes : TokenKind → Bool
  | .and | .or | .comparison | .not | .question | .colon | .arithmetic | .wordOperator
  | .openParen | .openBracket => true
  | .string | .number | .path | .closeParen | .closeBracket | .comma | .unknown => false

def classify (expression : Text) : Classification :=
  let inner := strip expression
  match tokens inner with
  | [⟨.path, p⟩] => ⟨(ofPath p).1, inner, (ofPath p).2, false⟩
  | [⟨.not, _⟩, ⟨.path, p⟩] => ⟨(ofPath p).1, inner, '!' :: (ofPath p).2, true⟩
  | ts =>
    if ts.any (·.kind.computes) then ⟨.complex, inner, [], false⟩
    else ⟨.passthrough, inner, inner, false⟩

end LightningTemplate.Expression
