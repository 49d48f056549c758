import LightningTemplate.Text.Basic

/-! Why markup cannot be read, and where.  Lines count from one and columns from zero. -/
namespace LightningTemplate.Markup

inductive Reason
  | invalidToken | mismatchedTag | duplicateAttribute | undefinedEntity | badCharacterNumber
  | unboundAlias | emptyBinding | reservedXml | reservedXmlns | reservedAddress | badAddress
  | misplacedDeclaration | unclosedToken | unclosedSection | junkAfterRoot | noElement
  deriving DecidableEq, Repr

def Reason.message : Reason → Text
  | .invalidToken => "not well-formed (invalid token)".toList
  | .mismatchedTag => "mismatched tag".toList
  | .duplicateAttribute => "duplicate attribute".toList
  | .undefinedEntity => "undefined entity".toList
  | .badCharacterNumber => "reference to invalid character number".toList
  | .unboundAlias => "unbound prefix".toList
  | .emptyBinding => "must not undeclare prefix".toList
  | .reservedXml =>
    "reserved prefix (xml) must not be undeclared or bound to another namespace name".toList
  | .reservedXmlns => "reserved prefix (xmlns) must not be declared or undeclared".toList
  | .reservedAddress =>
    "prefix must not be bound to one of the reserved namespace names".toList
  | .badAddress => "syntax error".toList
  | .misplacedDeclaration => "XML or text declaration not at start of entity".toList
  | .unclosedToken => "unclosed token".toList
  | .unclosedSection => "unclosed CDATA section".toList
  | .junkAfterRoot => "junk after document element".toList
  | .noElement => "no element found".toList

structure Fault where
  reason : Reason
  offset : Nat
  deriving DecidableEq, Repr

def position (t : Text) (offset : Nat) : Nat × Nat :=
  let before := t.take offset
  (1 + before.count '\n', (before.reverse.takeWhile (· != '\n')).length)

def Fault.describe (f : Fault) (t : Text) : Text :=
  f.reason.message ++ ": line ".toList ++ Text.ofNat (position t f.offset).1 ++ ", column ".toList
    ++ Text.ofNat (position t f.offset).2

end LightningTemplate.Markup
