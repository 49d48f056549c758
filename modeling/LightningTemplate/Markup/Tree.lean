import LightningTemplate.Markup.Token
import LightningTemplate.Node

/-! Trees of tokens.  Names are resolved to their namespaces and named again by the
alias that belongs to the address, if one does; text between two tags is one node,
however it is written. -/
namespace LightningTemplate.Markup
open Text

/-- Addresses by alias, newest first; the empty alias is the default namespace. -/
abbrev Scope := List (Text × Text)

def xmlAddress : Text := "http://www.w3.org/XML/1998/namespace".toList

def xmlnsAddress : Text := "http://www.w3.org/2000/xmlns/".toList

def Scope.initial : Scope := [("xml".toList, xmlAddress)]

def Scope.address? (s : Scope) (alias_ : Text) : Option Text :=
  match s.lookup alias_ with
  | some (c :: cs) => some (c :: cs)
  | _ => none

def splitName (name : Text) : Option Text × Text :=
  match cut ':' name with
  | (all, none) => (none, all)
  | (alias_, some part) => (some alias_, part)

def entityChar? (name : Text) : Option Char :=
  [("amp".toList, '&'), ("lt".toList, '<'), ("gt".toList, '>'), ("quot".toList, '"'),
    ("apos".toList, '\'')].lookup name

def numberedChar? (n : Nat) : Option Char :=
  if n.isValidChar ∧ !isForbidden (Char.ofNat n) then some (Char.ofNat n) else none

/-- The character of a reference; an unknown entity is a fault at one place, a bad number
at another. -/
def Reference.char (entityOffset numberOffset : Nat) : Reference → Except Fault Char
  | .entity name =>
    match entityChar? name with
    | some c => .ok c
    | none => .error ⟨.undefinedEntity, entityOffset⟩
  | .code n =>
    match numberedChar? n with
    | some c => .ok c
    | none => .error ⟨.badCharacterNumber, numberOffset⟩

/-- The value of an attribute; tabs and line ends written as such are spaces. -/
def valueText (tagOffset : Nat) : List ValuePiece → Except Fault Text
  | [] => .ok []
  | .char c :: ps => (valueText tagOffset ps).map ((if isTagBlank c then ' ' else c) :: ·)
  | .reference offset r :: ps => do
    let c ← r.char tagOffset offset
    return c :: (← valueText tagOffset ps)

def declaredAlias? (name : Text) : Option Text :=
  match splitName name with
  | (none, t) => if t = "xmlns".toList then some [] else none
  | (some a, t) => if a = "xmlns".toList then some t else none

def bindingFault? (alias_ address : Text) : Option Reason :=
  if address.isEmpty ∧ !alias_.isEmpty then some .emptyBinding
  else if alias_ = "xmlns".toList then some .reservedXmlns
  else if address.contains '}' then some .badAddress
  else if alias_ = "xml".toList then
    if address = xmlAddress then none else some .reservedXml
  else if address = xmlAddress ∨ address = xmlnsAddress then some .reservedAddress
  else none

def readAttributes (tagOffset : Nat) :
    List Text → Scope → List RawAttribute → Except Fault (Scope × List (Text × Text))
  | _, scope, [] => .ok (scope, [])
  | seen, scope, a :: as =>
    if seen.contains a.name then .error ⟨.duplicateAttribute, a.offset⟩
    else do
      let value ← valueText tagOffset a.value
      match declaredAlias? a.name with
      | some alias_ =>
        match bindingFault? alias_ value with
        | some reason => .error ⟨reason, tagOffset⟩
        | none => readAttributes tagOffset (a.name :: seen) ((alias_, value) :: scope) as
      | none =>
        let r ← readAttributes tagOffset (a.name :: seen) scope as
        return (r.1, (a.name, value) :: r.2)

structure FullName where
  address : Option Text
  part : Text
  deriving DecidableEq, Repr

def fullName (scope : Scope) (tagOffset : Nat) (useDefault : Bool) (name : Text) :
    Except Fault FullName :=
  match splitName name with
  | (some alias_, part) =>
    match scope.address? alias_ with
    | some address => .ok ⟨some address, part⟩
    | none => .error ⟨.unboundAlias, tagOffset⟩
  | (none, part) => .ok ⟨if useDefault then scope.address? [] else none, part⟩

/-- The names of the attributes in their namespaces; no two with aliases may coincide. -/
def fullNames (scope : Scope) (tagOffset : Nat) :
    List FullName → List (Text × Text) → Except Fault (List (FullName × Text))
  | _, [] => .ok []
  | seen, a :: as => do
    let n ← fullName scope tagOffset false a.1
    if n.address.isSome && seen.contains n then .error ⟨.duplicateAttribute, tagOffset⟩
    else return (n, a.2) :: (← fullNames scope tagOffset (n :: seen) as)

abbrev Naming := Text → Option Text

/-- The name under the alias of its address, or its local part alone. -/
def FullName.display (naming : Naming) (n : FullName) : Text :=
  match n.address.bind naming with
  | some alias_ => alias_ ++ ':' :: n.part
  | none => n.part

/-- An element that is still open; children and text newest first. -/
structure Frame where
  rawName : Text
  tag : Text
  attributes : Attributes
  children : List Node
  text : List Char
  scope : Scope

namespace Frame

def flush (f : Frame) : Frame :=
  if f.text.isEmpty then f
  else { f with children := .text f.text.reverse :: f.children, text := [] }

def node (f : Frame) : Node := .element f.tag f.attributes f.flush.children.reverse

def addChild (f : Frame) (n : Node) : Frame := { f.flush with children := n :: f.flush.children }

def addChar (f : Frame) (c : Char) : Frame := { f with text := c :: f.text }

end Frame

/-- A tree being built: open elements, innermost first, and the finished root. -/
structure Builder where
  stack : List Frame
  root : Option Node

namespace Builder

def addChar (b : Builder) (c : Char) : Builder :=
  match b.stack with
  | f :: fs => { b with stack := f.addChar c :: fs }
  | [] => b

def addNode (b : Builder) (n : Node) : Builder :=
  match b.stack with
  | f :: fs => { b with stack := f.addChild n :: fs }
  | [] => { b with root := some n }

def scope (b : Builder) : Scope :=
  match b.stack with
  | f :: _ => f.scope
  | [] => .initial

def openFrame (naming : Naming) (scope : Scope) (offset : Nat) (name : Text)
    (attrs : List RawAttribute) : Except Fault Frame := do
  let (scope, plain) ← readAttributes offset [] scope attrs
  let named ← fullNames scope offset [] plain
  let tag ← fullName scope offset true name
  return ⟨name, tag.display naming, .ofPairs (named.map fun a => (a.1.display naming, a.2)), [], [],
    scope⟩

def add (naming : Naming) (b : Builder) : Token → Except Fault Builder
  | .char c => .ok (b.addChar c)
  | .reference offset r => (r.char offset offset).map b.addChar
  | .declaration offset => .error ⟨.misplacedDeclaration, offset⟩
  | .startTag offset name attrs empty => do
    let f ← openFrame naming b.scope offset name attrs
    return if empty then b.addNode f.node else { b with stack := f :: b.stack }
  | .endTag offset name =>
    match b.stack with
    | f :: fs =>
      if f.rawName = name then .ok ({ b with stack := fs }.addNode f.node)
      else .error ⟨.mismatchedTag, offset⟩
    | [] => .error ⟨.mismatchedTag, offset⟩

def addAll (naming : Naming) : Builder → List Token → Except Fault Builder
  | b, [] => .ok b
  | b, t :: ts => do addAll naming (← b.add naming t) ts

end Builder

def tree (naming : Naming) (t : Text) : Except Fault Node := do
  let (tokens, fault) := tokenize t
  let b ← Builder.addAll naming ⟨[], none⟩ tokens
  match fault, b.root with
  | some f, _ => .error f
  | none, some n => .ok n
  | none, none => .error ⟨.noElement, t.length⟩

end LightningTemplate.Markup
