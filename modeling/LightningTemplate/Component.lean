import LightningTemplate.Dependency
import LightningTemplate.Diagnostic
import LightningTemplate.Directive
import LightningTemplate.Expression.Mention
import LightningTemplate.Markup.Reader

/-! Components: what a markup declares about itself, and the body that is converted.
Every child of the component's element is a declaration, a facet or a part of the
body; only blank text and facets without a name belong nowhere. -/
namespace LightningTemplate
open Text

structure AttributeDeclaration where
  name : Text
  type : Text
  default : Option Text
  description : Text
  required : Bool
  access : Text
  deriving DecidableEq, Repr

structure HandlerDeclaration where
  name : Text
  event : Text
  action : Text
  phase : Text
  deriving DecidableEq, Repr

structure EventDeclaration where
  name : Text
  type : Text
  deriving DecidableEq, Repr

structure Parameter where
  name : Text
  type : Text
  deriving DecidableEq, Repr

structure MethodDeclaration where
  name : Text
  action : Text
  parameters : List Parameter
  deriving DecidableEq, Repr

structure Component where
  name : Text
  /-- The interfaces that it implements. -/
  interfaces : List Text
  /-- The component that it extends. -/
  parent : Text
  extensible : Bool
  isAbstract : Bool
  controller : Text
  attributes : List AttributeDeclaration
  handlers : List HandlerDeclaration
  events : List EventDeclaration
  methods : List MethodDeclaration
  /-- Content by the attribute that it is set for. -/
  facets : List (Text × List Node)
  /-- The expressions of the whole markup, also outside the component's element. -/
  expressions : List Expression.Mention
  dependencies : List Text
  body : List Node

inductive Part
  | blank
  | attributeDeclaration (a : AttributeDeclaration)
  | handler (h : HandlerDeclaration)
  | event (e : EventDeclaration)
  | method (m : MethodDeclaration)
  | facet (name : Text) (nodes : List Node)
  | content (n : Node)

/-- The declared truth value; all but one word is false. -/
def isTrue (attrs : Attributes) (name : String) : Bool :=
  lower (attrs.get name.toList) == "true".toList

def AttributeDeclaration.ofAttributes (attrs : Attributes) : AttributeDeclaration :=
  { name := attrs.get "name".toList
    type := (attrs.get? "type".toList).getD "String".toList
    default := attrs.asWritten? "default".toList
    description := attrs.get "description".toList
    required := isTrue attrs "required"
    access := attrs.get "access".toList }

def HandlerDeclaration.ofAttributes (attrs : Attributes) : HandlerDeclaration :=
  { name := attrs.get "name".toList
    event := attrs.get "event".toList
    action := attrs.get "action".toList
    phase := attrs.get "phase".toList }

def EventDeclaration.ofAttributes (attrs : Attributes) : EventDeclaration :=
  ⟨attrs.get "name".toList, attrs.get "type".toList⟩

def attributeTag : Text := "aura:attribute".toList

def Parameter.ofNode? (n : Node) : Option Parameter :=
  if n.tag?.any (lower · == attributeTag) then
    some ⟨n.attributes.get "name".toList,
      (n.attributes.get? "type".toList).getD "Object".toList⟩
  else none

def MethodDeclaration.ofElement (attrs : Attributes) (children : List Node) : MethodDeclaration :=
  ⟨attrs.get "name".toList, attrs.get "action".toList, children.filterMap Parameter.ofNode?⟩

namespace Part

def ofElement (tag : Text) (attrs : Attributes) (children : List Node) : Part :=
  let kind := lower tag
  if kind = attributeTag then .attributeDeclaration (.ofAttributes attrs)
  else if kind = "aura:handler".toList then .handler (.ofAttributes attrs)
  else if kind = "aura:registerevent".toList then .event (.ofAttributes attrs)
  else if kind = "aura:method".toList then .method (.ofElement attrs children)
  else if kind = "aura:set".toList then .facet (attrs.get "attribute".toList) children
  else .content (.element tag attrs children)

def ofNode : Node → Part
  | .text t => if isAllBlank t then .blank else .content (.text t)
  | .element tag attrs children => ofElement tag attrs children

def attribute? : Part → Option AttributeDeclaration
  | .attributeDeclaration a => some a
  | _ => none

def handler? : Part → Option HandlerDeclaration
  | .handler h => some h
  | _ => none

def event? : Part → Option EventDeclaration
  | .event e => some e
  | _ => none

def method? : Part → Option MethodDeclaration
  | .method m => some m
  | _ => none

def facet? : Part → Option (Text × List Node)
  | .facet name nodes => if name.isEmpty then none else some (name, nodes)
  | _ => none

def content? : Part → Option Node
  | .content n => some n
  | _ => none

def remark? : Part → Option Text
  | .attributeDeclaration a =>
    some ("Found attribute: ".toList ++ a.name ++ " (".toList ++ a.type ++ [')'])
  | .handler h => some ("Found handler: ".toList ++ h.name ++ " -> ".toList ++ h.action)
  | .event e => some ("Found registered event: ".toList ++ e.name)
  | .method m => some ("Found method: ".toList ++ m.name)
  | _ => none

end Part

inductive ComponentFault
  /-- The markup is not well-formed, in the words of its reader. -/
  | malformed (name reason : Text)
  | noComponent (name : Text)
  deriving DecidableEq, Repr

def ComponentFault.message : ComponentFault → Text
  | .malformed name reason =>
    "Failed to parse Aura markup for ".toList ++ name ++ ": ".toList ++ reason
  | .noComponent name => "No <aura:component> found in markup for ".toList ++ name

namespace Component

def isComponentElement (n : Node) : Bool := n.tag?.any (lower · == "aura:component".toList)

def element? (root : Node) : Option Node := root.elements.find? isComponentElement

/-- The component of an element; the expressions are those of the text it was read from. -/
def ofElement (name markup : Text) (element : Node) : Component :=
  let attrs := element.attributes
  let parts := element.children.map Part.ofNode
  let body := parts.filterMap Part.content?
  { name := name
    interfaces := ((splitOn ',' (attrs.get "implements".toList)).map strip).filter (!·.isEmpty)
    parent := attrs.get "extends".toList
    extensible := isTrue attrs "extensible"
    isAbstract := isTrue attrs "abstract"
    controller := attrs.get "controller".toList
    attributes := parts.filterMap Part.attribute?
    handlers := parts.filterMap Part.handler?
    events := parts.filterMap Part.event?
    methods := parts.filterMap Part.method?
    facets := Keyed.insertAll [] (parts.filterMap Part.facet?)
    expressions := Expression.mentions markup
    dependencies := LightningTemplate.dependencies body
    body := body }

/-- How many declarations of each sort there are, and how many dependencies. -/
def tally (c : Component) : Text :=
  "Parsed ".toList ++ c.name ++ ": ".toList
    ++ ofNat c.attributes.length ++ " attributes, ".toList
    ++ ofNat c.handlers.length ++ " handlers, ".toList
    ++ ofNat c.events.length ++ " events, ".toList
    ++ ofNat c.methods.length ++ " methods, ".toList
    ++ ofNat c.dependencies.length ++ " dependencies".toList

/-- The component of a markup, with a message for every declaration and one for the whole. -/
def read (name markup : Text) : Logged ComponentFault Component :=
  match Markup.read markup with
  | .error reason => .fail (.malformed name reason)
  | .ok root =>
    match element? root with
    | none => .fail (.noComponent name)
    | some element =>
      let c := ofElement name markup element
      let remarks := (element.children.map Part.ofNode).filterMap Part.remark?
      ⟨.ok c, remarks.map (⟨.debug, .markup, ·⟩) ++ [⟨.info, .markup, c.tally⟩]⟩

def summary (c : Component) : Text :=
  "ParsedComponent('".toList ++ c.name ++ "', ".toList ++ ofNat c.body.length
    ++ " body nodes, ".toList ++ ofNat c.attributes.length ++ " attributes)".toList

end Component
end LightningTemplate
