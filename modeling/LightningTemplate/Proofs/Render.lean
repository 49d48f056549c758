import LightningTemplate.Fragment
import LightningTemplate.Proofs.Walk

/-! What the transformation of a markup tree leaves, as text and log.  Each directive has a
frame that says what stands around its children and what is found there; `renderNode`
chooses the frame and the children that go into it. -/
namespace LightningTemplate
open Text

/-- What surrounds a node: the tables, the template tag of the enclosing element, and the indent. -/
structure Surroundings where
  mapping : Mapping
  parent : Value
  indent : Text

namespace Surroundings

def inner (s : Surroundings) : Surroundings := { s with indent := Template.deeper s.indent }

def inside (s : Surroundings) (tag : Value) : Surroundings := { s.inner with parent := tag }

end Surroundings

namespace Render
open Walk

/-- The identifier keeps its value; other values are converted, and a value that mixes
text with expressions is reported. -/
def bindAttribute (tag : Text) (entry : Option ComponentEntry) (a : Text × Text) :
    Walk (Text × Text) := do
  if a.1 = auraId then return (attributeName entry a.1, a.2)
  else
    let value ← convert a.2
    if Expression.occurs a.2 && !Template.isBraced value then warn (.mixedValue tag a.1)
    return (attributeName entry a.1, value)

def bindAttributes (tag : Text) (entry : Option ComponentEntry) :
    Attributes → Walk (List (Text × Text))
  | [] => return []
  | a :: as => do
    let first ← bindAttribute tag entry a
    return first :: (← bindAttributes tag entry as)

def tagFinding (tag : Text) (target : Value) : List Finding :=
  if !target.same (.text tag) then [.component target]
  else if tag.contains ':' then [.unmapped tag]
  else []

def noteAll : List Finding → Walk Unit
  | [] => return ()
  | f :: fs => do note f; noteAll fs

/-- A plain element around its content; without solid children it is written empty. -/
def plainFrame (s : Surroundings) (tag : Text) (attrs : Attributes) (solid : Bool)
    (content : Walk Text) : Walk Text := do
  let target := s.mapping.templateTag tag
  noteAll (tagFinding tag target)
  let converted ← bindAttributes tag (s.mapping.component? tag) attrs
  let name := target.display
  let list := Template.attributeList converted
  if solid then
    let body ← content
    return Template.block s.indent ('<' :: (name ++ list ++ ['>'])) body
      ('<' :: '/' :: (name ++ ['>']))
  else return Template.emptyElement s.indent name list

def channelFrame (attrs : Attributes) : Walk Text := do
  let c := MessageChannel.ofAttributes attrs.trimmed
  note (.channel c)
  warn (.channel c.publisherOnly)
  return []

def recordDataFrame (attrs : Attributes) : Walk Text := do
  note (.recordData (.ofAttributes attrs.trimmed))
  warn .recordData
  return []

def guardOf (attrs : Attributes) : Walk (Option Text) := do
  if !isAllBlank (attrs.get "isTrue".toList) then
    return some (Expression.unbrace (← convert (attrs.get "isTrue".toList)))
  else if !isAllBlank (attrs.get "isFalse".toList) then
    return some ('!' :: Expression.unbrace (← convert (attrs.get "isFalse".toList)))
  else return none

/-- One block for the branch under the guard and, if there is another branch, one after it. -/
def conditionalFrame (s : Surroundings) (attrs : Attributes) (hasElse : Bool)
    (otherwise main : Walk Text) : Walk Text := do
  let guard ← guardOf attrs
  let elseText ← otherwise
  let mainText ← main
  match guard with
  | none =>
    warn .conditionMissing
    return stripLineEnds
      (Template.comment s.indent "TODO: Convert aura:if without a condition".toList
        ++ ('\n' :: (mainText ++ elseText)))
  | some g =>
    note (.directive "lwc:if".toList)
    let first := Template.block s.indent
      ("<template lwc:if=".toList ++ Expression.inBraces g ++ ['>']) mainText templateClose
    if hasElse then
      note (.directive "lwc:else".toList)
      return first ++ ('\n' :: Template.block s.indent "<template lwc:else>".toList elseText
        templateClose)
    else return first

def keyWarnings (itemVar : Text) (children : List Node) : List Finding :=
  if needsKey children then [.warning (.keyAdded (keyBinding itemVar))]
  else if !children.any Node.isPlain && children.any Node.isSolid then
    [.warning (.keyMissing itemVar)]
  else []

def iterationFrame (s : Surroundings) (attrs : Attributes) (content : Walk Text) : Walk Text := do
  let items := attrs.get "items".toList
  let indexVar := attrs.get "indexVar".toList
  if items.isEmpty then warn .itemsMissing
  let collection := Expression.unbrace (← convert items)
  note (.directive "for:each".toList)
  let body ← content
  let opening := "<template for:each=".toList ++ Expression.inBraces collection
    ++ " for:item=\"".toList ++ itemVariable attrs ++ ['"']
    ++ (if indexVar.isEmpty then [] else " for:index=\"".toList ++ indexVar ++ ['"']) ++ ['>']
  return Template.block s.indent opening body templateClose

/-- A facet is recorded without the margin of its lines; its slot is checked against the parent. -/
def slotFrame (s : Surroundings) (attrs : Attributes) (content : Walk Text) : Walk Text := do
  let name := facetName attrs.trimmed
  let body ← content
  note (.facet ⟨name, stripBoth (· == '\n') (removeMargin body)⟩)
  if name.isEmpty then
    warn .slotUnnamed
    return stripLineEnds
      (Template.comment s.indent "TODO: Convert aura:set to slot content".toList ++ ('\n' :: body))
  else
    if !(s.mapping.slotsOf s.parent).contains name then warn (.slotUnverified name)
    return Template.block s.indent ("<div slot=\"".toList ++ name ++ "\">".toList) body
      "</div>".toList

/-- An element whose tag stands in an attribute; a computed tag cannot be kept. -/
def rawHtmlFrame (s : Surroundings) (attrs : Attributes) (content : Walk Text) : Walk Text := do
  let given := attrs.trimmed "tag".toList
  if Expression.occurs given then warn (.dynamicTag given)
  let tag := if given.isEmpty || Expression.occurs given then divTag else given
  let body ← convert (attrs.get "body".toList)
  warn .rawHtml
  let children ← content
  if children.isEmpty then return Template.inlineElement s.indent tag body
  else
    let first := if isAllBlank body then []
      else Template.textLines body (Template.deeper s.indent) ++ ['\n']
    return Template.block s.indent ('<' :: (tag ++ ['>'])) (first ++ children)
      ('<' :: '/' :: (tag ++ ['>']))

mutual
/-- One node; an iteration around it hands down attributes that plain elements take over. -/
def renderNode (s : Surroundings) (handed : Attributes) : Node → Walk Text
  | .text content => do return Template.textLines (← convert content) s.indent
  | .element tag attrs children =>
    match Directive.ofTag tag with
    | .messageChannel => channelFrame attrs
    | .recordData => recordDataFrame attrs
    | .metadata => return []
    | .conditional =>
      conditionalFrame s attrs (children.any Node.isOtherBranch)
        (renderElse s.inner children) (renderMain s.inner children)
    | .iteration => iterationFrame s attrs do
        noteAll (keyWarnings (itemVariable attrs) children)
        if needsKey children then
          renderKeyed s.inner (keyName, keyBinding (itemVariable attrs)) children
        else renderAll s.inner children
    | .slot => slotFrame s attrs (renderAll s.inner children)
    | .rawHtml => rawHtmlFrame s attrs (renderAll s.inner children)
    | .text | .element =>
      plainFrame s tag (attrs ++ handed) (children.any Node.isSolid)
        (renderAll (s.inside (s.mapping.templateTag tag)) children)
termination_by structural n => n

/-- Siblings, each that is not empty on lines of its own. -/
def renderAll (s : Surroundings) : List Node → Walk Text
  | [] => return []
  | n :: ns => do
    let first ← renderNode s [] n
    return line first ++ (← renderAll s ns)
termination_by structural ns => ns

/-- Siblings of which the first plain element takes over an attribute. -/
def renderKeyed (s : Surroundings) (key : Text × Text) : List Node → Walk Text
  | [] => return []
  | n :: ns => do
    let first ← renderNode s (if n.isPlain then [key] else []) n
    return line first ++ (← if n.isPlain then renderAll s ns else renderKeyed s key ns)
termination_by structural ns => ns

def renderMain (s : Surroundings) : List Node → Walk Text
  | [] => return []
  | n :: ns =>
    if n.isOtherBranch then renderMain s ns
    else do
      let first ← renderNode s [] n
      return line first ++ (← renderMain s ns)
termination_by structural ns => ns

def renderElse (s : Surroundings) : List Node → Walk Text
  | [] => return []
  | .text _ :: ns => renderElse s ns
  | .element tag attrs children :: ns =>
    if Node.isOtherBranch (.element tag attrs []) then do
      let first ← renderAll s children
      return first ++ (← renderElse s ns)
    else renderElse s ns
termination_by structural ns => ns
end

theorem renderElse_cons (s : Surroundings) (n : Node) (ns : List Node) :
    renderElse s (n :: ns) = if n.isOtherBranch then do
      let first ← renderAll s n.children
      return first ++ (← renderElse s ns)
    else renderElse s ns := by
  cases n <;> rw [renderElse] <;> rfl

def renderIteration (s : Surroundings) (itemVar : Text) (children : List Node) : Walk Text := do
  noteAll (keyWarnings itemVar children)
  if needsKey children then renderKeyed s (keyName, keyBinding itemVar) children
  else renderAll s children

end Render
end LightningTemplate
