import LightningTemplate.Context
import LightningTemplate.Fragment

/-! The transformation of markup trees, depth first and from left to right.  Each directive has
a handler, which writes to the lists of its context and gives the text of the node; the children
of a plain element get a context of their own that shares these lists. -/
namespace LightningTemplate.Transformer
open Text Render

def transformText (c : Context) (indent content : Text) : StoreM Text := do
  return Template.textLines (← c.convert content) indent

def transformChannel (c : Context) (attrs : Attributes) : StoreM Text := do
  let config := MessageChannel.ofAttributes attrs.trimmed
  c.addChannel config
  c.warn (.channel config.publisherOnly)
  return []

def transformRecordData (c : Context) (attrs : Attributes) : StoreM Text := do
  c.addRecordData (.ofAttributes attrs.trimmed)
  c.warn .recordData
  return []

def convertGuard (c : Context) (attrs : Attributes) : StoreM (Option Text) := do
  let isTrue := attrs.get "isTrue".toList
  let isFalse := attrs.get "isFalse".toList
  if !isAllBlank isTrue then return some (Expression.unbrace (← c.convert isTrue))
  else if !isAllBlank isFalse then return some ('!' :: Expression.unbrace (← c.convert isFalse))
  else return none

/-- The else branch is rendered beside the block of the condition, and before its content. -/
def transformConditional (c : Context) (indent : Text) (attrs : Attributes) (hasElse : Bool)
    (otherwise main : StoreM Text) : StoreM Text := do
  let guard ← convertGuard c attrs
  let elseContent ← otherwise
  let mainContent ← main
  match guard with
  | none =>
    c.warn .conditionMissing
    let marker := Template.comment indent "TODO: Convert aura:if without a condition".toList
    return stripLineEnds (marker ++ ('\n' :: (mainContent ++ elseContent)))
  | some g =>
    c.useDirective "lwc:if".toList
    let opening := "<template lwc:if=".toList ++ Expression.inBraces g ++ ['>']
    let block := Template.block indent opening mainContent templateClose
    if hasElse then
      c.useDirective "lwc:else".toList
      return block ++ ('\n' ::
        Template.block indent "<template lwc:else>".toList elseContent templateClose)
    else return block

def reportKey (c : Context) (itemVar : Text) (children : List Node) : StoreM Unit := do
  if needsKey children then c.warn (.keyAdded (keyBinding itemVar))
  else if !children.any Node.isPlain && children.any Node.isSolid then c.warn (.keyMissing itemVar)

def transformIteration (c : Context) (indent : Text) (attrs : Attributes)
    (content : StoreM Text) : StoreM Text := do
  let items := attrs.get "items".toList
  let indexVar := attrs.get "indexVar".toList
  if items.isEmpty then c.warn .itemsMissing
  let collection := Expression.unbrace (← c.convert items)
  c.useDirective "for:each".toList
  let body ← content
  let opening := "<template for:each=".toList ++ Expression.inBraces collection
    ++ " for:item=\"".toList ++ itemVariable attrs ++ ['"']
    ++ (if indexVar.isEmpty then [] else " for:index=\"".toList ++ indexVar ++ ['"']) ++ ['>']
  return Template.block indent opening body templateClose

def transformSlot (m : Mapping) (c : Context) (indent : Text) (attrs : Attributes)
    (content : StoreM Text) : StoreM Text := do
  let name := facetName attrs.trimmed
  let body ← content
  c.addFacet ⟨name, stripBoth (· == '\n') (removeMargin body)⟩
  if name.isEmpty then
    c.warn .slotUnnamed
    let marker := Template.comment indent "TODO: Convert aura:set to slot content".toList
    return stripLineEnds (marker ++ ('\n' :: body))
  else
    if !(m.slotsOf c.parent).contains name then c.warn (.slotUnverified name)
    return Template.block indent ("<div slot=\"".toList ++ name ++ "\">".toList) body "</div>".toList

def transformRawHtml (c : Context) (indent : Text) (attrs : Attributes)
    (content : StoreM Text) : StoreM Text := do
  let given := attrs.trimmed "tag".toList
  if Expression.occurs given then c.warn (.dynamicTag given)
  let tag := if given.isEmpty || Expression.occurs given then divTag else given
  let body ← c.convert (attrs.get "body".toList)
  c.warn .rawHtml
  let children ← content
  if children.isEmpty then return Template.inlineElement indent tag body
  else
    let first := if isAllBlank body then []
      else Template.textLines body (Template.deeper indent) ++ ['\n']
    return Template.block indent ('<' :: (tag ++ ['>'])) (first ++ children)
      ('<' :: '/' :: (tag ++ ['>']))

/-- An attribute under its template name; the identifier keeps its value. -/
def convertAttribute (c : Context) (tag : Text) (entry : Option ComponentEntry)
    (a : Text × Text) : StoreM (Text × Text) := do
  if a.1 = auraId then return (attributeName entry a.1, a.2)
  else
    let value ← c.convert a.2
    if Expression.occurs a.2 && !Template.isBraced value then c.warn (.mixedValue tag a.1)
    return (attributeName entry a.1, value)

def convertAttributes (c : Context) (tag : Text) (entry : Option ComponentEntry) :
    Attributes → StoreM (List (Text × Text))
  | [] => return []
  | a :: as => do
    let first ← convertAttribute c tag entry a
    return first :: (← convertAttributes c tag entry as)

/-- A component is in use under another name, or the namespace of the tag is not known. -/
def reportTag (c : Context) (tag : Text) (target : Value) : StoreM Unit := do
  if !target.same (.text tag) then c.useComponent target
  else if tag.contains ':' then reportUnmapped tag

def transformElement (m : Mapping) (c : Context) (indent tag : Text) (attrs : Attributes)
    (solid : Bool) (content : StoreM Text) : StoreM Text := do
  let target := m.templateTag tag
  reportTag c tag target
  let converted ← convertAttributes c tag (m.component? tag) attrs
  let name := target.display
  let list := Template.attributeList converted
  if solid then
    let body ← content
    return Template.block indent ('<' :: (name ++ list ++ ['>'])) body
      ('<' :: '/' :: (name ++ ['>']))
  else return Template.emptyElement indent name list

mutual
/-- One node, with the attributes that an iteration around it gives it. -/
def transform (m : Mapping) (c : Context) (indent : Text) (handed : Attributes) :
    Node → StoreM Text
  | .text content => transformText c indent content
  | .element tag attrs children =>
    match Directive.ofTag tag with
    | .messageChannel => transformChannel c attrs
    | .recordData => transformRecordData c attrs
    | .metadata => return []
    | .conditional =>
      transformConditional c indent attrs (children.any Node.isOtherBranch)
        (transformElse m c (Template.deeper indent) children)
        (transformMain m c (Template.deeper indent) children)
    | .iteration => transformIteration c indent attrs do
        reportKey c (itemVariable attrs) children
        if needsKey children then
          transformKeyed m c (Template.deeper indent) (keyName, keyBinding (itemVariable attrs)) children
        else transformChildren m c (Template.deeper indent) children
    | .slot => transformSlot m c indent attrs (transformChildren m c (Template.deeper indent) children)
    | .rawHtml =>
      transformRawHtml c indent attrs (transformChildren m c (Template.deeper indent) children)
    | .text | .element =>
      transformElement m c indent tag (attrs ++ handed) (children.any Node.isSolid)
        (transformChildren m (c.forParent (m.templateTag tag)) (Template.deeper indent) children)
termination_by structural n => n

/-- Siblings, each that is not empty on lines of its own. -/
def transformChildren (m : Mapping) (c : Context) (indent : Text) : List Node → StoreM Text
  | [] => return []
  | n :: ns => do
    let first ← transform m c indent [] n
    return line first ++ (← transformChildren m c indent ns)
termination_by structural ns => ns

/-- Siblings of which the first plain element gets an attribute more. -/
def transformKeyed (m : Mapping) (c : Context) (indent : Text) (key : Text × Text) :
    List Node → StoreM Text
  | [] => return []
  | n :: ns => do
    let first ← transform m c indent (if n.isPlain then [key] else []) n
    return line first ++
      (← if n.isPlain then transformChildren m c indent ns else transformKeyed m c indent key ns)
termination_by structural ns => ns

def transformMain (m : Mapping) (c : Context) (indent : Text) : List Node → StoreM Text
  | [] => return []
  | n :: ns =>
    if n.isOtherBranch then transformMain m c indent ns
    else do
      let first ← transform m c indent [] n
      return line first ++ (← transformMain m c indent ns)
termination_by structural ns => ns

def transformElse (m : Mapping) (c : Context) (indent : Text) : List Node → StoreM Text
  | [] => return []
  | .text _ :: ns => transformElse m c indent ns
  | .element tag attrs children :: ns =>
    if Node.isOtherBranch (.element tag attrs []) then do
      let first ← transformChildren m c indent children
      return first ++ (← transformElse m c indent ns)
    else transformElse m c indent ns
termination_by structural ns => ns
end

def transformIterationChildren (m : Mapping) (c : Context) (indent itemVar : Text)
    (children : List Node) : StoreM Text := do
  reportKey c itemVar children
  if needsKey children then transformKeyed m c indent (keyName, keyBinding itemVar) children
  else transformChildren m c indent children

end LightningTemplate.Transformer
