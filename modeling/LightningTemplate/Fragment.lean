import LightningTemplate.Directive
import LightningTemplate.Expression.Substitution
import LightningTemplate.Mapping.Table
import LightningTemplate.Template
import LightningTemplate.Text.Lines

/-! Parts of a template that need no context: lines of fragments, names of attributes, and the
key of an iteration. -/
namespace LightningTemplate.Render
open Text

def line (fragment : Text) : Text := if fragment.isEmpty then [] else fragment ++ ['\n']

def stripLineEnds (t : Text) : Text := stripRight (· == '\n') t

def keyName : Text := "key".toList

def itemVariable (attrs : Attributes) : Text :=
  let var := attrs.get "var".toList
  if var.isEmpty then "item".toList else var

def isEventName (name : Text) : Bool :=
  match name with
  | 'o' :: 'n' :: c :: _ => c.isUpper
  | _ => false

/-- The template name of an attribute: the table's, else a handler in small letters, else hyphened. -/
def attributeName (entry : Option ComponentEntry) (name : Text) : Text :=
  if name = auraId then (attributeTarget none name).display
  else match entry.bind (·.attribute? name) with
    | some target => target.display
    | none => if isEventName name then lower name else (attributeTarget entry name).display

def templateClose : Text := "</template>".toList

def keyBinding (itemVar : Text) : Text := Expression.inBraces (itemVar ++ ".Id".toList)

def needsKey (children : List Node) : Bool :=
  match children.find? Node.isPlain with
  | some n => !n.attributes.has keyName
  | none => false

def divTag : Text := "div".toList

end LightningTemplate.Render
