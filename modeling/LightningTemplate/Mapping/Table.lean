import LightningTemplate.Document.Value
import LightningTemplate.Text.Case

/-! Tables that say which template tag, attribute and slots stand for which.  A tag
without an entry follows the rules of its namespace, or stays as it is. -/
namespace LightningTemplate
open Text

/-- One component of the table; a target that is not given leaves the tag to the rules. -/
structure ComponentEntry where
  auraTag : Text
  target : Value
  attributes : List (Value × Value)

structure Mapping where
  /-- Entries by tag in small letters. -/
  components : List (Text × ComponentEntry)
  /-- Slot names by template tag. -/
  slots : List (Text × List Text)

def isAsciiLowerOrDigit (c : Char) : Bool := c.isLower || c.isDigit

def hyphenate : Text → Text
  | [] => []
  | c :: cs =>
    if isAsciiLowerOrDigit c && cs.head?.any (·.isUpper) then c :: '-' :: hyphenate cs
    else c :: hyphenate cs

/-- Words joined by capitals become small words joined by hyphens. -/
def kebab (name : Text) : Text := lower (hyphenate name)

def namespaceTag? (tag : Text) : Option Text :=
  match cut ':' tag with
  | (_, none) => none
  | (_, some []) => none
  | (space, some base) =>
    let space := lower space
    if space = "lightning".toList then some ("lightning-".toList ++ kebab base)
    else if space = "ui".toList then
      let base := lower base
      if "input".toList.isPrefixOf base then some "lightning-input".toList
      else if "output".toList.isPrefixOf base then some "lightning-formatted-text".toList
      else if base = "button".toList then some "lightning-button".toList
      else none
    else if space = "c".toList then some ("c-".toList ++ kebab base)
    else none

namespace ComponentEntry

def attribute? (e : ComponentEntry) (name : Text) : Option Value := Value.field? name e.attributes

end ComponentEntry

def auraId : Text := "aura:id".toList

def attributeTarget (entry : Option ComponentEntry) (name : Text) : Value :=
  if name = auraId then .text "data-id".toList
  else ((entry.bind (·.attribute? name)).getD (.text (kebab name)))

namespace Mapping

def component? (m : Mapping) (tag : Text) : Option ComponentEntry := m.components.lookup (lower tag)

/-- The template tag: the entry's target if it gives one, else the namespace's, else the tag. -/
def templateTag (m : Mapping) (tag : Text) : Value :=
  let ruled : Value := .text ((namespaceTag? tag).getD tag)
  match m.component? tag with
  | some e => if e.target.isGiven then e.target else ruled
  | none => ruled

/-- The slots of a template element; none where nothing encloses.  A target that is no text
has no slots: a conversion that meets one fails in any case, at its end at the latest. -/
def slotsOf (m : Mapping) (parent : Value) : List Text :=
  match parent with
  | .text (c :: cs) => (m.slots.lookup (c :: cs)).getD []
  | _ => []

end Mapping
end LightningTemplate
