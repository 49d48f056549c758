import LightningTemplate.Keyed
import LightningTemplate.Text.Blank
import LightningTemplate.Text.Case
import LightningTemplate.Text.Quoted

/-! Markup trees: runs of text and elements with attributes in document order. -/
namespace LightningTemplate

abbrev Attributes := List (Text × Text)

namespace Attributes

/-- The attributes of pairs: a name that occurs again keeps its place and takes the last value. -/
def ofPairs (pairs : List (Text × Text)) : Attributes := Keyed.insertAll [] pairs

def asWritten? (attrs : Attributes) (name : Text) : Option Text :=
  (attrs.find? fun a => a.1 == name).map (·.2)

def anyCase? (attrs : Attributes) (name : Text) : Option Text :=
  (attrs.find? fun a => Text.lower a.1 == Text.lower name).map (·.2)

/-- The name as written has precedence over its other spellings. -/
def get? (attrs : Attributes) (name : Text) : Option Text :=
  (attrs.asWritten? name).or (attrs.anyCase? name)

def get (attrs : Attributes) (name : Text) : Text := (attrs.get? name).getD []

def has (attrs : Attributes) (name : Text) : Bool := (attrs.anyCase? name).isSome

/-- The value without blanks at its ends; empty when it is missing. -/
def trimmed (attrs : Attributes) (name : Text) : Text := Text.strip (attrs.get name)

end Attributes

inductive Node
  | text (content : Text)
  | element (tag : Text) (attributes : Attributes) (children : List Node)

namespace Node

instance : Inhabited Node := ⟨.text []⟩

/-- What holds of texts, and of an element when it holds of its children, holds of every node. -/
@[elab_as_elim] theorem induction {P : Node → Prop} (text : ∀ content, P (.text content))
    (element : ∀ tag attrs nodes, (∀ n ∈ nodes, P n) → P (.element tag attrs nodes)) :
    ∀ n, P n
  | .text content => text content
  | .element tag attrs nodes => element tag attrs nodes fun n _ => induction text element n

def isElement : Node → Bool
  | .text _ => false
  | .element _ _ _ => true

def isSolid : Node → Bool
  | .text content => !Text.isAllBlank content
  | .element _ _ _ => true

theorem eq_text_of_not_solid {ns : List Node} {n : Node} (h : ns.any isSolid = false)
    (hn : n ∈ ns) : ∃ content, n = .text content ∧ Text.isAllBlank content = true := by
  have hsolid : n.isSolid = false := by simpa using List.any_eq_false.1 h n hn
  cases n with
  | element tag attrs nodes => cases hsolid
  | text content => exact ⟨content, rfl, by simpa [isSolid] using hsolid⟩

def tag? : Node → Option Text
  | .text _ => none
  | .element tag _ _ => some tag

def attributes : Node → Attributes
  | .text _ => []
  | .element _ attrs _ => attrs

def children : Node → List Node
  | .text _ => []
  | .element _ _ nodes => nodes

mutual

def elements : Node → List Node
  | .text _ => []
  | .element tag attrs nodes => .element tag attrs nodes :: elementsIn nodes

def elementsIn : List Node → List Node
  | [] => []
  | n :: ns => elements n ++ elementsIn ns

end

theorem elementsIn_eq_flatMap (ns : List Node) : elementsIn ns = ns.flatMap elements := by
  induction ns with
  | nil => rfl
  | cons n ns ih => simp [elementsIn, ih]

def summary : Node → Text
  | .text content => "TextNode(".toList ++ Text.quoted (content.take 40) ++ [')']
  | .element tag attrs nodes =>
    "ElementNode(".toList ++ tag ++ ", ".toList ++ Text.ofNat attrs.length ++ " attrs, ".toList
      ++ Text.ofNat nodes.length ++ " children)".toList

end Node
end LightningTemplate
