import LightningTemplate.Node

/-! What a node asks for, told by its tag in any letter case. -/
namespace LightningTemplate

inductive Directive
  | text | messageChannel | recordData | conditional | iteration | slot | rawHtml | metadata
  | element
  deriving DecidableEq, Repr

namespace Directive

def label : Directive → Text
  | .text => "text".toList
  | .messageChannel => "message-channel".toList
  | .recordData => "record-data".toList
  | .conditional => "conditional".toList
  | .iteration => "iteration".toList
  | .slot => "slot".toList
  | .rawHtml => "raw-html".toList
  | .metadata => "metadata".toList
  | .element => "element".toList

def table : List (Text × Directive) :=
  [("lightning:messagechannel".toList, .messageChannel),
   ("force:recorddata".toList, .recordData),
   ("aura:if".toList, .conditional),
   ("aura:iteration".toList, .iteration),
   ("aura:set".toList, .slot),
   ("aura:html".toList, .rawHtml),
   ("aura:attribute".toList, .metadata),
   ("aura:handler".toList, .metadata),
   ("aura:registerevent".toList, .metadata),
   ("aura:method".toList, .metadata)]

def ofTag (tag : Text) : Directive := (table.lookup (Text.lower tag)).getD .element

theorem ofTag_ne_text (tag : Text) : Directive.ofTag tag ≠ .text := by
  have htable : ∀ e ∈ table, e.2 ≠ .text := by decide
  unfold ofTag
  cases h : table.lookup (Text.lower tag) with
  | none => simp
  | some d =>
    obtain ⟨before, after, heq, -⟩ := List.lookup_eq_some_iff.1 h
    have hmem : (Text.lower tag, d) ∈ table := by simp [heq]
    exact htable _ hmem

end Directive

namespace Node

def directive : Node → Directive
  | .text _ => .text
  | .element tag _ _ => .ofTag tag

/-- An element without a meaning of its own. -/
def isPlain (n : Node) : Bool := n.directive == .element

end Node
end LightningTemplate
