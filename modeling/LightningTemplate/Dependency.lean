import LightningTemplate.Node

/-! The components that a body uses, told by the namespaces of their tags. -/
namespace LightningTemplate
open Text

def componentSpaces : List Text :=
  ["lightning:".toList, "ui:".toList, "force:".toList, "c:".toList]

def isComponentTag (tag : Text) : Bool := componentSpaces.any (·.isPrefixOf (lower tag))

/-- The component tags among the elements of a forest, each at its first place. -/
def dependencies (nodes : List Node) : List Text :=
  (((Node.elementsIn nodes).filterMap Node.tag?).filter isComponentTag).eraseDups

theorem dependencies_append (a b : List Node) :
    dependencies (a ++ b) = dependencies a
      ++ (((((Node.elementsIn b).filterMap Node.tag?).filter isComponentTag).removeAll
        (((Node.elementsIn a).filterMap Node.tag?).filter isComponentTag)).eraseDups) := by
  simp [dependencies, Node.elementsIn_eq_flatMap, List.eraseDups_append]

end LightningTemplate
