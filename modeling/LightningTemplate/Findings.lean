import LightningTemplate.Expression.Substitution
import LightningTemplate.SideChannel

/-! What is found while a template is written: warnings, directives and components in use,
records for the script side, and getters. -/
namespace LightningTemplate
open Text

inductive Warning
  | channel (publisherOnly : Bool)
  | recordData
  | conditionMissing
  | itemsMissing
  | keyMissing (itemVar : Text)
  | keyAdded (binding : Text)
  | slotUnnamed
  | slotUnverified (name : Text)
  | dynamicTag (tag : Text)
  | rawHtml
  | mixedValue (tag name : Text)
  /-- A warning in words of its own. -/
  | remark (words : Text)
  deriving DecidableEq, Repr

def Warning.message : Warning → Text
  | .channel publisherOnly =>
    "lightning:messageChannel detected (".toList
      ++ (if publisherOnly then "publisher-only".toList else "subscriber".toList)
      ++ ") - LMS code will be generated in JavaScript".toList
  | .recordData =>
    "force:recordData detected - @wire(getRecord) will be generated in JavaScript".toList
  | .conditionMissing => "aura:if without isTrue or isFalse - needs manual migration".toList
  | .itemsMissing => "aura:iteration without items - set the for:each collection manually".toList
  | .keyMissing itemVar =>
    "aura:iteration over ".toList ++ itemVar
      ++ " has no element to carry a key - add key manually".toList
  | .keyAdded binding =>
    "Added key=".toList ++ binding
      ++ " to iteration - verify .Id is the correct unique identifier".toList
  | .slotUnnamed => "aura:set found without attribute name - needs manual migration".toList
  | .slotUnverified name =>
    "aura:set attribute=\"".toList ++ name
      ++ "\" - verify slot name exists on parent component".toList
  | .dynamicTag tag =>
    "aura:html tag=\"".toList ++ tag
      ++ "\" is dynamic - rendered as <div>, convert manually".toList
  | .rawHtml => "aura:html found - verify dynamic HTML handling".toList
  | .mixedValue tag name =>
    '<' :: (tag ++ "> attribute \"".toList ++ name
      ++ "\" mixes text and expressions - LWC needs a single binding, use a getter".toList)
  | .remark words => words

structure Getter where
  name : Text
  expression : Text
  deriving DecidableEq, Repr

structure Findings where
  warnings : List Warning := []
  usedDirectives : List Text := []
  usedComponents : List Value := []
  channels : List MessageChannel := []
  recordData : List RecordData := []
  facets : List Facet := []
  getters : List Getter := []

end LightningTemplate
