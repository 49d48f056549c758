import LightningTemplate.Findings

/-! Review notes for one converted component, as Markdown: what to check by hand and
what the script side has to provide.  Sections without content are left out, apart
from the first three. -/
namespace LightningTemplate.Notes
open Text

def inCode (t : Text) : Text := '\x60' :: (t ++ ['\x60'])

def bullet (t : Text) : Text := '-' :: ' ' :: t

def bulletList : List Text → List Text
  | [] => ["- None".toList]
  | items => items.map bullet

def titled (title : Text) (body : List Text) : List Text :=
  ("## ".toList ++ title) :: [] :: body ++ [[]]

def titledUnlessEmpty (title : Text) : List Text → List Text
  | [] => []
  | body => titled title body

def getterLine (g : Getter) : Text :=
  "- `get ".toList ++ g.name ++ "()` from ".toList ++ inCode g.expression

def channelLine (c : MessageChannel) : Text :=
  let role := if c.publisherOnly then "publisher only".toList
    else "subscriber -> ".toList ++ inCode (c.handler.getD "None".toList)
  let scope := match c.scope with
    | some (x :: xs) => ", scope ".toList ++ (x :: xs)
    | _ => []
  bullet (inCode c.channelName ++ " (".toList ++ inCode c.bindingId ++ "): ".toList ++ role ++ scope)

def recordLine (r : RecordData) : Text :=
  let fields := match join ", ".toList r.fields with
    | [] => "(none)".toList
    | t => t
  bullet (inCode r.bindingId ++ " recordId ".toList ++ inCode r.recordId ++ ", mode ".toList
    ++ r.mode ++ ", fields: ".toList ++ fields)

def facetLines (f : Facet) : List Text :=
  ["### ".toList ++ (if f.slot.isEmpty then "(unnamed)".toList else f.slot), [],
    "```html".toList, f.content, "```".toList, []]

def facetSection : List Facet → List Text
  | [] => []
  | fs => "## Slot content".toList :: [] :: fs.flatMap facetLines

def lines (name : Text) (fs : Findings) : List Text :=
  ["# Conversion notes: ".toList ++ name, []]
    ++ titled ("Warnings (".toList ++ ofNat fs.warnings.length ++ [')'])
      (bulletList (fs.warnings.map Warning.message))
    ++ titled "Components used".toList (bulletList (fs.usedComponents.map (inCode ·.display)))
    ++ titled "Template directives".toList (bulletList (fs.usedDirectives.map inCode))
    ++ titledUnlessEmpty "Getters to implement".toList (fs.getters.map getterLine)
    ++ titledUnlessEmpty "Lightning Message Service".toList (fs.channels.map channelLine)
    ++ titledUnlessEmpty "Record data (@wire(getRecord))".toList (fs.recordData.map recordLine)
    ++ facetSection fs.facets

/-- The notes of a component; they end with one line feed. -/
def text (name : Text) (fs : Findings) : Text :=
  stripRight (· == '\n') (join ['\n'] (lines name fs)) ++ ['\n']

end LightningTemplate.Notes
