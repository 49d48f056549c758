import LightningTemplate.Diagnostic
import LightningTemplate.Transformer

/-! Conversion of a whole body: the template, what was found, and the record that is
handed on.  Tables may name a target that is no text; the names of the components in
use cannot be listed then, and the conversion fails at its end. -/
namespace LightningTemplate
open Text

structure Conversion where
  template : Text
  findings : Findings
  /-- Tags of unknown namespaces, every time they were met. -/
  unmapped : List Text

structure UnnamedComponent where
  position : Nat
  sort : Text
  deriving DecidableEq, Repr

def UnnamedComponent.message (u : UnnamedComponent) : Text :=
  "sequence item ".toList ++ ofNat u.position ++ ": expected str instance, ".toList ++ u.sort
    ++ " found".toList

def componentNames (position : Nat) : List Value → Except UnnamedComponent (List Text)
  | [] => .ok []
  | .text t :: vs => (componentNames (position + 1) vs).map (t :: ·)
  | v :: _ => .error ⟨position, v.sort⟩

def debug (message : Text) : Diagnostic := ⟨.debug, .template, message⟩

def unmappedMessage (tag : Text) : Diagnostic :=
  debug ("No LWC mapping for <".toList ++ tag ++ ">, passing through unchanged".toList)

namespace Conversion

def transformBody (m : Mapping) (nodes : List Node) : StoreM (Context × Text) := do
  let c ← Context.new
  return (c, ← Transformer.transformChildren m c Template.step nodes)

def ofNodes (m : Mapping) (nodes : List Node) : Conversion :=
  let r := (transformBody m nodes).run {}
  ⟨Template.document r.1.2, r.1.1.findings r.2, r.2.unmapped⟩

/-- The conversion with its messages; it fails when a component in use has no name. -/
def convert (m : Mapping) (nodes : List Node) : Logged UnnamedComponent Conversion := do
  let c := ofNodes m nodes
  let opening := c.unmapped.map unmappedMessage ++
    [debug ("Transformed markup with ".toList ++ ofNat c.findings.warnings.length
        ++ " warnings".toList),
      debug ("Used directives: ".toList ++ join ", ".toList c.findings.usedDirectives)]
  let names ← (⟨componentNames 0 c.findings.usedComponents, opening⟩ : Logged _ _)
  Logged.say (debug ("Used components: ".toList ++ join ", ".toList names))
  Logged.say (debug ("Detected ".toList ++ ofNat c.findings.getters.length
    ++ " complex expressions for getters".toList))
  return c

/-- A conversion gives its template as soon as every component in use has a name. -/
theorem outcome_convert (m : Mapping) (nodes : List Node) :
    (convert m nodes).outcome =
      (componentNames 0 (ofNodes m nodes).findings.usedComponents).map fun _ => ofNodes m nodes := by
  simp only [convert, Logged.outcome_bind]
  cases componentNames 0 (ofNodes m nodes).findings.usedComponents <;> rfl

theorem convert_ok {m : Mapping} {nodes : List Node}
    (h : (componentNames 0 (ofNodes m nodes).findings.usedComponents).isOk = true) :
    (convert m nodes).outcome = .ok (ofNodes m nodes) := by
  rw [outcome_convert]
  cases hn : componentNames 0 (ofNodes m nodes).findings.usedComponents with
  | error e => simp [hn, Except.isOk, Except.toBool] at h
  | ok names => rfl

theorem eq_ofNodes_of_convert {m : Mapping} {nodes : List Node} {c : Conversion}
    (h : (convert m nodes).outcome = .ok c) : c = ofNodes m nodes := by
  rw [outcome_convert] at h
  cases hn : componentNames 0 (ofNodes m nodes).findings.usedComponents with
  | error e => simp [hn, Except.map] at h
  | ok names => simpa [hn, Except.map, eq_comm] using h

def summary (c : Conversion) : Text :=
  "TransformedMarkup(".toList ++ ofNat c.template.length ++ " chars, ".toList
    ++ ofNat c.findings.warnings.length ++ " warnings, ".toList
    ++ ofNat c.findings.getters.length ++ " getters)".toList

end Conversion

def MessageChannel.toValue (c : MessageChannel) : Value :=
  .record [("channelName", .text c.channelName), ("bindingId", .text c.bindingId),
    ("messageHandlerName", .ofOptionText c.handler), ("scope", .ofOptionText c.scope),
    ("isPublisherOnly", .bool c.publisherOnly)]

def RecordData.toValue (r : RecordData) : Value :=
  .record [("bindingId", .text r.bindingId), ("recordIdBinding", .text r.recordId),
    ("fields", .texts r.fields), ("targetFieldsBinding", .ofOptionText r.targetFields),
    ("targetRecordBinding", .ofOptionText r.targetRecord),
    ("targetErrorBinding", .ofOptionText r.targetError), ("mode", .text r.mode)]

def Facet.toValue (f : Facet) : Value :=
  .record [("slotName", .text f.slot), ("renderedContent", .text f.content)]

def Getter.toValue (g : Getter) : Value :=
  .record [("name", .text g.name), ("expression", .text g.expression)]

def Findings.fields (fs : Findings) : List (String × Value) :=
  [("warnings", .texts (fs.warnings.map Warning.message)),
    ("usedDirectives", .texts fs.usedDirectives),
    ("usedComponents", .list fs.usedComponents),
    ("lmsChannels", .list (fs.channels.map MessageChannel.toValue)),
    ("recordDataServices", .list (fs.recordData.map RecordData.toValue)),
    ("facetContents", .list (fs.facets.map Facet.toValue)),
    ("detectedGetters", .list (fs.getters.map Getter.toValue))]

def Findings.toValue (fs : Findings) : Value := .record fs.fields

def Conversion.toValue (c : Conversion) : Value :=
  .record (("templateText", .text c.template) :: c.findings.fields)

end LightningTemplate
