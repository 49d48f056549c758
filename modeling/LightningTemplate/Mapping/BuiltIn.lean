import LightningTemplate.Mapping.Table

/-! The tables that hold without any mapping file. -/
namespace LightningTemplate
open Text

def component (tag : String) (target : Option String) (attributes : List (String × String)) :
    Text × ComponentEntry :=
  (lower tag.toList,
   { auraTag := tag.toList
     target := .ofOptionText (target.map String.toList)
     attributes := attributes.map fun a => (.text a.1.toList, .text a.2.toList) })

def builtInComponents : List (Text × ComponentEntry) :=
  [component "ui:inputText" (some "lightning-input") [("change", "onchange"), ("blur", "onblur"), ("focus", "onfocus"), ("keyup", "onkeyup")],
   component "ui:inputNumber" (some "lightning-input") [("change", "onchange")],
   component "ui:inputEmail" (some "lightning-input") [("change", "onchange")],
   component "ui:inputCheckbox" (some "lightning-input") [("value", "checked"), ("change", "onchange")],
   component "ui:inputSelect" (some "lightning-combobox") [("change", "onchange")],
   component "ui:inputTextArea" (some "lightning-textarea") [("change", "onchange")],
   component "ui:inputDate" (some "lightning-input") [("change", "onchange")],
   component "ui:outputText" (some "lightning-formatted-text") [],
   component "ui:outputNumber" (some "lightning-formatted-number") [],
   component "ui:outputDate" (some "lightning-formatted-date-time") [],
   component "ui:outputURL" (some "lightning-formatted-url") [],
   component "ui:outputRichText" (some "lightning-formatted-rich-text") [],
   component "ui:button" (some "lightning-button") [("press", "onclick")],
   component "ui:spinner" (some "lightning-spinner") [],
   component "aura:unescapedHtml" (some "lightning-formatted-rich-text") [],
   component "aura:text" (some "lightning-formatted-text") [],
   component "force:inputField" (some "lightning-input-field") [],
   component "force:outputField" (some "lightning-output-field") [],
   component "force:recordView" (some "lightning-record-form") [],
   component "force:recordEdit" (some "lightning-record-edit-form") [],
   component "lightning:button" (some "lightning-button") [],
   component "lightning:formattedDateTime" (some "lightning-formatted-date-time") [],
   component "lightning:datatable" (some "lightning-datatable") [],
   component "ltng:require" none []]

def builtInSlots : List (Text × List Text) :=
  [("lightning-card".toList, ["title".toList, "actions".toList, "footer".toList]),
   ("lightning-tile".toList, ["media".toList]),
   ("lightning-accordion-section".toList, ["actions".toList])]

def Mapping.builtIn : Mapping := ⟨builtInComponents, builtInSlots⟩

end LightningTemplate
