import LightningTemplate.Mapping.BuiltIn
import LightningTemplate.Proofs.Beside
import LightningTemplate.Proofs.Writer

/-! How far the tables reach.  They name the tags and attributes of the template and say which
slots an element has, and that is all.  So two walks over a forest under different tables,
side by side, hoist the same getters, fill the same records and say the same, up to the
warnings about slots that could not be verified (`side_channels_ignore_tables`). -/
namespace LightningTemplate
open Walk

/-- The warning that a facet fits no known slot. -/
def Warning.isSlotCheck : Warning → Bool
  | .slotUnverified _ => true
  | _ => false

namespace Finding

/-- What the tables have no part in.  Of a facet that is its name, since its content is
made of template names. -/
def untabled? : Finding → Option Finding
  | .warning w => if w.isSlotCheck then none else some (.warning w)
  | .facet f => some (.facet ⟨f.slot, []⟩)
  | .component _ => none
  | .unmapped _ => none
  | f => some f

def otherWarning? (f : Finding) : Option Warning := f.warning?.filter (!·.isSlotCheck)

def slotName? (f : Finding) : Option Text := f.facet?.map (·.slot)

/-- Whoever looks neither at components nor at the checks of slots nor into facets sees as
much as before. -/
theorem shows_untabled {γ : Type} {read : Finding → Option γ}
    (hcheck : ∀ w : Warning, w.isSlotCheck = true → read (.warning w) = none)
    (hfacet : ∀ f, read (.facet ⟨f.slot, []⟩) = read (.facet f))
    (hcomponent : ∀ v, read (.component v) = none) (hunmapped : ∀ t, read (.unmapped t) = none) :
    Shows untabled? read := by
  refine ⟨read, fun f => ?_⟩
  cases f with
  | warning w =>
    by_cases h : w.isSlotCheck = true
    · rw [untabled?, if_pos h, hcheck w h]
      rfl
    · rw [untabled?, if_neg h]
      rfl
  | facet f => exact hfacet f
  | component v => exact (hcomponent v).symm
  | unmapped t => exact (hunmapped t).symm
  | _ => rfl

theorem shows_getter : Shows untabled? getter? :=
  shows_untabled (fun _ _ => rfl) (fun _ => rfl) (fun _ => rfl) fun _ => rfl

theorem shows_otherWarning : Shows untabled? otherWarning? := by
  refine shows_untabled (fun w hw => ?_) (fun _ => rfl) (fun _ => rfl) fun _ => rfl
  simp [otherWarning?, Option.filter, hw]

end Finding

open Finding

namespace Walk
variable {α β γ δ : Type} {v : Walk α} {w : Walk β}

/-- The walks find the same but for what the tables have a part in. -/
def Alike (v : Walk α) (w : Walk β) : Prop := Beside untabled? (fun _ _ => True) v w

namespace Alike

theorem pure (a : α) (b : β) : Alike (Pure.pure a) (Pure.pure b) := Beside.pure trivial

theorem refl (v : Walk α) : Alike v v := fun _ => ⟨trivial, rfl⟩

theorem bind {f : α → Walk γ} {g : β → Walk δ} (h : Alike v w) (hf : ∀ a b, Alike (f a) (g b)) :
    Alike (v >>= f) (w >>= g) :=
  Beside.bind shows_getter h fun a b _ => hf a b

theorem bind_same {f : α → Walk γ} {g : α → Walk δ} (hf : ∀ a, Alike (f a) (g a)) :
    Alike (v >>= f) (v >>= g) :=
  Beside.bind_same shows_getter v hf

/-- Walks that find nothing but what the tables have a part in. -/
theorem of_nil (hv : v.Yields untabled? []) (hw : w.Yields untabled? []) : Alike v w :=
  Beside.of_yields hv hw fun _ => trivial

theorem ite {c : Prop} [Decidable c] {v' : Walk α} {w' : Walk β} (h : Alike v w) (h' : Alike v' w') :
    Alike (if c then v else v') (if c then w else w') :=
  Beside.ite h h'

end Alike
end Walk

namespace Render
open Node

variable {content content' otherwise otherwise' main main' : Walk Text} (s s' : Surroundings)
  (attrs : Attributes)

theorem yields_tagFinding (tag : Text) (target : Value) :
    (noteAll (tagFinding tag target)).Yields untabled? [] := by
  apply yields_noteAll_nil
  unfold tagFinding
  split
  · rfl
  · split <;> rfl

theorem alike_bindAttribute (tag : Text) (entry entry' : Option ComponentEntry) (a : Text × Text) :
    Alike (bindAttribute tag entry a) (bindAttribute tag entry' a) := by
  unfold bindAttribute
  refine .ite (.pure _ _) (.bind_same fun value => ?_)
  exact .ite (.bind_same fun _ => .pure _ _) (.pure _ _)

theorem alike_bindAttributes (tag : Text) (entry entry' : Option ComponentEntry) :
    Alike (bindAttributes tag entry attrs) (bindAttributes tag entry' attrs) := by
  induction attrs with
  | nil => exact .pure _ _
  | cons a attrs ih =>
    exact .bind (alike_bindAttribute tag entry entry' a) fun _ _ => .bind ih fun _ _ => .pure _ _

theorem alike_plainFrame (tag : Text) (solid : Bool) (h : Alike content content') :
    Alike (plainFrame s tag attrs solid content) (plainFrame s' tag attrs solid content') := by
  have htag : Alike (noteAll (tagFinding tag (s.mapping.templateTag tag)))
      (noteAll (tagFinding tag (s'.mapping.templateTag tag))) :=
    .of_nil (yields_tagFinding _ _) (yields_tagFinding _ _)
  refine .bind htag fun _ _ => .bind (alike_bindAttributes attrs tag _ _) fun _ _ => ?_
  exact .ite (.bind h fun _ _ => .pure _ _) (.pure _ _)

theorem alike_conditionalFrame (hasElse : Bool) (hotherwise : Alike otherwise otherwise')
    (hmain : Alike main main') : Alike (conditionalFrame s attrs hasElse otherwise main)
      (conditionalFrame s' attrs hasElse otherwise' main') := by
  refine .bind_same fun guard => .bind hotherwise fun _ _ => .bind hmain fun _ _ => ?_
  cases guard with
  | none => exact .bind_same fun _ => .pure _ _
  | some g =>
    exact .bind_same fun _ => .ite (.bind_same fun _ => .pure _ _) (.pure _ _)

theorem alike_iterationFrame (h : Alike content content') :
    Alike (iterationFrame s attrs content) (iterationFrame s' attrs content') := by
  unfold iterationFrame
  refine .ite (.bind_same fun _ => ?_) ?_
  all_goals exact .bind_same fun _ => .bind_same fun _ => .bind h fun _ _ => .pure _ _

/-- The slots of the enclosing element decide whether the slot is said to be unverified, which
is the one thing that is not compared. -/
theorem alike_slotFrame (h : Alike content content') :
    Alike (slotFrame s attrs content) (slotFrame s' attrs content') := by
  refine .bind h fun body body' => .bind (Beside.note rfl) fun _ _ => ?_
  refine .ite (.bind_same fun _ => .pure _ _) (.of_nil ?_ ?_)
  all_goals exact .ite (.nil_bind (.note rfl) fun _ => .pure _) (.pure _)

theorem alike_rawHtmlFrame (h : Alike content content') :
    Alike (rawHtmlFrame s attrs content) (rawHtmlFrame s' attrs content') := by
  unfold rawHtmlFrame
  refine .ite (.bind_same fun _ => ?_) ?_
  -- whether the children are empty is seen in the template alone
  all_goals
    refine .bind_same fun _ => .bind_same fun _ => .bind h fun _ _ => .of_nil ?_ ?_
    all_goals exact .ite (.pure _) (.pure _)

theorem stacks_any : Stacks (fun _ _ => True) fun _ _ => True := ⟨trivial, fun _ => trivial, fun _ _ => trivial⟩

/-- Under any two tables a node finds alike, and so do its children as they stand in an else
facet. -/
structure FindsAlike (n : Node) : Prop where
  node : ∀ s s' handed, Alike (renderNode s handed n) (renderNode s' handed n)
  below : ∀ s s', Alike (renderAll s n.children) (renderAll s' n.children)

variable {nodes : List Node}

theorem alike_renderAll (ih : ∀ n ∈ nodes, FindsAlike n) :
    Alike (renderAll s nodes) (renderAll s' nodes) :=
  beside_renderAll s s' shows_getter stacks_any fun n hn => (ih n hn).node s s' []

theorem findsAlike (n : Node) : FindsAlike n := by
  induction n using Node.induction with
  | text content =>
    refine ⟨fun s s' handed => ?_, fun s s' => alike_renderAll s s' (by simp [Node.children])⟩
    rw [renderNode, renderNode]
    exact .bind_same fun _ => .pure _ _
  | element tag attrs nodes ih =>
    refine ⟨fun s s' handed => ?_, fun s s' => alike_renderAll s s' ih⟩
    rw [renderNode, renderNode]
    cases Directive.ofTag tag with
    | messageChannel => exact .refl _
    | recordData => exact .refl _
    | metadata => exact .pure _ _
    | conditional =>
      have hotherwise := beside_renderElse s.inner s'.inner shows_getter stacks_any
        fun n hn => (ih n hn).below _ _
      have hmain := beside_renderMain s.inner s'.inner shows_getter stacks_any
        fun n hn => (ih n hn).node _ _ []
      exact alike_conditionalFrame s s' attrs _ hotherwise hmain
    | iteration =>
      have hchildren := beside_renderIteration s.inner s'.inner shows_getter stacks_any
        attrs fun p hp => (ih p.2 (mem_of_mem_handedOut hp)).node _ _ p.1
      exact alike_iterationFrame s s' attrs hchildren
    | slot => exact alike_slotFrame s s' attrs (alike_renderAll _ _ ih)
    | rawHtml => exact alike_rawHtmlFrame s s' attrs (alike_renderAll _ _ ih)
    | text => exact alike_plainFrame s s' _ tag _ (alike_renderAll _ _ ih)
    | element => exact alike_plainFrame s s' _ tag _ (alike_renderAll _ _ ih)

end Render

/-- Up to what the tables have a part in, the log of a forest is the same under any two of them. -/
theorem Conversion.log_untabled (m₁ m₂ : Mapping) (nodes : List Node) :
    ∃ log₁ log₂, (ofNodes m₁ nodes).findings = ({} : Findings).extend log₁ ∧
      (ofNodes m₂ nodes).findings = ({} : Findings).extend log₂ ∧
      log₁.filterMap untabled? = log₂.filterMap untabled? := by
  have hnodes : ∀ n ∈ nodes, Render.FindsAlike n := fun n _ => Render.findsAlike n
  have h := Render.alike_renderAll ⟨m₁, .null, Template.step⟩ ⟨m₂, .null, Template.step⟩ hnodes
  exact ⟨_, _, findings_ofNodes m₁ nodes, findings_ofNodes m₂ nodes, (h 0).2⟩

/-- Under any two tables a forest gives the same getters, records and directives in use, facets
of the same names, and the same warnings apart from the checks of slots, all in one order. -/
theorem side_channels_ignore_tables (m₁ m₂ : Mapping) (nodes : List Node) (c₁ c₂ : Conversion)
    (h₁ : (Conversion.convert m₁ nodes).outcome = .ok c₁)
    (h₂ : (Conversion.convert m₂ nodes).outcome = .ok c₂) :
    c₁.findings.getters = c₂.findings.getters ∧
      c₁.findings.channels = c₂.findings.channels ∧
      c₁.findings.recordData = c₂.findings.recordData ∧
      c₁.findings.usedDirectives = c₂.findings.usedDirectives ∧
      c₁.findings.facets.map (·.slot) = c₂.findings.facets.map (·.slot) ∧
      c₁.findings.warnings.filter (!·.isSlotCheck) =
        c₂.findings.warnings.filter (!·.isSlotCheck) := by
  obtain rfl := Conversion.eq_ofNodes_of_convert h₁
  obtain rfl := Conversion.eq_ofNodes_of_convert h₂
  obtain ⟨log₁, log₂, hlog₁, hlog₂, hsame⟩ := Conversion.log_untabled m₁ m₂ nodes
  rw [hlog₁, hlog₂]
  have hread {γ : Type} {read : Finding → Option γ} (h : Shows untabled? read) :
      log₁.filterMap read = log₂.filterMap read := h.eq hsame
  have hchannels : log₁.filterMap channel? = log₂.filterMap channel? :=
    hread (shows_untabled (fun _ _ => rfl) (fun _ => rfl) (fun _ => rfl) fun _ => rfl)
  have hrecords : log₁.filterMap recordData? = log₂.filterMap recordData? :=
    hread (shows_untabled (fun _ _ => rfl) (fun _ => rfl) (fun _ => rfl) fun _ => rfl)
  have hdirectives : log₁.filterMap directive? = log₂.filterMap directive? :=
    hread (shows_untabled (fun _ _ => rfl) (fun _ => rfl) (fun _ => rfl) fun _ => rfl)
  have hslots : log₁.filterMap slotName? = log₂.filterMap slotName? :=
    hread (shows_untabled (fun _ _ => rfl) (fun _ => rfl) (fun _ => rfl) fun _ => rfl)
  have hwarnings := hread shows_otherWarning
  refine ⟨?_, ?_, ?_, ?_, ?_, ?_⟩
  · simp only [Findings.extend, hread shows_getter]
  · simp only [Findings.extend, hchannels]
  · simp only [Findings.extend, hrecords]
  · simp only [Findings.extend, hdirectives]
  · simp only [Findings.extend, List.nil_append, List.map_filterMap]
    exact hslots
  · simp only [Findings.extend, List.nil_append, List.filter_filterMap]
    exact hwarnings

/-- Tables that know cards by another name and with another slot, and nothing else. -/
def panelTables : Mapping where
  components := [("lightning:card".toList,
    { auraTag := "lightning:card".toList, target := .text "x-panel".toList,
      attributes := [(.text "title".toList, .text "heading".toList)] })]
  slots := [("x-panel".toList, ["body".toList])]

/-- A card with a facet that only the built-in tables know, around an iteration and a channel. -/
def tableSample : List Node :=
  let element (tag : String) (attrs : List (String × String)) (nodes : List Node) : Node :=
    .element tag.toList (attrs.map fun a => (a.1.toList, a.2.toList)) nodes
  [element "lightning:card" [("title", "{!v.a + 1} of {!v.b}")]
    [element "aura:set" [("attribute", "footer")]
      [element "aura:iteration" [("items", "{!v.rows}")] [element "ui:button" [] []],
        element "lightning:messageChannel" [("type", "c__Ping")] []],
      element "force:recordData" [("fields", "Name, Phone")] []]]

theorem side_channels_ignore_tables_panel :
    ∃ c₁ c₂, (Conversion.convert .builtIn tableSample).outcome = .ok c₁ ∧
      (Conversion.convert panelTables tableSample).outcome = .ok c₂ ∧
      c₁.findings.getters = c₂.findings.getters ∧
      c₁.findings.channels = c₂.findings.channels ∧
      c₁.findings.recordData = c₂.findings.recordData ∧
      c₁.findings.usedDirectives = c₂.findings.usedDirectives ∧
      c₁.findings.facets.map (·.slot) = c₂.findings.facets.map (·.slot) ∧
      c₁.findings.warnings.filter (!·.isSlotCheck) =
        c₂.findings.warnings.filter (!·.isSlotCheck) ∧
      c₁.findings.warnings ≠ c₂.findings.warnings := by
  have h₁ : (Conversion.convert .builtIn tableSample).outcome = .ok (.ofNodes .builtIn tableSample) :=
    Conversion.convert_ok (by decide +kernel)
  have h₂ : (Conversion.convert panelTables tableSample).outcome = .ok (.ofNodes panelTables tableSample) :=
    Conversion.convert_ok (by decide +kernel)
  have hchecked : (Conversion.ofNodes .builtIn tableSample).findings.warnings ≠
      (Conversion.ofNodes panelTables tableSample).findings.warnings := by decide +kernel
  obtain ⟨hg, hc, hr, hd, hf, hw⟩ := side_channels_ignore_tables _ _ tableSample _ _ h₁ h₂
  exact ⟨_, _, h₁, h₂, hg, hc, hr, hd, hf, hw, hchecked⟩

end LightningTemplate
