import LightningTemplate.Mapping.BuiltIn
import LightningTemplate.Proofs.Siblings
import LightningTemplate.Proofs.Writer

/-! Nodes that leave no trace in the markup.  A node that stands for a record or a declaration
gives no text, so one more of them among any children changes nothing that is written; all
that it adds is its own findings, at one place of the log.  Frames pass this on as long as the
children they look at were solid before. -/
namespace LightningTemplate

namespace Walk
variable {α β : Type} {extra : List Finding} {v w : Walk α}

/-- The second walk gives the same and finds the same, and at one place it finds more. -/
def Gains (extra : List Finding) (v w : Walk α) : Prop :=
  ∀ n, (w.run n).1 = (v.run n).1 ∧
    ∃ before after, (v.run n).2 = before ++ after ∧ (w.run n).2 = before ++ (extra ++ after)

namespace Gains

/-- What follows starts alike, since what was found in addition hoists nothing. -/
theorem bind_left (hextra : Finding.getterCount extra = 0) (h : Gains extra v w) (f : α → Walk β) :
    Gains extra (v >>= f) (w >>= f) := by
  intro n
  obtain ⟨hresult, before, after, hv, hw⟩ := h n
  have hcount : Finding.getterCount (w.run n).2 = Finding.getterCount (v.run n).2 := by
    simp [hv, hw, hextra]
  rw [run_bind, run_bind, hresult, hcount]
  refine ⟨rfl, before, after ++ ((f (v.run n).1).run (n + Finding.getterCount (v.run n).2)).2, ?_, ?_⟩
  · simp [hv]
  · simp [hw]

theorem bind_right {f g : α → Walk β} (h : ∀ a, Gains extra (f a) (g a)) (v : Walk α) :
    Gains extra (v >>= f) (v >>= g) := by
  intro n
  obtain ⟨hresult, before, after, hf, hg⟩ := h (v.run n).1 (n + Finding.getterCount (v.run n).2)
  rw [run_bind, run_bind, hresult]
  refine ⟨rfl, (v.run n).2 ++ before, after, ?_, ?_⟩
  · simp [hf]
  · simp [hg]

theorem ite {c : Prop} [Decidable c] {v' w' : Walk α} (h : Gains extra v w) (h' : Gains extra v' w') :
    Gains extra (if c then v else v') (if c then w else w') := by
  by_cases hc : c
  · rwa [if_pos hc, if_pos hc]
  · rwa [if_neg hc, if_neg hc]

end Gains
end Walk

/-- Elements that are written in another way when they have no solid child. -/
def Directive.asksSolid : Directive → Bool
  | .element | .iteration => true
  | _ => false

namespace Node

def silentFindings (x : Node) : List Finding :=
  match x.directive with
  | .messageChannel =>
    let c := MessageChannel.ofAttributes x.attributes.trimmed
    [.channel c, .warning (.channel c.publisherOnly)]
  | .recordData => [.recordData (.ofAttributes x.attributes.trimmed), .warning .recordData]
  | _ => []

theorem getterCount_silentFindings (x : Node) : Finding.getterCount x.silentFindings = 0 := by
  unfold silentFindings
  split <;> rfl

/-- The second forest has the node in addition, among the siblings or below one of them that is
not silent itself; siblings that have to hold a solid node held one before. -/
inductive Inserts (x : Node) : Bool → List Node → List Node → Prop
  | here {solid : Bool} (before after : List Node)
      (h : solid = true → (before ++ after).any isSolid = true) :
      Inserts x solid (before ++ after) (before ++ x :: after)
  | inside {solid : Bool} (before after : List Node) {tag : Text} {attrs : Attributes}
      {old new : List Node} (hrendered : (Directive.ofTag tag).isSilent = false)
      (h : Inserts x (Directive.ofTag tag).asksSolid old new) :
      Inserts x solid (before ++ .element tag attrs old :: after)
        (before ++ .element tag attrs new :: after)

theorem Inserts.solid_old {x : Node} {old new : List Node} (h : Inserts x true old new) :
    old.any isSolid = true := by
  cases h with
  | here before after hsolid => exact hsolid rfl
  | inside before after => simp [isSolid]

end Node

namespace Render
open Node Walk

variable {extra : List Finding}

theorem run_silent {x : Node} (hx : x.directive.isSilent = true) (s : Surroundings)
    (handed : Attributes) (n : Nat) : (renderNode s handed x).run n = ([], x.silentFindings) := by
  cases x with
  | text content => simp [directive, Directive.isSilent] at hx
  | element tag attrs nodes =>
    rw [renderNode, silentFindings]
    simp only [directive, attributes] at hx ⊢
    cases hd : Directive.ofTag tag with
    | messageChannel => rfl
    | recordData => rfl
    | metadata => rfl
    | _ => simp [hd, Directive.isSilent] at hx

/-- However the walk takes the siblings, they give the same and find more; what the frame
around them asks about them is answered alike, except that the new ones are solid. -/
structure GainsIn (extra : List Finding) (old new : List Node) : Prop where
  all : ∀ s, Gains extra (renderAll s old) (renderAll s new)
  keyed : ∀ s key, Gains extra (renderKeyed s key old) (renderKeyed s key new)
  branches : (∀ s, Gains extra (renderMain s old) (renderMain s new)) ∧
      (∀ s, renderElse s new = renderElse s old) ∨
    (∀ s, renderMain s new = renderMain s old) ∧
      ∀ s, Gains extra (renderElse s old) (renderElse s new)
  hasElse : new.any isOtherBranch = old.any isOtherBranch
  needsKey : needsKey new = needsKey old
  plain : new.any isPlain = old.any isPlain
  solid : new.any isSolid = true

theorem needsKey_cons (n : Node) (ns : List Node) :
    needsKey (n :: ns) = if n.isPlain then !n.attributes.has keyName else needsKey ns := by
  simp only [needsKey, List.find?_cons]
  cases n.isPlain <;> rfl

theorem GainsIn.cons (hextra : Finding.getterCount extra = 0) {old new : List Node}
    (h : GainsIn extra old new) (n : Node) : GainsIn extra (n :: old) (n :: new) where
  all s := by
    rw [renderAll, renderAll]
    exact .bind_right (fun first => .bind_left hextra (h.all s) _) _
  keyed s key := by
    rw [renderKeyed, renderKeyed]
    refine .bind_right (fun first => ?_) _
    exact .ite (.bind_left hextra (h.all s) _) (.bind_left hextra (h.keyed s key) _)
  branches := by
    rcases h.branches with ⟨hmain, helse⟩ | ⟨hmain, helse⟩
    · refine .inl ⟨fun s => ?_, fun s => ?_⟩
      · rw [renderMain, renderMain]
        exact .ite (hmain s) (.bind_right (fun first => .bind_left hextra (hmain s) _) _)
      · rw [renderElse_cons, renderElse_cons, helse]
    · refine .inr ⟨fun s => ?_, fun s => ?_⟩
      · rw [renderMain, renderMain, hmain]
      · rw [renderElse_cons, renderElse_cons]
        exact .ite (.bind_right (fun first => .bind_left hextra (helse s) _) _) (helse s)
  hasElse := by rw [List.any_cons, List.any_cons, h.hasElse]
  needsKey := by rw [needsKey_cons, needsKey_cons, h.needsKey]
  plain := by rw [List.any_cons, List.any_cons, h.plain]
  solid := by rw [List.any_cons, h.solid, Bool.or_true]

theorem GainsIn.append (hextra : Finding.getterCount extra = 0) {old new : List Node}
    (h : GainsIn extra old new) (before : List Node) :
    GainsIn extra (before ++ old) (before ++ new) := by
  induction before with
  | nil => exact h
  | cons n before ih => exact ih.cons hextra n

theorem gainsIn_silent {x : Node} (hx : x.directive.isSilent = true) (after : List Node) :
    GainsIn x.silentFindings after (x :: after) := by
  have hother : x.isOtherBranch = false := by
    rw [← Bool.not_eq_true]
    intro h
    simp [directive_of_isOtherBranch h, Directive.isSilent] at hx
  have hplain : x.isPlain = false := by
    rw [← Bool.not_eq_true, isPlain, beq_iff_eq]
    intro h
    simp [h, Directive.isSilent] at hx
  have hsolid : x.isSolid = true := by
    cases x with
    | text content => simp [directive, Directive.isSilent] at hx
    | element tag attrs nodes => rfl
  have hfirst (s : Surroundings) (rest : Walk Text) : Gains x.silentFindings rest (do
      let first ← renderNode s [] x
      return line first ++ (← rest)) := by
    intro n
    have hcount : Finding.getterCount x.silentFindings = 0 := getterCount_silentFindings x
    simp only [run_bind, run_silent hx, hcount, Nat.add_zero]
    exact ⟨rfl, [], (rest.run n).2, rfl, by simp⟩
  refine ⟨fun s => ?_, fun s key => ?_, .inl ⟨fun s => ?_, fun s => ?_⟩, ?_, ?_, ?_, ?_⟩
  · rw [renderAll]
    exact hfirst s _
  · rw [renderKeyed, hplain]
    exact hfirst s _
  · rw [renderMain, hother]
    exact hfirst s _
  · rw [renderElse_cons, hother]
    rfl
  · rw [List.any_cons, hother, Bool.false_or]
  · rw [needsKey_cons, hplain]
    rfl
  · rw [List.any_cons, hplain, Bool.false_or]
  · rw [List.any_cons, hsolid, Bool.true_or]

variable {old new : List Node}

theorem gains_conditional (hextra : Finding.getterCount extra = 0) (h : GainsIn extra old new)
    (s : Surroundings) (attrs : Attributes) :
    Gains extra
      (conditionalFrame s attrs (old.any isOtherBranch) (renderElse s.inner old) (renderMain s.inner old))
      (conditionalFrame s attrs (new.any isOtherBranch) (renderElse s.inner new)
        (renderMain s.inner new)) := by
  rw [h.hasElse]
  refine .bind_right (fun guard => ?_) _
  rcases h.branches with ⟨hmain, helse⟩ | ⟨hmain, helse⟩
  · rw [helse]
    exact .bind_right (fun elseText => .bind_left hextra (hmain _) _) _
  · rw [hmain]
    exact .bind_left hextra (helse _) _

theorem gains_iteration (hextra : Finding.getterCount extra = 0) (h : GainsIn extra old new)
    (hsolid : old.any isSolid = true) (s : Surroundings) (attrs : Attributes) :
    Gains extra (iterationFrame s attrs (renderIteration s.inner (itemVariable attrs) old))
      (iterationFrame s attrs (renderIteration s.inner (itemVariable attrs) new)) := by
  have hkeys : keyWarnings (itemVariable attrs) new = keyWarnings (itemVariable attrs) old := by
    rw [keyWarnings, keyWarnings, h.needsKey, h.plain, h.solid, hsolid]
  have hcontent : Gains extra (renderIteration s.inner (itemVariable attrs) old)
      (renderIteration s.inner (itemVariable attrs) new) := by
    rw [renderIteration, renderIteration, hkeys, h.needsKey]
    exact .bind_right (fun _ => .ite (h.keyed _ _) (h.all _)) _
  unfold iterationFrame
  refine .ite (.bind_right (fun _ => ?_) _) ?_
  all_goals
    exact .bind_right (fun collection => .bind_right (fun _ => .bind_left hextra hcontent _) _) _

theorem gains_rawHtml (hextra : Finding.getterCount extra = 0) {content content' : Walk Text}
    (h : Gains extra content content') (s : Surroundings) (attrs : Attributes) :
    Gains extra (rawHtmlFrame s attrs content) (rawHtmlFrame s attrs content') := by
  unfold rawHtmlFrame
  refine .ite (.bind_right (fun _ => ?_) _) ?_
  all_goals
    exact .bind_right (fun body => .bind_right (fun _ => .bind_left hextra h _) _) _

theorem gains_element (hextra : Finding.getterCount extra = 0) {tag : Text} {attrs : Attributes}
    (hrendered : (Directive.ofTag tag).isSilent = false) (h : GainsIn extra old new)
    (hsolid : (Directive.ofTag tag).asksSolid = true → old.any isSolid = true)
    (s : Surroundings) (handed : Attributes) :
    Gains extra (renderNode s handed (.element tag attrs old))
      (renderNode s handed (.element tag attrs new)) := by
  have htext := Directive.ofTag_ne_text tag
  rw [renderNode, renderNode]
  cases hd : Directive.ofTag tag with
  | messageChannel => simp [hd, Directive.isSilent] at hrendered
  | recordData => simp [hd, Directive.isSilent] at hrendered
  | metadata => simp [hd, Directive.isSilent] at hrendered
  | text => exact absurd hd htext
  | conditional => exact gains_conditional hextra h s attrs
  | iteration => exact gains_iteration hextra h (hsolid (by rw [hd]; rfl)) s attrs
  | slot => exact .bind_left hextra (h.all _) _
  | rawHtml => exact gains_rawHtml hextra (h.all _) s attrs
  | element =>
    rw [hsolid (by rw [hd]; rfl), h.solid]
    exact .bind_right (fun _ => .bind_right (fun pairs => .bind_left hextra (h.all _) _) _) _

theorem gainsIn_element (hextra : Finding.getterCount extra = 0) {tag : Text} {attrs : Attributes}
    (hrendered : (Directive.ofTag tag).isSilent = false) (h : GainsIn extra old new)
    (hsolid : (Directive.ofTag tag).asksSolid = true → old.any isSolid = true) (after : List Node) :
    GainsIn extra (.element tag attrs old :: after) (.element tag attrs new :: after) := by
  have hnode (s : Surroundings) (handed : Attributes) : Gains extra
      (renderNode s handed (.element tag attrs old)) (renderNode s handed (.element tag attrs new)) :=
    gains_element hextra hrendered h hsolid s handed
  have hother : isOtherBranch (.element tag attrs new) = isOtherBranch (.element tag attrs old) := rfl
  have hplain : isPlain (.element tag attrs new) = isPlain (.element tag attrs old) := rfl
  refine ⟨fun s => ?_, fun s key => ?_, ?_, ?_, ?_, ?_, ?_⟩
  · rw [renderAll, renderAll]
    exact .bind_left hextra (hnode s []) _
  · rw [renderKeyed, renderKeyed, hplain]
    exact .bind_left hextra (hnode s _) _
  · cases hbranch : isOtherBranch (.element tag attrs old) with
    | true =>
      refine .inr ⟨fun s => ?_, fun s => ?_⟩
      · rw [renderMain, renderMain, hother, hbranch]
        rfl
      · rw [renderElse_cons, renderElse_cons, hother, hbranch]
        exact .bind_left hextra (h.all s) _
    | false =>
      refine .inl ⟨fun s => ?_, fun s => ?_⟩
      · rw [renderMain, renderMain, hother, hbranch]
        exact .bind_left hextra (hnode s []) _
      · rw [renderElse_cons, renderElse_cons, hother, hbranch]
        rfl
  · rw [List.any_cons, List.any_cons, hother]
  · rw [needsKey_cons, needsKey_cons, hplain]
    rfl
  · rw [List.any_cons, List.any_cons, hplain]
  · rw [List.any_cons, isSolid, Bool.true_or]

theorem gainsIn_of_inserts {x : Node} (hx : x.directive.isSilent = true) {solid : Bool}
    (h : Inserts x solid old new) : GainsIn x.silentFindings old new := by
  have hextra := getterCount_silentFindings x
  induction h with
  | here before after => exact (gainsIn_silent hx after).append hextra before
  | inside before after hrendered hinside ih =>
    refine (gainsIn_element hextra hrendered ih (fun hasks => ?_) after).append hextra before
    rw [hasks] at hinside
    exact hinside.solid_old

end Render

/-- The second list has the entry in addition, somewhere between the others. -/
def OneMore {α : Type} (a : α) (old new : List α) : Prop :=
  ∃ before after, old = before ++ after ∧ new = before ++ a :: after

/-- What a silent node adds: a channel or a record gets an entry and a warning of its own. -/
def Findings.Gain (x : Node) (old new : Findings) : Prop :=
  match x.directive with
  | .messageChannel =>
    let c := MessageChannel.ofAttributes x.attributes.trimmed
    OneMore c old.channels new.channels ∧ OneMore (.channel c.publisherOnly) old.warnings new.warnings ∧
      new.recordData = old.recordData
  | .recordData =>
    OneMore (.ofAttributes x.attributes.trimmed) old.recordData new.recordData ∧
      OneMore .recordData old.warnings new.warnings ∧ new.channels = old.channels
  | _ => new.channels = old.channels ∧ new.recordData = old.recordData ∧ new.warnings = old.warnings

/-- Findings that agree in what stands in the template or is needed by it. -/
structure Findings.SameMarkup (old new : Findings) : Prop where
  usedDirectives : new.usedDirectives = old.usedDirectives
  usedComponents : new.usedComponents = old.usedComponents
  facets : new.facets = old.facets
  getters : new.getters = old.getters

namespace Findings
open Finding

variable (x : Node) (before after : List Finding)

theorem filterMap_gained {α : Type} {read : Finding → Option α}
    (h : x.silentFindings.filterMap read = []) :
    (before ++ (x.silentFindings ++ after)).filterMap read = (before ++ after).filterMap read := by
  simp only [List.filterMap_append, h, List.nil_append]

theorem oneMore_filterMap {α : Type} {read : Finding → Option α} {a : α}
    (h : x.silentFindings.filterMap read = [a]) :
    OneMore a ((before ++ after).filterMap read)
      ((before ++ (x.silentFindings ++ after)).filterMap read) := by
  refine ⟨before.filterMap read, after.filterMap read, List.filterMap_append, ?_⟩
  simp only [List.filterMap_append, h, List.singleton_append]

/-- Silent findings name no directive and no component, and are neither facets nor getters. -/
theorem sameMarkup_extend : SameMarkup (({} : Findings).extend (before ++ after))
    (({} : Findings).extend (before ++ (x.silentFindings ++ after))) := by
  have hnone {α : Type} {read : Finding → Option α} (hchannel : ∀ c, read (.channel c) = none)
      (hrecord : ∀ r, read (.recordData r) = none) (hwarning : ∀ w, read (.warning w) = none) :
      x.silentFindings.filterMap read = [] := by
    unfold Node.silentFindings
    split <;> simp [hchannel, hrecord, hwarning]
  have hsame {α : Type} (read : Finding → Option α) (hchannel : ∀ c, read (.channel c) = none)
      (hrecord : ∀ r, read (.recordData r) = none) (hwarning : ∀ w, read (.warning w) = none) :=
    filterMap_gained x before after (hnone hchannel hrecord hwarning)
  constructor
  · simp only [extend, hsame directive? (fun _ => rfl) (fun _ => rfl) fun _ => rfl]
  · simp only [extend, hsame component? (fun _ => rfl) (fun _ => rfl) fun _ => rfl]
  · simp only [extend, hsame facet? (fun _ => rfl) (fun _ => rfl) fun _ => rfl]
  · simp only [extend, hsame getter? (fun _ => rfl) (fun _ => rfl) fun _ => rfl]

theorem gain_extend : Gain x (({} : Findings).extend (before ++ after))
    (({} : Findings).extend (before ++ (x.silentFindings ++ after))) := by
  have hmore {α : Type} {read : Finding → Option α} {a : α}
      (h : x.silentFindings.filterMap read = [a]) := oneMore_filterMap x before after h
  have hsame {α : Type} {read : Finding → Option α} (h : x.silentFindings.filterMap read = []) :=
    filterMap_gained x before after h
  unfold Gain
  split
  · rename_i hd
    refine ⟨hmore ?_, hmore ?_, hsame ?_⟩
    all_goals simp [Node.silentFindings, hd, List.filterMap_cons]
  · rename_i hd
    refine ⟨hmore ?_, hmore ?_, hsame ?_⟩
    all_goals simp [Node.silentFindings, hd, List.filterMap_cons]
  · rename_i hchannel hrecord
    have hnil : x.silentFindings = [] := by
      unfold Node.silentFindings
      split
      · exact absurd ‹_› hchannel
      · exact absurd ‹_› hrecord
      · rfl
    rw [hnil, List.nil_append]
    exact ⟨rfl, rfl, rfl⟩

end Findings

/-- A message channel, a record or a declaration more, among the nodes of the body or below one
that is rendered, leaves the template, the names in use, the facets and the getters as they
were; what it adds is an entry and a warning, and a declaration adds nothing.  A conversion
that failed fails in the same way. -/
theorem silent_nodes_leave_no_trace (m : Mapping) {x : Node} (hx : x.directive.isSilent = true)
    {old new : List Node} (h : Node.Inserts x false old new) :
    match (Conversion.convert m old).outcome with
    | .ok c => ∃ c', (Conversion.convert m new).outcome = .ok c' ∧ c'.template = c.template ∧
        c.findings.SameMarkup c'.findings ∧ c.findings.Gain x c'.findings
    | .error e => (Conversion.convert m new).outcome = .error e := by
  obtain ⟨hbody, before, after, hold, hnew⟩ :=
    (Render.gainsIn_of_inserts hx h).all ⟨m, .null, Template.step⟩ 0
  have htemplate : (Conversion.ofNodes m new).template = (Conversion.ofNodes m old).template := by
    rw [Conversion.template_ofNodes, Conversion.template_ofNodes, hbody]
  have hfold : (Conversion.ofNodes m old).findings = ({} : Findings).extend (before ++ after) := by
    rw [← hold, Conversion.findings_ofNodes]
  have hfnew : (Conversion.ofNodes m new).findings =
      ({} : Findings).extend (before ++ (x.silentFindings ++ after)) := by
    rw [← hnew, Conversion.findings_ofNodes]
  have hmarkup := Findings.sameMarkup_extend x before after
  have hgain := Findings.gain_extend x before after
  rw [← hfold, ← hfnew] at hmarkup hgain
  rw [Conversion.outcome_convert, Conversion.outcome_convert, hmarkup.usedComponents]
  cases componentNames 0 (Conversion.ofNodes m old).findings.usedComponents with
  | error e => rfl
  | ok names => exact ⟨_, rfl, htemplate, hmarkup, hgain⟩

/-- A message channel with a handler. -/
def listener : Node :=
  .element "lightning:messageChannel".toList
    [("type".toList, "c__Ping".toList), ("onMessage".toList, "{!c.hear}".toList)] [.text "x".toList]

def rowsFacet (rows : List Node) : Node :=
  .element "aura:set".toList [("attribute".toList, "else".toList)]
    [.element "aura:iteration".toList [("items".toList, "{!v.rows}".toList)] rows]

def rowsSample (rows : List Node) : List Node :=
  [.element "aura:if".toList [("isTrue".toList, "{!v.a + 1}".toList)]
    [.text "many".toList, rowsFacet rows]]

def rowSample : Node := .element "li".toList [] [.text "{!v.b * 2}".toList]

/-- The channel stands in front of the row that takes over the key. -/
theorem inserts_listener :
    Node.Inserts listener false (rowsSample [rowSample]) (rowsSample [listener, rowSample]) := by
  have hrows : Node.Inserts listener (Directive.ofTag "aura:iteration".toList).asksSolid [rowSample]
      [listener, rowSample] := .here [] [rowSample] fun _ => rfl
  have hfacet : Node.Inserts listener (Directive.ofTag "aura:set".toList).asksSolid
      (rowsFacet [rowSample]).children (rowsFacet [listener, rowSample]).children :=
    .inside [] [] (by decide +kernel) hrows
  have hbranches : Node.Inserts listener (Directive.ofTag "aura:if".toList).asksSolid
      [.text "many".toList, rowsFacet [rowSample]] [.text "many".toList, rowsFacet [listener, rowSample]] :=
    .inside [.text "many".toList] [] (by decide +kernel) hfacet
  exact .inside [] [] (by decide +kernel) hbranches

theorem silent_nodes_leave_no_trace_listener :
    listener.directive.isSilent = true ∧
      Node.Inserts listener false (rowsSample [rowSample]) (rowsSample [listener, rowSample]) ∧
      ∃ c c', (Conversion.convert .builtIn (rowsSample [rowSample])).outcome = .ok c ∧
        (Conversion.convert .builtIn (rowsSample [listener, rowSample])).outcome = .ok c' ∧
        c'.template = c.template ∧ c.findings.SameMarkup c'.findings ∧
        c.findings.Gain listener c'.findings := by
  have hx : listener.directive.isSilent = true := by decide +kernel
  have hold : (Conversion.convert .builtIn (rowsSample [rowSample])).outcome =
      .ok (.ofNodes .builtIn (rowsSample [rowSample])) := Conversion.convert_ok (by decide +kernel)
  have htrace := silent_nodes_leave_no_trace .builtIn hx inserts_listener
  rw [hold] at htrace
  obtain ⟨c', hnew, htrace⟩ := htrace
  exact ⟨hx, inserts_listener, _, c', hold, hnew, htrace⟩

end LightningTemplate
