import Mathlib.Data.Set.List
import LightningTemplate.Proofs.RoundTrip
import LightningTemplate.Proofs.Siblings
import LightningTemplate.Proofs.Writer

/-! The directives and components that a template makes use of.  Each element that is not below
a silent one notes its own uses, a conditional after its branches and the others before their
children; the lists of a conversion hold every name noted once, at its first place. -/
namespace LightningTemplate
open Text Walk Node

inductive Use
  | directive (name : Text)
  | component (target : Value)

namespace Use

def directive? : Use → Option Text
  | .directive d => some d
  | .component _ => none

def component? : Use → Option Value
  | .directive _ => none
  | .component v => some v

theorem directive?_eq_some {u : Use} {d : Text} : u.directive? = some d ↔ u = .directive d := by
  cases u <;> simp [directive?]

theorem component?_eq_some {u : Use} {v : Value} : u.component? = some v ↔ u = .component v := by
  cases u <;> simp [component?]

end Use

namespace Finding

def use? : Finding → Option Use
  | .directive d => some (.directive d)
  | .component v => some (.component v)
  | _ => none

theorem directives_of_uses (log : List Finding) :
    (log.filterMap use?).filterMap Use.directive? = log.filterMap directive? := by
  rw [List.filterMap_filterMap]
  congr 1
  funext f
  cases f <;> rfl

theorem components_of_uses (log : List Finding) :
    (log.filterMap use?).filterMap Use.component? = log.filterMap component? := by
  rw [List.filterMap_filterMap]
  congr 1
  funext f
  cases f <;> rfl

end Finding

def forEachName : Text := "for:each".toList

def ifName : Text := "lwc:if".toList

def elseName : Text := "lwc:else".toList

namespace Node

def hasCondition (attrs : Attributes) : Bool :=
  !isAllBlank (attrs.get "isTrue".toList) || !isAllBlank (attrs.get "isFalse".toList)

/-- A conditional that is written with a guard. -/
def isGuarded (n : Node) : Bool := n.directive == .conditional && hasCondition n.attributes

def conditionUses (attrs : Attributes) (hasElse : Bool) : List Use :=
  if hasCondition attrs then
    .directive ifName :: if hasElse then [.directive elseName] else []
  else []

/-- The component that a plain element is written as, if it is not called by its tag. -/
def tagUses (m : Mapping) (tag : Text) : List Use :=
  if (m.templateTag tag).same (.text tag) then [] else [.component (m.templateTag tag)]

def ownUses (m : Mapping) : Node → List Use
  | .text _ => []
  | .element tag attrs nodes =>
    match Directive.ofTag tag with
    | .conditional => conditionUses attrs (nodes.any isOtherBranch)
    | .iteration => [.directive forEachName]
    | .text | .element => tagUses m tag
    | .messageChannel | .recordData | .metadata | .slot | .rawHtml => []

mutual
/-- The elements of a tree that are not below a silent one, in the order in which they note
their uses. -/
def noted : Node → List Node
  | .text _ => []
  | .element tag attrs nodes =>
    if (Directive.ofTag tag).isSilent then [.element tag attrs nodes]
    else if Directive.ofTag tag = .conditional then
      notedIn isOtherBranch nodes ++ notedIn (!·.isOtherBranch) nodes ++ [.element tag attrs nodes]
    else .element tag attrs nodes :: notedIn (fun _ => true) nodes

def notedIn (chosen : Node → Bool) : List Node → List Node
  | [] => []
  | n :: ns => (if chosen n then noted n else []) ++ notedIn chosen ns
end

theorem notedIn_eq (chosen : Node → Bool) (ns : List Node) :
    notedIn chosen ns = (ns.filter chosen).flatMap noted := by
  induction ns with
  | nil => rfl
  | cons n ns ih =>
    rw [notedIn, List.filter_cons, ih]
    split
    · rw [List.flatMap_cons]
    · rw [List.nil_append]

theorem notedIn_split (chosen : Node → Bool) (ns : List Node) :
    (notedIn chosen ns ++ notedIn (!chosen ·) ns).Perm (notedIn (fun _ => true) ns) := by
  rw [notedIn_eq, notedIn_eq, notedIn_eq, List.filter_true, ← List.flatMap_append]
  exact (List.filter_append_perm chosen ns).flatMap_right noted

theorem notedIn_perm {ns : List Node} (ih : ∀ n ∈ ns, (noted n).Perm (renderedElements n)) :
    (notedIn (fun _ => true) ns).Perm (renderedElementsIn ns) := by
  induction ns with
  | nil => simp [notedIn, renderedElementsIn]
  | cons n ns hns =>
    rw [notedIn, renderedElementsIn, if_pos rfl]
    exact (ih n (by simp)).append (hns fun k hk => ih k (by simp [hk]))

/-- Every element that is not below a silent one notes its uses once. -/
theorem noted_perm (n : Node) : (noted n).Perm (renderedElements n) := by
  induction n using Node.induction with
  | text content => simp [noted, renderedElements]
  | element tag attrs nodes ih =>
    have hall := notedIn_perm ih
    rw [noted, renderedElements]
    by_cases hsilent : (Directive.ofTag tag).isSilent = true
    · rw [if_pos hsilent, if_pos hsilent]
    rw [if_neg hsilent, if_neg hsilent]
    by_cases hc : Directive.ofTag tag = .conditional
    · rw [if_pos hc]
      exact List.perm_append_comm.trans (((notedIn_split isOtherBranch nodes).trans hall).cons _)
    · rw [if_neg hc]
      exact hall.cons _

theorem mem_component_ownUses {m : Mapping} {n : Node} {v : Value} :
    .component v ∈ ownUses m n ↔
      ∃ tag, n.tag? = some tag ∧ n.isPlain = true ∧ m.templateTag tag = v ∧
        v.same (.text tag) = false := by
  cases n with
  | text content => simp [ownUses, tag?]
  | element tag attrs nodes =>
    have htag : .component v ∈ tagUses m tag ↔
        m.templateTag tag = v ∧ v.same (.text tag) = false := by
      unfold tagUses
      by_cases h : (m.templateTag tag).same (.text tag) = true
      · simp only [h, ite_true, List.not_mem_nil, false_iff, not_and, Bool.not_eq_false]
        rintro rfl
        exact h
      · simp only [h, Bool.false_eq_true, ite_false, List.mem_singleton, Use.component.injEq]
        constructor
        · rintro rfl
          exact ⟨rfl, by simpa using h⟩
        · exact fun hv => hv.1.symm
    have htext := Directive.ofTag_ne_text tag
    cases hd : Directive.ofTag tag <;>
      simp_all [ownUses, tag?, isPlain, directive, conditionUses]

theorem mem_directive_ownUses {m : Mapping} {n : Node} {d : Text} :
    .directive d ∈ ownUses m n ↔
      (d = forEachName ∧ n.directive = .iteration) ∨ (d = ifName ∧ n.isGuarded = true) ∨
        (d = elseName ∧ n.isGuarded = true ∧ n.children.any isOtherBranch = true) := by
  cases n with
  | text content => simp [ownUses, directive, isGuarded]
  | element tag attrs nodes =>
    have hcondition : ∀ hasElse, .directive d ∈ conditionUses attrs hasElse ↔
        (d = ifName ∧ hasCondition attrs = true) ∨
          (d = elseName ∧ hasCondition attrs = true ∧ hasElse = true) := by
      intro hasElse
      unfold conditionUses
      cases hasCondition attrs <;> cases hasElse <;> simp
    cases hd : Directive.ofTag tag <;>
      simp [ownUses, directive, isGuarded, hd, hcondition, attributes, children, tagUses]

end Node

theorem Walk.convert_uses (t : Text) : (convert t).Yields Finding.use? [] := by
  intro n
  simp [Finding.use?]

theorem Walk.warn_uses (w : Warning) : (warn w).Yields Finding.use? [] := .note rfl

namespace Render
variable {us vs : List Use}

theorem bindAttribute_uses (tag : Text) (entry : Option ComponentEntry) (a : Text × Text) :
    (bindAttribute tag entry a).Yields Finding.use? [] := by
  refine .ite (.pure _) ((convert_uses _).nil_bind fun value => ?_)
  exact .ite (.nil_bind (warn_uses _) fun _ => .pure _) (.pure _)

theorem bindAttributes_uses (tag : Text) (entry : Option ComponentEntry) (attrs : Attributes) :
    (bindAttributes tag entry attrs).Yields Finding.use? [] := by
  induction attrs with
  | nil => exact .pure _
  | cons a attrs ih =>
    exact (bindAttribute_uses tag entry a).nil_bind fun first => ih.bind_nil fun _ => .pure _

theorem tagFinding_uses (m : Mapping) (tag : Text) :
    (tagFinding tag (m.templateTag tag)).filterMap Finding.use? = tagUses m tag := by
  unfold tagFinding tagUses
  by_cases h : (m.templateTag tag).same (.text tag) = true
  · simp only [h, Bool.not_true, Bool.false_eq_true, ite_false, ite_true]
    split <;> rfl
  · simp only [h, Bool.false_eq_true, ite_false]
    rfl

theorem plainFrame_uses (s : Surroundings) (tag : Text) (attrs : Attributes) (solid : Bool)
    {content : Walk Text} (hc : content.Yields Finding.use? us) (hs : solid = false → us = []) :
    (plainFrame s tag attrs solid content).Yields Finding.use? (tagUses s.mapping tag ++ us) := by
  rw [← tagFinding_uses]
  refine (yields_noteAll _ _).bind fun _ => (bindAttributes_uses _ _ _).nil_bind fun converted => ?_
  cases solid with
  | true => exact hc.bind_nil fun _ => .pure _
  | false =>
    rw [hs rfl]
    exact .pure _

theorem guardOf_uses (attrs : Attributes) : (guardOf attrs).Yields Finding.use? [] := by
  refine .ite ((convert_uses _).bind_nil fun _ => .pure _) ?_
  exact .ite ((convert_uses _).bind_nil fun _ => .pure _) (.pure _)

theorem always_guardOf_isSome (attrs : Attributes) :
    (guardOf attrs).Always fun guard => guard.isSome = hasCondition attrs := by
  unfold guardOf hasCondition
  cases !isAllBlank (attrs.get "isTrue".toList) with
  | true => exact .bind_any fun _ => .pure rfl
  | false =>
    cases !isAllBlank (attrs.get "isFalse".toList) with
    | true => exact .bind_any fun _ => .pure rfl
    | false => exact .pure rfl

theorem conditionalFrame_uses (s : Surroundings) (attrs : Attributes) (hasElse : Bool)
    {otherwise main : Walk Text} (he : otherwise.Yields Finding.use? us)
    (hm : main.Yields Finding.use? vs) :
    (conditionalFrame s attrs hasElse otherwise main).Yields Finding.use?
      (us ++ vs ++ conditionUses attrs hasElse) := by
  refine (guardOf_uses attrs).nil_bind_of (always_guardOf_isSome attrs) fun guard hguard => ?_
  rw [List.append_assoc]
  refine he.bind fun elseText => hm.bind fun mainText => ?_
  unfold conditionUses
  rw [← hguard]
  cases guard with
  | none => exact .nil_bind (warn_uses _) fun _ => .pure _
  | some g =>
    have hnote (d : Text) : (note (.directive d)).Yields Finding.use? [.directive d] := fun _ => rfl
    cases hasElse with
    | true => exact (hnote _).bind fun _ => (hnote _).bind_nil fun _ => .pure _
    | false => exact (hnote _).bind_nil fun _ => .pure _

theorem iterationFrame_uses (s : Surroundings) (attrs : Attributes) {content : Walk Text}
    (hc : content.Yields Finding.use? us) :
    (iterationFrame s attrs content).Yields Finding.use? (.directive forEachName :: us) := by
  have hnote : (note (.directive "for:each".toList)).Yields Finding.use?
      [.directive forEachName] := fun _ => rfl
  refine .ite (.nil_bind (warn_uses _) fun _ => ?_) ?_
  all_goals
    refine (convert_uses _).nil_bind fun collection => hnote.bind fun _ => ?_
    exact hc.bind_nil fun body => .pure _

theorem slotFrame_uses (s : Surroundings) (attrs : Attributes) {content : Walk Text}
    (hc : content.Yields Finding.use? us) : (slotFrame s attrs content).Yields Finding.use? us := by
  refine hc.bind_nil fun body => .nil_bind (.note rfl) fun _ => ?_
  refine .ite (.nil_bind (warn_uses _) fun _ => .pure _) ?_
  exact .ite (.nil_bind (warn_uses _) fun _ => .pure _) (.pure _)

theorem rawHtmlFrame_uses (s : Surroundings) (attrs : Attributes) {content : Walk Text}
    (hc : content.Yields Finding.use? us) :
    (rawHtmlFrame s attrs content).Yields Finding.use? us := by
  refine .ite (.nil_bind (warn_uses _) fun _ => ?_) ?_
  all_goals
    refine (convert_uses _).nil_bind fun body => .nil_bind (warn_uses _) fun _ => ?_
    exact hc.bind_nil fun children => .ite (.pure _) (.pure _)

/-- A node finds what its elements note, and so do its children as they stand in an else facet. -/
structure Notes (n : Node) : Prop where
  node : ∀ s handed, (renderNode s handed n).Yields Finding.use?
    ((noted n).flatMap (ownUses s.mapping))
  below : ∀ s, (renderAll s n.children).Yields Finding.use?
    ((notedIn (fun _ => true) n.children).flatMap (ownUses s.mapping))

variable {ns : List Node}

theorem renderRows_notes (ih : ∀ n ∈ ns, Notes n) (s : Surroundings) (handed : Attributes) :
    (renderRows s (handedOut handed ns)).Yields Finding.use?
      ((notedIn (fun _ => true) ns).flatMap (ownUses s.mapping)) := by
  have hnoted : notedIn (fun _ => true) ns = ((handedOut handed ns).map (·.2)).flatMap noted := by
    rw [map_snd_handedOut, notedIn_eq, List.filter_true]
  rw [hnoted, List.flatMap_map, List.flatMap_assoc]
  exact yields_renderRows fun p hp => (ih p.2 (mem_of_mem_handedOut hp)).node s p.1

theorem renderAll_notes (ih : ∀ n ∈ ns, Notes n) (s : Surroundings) :
    (renderAll s ns).Yields Finding.use?
      ((notedIn (fun _ => true) ns).flatMap (ownUses s.mapping)) := by
  rw [renderAll_eq_rows]
  exact renderRows_notes ih s []

theorem renderMain_notes (ih : ∀ n ∈ ns, Notes n) (s : Surroundings) :
    (renderMain s ns).Yields Finding.use?
      ((notedIn (!·.isOtherBranch) ns).flatMap (ownUses s.mapping)) := by
  have hmain : ∀ n ∈ ns.filter (!·.isOtherBranch), Notes n := fun n hn =>
    ih n (List.mem_filter.1 hn).1
  have hall := renderAll_notes hmain s
  rw [notedIn_eq, List.filter_true] at hall
  rw [renderMain_eq, notedIn_eq]
  exact hall

theorem noted_slot {n : Node} (h : n.directive = .slot) (m : Mapping) :
    (noted n).flatMap (ownUses m) = (notedIn (fun _ => true) n.children).flatMap (ownUses m) := by
  cases n with
  | text content => simp [Node.directive] at h
  | element tag attrs nodes =>
    have hd : Directive.ofTag tag = .slot := h
    simp [noted, ownUses, hd, Directive.isSilent, Node.children]

theorem renderElse_notes (ih : ∀ n ∈ ns, Notes n) (s : Surroundings) :
    (renderElse s ns).Yields Finding.use?
      ((notedIn isOtherBranch ns).flatMap (ownUses s.mapping)) := by
  rw [renderElse_eq_joined, notedIn_eq, List.flatMap_assoc]
  refine .joined fun n hn => ?_
  obtain ⟨hmem, hother⟩ := List.mem_filter.1 hn
  rw [noted_slot (directive_of_isOtherBranch hother)]
  exact (ih n hmem).below s

theorem renderIteration_notes (ih : ∀ n ∈ ns, Notes n) (s : Surroundings) (attrs : Attributes) :
    (renderIteration s (itemVariable attrs) ns).Yields Finding.use?
      ((notedIn (fun _ => true) ns).flatMap (ownUses s.mapping)) := by
  rw [renderIteration_eq_rows]
  exact .nil_bind (yields_noteAll_nil (filterMap_keyWarnings (fun _ => rfl) _ _)) fun _ =>
    renderRows_notes ih s _

theorem notedIn_blank (h : ns.any isSolid = false) : notedIn (fun _ => true) ns = [] := by
  rw [notedIn_eq, List.filter_true, List.flatMap_eq_nil_iff]
  intro n hn
  obtain ⟨content, rfl, -⟩ := eq_text_of_not_solid h hn
  rw [noted]

/-- Every rendered element notes its own uses, and nothing else is noted. -/
theorem notes (n : Node) : Notes n := by
  induction n using Node.induction with
  | text content =>
    refine ⟨fun s handed => ?_, fun s => ?_⟩
    · simp only [renderNode, noted]
      exact (convert_uses _).bind_nil fun _ => .pure _
    · simpa [Node.children, renderAll, notedIn] using Yields.pure _
  | element tag attrs nodes ih =>
    refine ⟨fun s handed => ?_, renderAll_notes ih⟩
    have hall (s : Surroundings) := renderAll_notes ih s
    have hsolid : nodes.any isSolid = false →
        (notedIn (fun _ => true) nodes).flatMap (ownUses s.mapping) = [] := by
      intro h
      rw [notedIn_blank h, List.flatMap_nil]
    rw [renderNode, noted]
    cases hd : Directive.ofTag tag <;> simp only [Directive.isSilent, Bool.false_eq_true, ite_true,
      ite_false, reduceCtorEq, List.flatMap_append, List.flatMap_cons, List.flatMap_nil,
      List.append_nil, ownUses, hd]
    case messageChannel => exact .nil_bind (.note rfl) fun _ => .nil_bind (warn_uses _) fun _ => .pure _
    case recordData => exact .nil_bind (.note rfl) fun _ => .nil_bind (warn_uses _) fun _ => .pure _
    case metadata => exact .pure _
    case conditional =>
      exact conditionalFrame_uses _ _ _ (renderElse_notes ih _) (renderMain_notes ih _)
    case iteration => exact iterationFrame_uses _ _ (renderIteration_notes ih _ _)
    case slot => exact slotFrame_uses _ _ (hall _)
    case rawHtml => exact rawHtmlFrame_uses _ _ (hall _)
    case text => exact plainFrame_uses _ _ _ _ (hall _) hsolid
    case element => exact plainFrame_uses _ _ _ _ (hall _) hsolid

end Render

namespace Findings

theorem newNames_nil_held (names : List Text) : newNames (· == ·) [] names = names.eraseDups := by
  have hswap : (fun later first : Text => first == later) = fun later first => later == first := by
    funext later first
    exact Bool.beq_comm
  simp [newNames, hswap, List.eraseDups]

theorem newNames_texts (held names : List Text) :
    newNames Value.same (held.map .text) (names.map .text) =
      (newNames (· == ·) held names).map .text := by
  induction names generalizing held with
  | nil => rfl
  | cons t names ih =>
    have hheld : (held.map Value.text).any (·.same (.text t)) = held.any (· == t) := by
      simp only [List.any_map, Function.comp_def, Value.same]
    cases h : held.any (· == t) with
    | true =>
      rw [List.map_cons, newNames_cons_held (hheld.trans h), newNames_cons_held h, ih]
    | false =>
      have ih := ih (held ++ [t])
      rw [List.map_append, List.map_singleton] at ih
      rw [List.map_cons, newNames_cons_new (hheld.trans h), newNames_cons_new h, ih, List.map_cons]

end Findings

/-- The directive for the other branch stands after the one for the guard. -/
def IfFirst (names : List Text) : Prop :=
  ∀ before after, names = before ++ elseName :: after → ifName ∈ before

namespace IfFirst
variable {as bs names : List Text}

theorem of_notMem (h : elseName ∉ names) : IfFirst names := by
  rintro before after rfl
  simp at h

theorem ifName_cons (names : List Text) : IfFirst (ifName :: names) := by
  intro before after h
  cases before with
  | nil => exact absurd (List.cons.inj h).1 (by decide)
  | cons first before => exact (List.cons.inj h).1 ▸ List.mem_cons_self

theorem append (ha : IfFirst as) (hb : IfFirst bs) : IfFirst (as ++ bs) := by
  intro before after h
  rcases List.append_eq_append_iff.1 h with ⟨middle, rfl, hsplit⟩ | ⟨middle, has, hsplit⟩
  · exact List.mem_append_right _ (hb _ _ hsplit)
  · cases middle with
    | nil => exact absurd (hb [] after hsplit.symm) List.not_mem_nil
    | cons c middle =>
      obtain ⟨rfl, -⟩ := List.cons.inj hsplit
      exact ha _ _ has

theorem flatMap {α : Type} {f : α → List Text} (h : ∀ a, IfFirst (f a)) (l : List α) :
    IfFirst (l.flatMap f) := by
  induction l with
  | nil => exact of_notMem List.not_mem_nil
  | cons a l ih => exact (h a).append ih

/-- The order is kept when every name is kept at its first place. -/
theorem eraseDups (h : IfFirst names) (hmem : elseName ∈ names) :
    ∃ before after, names.eraseDups = before ++ elseName :: after ∧ ifName ∈ before := by
  obtain ⟨before, after, rfl, hfirst⟩ := List.eq_append_cons_of_mem hmem
  have hnew : (elseName :: after).removeAll before = elseName :: after.removeAll before := by
    simp [List.removeAll, hfirst]
  rw [List.eraseDups_append, hnew, List.eraseDups_cons]
  exact ⟨_, _, rfl, List.mem_eraseDups.2 (h before after rfl)⟩

end IfFirst

theorem Node.ifFirst_ownUses (m : Mapping) (n : Node) :
    IfFirst ((ownUses m n).filterMap Use.directive?) := by
  cases n with
  | text content => exact .of_notMem List.not_mem_nil
  | element tag attrs nodes =>
    have htag : (tagUses m tag).filterMap Use.directive? = [] := by
      unfold tagUses
      split <;> rfl
    cases hd : Directive.ofTag tag <;> simp only [ownUses, hd, htag]
    case conditional =>
      unfold conditionUses
      by_cases hcondition : hasCondition attrs = true
      · rw [if_pos hcondition]
        exact .ifName_cons _
      · rw [if_neg hcondition]
        exact .of_notMem List.not_mem_nil
    case iteration => exact .of_notMem (by decide)
    all_goals exact .of_notMem List.not_mem_nil

namespace Conversion

/-- What the elements of a body note, in the order in which they do. -/
def uses (m : Mapping) (nodes : List Node) : List Use :=
  (notedIn (fun _ => true) nodes).flatMap (ownUses m)

theorem mem_uses {m : Mapping} {nodes : List Node} {u : Use} :
    u ∈ uses m nodes ↔ ∃ e ∈ renderedElementsIn nodes, u ∈ ownUses m e := by
  have hperm : (notedIn (fun _ => true) nodes).Perm (renderedElementsIn nodes) :=
    notedIn_perm fun n _ => noted_perm n
  simp only [uses, List.mem_flatMap, hperm.mem_iff]

theorem usedDirectives_ofNodes (m : Mapping) (nodes : List Node) :
    (ofNodes m nodes).findings.usedDirectives =
      ((uses m nodes).filterMap Use.directive?).eraseDups := by
  have h := Render.renderAll_notes (fun n (_ : n ∈ nodes) => Render.notes n) ⟨m, .null, Template.step⟩ 0
  rw [findings_ofNodes, uses, ← h, Finding.directives_of_uses]
  exact Findings.newNames_nil_held _

theorem usedComponents_ofNodes (m : Mapping) (nodes : List Node) :
    (ofNodes m nodes).findings.usedComponents =
      Findings.newNames Value.same [] ((uses m nodes).filterMap Use.component?) := by
  have h := Render.renderAll_notes (fun n (_ : n ∈ nodes) => Render.notes n) ⟨m, .null, Template.step⟩ 0
  rw [findings_ofNodes, uses, ← h, Finding.components_of_uses]
  rfl

/-- The targets that are noted are those of rendered plain elements that are not called by them. -/
theorem mem_components_uses {m : Mapping} {nodes : List Node} {v : Value} :
    v ∈ (uses m nodes).filterMap Use.component? ↔
      ∃ e ∈ renderedElementsIn nodes, ∃ tag, e.tag? = some tag ∧ e.isPlain = true ∧
        m.templateTag tag = v ∧ v.same (.text tag) = false := by
  simp only [List.mem_filterMap, Use.component?_eq_some, exists_eq_right, mem_uses,
    mem_component_ownUses]

theorem mem_usedDirectives (m : Mapping) (nodes : List Node) (d : Text) :
    d ∈ (ofNodes m nodes).findings.usedDirectives ↔
      (d = forEachName ∧ ∃ e ∈ renderedElementsIn nodes, e.directive = .iteration) ∨
      (d = ifName ∧ ∃ e ∈ renderedElementsIn nodes, e.isGuarded = true) ∨
      (d = elseName ∧ ∃ e ∈ renderedElementsIn nodes, e.isGuarded = true ∧
        e.children.any isOtherBranch = true) := by
  simp only [usedDirectives_ofNodes, List.mem_eraseDups, List.mem_filterMap,
    Use.directive?_eq_some, exists_eq_right, mem_uses, mem_directive_ownUses, and_or_left,
    exists_or, and_left_comm, exists_and_left]

theorem ifFirst_uses (m : Mapping) (nodes : List Node) :
    IfFirst ((uses m nodes).filterMap Use.directive?) := by
  rw [uses, List.filterMap_flatMap]
  exact .flatMap (ifFirst_ownUses m) _

end Conversion

theorem Mapping.exists_templateTag {m : Mapping}
    (h : ∀ e ∈ m.components, e.2.target.isGiven = true → ∃ t, e.2.target = .text t) (tag : Text) :
    ∃ t, m.templateTag tag = .text t := by
  rcases m.templateTag_cases tag with ⟨e, he, hgiven, htarget⟩ | ⟨t, ht, -⟩
  · rw [htarget]
    exact h _ (mem_components he) hgiven
  · exact ⟨t, ht⟩

theorem Mapping.builtIn_texts :
    ∀ e ∈ builtIn.components, e.2.target.isGiven = true → ∃ t, e.2.target = .text t := by
  intro e he hgiven
  obtain ⟨t, ht, -⟩ := renamed_of_isTameTarget ((builtIn_targets e he).1 hgiven) []
  exact ⟨t, ht⟩

theorem Value.exists_texts {values : List Value} (h : ∀ v ∈ values, ∃ t, v = .text t) :
    ∃ ts : List Text, values = ts.map .text := by
  have hrange : values ∈ Set.range (List.map Value.text) := by
    rw [Set.range_list_map]
    intro v hv
    obtain ⟨t, rfl⟩ := h v hv
    exact ⟨t, rfl⟩
  obtain ⟨ts, hts⟩ := hrange
  exact ⟨ts, hts.symm⟩

/-- Under tables whose targets are texts, a conversion lists as components, once each, the
template tags of rendered plain elements that are not called by them; it lists as directives,
once each, those of rendered iterations and guarded conditionals, and the one for the other
branch after the one for the guard. -/
theorem names_in_use {m : Mapping}
    (h : ∀ e ∈ m.components, e.2.target.isGiven = true → ∃ t, e.2.target = .text t)
    (nodes : List Node) :
    ∃ (c : Conversion) (names : List Text), (Conversion.convert m nodes).outcome = .ok c ∧
      c.findings.usedComponents = names.map .text ∧ names.Nodup ∧
      (∀ t, t ∈ names ↔ ∃ e ∈ renderedElementsIn nodes, ∃ tag, e.tag? = some tag ∧
        e.isPlain = true ∧ m.templateTag tag = .text t ∧ t ≠ tag) ∧
      c.findings.usedDirectives.Nodup ∧
      (∀ d, d ∈ c.findings.usedDirectives ↔
        (d = forEachName ∧ ∃ e ∈ renderedElementsIn nodes, e.directive = .iteration) ∨
        (d = ifName ∧ ∃ e ∈ renderedElementsIn nodes, e.isGuarded = true) ∨
        (d = elseName ∧ ∃ e ∈ renderedElementsIn nodes, e.isGuarded = true ∧
          e.children.any isOtherBranch = true)) ∧
      (elseName ∈ c.findings.usedDirectives →
        ∃ before after, c.findings.usedDirectives = before ++ elseName :: after ∧
          ifName ∈ before) := by
  have htexts : ∀ v ∈ (Conversion.uses m nodes).filterMap Use.component?, ∃ t, v = .text t := by
    intro v hv
    obtain ⟨e, he, tag, htag, hplain, rfl, hsame⟩ := Conversion.mem_components_uses.1 hv
    exact Mapping.exists_templateTag h tag
  obtain ⟨noted, hnoted⟩ := Value.exists_texts htexts
  have hcomponents : (Conversion.ofNodes m nodes).findings.usedComponents =
      noted.eraseDups.map .text := by
    rw [Conversion.usedComponents_ofNodes, hnoted, ← Findings.newNames_nil_held]
    exact Findings.newNames_texts [] noted
  have hok : (componentNames 0 (Conversion.ofNodes m nodes).findings.usedComponents).isOk = true := by
    rw [hcomponents, componentNames_texts]
    rfl
  refine ⟨_, noted.eraseDups, Conversion.convert_ok hok, hcomponents, Keyed.nodup_eraseDups _,
    fun t => ?components, ?nodup, Conversion.mem_usedDirectives m nodes, fun helse => ?order⟩
  case components =>
    have hmem : t ∈ noted ↔ .text t ∈ noted.map Value.text := by simp
    rw [List.mem_eraseDups, hmem, ← hnoted, Conversion.mem_components_uses]
    simp only [Value.same, beq_eq_false_iff_ne]
  case nodup =>
    rw [Conversion.usedDirectives_ofNodes]
    exact Keyed.nodup_eraseDups _
  case order =>
    rw [Conversion.usedDirectives_ofNodes] at helse ⊢
    exact (Conversion.ifFirst_uses m nodes).eraseDups (List.mem_eraseDups.1 helse)

/-- An iteration over a conditional with a button in each branch, and an icon that no one sees. -/
def boardSample : List Node :=
  [.element "aura:iteration".toList [("items".toList, "{!v.rows}".toList)]
    [.element "aura:if".toList [("isTrue".toList, "{!v.open}".toList)]
      [.element "lightning:button".toList [] [],
        .element "aura:set".toList [("attribute".toList, "else".toList)]
          [.element "lightning:button".toList [] [], .element "p".toList [] [],
            .element "ui:outputText".toList [] []]]],
    .element "aura:handler".toList [] [.element "lightning:icon".toList [] []]]

theorem names_in_use_board :
    ∃ (c : Conversion) (names : List Text),
      (Conversion.convert .builtIn boardSample).outcome = .ok c ∧
      c.findings.usedComponents = names.map .text ∧
      names = ["lightning-button".toList, "lightning-formatted-text".toList] ∧
      c.findings.usedDirectives = [forEachName, ifName, elseName] ∧
      ∃ before after, c.findings.usedDirectives = before ++ elseName :: after ∧
        ifName ∈ before := by
  obtain ⟨c, names, hc, hcomponents, -, -, -, hmem, horder⟩ := names_in_use
    Mapping.builtIn_texts boardSample
  have heq := Conversion.eq_ofNodes_of_convert hc
  have hnames : (Conversion.ofNodes .builtIn boardSample).findings.usedComponents.map Value.display =
      ["lightning-button".toList, "lightning-formatted-text".toList] := by decide +kernel
  have hdirectives : (Conversion.ofNodes .builtIn boardSample).findings.usedDirectives =
      [forEachName, ifName, elseName] := by decide +kernel
  rw [← heq] at hnames hdirectives
  rw [hcomponents, List.map_map] at hnames
  exact ⟨c, names, hc, hcomponents, by simpa [Function.comp_def] using hnames, hdirectives,
    horder (by rw [hdirectives]; decide)⟩

end LightningTemplate
