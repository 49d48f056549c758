import Mathlib.Data.List.Perm.Basic
import LightningTemplate.Proofs.InUse
import LightningTemplate.Proofs.Mark
import LightningTemplate.Proofs.TableReach

/-! Where warnings come from.  A rendered element warns of what it can tell from its attributes,
its children and the elements around it (`Site.warnings`), and a conversion warns of nothing
else (`Conversion.warnings_perm`).  Of the elements around it, only a facet looks at any: at the
nearest one that is plain, whose slots it is checked against. -/
namespace LightningTemplate
open Text Walk Node

/-- A node in a forest: the elements around it, the nearest first, and what an iteration hands
down to it. -/
structure Site where
  above : List Node
  handed : Attributes
  node : Node

namespace Node

mutual
/-- The elements of a tree that are not below a silent one, each at its site. -/
def sites (above : List Node) (handed : Attributes) : Node → List Site
  | .text _ => []
  | .element tag attrs nodes => ⟨above, handed, .element tag attrs nodes⟩ ::
    if (Directive.ofTag tag).isSilent then []
    else sitesIn (.element tag attrs nodes :: above) (handedBy (.ofTag tag) attrs nodes) nodes

/-- Of siblings; the first plain element takes what is handed down. -/
def sitesIn (above : List Node) (handed : Attributes) : List Node → List Site
  | [] => []
  | n :: ns => sites above (if n.isPlain then handed else []) n
    ++ sitesIn above (if n.isPlain then [] else handed) ns
end

variable {above : List Node} {handed : Attributes} {ns : List Node}

theorem sitesIn_eq (above : List Node) (handed : Attributes) (ns : List Node) :
    sitesIn above handed ns = (handedOut handed ns).flatMap fun p => sites above p.1 p.2 := by
  induction ns generalizing handed with
  | nil => rfl
  | cons n ns ih => rw [sitesIn, handedOut, List.flatMap_cons, ih]

theorem sitesIn_nil (above : List Node) (ns : List Node) :
    sitesIn above [] ns = ns.flatMap (sites above []) := by
  rw [sitesIn_eq, handedOut_nil, List.flatMap_map]

theorem mem_sitesIn_singleton (tag : Text) (attrs : Attributes) (nodes : List Node) :
    ⟨[], [], .element tag attrs nodes⟩ ∈ sitesIn [] [] [.element tag attrs nodes] := by
  rw [sitesIn_nil, List.flatMap_singleton, sites]
  exact List.mem_cons_self

theorem sitesIn_nodes (ih : ∀ n ∈ ns, ∀ above handed,
    (sites above handed n).map Site.node = renderedElements n) (above : List Node)
    (handed : Attributes) : (sitesIn above handed ns).map Site.node = renderedElementsIn ns := by
  induction ns generalizing handed with
  | nil => rw [sitesIn, renderedElementsIn, List.map_nil]
  | cons n ns hns =>
    rw [List.forall_mem_cons] at ih
    rw [sitesIn, renderedElementsIn, List.map_append, ih.1, hns ih.2]

theorem map_node_sites (n : Node) : ∀ above handed,
    (sites above handed n).map Site.node = renderedElements n := by
  induction n using Node.induction with
  | text content =>
    intro above handed
    rw [sites, renderedElements, List.map_nil]
  | element tag attrs nodes ih =>
    intro above handed
    rw [sites, renderedElements, List.map_cons]
    split
    · rfl
    · rw [sitesIn_nodes ih]

theorem map_node_sitesIn (ns : List Node) :
    (sitesIn [] [] ns).map Site.node = renderedElementsIn ns :=
  sitesIn_nodes (fun n _ => map_node_sites n) [] []

theorem sitesIn_blank (handed : Attributes) (h : ns.any isSolid = false) :
    sitesIn above handed ns = [] := by
  rw [sitesIn_eq, List.flatMap_eq_nil_iff]
  intro p hp
  obtain ⟨content, htext, -⟩ := eq_text_of_not_solid h (mem_of_mem_handedOut hp)
  rw [htext, sites]

end Node

namespace Site

def enclosing (m : Mapping) (above : List Node) : Value :=
  match (above.find? isPlain).bind tag? with
  | some tag => m.templateTag tag
  | none => .null

theorem isPlain_eq_false {tag : Text} {d : Directive} (hd : Directive.ofTag tag = d)
    (hne : d ≠ .element) (attrs : Attributes) (nodes : List Node) :
    (element tag attrs nodes).isPlain = false := by
  simpa [isPlain, directive, hd] using hne

theorem enclosing_cons_plain (m : Mapping) (above : List Node) {tag : Text} {attrs : Attributes}
    {nodes : List Node} (h : (element tag attrs nodes).isPlain = true) :
    enclosing m (.element tag attrs nodes :: above) = m.templateTag tag := by
  rw [enclosing, List.find?_cons_of_pos h]
  rfl

theorem enclosing_cons_other (m : Mapping) (above : List Node) {n : Node} (h : n.isPlain = false) :
    enclosing m (n :: above) = enclosing m above := by
  rw [enclosing, List.find?_cons_of_neg (by simp [h]), enclosing]

/-- An else facet directly below a conditional, which is its other branch. -/
def isBranch (p : Site) : Bool :=
  p.node.isOtherBranch && p.above.head?.any (·.directive == .conditional)

theorem isBranch_eq_false {above : List Node}
    (hb : above.head?.any (·.directive == .conditional) = false) (handed : Attributes) (n : Node) :
    isBranch ⟨above, handed, n⟩ = false := by
  simp [isBranch, hb]

def mixedWarning? (tag : Text) (a : Text × Text) : Option Warning :=
  if a.1 = auraId then none
  else if Expression.occurs a.2 && !Template.isBraced (Expression.substitute 0 a.2).text then
    some (.mixedValue tag a.1)
  else none

def conditionWarnings (attrs : Attributes) : List Warning :=
  if hasCondition attrs then [] else [.conditionMissing]

def iterationWarnings (attrs : Attributes) (nodes : List Node) : List Warning :=
  (if (attrs.get "items".toList).isEmpty then [.itemsMissing] else [])
    ++ (Render.keyWarnings (Render.itemVariable attrs) nodes).filterMap Finding.warning?

def slotWarnings (known : List Text) (name : Text) : List Warning :=
  if name.isEmpty then [.slotUnnamed]
  else if known.contains name then [] else [.slotUnverified name]

def rawWarnings (attrs : Attributes) : List Warning :=
  (if Expression.occurs (attrs.trimmed "tag".toList) then [.dynamicTag (attrs.trimmed "tag".toList)]
    else []) ++ [.rawHtml]

def warnings (m : Mapping) (p : Site) : List Warning :=
  match p.node with
  | .text _ => []
  | .element tag attrs nodes =>
    match Directive.ofTag tag with
    | .messageChannel => [.channel (MessageChannel.ofAttributes attrs.trimmed).publisherOnly]
    | .recordData => [.recordData]
    | .metadata => []
    | .conditional => conditionWarnings attrs
    | .iteration => iterationWarnings attrs nodes
    | .slot =>
      if p.isBranch then []
      else slotWarnings (m.slotsOf (enclosing m p.above)) (facetName attrs.trimmed)
    | .rawHtml => rawWarnings attrs
    | .text | .element => (attrs ++ p.handed).filterMap (mixedWarning? tag)

section
variable {m : Mapping} {above nodes : List Node} {tag : Text} {attrs handed : Attributes}

theorem warnings_conditional (h : Directive.ofTag tag = .conditional) :
    warnings m ⟨above, handed, .element tag attrs nodes⟩ = conditionWarnings attrs := by
  simp only [warnings, h]

theorem warnings_iteration (h : Directive.ofTag tag = .iteration) :
    warnings m ⟨above, handed, .element tag attrs nodes⟩ = iterationWarnings attrs nodes := by
  simp only [warnings, h]

end

end Site

namespace Walk
variable {α β γ : Type} {pick : Finding → Option γ} {xs ys zs : List γ} {w : Walk α}
  {f : α → Walk β}

/-- The walk finds these among what is picked, in some order. -/
def Tallies (pick : Finding → Option γ) (w : Walk α) (found : List γ) : Prop :=
  ∀ n, ((w.run n).2.filterMap pick).Perm found

theorem Yields.tallies (h : w.Yields pick xs) : w.Tallies pick xs := fun n => by rw [h n]

namespace Tallies

theorem pure (a : α) : (Pure.pure a : Walk α).Tallies pick [] := (Yields.pure a).tallies

theorem perm (h : w.Tallies pick xs) (hxs : xs.Perm ys) : w.Tallies pick ys :=
  fun n => (h n).trans hxs

theorem bind (hw : w.Tallies pick xs) (hf : ∀ a, (f a).Tallies pick ys) :
    (w >>= f).Tallies pick (xs ++ ys) := by
  intro n
  rw [run_bind, List.filterMap_append]
  exact (hw n).append (hf _ _)

theorem bind_nil (hw : w.Tallies pick xs) (hf : ∀ a, (f a).Tallies pick []) :
    (w >>= f).Tallies pick xs := by
  simpa using hw.bind hf

theorem nil_bind (hw : w.Yields pick []) (hf : ∀ a, (f a).Tallies pick ys) :
    (w >>= f).Tallies pick ys := by
  simpa using hw.tallies.bind hf

theorem nil_bind_of {P : α → Prop} (hw : w.Yields pick []) (hP : w.Always P)
    (hf : ∀ a, P a → (f a).Tallies pick ys) : (w >>= f).Tallies pick ys := by
  intro n
  rw [run_bind, List.filterMap_append, hw n, List.nil_append]
  exact hf _ (hP n) _

theorem ite {c : Prop} [Decidable c] {a b : Walk α} (ha : a.Tallies pick xs)
    (hb : b.Tallies pick xs) : (if c then a else b).Tallies pick xs := by
  split <;> assumption

theorem joined {ι : Type} {items : List ι} {w : ι → Walk Text} {found : ι → List γ}
    (h : ∀ i ∈ items, (w i).Tallies pick (found i)) :
    (Walk.joined (items.map w)).Tallies pick (items.flatMap found) := by
  induction items with
  | nil => exact .pure _
  | cons i items ih =>
    rw [List.forall_mem_cons] at h
    exact h.1.bind fun t => (ih h.2).bind_nil fun u => .pure _

end Tallies

theorem convert_warnings (t : Text) : (convert t).Yields Finding.warning? [] := by
  intro n
  simp

theorem warn_warnings (w : Warning) : (warn w).Yields Finding.warning? [w] := fun _ => rfl

theorem Tallies.warn_if {c : Prop} [Decidable c] {w : Warning} {k : Unit → Walk α}
    {us : List Warning} (hk : (k ()).Tallies Finding.warning? us) :
    (if c then warn w >>= k else k ()).Tallies Finding.warning?
      ((if c then [w] else []) ++ us) := by
  split
  · exact (warn_warnings w).tallies.bind fun _ => hk
  · exact hk

end Walk

namespace Render
open Site

variable {s : Surroundings} {attrs : Attributes} {content otherwise main : Walk Text}
  {us vs : List Warning} {nodes ns : List Node} {above : List Node}

theorem bindAttribute_warnings (tag : Text) (entry : Option ComponentEntry) (a : Text × Text) :
    (bindAttribute tag entry a).Yields Finding.warning? (mixedWarning? tag a).toList := by
  unfold bindAttribute mixedWarning?
  by_cases hid : a.1 = auraId
  · rw [if_pos hid, if_pos hid]
    exact .pure _
  · have hbraced : (convert a.2).Always fun value =>
        Template.isBraced value = Template.isBraced (Expression.substitute 0 a.2).text :=
      fun n => Template.isBraced_substitute n 0 a.2
    rw [if_neg hid, if_neg hid]
    refine (convert_warnings _).nil_bind_of hbraced fun value hvalue => ?_
    rw [hvalue]
    split
    · exact (warn_warnings _).bind_nil fun _ => .pure _
    · exact .pure _

theorem bindAttributes_warnings (tag : Text) (entry : Option ComponentEntry) (attrs : Attributes) :
    (bindAttributes tag entry attrs).Yields Finding.warning?
      (attrs.filterMap (mixedWarning? tag)) := by
  induction attrs with
  | nil => exact .pure _
  | cons a attrs ih =>
    have hsplit : (a :: attrs).filterMap (mixedWarning? tag) =
        (mixedWarning? tag a).toList ++ attrs.filterMap (mixedWarning? tag) := by
      rw [List.filterMap_cons]
      cases mixedWarning? tag a <;> rfl
    rw [hsplit]
    exact (bindAttribute_warnings tag entry a).bind fun _ => ih.bind_nil fun _ => .pure _

theorem tagFinding_warnings (tag : Text) (target : Value) :
    (noteAll (tagFinding tag target)).Yields Finding.warning? [] := by
  apply yields_noteAll_nil
  unfold tagFinding
  split
  · rfl
  · split <;> rfl

theorem plainFrame_warnings (tag : Text) (solid : Bool) (hc : content.Tallies Finding.warning? us)
    (hs : solid = false → us = []) :
    (plainFrame s tag attrs solid content).Tallies Finding.warning?
      (attrs.filterMap (mixedWarning? tag) ++ us) := by
  refine .nil_bind (tagFinding_warnings _ _) fun _ =>
    (bindAttributes_warnings _ _ _).tallies.bind fun pairs => ?_
  cases solid with
  | true => exact hc.bind_nil fun _ => .pure _
  | false =>
    rw [hs rfl]
    exact .pure _

theorem guardOf_warnings (attrs : Attributes) : (guardOf attrs).Yields Finding.warning? [] := by
  refine .ite ((convert_warnings _).bind_nil fun _ => .pure _) ?_
  exact .ite ((convert_warnings _).bind_nil fun _ => .pure _) (.pure _)

theorem conditionalFrame_warnings (hasElse : Bool) (ho : otherwise.Tallies Finding.warning? us)
    (hm : main.Tallies Finding.warning? vs) :
    (conditionalFrame s attrs hasElse otherwise main).Tallies Finding.warning?
      (us ++ (vs ++ conditionWarnings attrs)) := by
  refine .nil_bind_of (guardOf_warnings attrs) (always_guardOf_isSome attrs) fun guard hguard => ?_
  refine ho.bind fun elseText => hm.bind fun mainText => ?_
  unfold conditionWarnings
  rw [← hguard]
  cases guard with
  | none => exact (warn_warnings _).tallies.bind_nil fun _ => .pure _
  | some g =>
    exact .nil_bind (.note rfl) fun _ => .ite (.nil_bind (.note rfl) fun _ => .pure _) (.pure _)

theorem iterationFrame_warnings (hc : content.Tallies Finding.warning? us) :
    (iterationFrame s attrs content).Tallies Finding.warning?
      ((if (attrs.get "items".toList).isEmpty then [.itemsMissing] else []) ++ us) := by
  exact .warn_if (.nil_bind (convert_warnings _) fun _ =>
    .nil_bind (.note rfl) fun _ => hc.bind_nil fun _ => .pure _)

theorem slotFrame_warnings (hc : content.Tallies Finding.warning? us) :
    (slotFrame s attrs content).Tallies Finding.warning?
      (us ++ slotWarnings (s.mapping.slotsOf s.parent) (facetName attrs.trimmed)) := by
  refine hc.bind fun body => .nil_bind (.note rfl) fun _ => ?_
  unfold slotWarnings
  split
  · exact (warn_warnings _).tallies.bind_nil fun _ => .pure _
  · cases (s.mapping.slotsOf s.parent).contains (facetName attrs.trimmed) with
    | true => exact .pure _
    | false => exact (warn_warnings _).tallies.bind_nil fun _ => .pure _

theorem rawHtmlFrame_warnings (hc : content.Tallies Finding.warning? us) :
    (rawHtmlFrame s attrs content).Tallies Finding.warning? (rawWarnings attrs ++ us) := by
  rw [rawWarnings, List.append_assoc]
  exact .warn_if (.nil_bind (convert_warnings _) fun _ => (warn_warnings _).tallies.bind fun _ =>
    hc.bind_nil fun _ => .ite (.pure _) (.pure _))

/-- A node warns of what its elements do, at a site where the tag of the nearest plain element is
known and the node is written as it stands; so do its children below it. -/
structure Accounts (n : Node) : Prop where
  node : ∀ s above handed, s.parent = enclosing s.mapping above →
    isBranch ⟨above, handed, n⟩ = false → (renderNode s handed n).Tallies Finding.warning?
      ((sites above handed n).flatMap (Site.warnings s.mapping))
  below : ∀ s above, s.parent = enclosing s.mapping above →
    above.head?.any (·.directive == .conditional) = false →
    (renderAll s n.children).Tallies Finding.warning?
      ((sitesIn above [] n.children).flatMap (Site.warnings s.mapping))

theorem renderRows_accounts {ps : List (Attributes × Node)} (ih : ∀ p ∈ ps, Accounts p.2)
    (hs : s.parent = enclosing s.mapping above)
    (hb : ∀ p ∈ ps, isBranch ⟨above, p.1, p.2⟩ = false) :
    (renderRows s ps).Tallies Finding.warning?
      ((ps.flatMap fun p => sites above p.1 p.2).flatMap (Site.warnings s.mapping)) := by
  rw [List.flatMap_assoc]
  exact .joined fun p hp => ((ih p hp).node s above p.1 hs (hb p hp)).bind_nil fun _ => .pure _

/-- The siblings with what is handed down, below an element that is no conditional. -/
theorem renderRows_below_accounts (ih : ∀ n ∈ ns, Accounts n)
    (hs : s.parent = enclosing s.mapping above)
    (hb : above.head?.any (·.directive == .conditional) = false) (handed : Attributes) :
    (renderRows s (handedOut handed ns)).Tallies Finding.warning?
      ((sitesIn above handed ns).flatMap (Site.warnings s.mapping)) := by
  rw [sitesIn_eq]
  exact renderRows_accounts (fun p hp => ih p.2 (mem_of_mem_handedOut hp)) hs fun p _ =>
    isBranch_eq_false hb p.1 p.2

theorem renderAll_accounts (ih : ∀ n ∈ ns, Accounts n)
    (hs : s.parent = enclosing s.mapping above) (hb : ∀ n ∈ ns, isBranch ⟨above, [], n⟩ = false) :
    (renderAll s ns).Tallies Finding.warning?
      ((ns.flatMap (sites above [])).flatMap (Site.warnings s.mapping)) := by
  rw [renderAll_eq_rows, ← sitesIn_nil, sitesIn_eq]
  refine renderRows_accounts (fun p hp => ih p.2 (mem_of_mem_handedOut hp)) hs fun p hp => ?_
  rw [List.eq_nil_of_subset_nil (subset_of_mem_handedOut hp)]
  exact hb p.2 (mem_of_mem_handedOut hp)

theorem renderAll_below_accounts (ih : ∀ n ∈ ns, Accounts n)
    (hs : s.parent = enclosing s.mapping above)
    (hb : above.head?.any (·.directive == .conditional) = false) :
    (renderAll s ns).Tallies Finding.warning?
      ((sitesIn above [] ns).flatMap (Site.warnings s.mapping)) := by
  rw [renderAll_eq_rows]
  exact renderRows_below_accounts ih hs hb []

/-- Else facets below a conditional do not warn themselves, but their children do. -/
theorem renderElse_accounts {c : Node} (hc : c.directive = .conditional)
    (ih : ∀ n ∈ ns, Accounts n) (hs : s.parent = enclosing s.mapping (c :: above)) :
    (renderElse s ns).Tallies Finding.warning? (((ns.filter (·.isOtherBranch)).flatMap
      (sites (c :: above) [])).flatMap (Site.warnings s.mapping)) := by
  rw [renderElse_eq_joined, List.flatMap_assoc]
  refine .joined fun n hn => ?_
  obtain ⟨hmem, hother⟩ := List.mem_filter.1 hn
  have hslot := directive_of_isOtherBranch hother
  have hplain : n.isPlain = false := by rw [isPlain, hslot]; rfl
  have hbelow := (ih n hmem).below s (n :: c :: above)
    (hs.trans (enclosing_cons_other s.mapping _ hplain).symm) (by simp [hslot])
  cases n with
  | text content => cases hslot
  | element tag attrs nodes =>
    have hbranch : isBranch ⟨c :: above, [], .element tag attrs nodes⟩ = true := by
      simp [isBranch, hother, hc]
    have htag : Directive.ofTag tag = .slot := hslot
    have hhanded : handedBy .slot attrs nodes = [] := rfl
    simp only [sites, htag, Directive.isSilent, Bool.false_eq_true, if_false, hhanded,
      List.flatMap_cons, Site.warnings, hbranch, if_true, List.nil_append]
    exact hbelow

theorem conditional_accounts {c : Node} {r : Surroundings} (hasElse : Bool)
    (hc : c.directive = .conditional) (ih : ∀ n ∈ nodes, Accounts n)
    (hs : r.parent = enclosing r.mapping (c :: above)) :
    (conditionalFrame s attrs hasElse (renderElse r nodes) (renderMain r nodes)).Tallies
      Finding.warning? (conditionWarnings attrs ++
        (sitesIn (c :: above) [] nodes).flatMap (Site.warnings r.mapping)) := by
  have hmain : (renderMain r nodes).Tallies Finding.warning? (((nodes.filter
      (!·.isOtherBranch)).flatMap (sites (c :: above) [])).flatMap (Site.warnings r.mapping)) := by
    rw [renderMain_eq]
    refine renderAll_accounts (fun n hn => ih n (List.mem_filter.1 hn).1) hs fun n hn => ?_
    have hmain : n.isOtherBranch = false := by simpa using (List.mem_filter.1 hn).2
    simp [isBranch, hmain]
  refine (conditionalFrame_warnings hasElse (renderElse_accounts hc ih hs) hmain).perm ?_
  rw [sitesIn_nil, ← List.append_assoc]
  refine List.perm_append_comm.trans (.append_left _ ?_)
  rw [← List.flatMap_append, ← List.flatMap_append]
  exact ((List.filter_append_perm _ nodes).flatMap_right _).flatMap_right _

theorem renderIteration_accounts (ih : ∀ n ∈ nodes, Accounts n)
    (hs : s.parent = enclosing s.mapping above)
    (hb : above.head?.any (·.directive == .conditional) = false) (attrs : Attributes) :
    (renderIteration s (itemVariable attrs) nodes).Tallies Finding.warning?
      ((keyWarnings (itemVariable attrs) nodes).filterMap Finding.warning? ++
        (sitesIn above (handedBy .iteration attrs nodes) nodes).flatMap
          (Site.warnings s.mapping)) := by
  rw [renderIteration_eq_rows]
  exact (yields_noteAll _ _).tallies.bind fun _ => renderRows_below_accounts ih hs hb _

theorem plain_accounts {tag : Text} (hd : Directive.ofTag tag = .element)
    (ih : ∀ n ∈ nodes, Accounts n) (attrs handed : Attributes) :
    (plainFrame s tag (attrs ++ handed) (nodes.any isSolid)
      (renderAll (s.inside (s.mapping.templateTag tag)) nodes)).Tallies Finding.warning?
        ((attrs ++ handed).filterMap (mixedWarning? tag) ++
          (sitesIn (.element tag attrs nodes :: above) [] nodes).flatMap
            (Site.warnings s.mapping)) := by
  have hplain : (element tag attrs nodes).isPlain = true := by simp [isPlain, directive, hd]
  have hparent := (enclosing_cons_plain s.mapping above hplain).symm
  have hhead : (element tag attrs nodes :: above).head?.any (·.directive == .conditional) =
      false := by simp [directive, hd]
  refine plainFrame_warnings tag _ (renderAll_below_accounts ih hparent hhead) fun hsolid => ?_
  rw [sitesIn_blank [] hsolid, List.flatMap_nil]

theorem accounts (n : Node) : Accounts n := by
  induction n using Node.induction with
  | text content =>
    refine ⟨fun s above handed _ _ => ?_, fun s above hs hb => ?_⟩
    · rw [renderNode, sites]
      exact (convert_warnings _).tallies.bind_nil fun _ => .pure _
    · exact renderAll_below_accounts (by simp [Node.children]) hs hb
  | element tag attrs nodes ih =>
    refine ⟨fun s above handed hs hbranch => ?_, fun s above => renderAll_below_accounts ih⟩
    have hinner {d : Directive} (hd : Directive.ofTag tag = d) (hne : d ≠ .element) :
        s.parent = enclosing s.mapping (.element tag attrs nodes :: above) :=
      hs.trans (enclosing_cons_other s.mapping above (isPlain_eq_false hd hne attrs nodes)).symm
    have hhead {d : Directive} (hd : Directive.ofTag tag = d) (hne : d ≠ .conditional) :
        (element tag attrs nodes :: above).head?.any (·.directive == .conditional) = false := by
      simpa [directive, hd] using hne
    have hnone {d : Directive} (hne : d ≠ .iteration) : handedBy d attrs nodes = [] := by
      simp [handedBy, hne]
    rw [renderNode, sites, List.flatMap_cons]
    cases hd : Directive.ofTag tag <;>
      simp only [hd, Directive.isSilent, if_true, Bool.false_eq_true, if_false, List.flatMap_nil,
        List.append_nil, Site.warnings]
    case messageChannel =>
      exact .nil_bind (.note rfl) fun _ => (warn_warnings _).tallies.bind_nil fun _ => .pure _
    case recordData =>
      exact .nil_bind (.note rfl) fun _ => (warn_warnings _).tallies.bind_nil fun _ => .pure _
    case metadata => exact .pure _
    case conditional =>
      rw [hnone (by decide)]
      exact conditional_accounts (c := .element tag attrs nodes) (r := s.inner) _ hd ih
        (hinner hd (by decide))
    case iteration =>
      rw [iterationWarnings, List.append_assoc]
      exact iterationFrame_warnings (renderIteration_accounts ih (s := s.inner)
        (hinner hd (by decide)) (hhead hd (by decide)) attrs)
    case slot =>
      rw [hnone (by decide), hbranch, if_neg Bool.false_ne_true, ← hs]
      exact (slotFrame_warnings (renderAll_below_accounts (s := s.inner) ih (hinner hd (by decide))
        (hhead hd (by decide)))).perm List.perm_append_comm
    case rawHtml =>
      rw [hnone (by decide)]
      exact rawHtmlFrame_warnings (renderAll_below_accounts (s := s.inner) ih (hinner hd (by decide))
        (hhead hd (by decide)))
    case text => exact absurd hd (Directive.ofTag_ne_text tag)
    case element =>
      rw [hnone (by decide)]
      exact plain_accounts hd ih attrs handed

end Render

/-- A conversion warns of what its elements warn of at their sites, and of nothing else. -/
theorem Conversion.warnings_perm (m : Mapping) (nodes : List Node) :
    (ofNodes m nodes).findings.warnings.Perm
      ((sitesIn [] [] nodes).flatMap (Site.warnings m)) := by
  have hs : (Surroundings.mk m .null Template.step).parent = Site.enclosing m [] := rfl
  have htallies := Render.renderAll_accounts (fun n (_ : n ∈ nodes) => Render.accounts n) hs
    (fun _ _ => Bool.and_false _) 0
  rw [findings_ofNodes, sitesIn_nil]
  exact htallies

namespace Site
variable {m : Mapping} {p : Site}

/-- The name under which a facet is recorded. -/
def facet (p : Site) : Text := facetName p.node.attributes.trimmed

/-- A facet with a name that is no slot of the nearest plain element around it. -/
def isUnverified (m : Mapping) (p : Site) : Bool :=
  p.node.directive == .slot && !p.isBranch && !p.facet.isEmpty &&
    !(m.slotsOf (enclosing m p.above)).contains p.facet

theorem slotWarnings_checks (known : List Text) (name : Text) :
    (slotWarnings known name).filter Warning.isSlotCheck =
      if !name.isEmpty && !known.contains name then [.slotUnverified name] else [] := by
  unfold slotWarnings
  cases name.isEmpty <;> cases known.contains name <;> rfl

theorem filter_keyWarnings (pick : Warning → Bool)
    (hadded : ∀ binding, pick (.keyAdded binding) = false)
    (hmissing : ∀ itemVar, pick (.keyMissing itemVar) = false) (itemVar : Text) (nodes : List Node) :
    ((Render.keyWarnings itemVar nodes).filterMap Finding.warning?).filter pick = [] := by
  unfold Render.keyWarnings
  split
  · simp [Finding.warning?, hadded]
  · split
    · simp [Finding.warning?, hmissing]
    · rfl

theorem mixedWarning?_checks (tag : Text) (attrs : Attributes) :
    (attrs.filterMap (mixedWarning? tag)).filter Warning.isSlotCheck = [] := by
  rw [List.filter_eq_nil_iff]
  intro w hw
  obtain ⟨a, -, ha⟩ := List.mem_filterMap.1 hw
  unfold mixedWarning? at ha
  split at ha
  · cases ha
  · split at ha
    · obtain rfl := Option.some.inj ha
      exact Bool.false_ne_true
    · cases ha

theorem warnings_checks (m : Mapping) (p : Site) :
    (warnings m p).filter Warning.isSlotCheck =
      if p.isUnverified m then [.slotUnverified p.facet] else [] := by
  obtain ⟨above, handed, node⟩ := p
  cases node with
  | text content => rfl
  | element tag attrs nodes =>
    have hno {d : Directive} (hd : Directive.ofTag tag = d) (hne : d ≠ .slot) :
        isUnverified m ⟨above, handed, .element tag attrs nodes⟩ = false := by
      have hdirective : (d == Directive.slot) = false := by simpa using hne
      simp only [isUnverified, directive, hd, hdirective, Bool.false_and]
    cases hd : Directive.ofTag tag with
    | slot =>
      simp only [warnings, hd, isUnverified, directive, beq_self_eq_true, Bool.true_and]
      cases isBranch ⟨above, handed, .element tag attrs nodes⟩ with
      | true => rfl
      | false => exact slotWarnings_checks _ _
    | conditional =>
      simp only [warnings, hd, hno hd (by decide), conditionWarnings]
      split <;> rfl
    | iteration =>
      simp only [warnings, hd, hno hd (by decide), iterationWarnings, List.filter_append,
        filter_keyWarnings Warning.isSlotCheck (fun _ => rfl) (fun _ => rfl)]
      split <;> rfl
    | rawHtml =>
      simp only [warnings, hd, hno hd (by decide), rawWarnings]
      split <;> rfl
    | text | element =>
      simp only [warnings, hd, hno hd (by decide)]
      exact mixedWarning?_checks tag _
    | messageChannel | recordData | metadata =>
      simp only [warnings, hd, hno hd (by decide)]
      rfl

end Site

/-- The checks of slots that a conversion warns of are, up to their order, those of the rendered
facets with a name that is no slot of the nearest plain element around them; whatever else
stands in between or beside them has no part in it. -/
theorem slot_checks_by_enclosing_element (m : Mapping) (nodes : List Node) :
    (∀ c, (Conversion.convert m nodes).outcome = .ok c →
      (c.findings.warnings.filter Warning.isSlotCheck).Perm
        (((sitesIn [] [] nodes).filter (·.isUnverified m)).map fun p =>
          .slotUnverified p.facet)) ∧
    ((∀ e ∈ m.components, e.2.target.isGiven = true → ∃ t, e.2.target = .text t) →
      ∃ c, (Conversion.convert m nodes).outcome = .ok c) := by
  constructor
  · intro c hc
    obtain rfl := Conversion.eq_ofNodes_of_convert hc
    have hchecks (ps : List Site) : (ps.flatMap (Site.warnings m)).filter Warning.isSlotCheck =
        (ps.filter (·.isUnverified m)).map fun p => .slotUnverified p.facet := by
      induction ps with
      | nil => rfl
      | cons p ps ih =>
        rw [List.flatMap_cons, List.filter_append, ih, Site.warnings_checks, List.filter_cons]
        split <;> rfl
    rw [← hchecks]
    exact (Conversion.warnings_perm m nodes).filter _
  · intro htexts
    obtain ⟨c, -, hc, -⟩ := names_in_use htexts nodes
    exact ⟨c, hc⟩

/-- Facets in a card below a conditional and an iteration, in another facet, in a paragraph of the
other branch, and beside the card. -/
def slotSample : List Node :=
  let element (tag : String) (attrs : List (String × String)) (nodes : List Node) : Node :=
    .element tag.toList (attrs.map fun a => (a.1.toList, a.2.toList)) nodes
  [element "lightning:card" []
      [element "aura:if" [("isTrue", "{!v.a}")]
        [element "aura:iteration" [("items", "{!v.rows}")]
          [element "aura:set" [("attribute", " actions ")]
            [element "aura:set" [("attribute", "aside")] []]],
          element "aura:set" [("attribute", "else")]
            [element "p" [] [element "aura:set" [("attribute", "footer")] []]]]],
    element "aura:set" [("attribute", "actions")] []]

theorem slot_checks_by_enclosing_element_card :
    ∃ c, (Conversion.convert .builtIn slotSample).outcome = .ok c ∧
      (c.findings.warnings.filter Warning.isSlotCheck).Perm [.slotUnverified "aside".toList,
        .slotUnverified "footer".toList, .slotUnverified "actions".toList] := by
  have hsites : (((sitesIn [] [] slotSample).filter (·.isUnverified .builtIn)).map fun p =>
      Warning.slotUnverified p.facet) = [.slotUnverified "aside".toList,
        .slotUnverified "footer".toList, .slotUnverified "actions".toList] := by decide +kernel
  obtain ⟨hchecks, hok⟩ := slot_checks_by_enclosing_element .builtIn slotSample
  obtain ⟨c, hc⟩ := hok Mapping.builtIn_texts
  have hperm := hchecks c hc
  rw [hsites] at hperm
  exact ⟨c, hc, hperm⟩

end LightningTemplate
