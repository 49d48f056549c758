import LightningTemplate.Proofs.Siblings
import LightningTemplate.Proofs.StoreWalk

/-! What a walk hoists.  Each frame hoists the expressions of the strings of its node
and, where it says so, what its children hoist; together a node hoists the expressions
that it visits (`Render.hoists`), and their names count up from one. -/
namespace LightningTemplate
open Text Expression Walk Node

theorem Walk.convert_hoists (t : Text) : (convert t).Yields Finding.getter? (computing t) := by
  intro n
  rw [run_convert, Finding.filterMap_getter, hoisted_substitute]

theorem Walk.warn_hoists (w : Warning) : (warn w).Yields Finding.getter? [] := .note rfl

namespace Expression

theorem computing_of_blank {t : Text} (h : isAllBlank t = true) : computing t = [] := by
  induction t with
  | nil => rfl
  | cons c cs ih =>
    simp only [isAllBlank, List.all_cons, Bool.and_eq_true] at h ih
    have hc : c ≠ '{' := by
      rintro rfl
      exact absurd h.1 (by decide)
    have he : expressionAt? (c :: cs) = none := by
      unfold expressionAt?
      split
      · simp_all
      · rfl
    rw [computing, pieces_char he, List.filterMap_cons]
    exact ih h.2

end Expression

namespace Node

/-- Which expressions are visited does not depend on the number of the first one. -/
theorem map_fst_visitsIn_of {ns : List Node} (ih : ∀ n ∈ ns, ∀ k handed,
      (visits k handed n).map (·.1) = (visits 0 handed n).map (·.1)) (chosen : Node → Bool) (k : Nat)
    (handed : Attributes) : (visitsIn chosen k handed ns).map (·.1) =
      ((handedOut handed ns).filter (chosen ·.2)).flatMap fun p => (visits 0 p.1 p.2).map (·.1) := by
  induction ns generalizing k handed with
  | nil => rfl
  | cons n ns hns =>
    rw [List.forall_mem_cons] at ih
    rw [visitsIn, handedOut, List.map_append, hns ih.2, List.filter_cons]
    split
    · rw [List.flatMap_cons, ih.1]
    · rw [List.map_nil, List.nil_append]

theorem map_fst_visits (n : Node) : ∀ k handed,
    (visits k handed n).map (·.1) = (visits 0 handed n).map (·.1) := by
  induction n using Node.induction with
  | text content => simp [visits, List.zipIdx_map_fst]
  | element tag attrs nodes ih =>
    intro k handed
    simp only [visits]
    split
    · rfl
    · split <;> simp only [List.map_append, List.zipIdx_map_fst, map_fst_visitsIn_of ih]

theorem map_fst_visitsIn (chosen : Node → Bool) (k : Nat) (handed : Attributes) (ns : List Node) :
    (visitsIn chosen k handed ns).map (·.1) =
      ((handedOut handed ns).filter (chosen ·.2)).flatMap fun p => (visits 0 p.1 p.2).map (·.1) :=
  map_fst_visitsIn_of (fun n _ => map_fst_visits n) chosen k handed

theorem visitsIn_blank {ns : List Node} (h : ns.any isSolid = false) (k : Nat)
    (handed : Attributes) : (visitsIn (fun _ => true) k handed ns).map (·.1) = [] := by
  rw [map_fst_visitsIn, List.filter_true, List.flatMap_eq_nil_iff]
  intro p hp
  obtain ⟨content, htext, hblank⟩ := eq_text_of_not_solid h (mem_of_mem_handedOut hp)
  rw [htext, visits, computing_of_blank hblank]
  rfl

/-- With nothing handed down, the chosen siblings visit as if they stood alone. -/
theorem map_fst_visitsIn_nil (chosen : Node → Bool) (k : Nat) (ns : List Node) :
    (visitsIn chosen k [] ns).map (·.1) =
      (ns.filter chosen).flatMap fun n => (visits 0 [] n).map (·.1) := by
  rw [map_fst_visitsIn, handedOut_nil, List.filter_map, List.flatMap_map]
  rfl

end Node

namespace Render

theorem bindAttribute_hoists (tag : Text) (entry : Option ComponentEntry) (a : Text × Text) :
    (bindAttribute tag entry a).Yields Finding.getter?
      (if a.1 != auraId then computing a.2 else []) := by
  unfold bindAttribute
  by_cases h : a.1 = auraId
  · simpa [h] using Yields.pure _
  · simp only [h, if_false, bne_iff_ne, ne_eq, not_false_eq_true, if_true]
    refine (convert_hoists _).bind_nil fun value => ?_
    exact .ite (.nil_bind (warn_hoists _) fun _ => .pure _) (.pure _)

theorem bindAttributes_hoists (tag : Text) (entry : Option ComponentEntry) (attrs : Attributes) :
    (bindAttributes tag entry attrs).Yields Finding.getter?
      (((attrs.filter fun a => a.1 != auraId).map (·.2)).flatMap computing) := by
  induction attrs with
  | nil => exact .pure _
  | cons a attrs ih =>
    have h := (bindAttribute_hoists tag entry a).bind (β := List (Text × Text))
      (f := fun first => do return first :: (← bindAttributes tag entry attrs))
      fun first => ih.bind_nil fun _ => .pure _
    by_cases hid : a.1 = auraId <;> simpa [List.filter_cons, hid, bindAttributes] using h

theorem tagFinding_hoists (tag : Text) (target : Value) :
    (tagFinding tag target).filterMap Finding.getter? = [] := by
  unfold tagFinding
  split
  · rfl
  · split <;> rfl

theorem plainFrame_hoists (s : Surroundings) (tag : Text) (attrs : Attributes) (solid : Bool)
    {content : Walk Text} {es : List Text} (hc : content.Yields Finding.getter? es)
    (hs : solid = false → es = []) :
    (plainFrame s tag attrs solid content).Yields Finding.getter?
      (((attrs.filter fun a => a.1 != auraId).map (·.2)).flatMap computing ++ es) := by
  refine .nil_bind (yields_noteAll_nil (tagFinding_hoists _ _)) fun _ => ?_
  refine (bindAttributes_hoists _ _ _).bind fun converted => ?_
  cases solid with
  | true => exact hc.bind_nil fun _ => .pure _
  | false =>
    rw [hs rfl]
    exact .pure _

theorem guardOf_hoists (attrs handed : Attributes) :
    (guardOf attrs).Yields Finding.getter? (ownExpressions .conditional attrs handed) := by
  unfold guardOf ownExpressions ownStrings
  split
  · simpa using (convert_hoists _).bind_nil fun _ => .pure _
  · split
    · simpa using (convert_hoists _).bind_nil fun _ => .pure _
    · exact .pure _

theorem conditionalFrame_hoists (s : Surroundings) (attrs handed : Attributes) (hasElse : Bool)
    {otherwise main : Walk Text} {es ms : List Text} (he : otherwise.Yields Finding.getter? es)
    (hm : main.Yields Finding.getter? ms) :
    (conditionalFrame s attrs hasElse otherwise main).Yields Finding.getter?
      (ownExpressions .conditional attrs handed ++ (es ++ ms)) := by
  refine (guardOf_hoists attrs handed).bind fun guard => he.bind fun elseText => ?_
  refine hm.bind_nil fun mainText => ?_
  cases guard with
  | none => exact .nil_bind (warn_hoists _) fun _ => .pure _
  | some g =>
    refine .nil_bind (.note rfl) fun _ => ?_
    exact .ite (.nil_bind (.note rfl) fun _ => .pure _) (.pure _)

theorem iterationFrame_hoists (s : Surroundings) (attrs handed : Attributes) {content : Walk Text}
    {es : List Text} (hc : content.Yields Finding.getter? es) :
    (iterationFrame s attrs content).Yields Finding.getter?
      (ownExpressions .iteration attrs handed ++ es) := by
  have hown : ownExpressions .iteration attrs handed = computing (attrs.get "items".toList) := by
    simp [ownExpressions, ownStrings]
  rw [hown]
  unfold iterationFrame
  refine .ite (.nil_bind (warn_hoists _) fun _ => ?_) ?_
  all_goals
    refine (convert_hoists _).bind fun collection => .nil_bind (.note rfl) fun _ => ?_
    exact hc.bind_nil fun body => .pure _

theorem slotFrame_hoists (s : Surroundings) (attrs : Attributes) {content : Walk Text}
    {es : List Text} (hc : content.Yields Finding.getter? es) :
    (slotFrame s attrs content).Yields Finding.getter? es := by
  refine hc.bind_nil fun body => .nil_bind (.note rfl) fun _ => ?_
  refine .ite (.nil_bind (warn_hoists _) fun _ => .pure _) ?_
  exact .ite (.nil_bind (warn_hoists _) fun _ => .pure _) (.pure _)

theorem rawHtmlFrame_hoists (s : Surroundings) (attrs handed : Attributes) {content : Walk Text}
    {es : List Text} (hc : content.Yields Finding.getter? es) :
    (rawHtmlFrame s attrs content).Yields Finding.getter?
      (ownExpressions .rawHtml attrs handed ++ es) := by
  have hown : ownExpressions .rawHtml attrs handed = computing (attrs.get "body".toList) := by
    simp [ownExpressions, ownStrings]
  rw [hown]
  unfold rawHtmlFrame
  refine .ite (.nil_bind (warn_hoists _) fun _ => ?_) ?_
  all_goals
    refine (convert_hoists _).bind fun body => .nil_bind (warn_hoists _) fun _ => ?_
    exact hc.bind_nil fun children => .ite (.pure _) (.pure _)

/-- A node hoists what it visits, and so do its children as they stand in an else facet. -/
structure Hoists (n : Node) : Prop where
  node : ∀ s k handed, (renderNode s handed n).Yields Finding.getter? ((visits k handed n).map (·.1))
  below : ∀ s k, (renderAll s n.children).Yields Finding.getter?
    ((visitsIn (fun _ => true) k [] n.children).map (·.1))

variable {ns : List Node}

theorem renderRows_hoists (ih : ∀ n ∈ ns, Hoists n) (s : Surroundings) (k : Nat)
    (handed : Attributes) : (renderRows s (handedOut handed ns)).Yields Finding.getter?
      ((visitsIn (fun _ => true) k handed ns).map (·.1)) := by
  rw [map_fst_visitsIn, List.filter_true]
  exact yields_renderRows fun p hp => (ih p.2 (mem_of_mem_handedOut hp)).node s 0 p.1

theorem renderAll_hoists (ih : ∀ n ∈ ns, Hoists n) (s : Surroundings) (k : Nat) :
    (renderAll s ns).Yields Finding.getter? ((visitsIn (fun _ => true) k [] ns).map (·.1)) := by
  rw [renderAll_eq_rows]
  exact renderRows_hoists ih s k []

theorem renderMain_hoists (ih : ∀ n ∈ ns, Hoists n) (s : Surroundings) (k : Nat) :
    (renderMain s ns).Yields Finding.getter?
      ((visitsIn (!·.isOtherBranch) k [] ns).map (·.1)) := by
  have hmain : ∀ n ∈ ns.filter (!·.isOtherBranch), Hoists n := fun n hn =>
    ih n (List.mem_filter.1 hn).1
  have hall := renderAll_hoists hmain s k
  rw [map_fst_visitsIn_nil, List.filter_true] at hall
  rw [renderMain_eq, map_fst_visitsIn_nil]
  exact hall

theorem visits_slot {n : Node} (h : n.directive = .slot) (k : Nat) (handed : Attributes) :
    visits k handed n = visitsIn (fun _ => true) k [] n.children := by
  cases n with
  | text content => simp [Node.directive] at h
  | element tag attrs nodes =>
    have hd : Directive.ofTag tag = .slot := h
    simp [visits, hd, Directive.isSilent, handedBy, ownExpressions, ownStrings, Node.children]

theorem renderElse_hoists (ih : ∀ n ∈ ns, Hoists n) (s : Surroundings) (k : Nat) :
    (renderElse s ns).Yields Finding.getter? ((visitsIn isOtherBranch k [] ns).map (·.1)) := by
  rw [renderElse_eq_joined, map_fst_visitsIn_nil]
  refine .joined fun n hn => ?_
  obtain ⟨hmem, hother⟩ := List.mem_filter.1 hn
  rw [visits_slot (directive_of_isOtherBranch hother)]
  exact (ih n hmem).below s 0

theorem renderIteration_hoists (ih : ∀ n ∈ ns, Hoists n) (s : Surroundings) (attrs : Attributes)
    (k : Nat) :
    (renderIteration s (itemVariable attrs) ns).Yields Finding.getter?
      ((visitsIn (fun _ => true) k (handedBy .iteration attrs ns) ns).map (·.1)) := by
  rw [renderIteration_eq_rows]
  exact .nil_bind (yields_noteAll_nil (filterMap_keyWarnings (fun _ => rfl) _ _)) fun _ =>
    renderRows_hoists ih s k _

/-- A node hoists the expressions that it visits, in the order in which it visits them. -/
theorem hoists (n : Node) : Hoists n := by
  induction n using Node.induction with
  | text content =>
    refine ⟨fun s k handed => ?_, fun s k => ?_⟩
    · simp only [renderNode, visits, List.zipIdx_map_fst]
      exact (convert_hoists _).bind_nil fun _ => .pure _
    · simpa [Node.children, renderAll, visitsIn] using Yields.pure _
  | element tag attrs nodes ih =>
    refine ⟨fun s k handed => ?_, renderAll_hoists ih⟩
    rw [renderNode, visits]
    generalize Directive.ofTag tag = d
    have hall (s : Surroundings) (k : Nat) := renderAll_hoists ih s k
    cases d <;> simp only [Directive.isSilent, Bool.false_eq_true, ite_true, ite_false,
      reduceCtorEq, List.map_append, List.zipIdx_map_fst]
    case messageChannel => exact .nil_bind (.note rfl) fun _ => .nil_bind (warn_hoists _) fun _ => .pure _
    case recordData => exact .nil_bind (.note rfl) fun _ => .nil_bind (warn_hoists _) fun _ => .pure _
    case metadata => exact .pure _
    case conditional =>
      exact conditionalFrame_hoists _ _ _ _ (renderElse_hoists ih _ _) (renderMain_hoists ih _ _)
    case iteration => exact iterationFrame_hoists _ _ _ (renderIteration_hoists ih _ _ _)
    case slot => exact slotFrame_hoists _ _ (hall _ _)
    case rawHtml => exact rawHtmlFrame_hoists _ _ _ (hall _ _)
    case text => exact plainFrame_hoists _ _ _ _ (hall _ _) fun h => visitsIn_blank h _ _
    case element => exact plainFrame_hoists _ _ _ _ (hall _ _) fun h => visitsIn_blank h _ _

end Render

/-- The expressions that the walk over a forest visits, each with its number in document order. -/
def Conversion.visits (nodes : List Node) : List (Text × Nat) :=
  visitsIn (fun _ => true) 0 [] nodes

/-- The getters of a conversion are the expressions that the walk visits, numbered as they come. -/
theorem Conversion.getters_ofNodes (m : Mapping) (nodes : List Node) :
    (ofNodes m nodes).findings.getters = Findings.named 0 ((visits nodes).map (·.1)) := by
  have hv := Render.renderAll_hoists (fun n (_ : n ∈ nodes) => Render.hoists n)
    ⟨m, .null, Template.step⟩ 0 0
  rw [findings_ofNodes, Findings.extend, hv]
  rfl

end LightningTemplate
