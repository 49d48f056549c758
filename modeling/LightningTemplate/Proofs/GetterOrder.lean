import Mathlib.Data.List.Nodup
import LightningTemplate.Mapping.BuiltIn
import LightningTemplate.Proofs.GetterAccount

/-! The order of the getters.  A walk over a conditional meets its else facets before
its other children.  So the getters are numbered in document order just when no
conditional has a child that hoists in front of an else facet that hoists. -/
namespace LightningTemplate
open Text Expression

namespace Node

/-- Of a child and an else facet after it, one hoists nothing. -/
def ElseFirst (ns : List Node) : Prop :=
  ns.Pairwise fun a b => a.isOtherBranch = false → b.isOtherBranch = true →
    expressions [] a = [] ∨ expressions [] b = []

/-- All conditionals that are rendered have the else facets that hoist in front. -/
def ElseFirstBelow (elements : List Node) : Prop :=
  ∀ e ∈ elements, e.directive = .conditional → ElseFirst e.children

theorem elseFirstBelow_in {ns : List Node} :
    ElseFirstBelow (renderedElementsIn ns) ↔ ∀ n ∈ ns, ElseFirstBelow (renderedElements n) := by
  simp only [ElseFirstBelow, mem_renderedElementsIn]
  constructor
  · exact fun h n hn e he => h e ⟨n, hn, he⟩
  · rintro h e ⟨n, hn, he⟩
    exact h n hn e he

theorem visits_bounds {n : Node} {k : Nat} {handed : Attributes} {x : Text × Nat}
    (h : x ∈ visits k handed n) : k ≤ x.2 ∧ x.2 < k + (expressions handed n).length := by
  have hm := (visits_perm n k handed).subset h
  obtain ⟨h₁, h₂, -⟩ := List.mem_zipIdx hm
  exact ⟨h₁, h₂⟩

theorem visits_eq_nil {n : Node} {k : Nat} {handed : Attributes} :
    visits k handed n = [] ↔ expressions handed n = [] := by
  have h := (visits_perm n k handed).length_eq
  rw [List.length_zipIdx] at h
  rw [← List.length_eq_zero_iff, h, List.length_eq_zero_iff]

theorem visitsIn_bound {chosen : Node → Bool} {ns : List Node} {k : Nat} {handed : Attributes}
    {x : Text × Nat} (h : x ∈ visitsIn chosen k handed ns) : k ≤ x.2 := by
  induction ns generalizing k handed with
  | nil => simp [visitsIn] at h
  | cons n ns ih =>
    rw [visitsIn, List.mem_append] at h
    rcases h with h | h
    · split at h
      · exact (visits_bounds h).1
      · simp at h
    · have := ih h
      omega

theorem visitsIn_eq_nil {chosen : Node → Bool} {ns : List Node} {k : Nat} :
    visitsIn chosen k [] ns = [] ↔ ∀ n ∈ ns, chosen n = true → expressions [] n = [] := by
  induction ns generalizing k with
  | nil => simp [visitsIn]
  | cons n ns ih =>
    rw [visitsIn, List.append_eq_nil_iff, List.forall_mem_cons]
    simp only [ite_self, ih, and_congr_left_iff]
    intro _
    split <;> rename_i hc <;> simp [hc, visits_eq_nil]

def Rising (vs : List (Text × Nat)) : Prop := vs.Pairwise fun x y => x.2 < y.2

theorem rising_zipIdx (es : List Text) (k : Nat) : Rising (es.zipIdx k) := by
  have h : ((es.zipIdx k).map (·.2)).Pairwise (· < ·) := by
    rw [List.zipIdx_map_snd]
    exact List.pairwise_lt_range'
  exact List.pairwise_map.1 h

theorem rising_append {xs ys : List (Text × Nat)} (h : ∀ x ∈ xs, ∀ y ∈ ys, x.2 < y.2) :
    Rising (xs ++ ys) ↔ Rising xs ∧ Rising ys := by
  rw [Rising, List.pairwise_append, and_assoc.symm, and_iff_left h, Rising, Rising]

theorem rising_visitsIn {ns : List Node}
    (ih : ∀ n ∈ ns, ∀ k handed, Rising (visits k handed n) ↔ ElseFirstBelow (renderedElements n))
    (chosen : Node → Bool) (k : Nat) (handed : Attributes) :
    Rising (visitsIn chosen k handed ns) ↔
      ∀ n ∈ ns, chosen n = true → ElseFirstBelow (renderedElements n) := by
  induction ns generalizing k handed with
  | nil => simp [visitsIn, Rising]
  | cons n ns hns =>
    rw [visitsIn, rising_append, List.forall_mem_cons, hns fun m hm => ih m (by simp [hm])]
    · refine and_congr_left fun _ => ?_
      split <;> rename_i hc
      · simp [hc, ih n (by simp)]
      · simp [hc, Rising]
    · intro x hx y hy
      split at hx
      · exact Nat.lt_of_lt_of_le (visits_bounds hx).2 (visitsIn_bound hy)
      · simp at hx

/-- Facets after a node have larger numbers, so they come below it only if one side is empty. -/
theorem later_below_iff (k : Nat) (n : Node) (ns : List Node) :
    (∀ x ∈ visitsIn isOtherBranch (k + (expressions [] n).length) [] ns,
        ∀ y ∈ visits k [] n, x.2 < y.2) ↔
      ∀ b ∈ ns, b.isOtherBranch = true → expressions [] n = [] ∨ expressions [] b = [] := by
  constructor
  · intro h b hb hother
    by_contra hne
    rw [not_or] at hne
    have hn : visits k [] n ≠ [] := mt visits_eq_nil.1 hne.1
    have hns : visitsIn isOtherBranch (k + (expressions [] n).length) [] ns ≠ [] :=
      fun he => hne.2 (visitsIn_eq_nil.1 he b hb hother)
    obtain ⟨y, hy⟩ := List.exists_mem_of_ne_nil _ hn
    obtain ⟨x, hx⟩ := List.exists_mem_of_ne_nil _ hns
    have := h x hx y hy
    have := visitsIn_bound hx
    have := (visits_bounds hy).2
    omega
  · intro h x hx y hy
    have hn : expressions [] n ≠ [] := by
      intro he
      rw [visits_eq_nil.2 he] at hy
      simp at hy
    rw [visitsIn_eq_nil.2 fun b hb hother => (h b hb hother).resolve_left hn] at hx
    simp at hx

/-- The else facets are numbered below the other children just when they stand first. -/
theorem cross_iff (k : Nat) (ns : List Node) :
    (∀ x ∈ visitsIn isOtherBranch k [] ns, ∀ y ∈ visitsIn (!·.isOtherBranch) k [] ns, x.2 < y.2) ↔
      ElseFirst ns := by
  induction ns generalizing k with
  | nil => simp [visitsIn, ElseFirst]
  | cons n ns ih =>
    rw [ElseFirst, List.pairwise_cons, ← ElseFirst, ← ih (k + (expressions [] n).length)]
    simp only [visitsIn, ite_self]
    cases hn : n.isOtherBranch with
    | true =>
      simp only [ite_true, Bool.not_true, Bool.false_eq_true, ite_false, List.nil_append,
        List.mem_append, reduceCtorEq, false_implies, implies_true, true_and]
      refine ⟨fun h x hx => h x (.inr hx), fun h x hx y hy => ?_⟩
      rcases hx with hx | hx
      · exact Nat.lt_of_lt_of_le (visits_bounds hx).2 (visitsIn_bound hy)
      · exact h x hx y hy
    | false =>
      simp only [Bool.false_eq_true, ite_false, Bool.not_false, ite_true, List.nil_append,
        List.mem_append, true_implies]
      rw [← later_below_iff]
      constructor
      · exact fun h => ⟨fun x hx y hy => h x hx y (.inl hy), fun x hx y hy => h x hx y (.inr hy)⟩
      · rintro ⟨h₁, h₂⟩ x hx y (hy | hy)
        · exact h₁ x hx y hy
        · exact h₂ x hx y hy

theorem rising_conditional {ns : List Node}
    (ih : ∀ n ∈ ns, ∀ k handed, Rising (visits k handed n) ↔ ElseFirstBelow (renderedElements n))
    (k : Nat) :
    Rising (visitsIn isOtherBranch k [] ns ++ visitsIn (!·.isOtherBranch) k [] ns) ↔
      ElseFirst ns ∧ ElseFirstBelow (renderedElementsIn ns) := by
  have happ : ∀ xs ys, Rising (xs ++ ys) ↔
      (Rising xs ∧ Rising ys) ∧ ∀ x ∈ xs, ∀ y ∈ ys, x.2 < y.2 := by
    intro xs ys
    rw [Rising, List.pairwise_append, and_assoc.symm, Rising, Rising]
  rw [happ, cross_iff, rising_visitsIn ih, rising_visitsIn ih, elseFirstBelow_in, and_comm]
  refine and_congr_right fun _ => ?_
  constructor
  · rintro ⟨h₁, h₂⟩ n hn
    cases hb : n.isOtherBranch with
    | true => exact h₁ n hn hb
    | false => exact h₂ n hn (by simp [hb])
  · exact fun h => ⟨fun n hn _ => h n hn, fun n hn _ => h n hn⟩

theorem elseFirstBelow_cons (e : Node) (es : List Node) :
    ElseFirstBelow (e :: es) ↔ (e.directive = .conditional → ElseFirst e.children) ∧
      ElseFirstBelow es := by
  simp [ElseFirstBelow]

theorem rising_visits (n : Node) (k : Nat) (handed : Attributes) :
    Rising (visits k handed n) ↔ ElseFirstBelow (renderedElements n) := by
  induction n using Node.induction generalizing k handed with
  | text content => simp [visits, renderedElements, ElseFirstBelow, rising_zipIdx]
  | element tag attrs nodes ih =>
    rw [visits, renderedElements, elseFirstBelow_cons]
    simp only [Node.directive, Node.children]
    generalize Directive.ofTag tag = d
    have hown : ∀ vs : List (Text × Nat), (∀ y ∈ vs, k + (ownExpressions d attrs handed).length ≤ y.2) →
        (Rising ((ownExpressions d attrs handed).zipIdx k ++ vs) ↔ Rising vs) := by
      intro vs hvs
      rw [rising_append, and_iff_right (rising_zipIdx _ _)]
      intro x hx y hy
      obtain ⟨-, hlt, -⟩ := List.mem_zipIdx hx
      exact Nat.lt_of_lt_of_le hlt (hvs y hy)
    by_cases hs : d.isSilent = true
    · have hne : d ≠ .conditional := by rintro rfl; simp [Directive.isSilent] at hs
      simp [hs, hne, Rising, ElseFirstBelow]
    · by_cases hc : d = .conditional
      · subst hc
        have hnone : handedBy .conditional attrs nodes = [] := rfl
        simp only [hs, Bool.false_eq_true, ite_false, ite_true, true_implies, hnone]
        rw [hown, rising_conditional ih]
        intro y hy
        rcases List.mem_append.1 hy with hy | hy <;> exact visitsIn_bound hy
      · simp only [hs, hc, Bool.false_eq_true, ite_false, false_implies, true_and]
        rw [hown _ fun y hy => visitsIn_bound hy, rising_visitsIn ih, elseFirstBelow_in]
        simp

end Node

open Node

/-- The number of the getter for the expression at a place of the document order. -/
def getterNumber (nodes : List Node) (place : Nat) : Nat :=
  ((Conversion.visits nodes).map (·.2)).idxOf place + 1

theorem places_perm (nodes : List Node) :
    ((Conversion.visits nodes).map (·.2)).Perm (List.range (expressionsIn [] nodes).length) := by
  have h := (Conversion.visits_perm nodes).map (·.2)
  rwa [List.zipIdx_map_snd, ← List.range_eq_range'] at h

/-- A rearrangement of the first numbers rises just when it keeps every two in order. -/
theorem pairwise_lt_iff_idxOf {l : List Nat} {n : Nat} (h : l.Perm (List.range n)) :
    l.Pairwise (· < ·) ↔ ∀ i j, i < j → j < n → l.idxOf i < l.idxOf j := by
  have hnodup : l.Nodup := h.nodup_iff.2 List.nodup_range
  have hmem : ∀ i, i ∈ l ↔ i < n := fun i => by rw [h.mem_iff, List.mem_range]
  constructor
  · intro hl i j hij hj
    have hi := List.idxOf_lt_length_of_mem ((hmem i).2 (Nat.lt_trans hij hj))
    have hj := List.idxOf_lt_length_of_mem ((hmem j).2 hj)
    by_contra hle
    rcases Nat.lt_or_eq_of_le (Nat.le_of_not_lt hle) with hlt | heq
    · have := List.pairwise_iff_getElem.1 hl _ _ hj hi hlt
      rw [List.getElem_idxOf, List.getElem_idxOf] at this
      omega
    · have : i = j := by rw [← List.getElem_idxOf hi, ← List.getElem_idxOf hj]; simp [heq]
      omega
  · intro hl
    rw [List.pairwise_iff_getElem]
    intro a b ha hb hab
    by_contra hle
    have hne : l[a] ≠ l[b] := fun he => by
      have := (hnodup.getElem_inj_iff).1 he
      omega
    have := hl l[b] l[a] (by omega) ((hmem _).1 (List.getElem_mem ha))
    rw [hnodup.idxOf_getElem, hnodup.idxOf_getElem] at this
    omega

theorem getter_at_number (m : Mapping) (nodes : List Node) (i : Nat)
    (h : i < (expressionsIn [] nodes).length) :
    (Conversion.ofNodes m nodes).findings.getters[getterNumber nodes i - 1]? =
      some ⟨getterName (getterNumber nodes i), (expressionsIn [] nodes)[i]⟩ := by
  have hmem : i ∈ (Conversion.visits nodes).map (·.2) :=
    (places_perm nodes).mem_iff.2 (List.mem_range.2 h)
  have hplace : ((Conversion.visits nodes).map (·.2))[getterNumber nodes i - 1]? = some i := by
    rw [getterNumber, Nat.add_sub_cancel, List.getElem?_eq_getElem (List.idxOf_lt_length_of_mem hmem),
      List.getElem_idxOf]
  rw [List.getElem?_map, Option.map_eq_some_iff] at hplace
  obtain ⟨v, hv, rfl⟩ := hplace
  obtain ⟨-, -, he⟩ := List.mem_zipIdx ((Conversion.visits_perm nodes).subset (List.mem_of_getElem? hv))
  have hpos : getterNumber nodes v.2 - 1 + 1 = getterNumber nodes v.2 := by simp [getterNumber]
  rw [Conversion.getters_ofNodes, Findings.named, List.getElem?_map, List.getElem?_zipIdx,
    List.getElem?_map, hv]
  simp [he, hpos]

/-- Every expression has the getter of its number; and of any two expressions the earlier one
has the smaller number, just when no conditional has a child that hoists in front of an else
facet that hoists. -/
theorem getters_in_document_order_iff (m : Mapping) (nodes : List Node) :
    (∀ i (h : i < (expressionsIn [] nodes).length),
      (Conversion.ofNodes m nodes).findings.getters[getterNumber nodes i - 1]? =
        some ⟨getterName (getterNumber nodes i), (expressionsIn [] nodes)[i]⟩) ∧
    ((∀ i j, i < j → j < (expressionsIn [] nodes).length →
      getterNumber nodes i < getterNumber nodes j) ↔
      ∀ e ∈ renderedElementsIn nodes, e.directive = .conditional → ElseFirst e.children) := by
  refine ⟨getter_at_number m nodes, ?_⟩
  have hrise : Rising (Conversion.visits nodes) ↔ ElseFirstBelow (renderedElementsIn nodes) := by
    rw [Conversion.visits, rising_visitsIn (fun n _ => rising_visits n), elseFirstBelow_in]
    simp
  rw [← ElseFirstBelow, ← hrise, Rising, ← List.pairwise_map, pairwise_lt_iff_idxOf (places_perm nodes)]
  simp [getterNumber]

/-- A conditional whose else facet stands last, as it usually does. -/
def lateElse : List Node :=
  [.element "aura:if".toList [("isTrue".toList, "{!v.open}".toList)]
    [.text "{!v.x + 1}".toList,
      .element "aura:set".toList [("attribute".toList, "else".toList)] [.text "{!v.y + 1}".toList]]]

/-- The expression of the facet comes second in the document and gets the first number. -/
theorem lateElse_numbered_first :
    expressionsIn [] lateElse = ["v.x + 1".toList, "v.y + 1".toList] ∧
      (Conversion.ofNodes .builtIn lateElse).findings.getters =
        [⟨"computedValue1".toList, "v.y + 1".toList⟩, ⟨"computedValue2".toList, "v.x + 1".toList⟩] ∧
      ¬ ∀ i j, i < j → j < (expressionsIn [] lateElse).length →
        getterNumber lateElse i < getterNumber lateElse j := by
  refine ⟨by decide +kernel, by decide +kernel, fun h => ?_⟩
  exact absurd (h 0 1 (by decide) (by decide +kernel)) (by decide +kernel)

end LightningTemplate
