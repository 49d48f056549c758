import LightningTemplate.Dependency

/-! The order in which dependencies are listed.  Every node of a forest has an address, the numbers
that lead to it from sibling to sibling and from parent to child, and the lexicographic order of
addresses is the order in which elements open (`before_placesIn`).  A component tag is listed once,
and one tag before another when it stands at an address before all those of the other. -/
namespace LightningTemplate
open Text

/-- The way to a node from the top, each step counted among siblings from zero. -/
abbrev Address := List Nat

/-- An element comes before what is in it, and all that before its later siblings. -/
def Address.Before (a b : Address) : Prop := List.Lex (· < ·) a b

namespace Node

def below? (n : Node) : Address → Option Node
  | [] => some n
  | i :: rest => n.children[i]?.bind fun child => child.below? rest

/-- The tag of the element at an address of a forest. -/
def tagAt? (nodes : List Node) : Address → Option Text
  | [] => none
  | i :: rest => nodes[i]?.bind fun n => (n.below? rest).bind tag?

mutual

/-- The tags in a tree as they open, each with its address from the root. -/
def places : Node → List (Address × Text)
  | .text _ => []
  | .element tag _ nodes => ([], tag) :: placesIn 0 nodes

/-- The tags in a forest whose first tree has the number `i`. -/
def placesIn (i : Nat) : List Node → List (Address × Text)
  | [] => []
  | n :: ns => (places n).map (fun p => (i :: p.1, p.2)) ++ placesIn (i + 1) ns

end

variable {n : Node} {ns : List Node} {i : Nat} {a : Address} {tag : Text}

mutual

theorem tags_places : ∀ n, (places n).map (·.2) = (elements n).filterMap tag?
  | .text _ => rfl
  | .element tag attrs nodes => by
    rw [places, elements, List.map_cons, tags_placesIn 0 nodes]
    rfl

theorem tags_placesIn (i : Nat) : ∀ ns, (placesIn i ns).map (·.2) = (elementsIn ns).filterMap tag?
  | [] => rfl
  | n :: ns => by
    rw [placesIn, elementsIn, List.map_append, List.map_map, List.filterMap_append, ← tags_places n,
      tags_placesIn (i + 1) ns]
    rfl

end

theorem mem_placesIn : (a, tag) ∈ placesIn i ns ↔
    ∃ j rest n, ns[j]? = some n ∧ a = (i + j) :: rest ∧ (rest, tag) ∈ places n := by
  induction ns generalizing i with
  | nil => simp [placesIn]
  | cons n ns ih =>
    rw [placesIn, List.mem_append, ih, List.mem_map]
    constructor
    · rintro (⟨⟨rest, _⟩, h, heq⟩ | ⟨j, rest, m, hm, rfl, h⟩)
      · cases heq
        exact ⟨0, rest, n, rfl, rfl, h⟩
      · exact ⟨j + 1, rest, m, hm, by rw [Nat.add_right_comm, Nat.add_assoc], h⟩
    · rintro ⟨_ | j, rest, m, hm, rfl, h⟩
      · obtain rfl : n = m := Option.some.inj hm
        exact .inl ⟨(rest, tag), h, rfl⟩
      · exact .inr ⟨j, rest, m, hm, by rw [Nat.add_right_comm, Nat.add_assoc], h⟩

theorem mem_placesIn_cons {rest : Address} : (i :: rest, tag) ∈ placesIn 0 ns ↔
    ∃ n, ns[i]? = some n ∧ (rest, tag) ∈ places n := by
  rw [mem_placesIn]
  constructor
  · rintro ⟨j, rest', n, hn, heq, h⟩
    rw [Nat.zero_add, List.cons.injEq] at heq
    obtain ⟨rfl, rfl⟩ := heq
    exact ⟨n, hn, h⟩
  · rintro ⟨n, hn, h⟩
    exact ⟨i, rest, n, hn, by rw [Nat.zero_add], h⟩

theorem nil_notMem_placesIn : ([], tag) ∉ placesIn i ns := by
  simp [mem_placesIn]

theorem mem_places : (a, tag) ∈ places n ↔ (n.below? a).bind tag? = some tag := by
  induction n using Node.induction generalizing a with
  | text content => cases a <;> simp [places, below?, tag?, children]
  | element root attrs nodes ih =>
    cases a with
    | nil => simp [places, below?, tag?, nil_notMem_placesIn, eq_comm]
    | cons i rest =>
      have hroot : (i :: rest, tag) ≠ ([], root) := by simp
      rw [places, List.mem_cons, or_iff_right hroot, mem_placesIn_cons, below?, Option.bind_assoc,
        Option.bind_eq_some_iff]
      exact exists_congr fun child => and_congr_right fun hchild => ih child (List.mem_of_getElem? hchild)

theorem mem_placesIn_zero : (a, tag) ∈ placesIn 0 ns ↔ tagAt? ns a = some tag := by
  cases a with
  | nil => simp [nil_notMem_placesIn, tagAt?]
  | cons i rest =>
    rw [mem_placesIn_cons, tagAt?, Option.bind_eq_some_iff]
    exact exists_congr fun n => and_congr_right fun _ => mem_places

theorem before_placesIn_of (h : ∀ n ∈ ns, (places n).Pairwise fun p q => p.1.Before q.1) (i : Nat) :
    (placesIn i ns).Pairwise fun p q => p.1.Before q.1 := by
  induction ns generalizing i with
  | nil => exact List.Pairwise.nil
  | cons n ns ih =>
    obtain ⟨hn, hns⟩ := List.forall_mem_cons.1 h
    rw [placesIn, List.pairwise_append, List.pairwise_map]
    refine ⟨hn.imp List.Lex.cons, ih hns (i + 1), fun p hp q hq => ?_⟩
    obtain ⟨p, -, rfl⟩ := List.mem_map.1 hp
    obtain ⟨b, tag⟩ := q
    obtain ⟨j, rest, -, -, rfl, -⟩ := mem_placesIn.1 hq
    exact List.Lex.rel (by omega)

theorem before_places (n : Node) : (places n).Pairwise fun p q => p.1.Before q.1 := by
  induction n using Node.induction with
  | text content => exact List.Pairwise.nil
  | element tag attrs nodes ih =>
    refine List.Pairwise.cons (fun q hq => ?_) (before_placesIn_of ih 0)
    obtain ⟨b, tag⟩ := q
    obtain ⟨j, rest, -, -, rfl, -⟩ := mem_placesIn.1 hq
    exact List.Lex.nil

theorem before_placesIn (i : Nat) (ns : List Node) :
    (placesIn i ns).Pairwise fun p q => p.1.Before q.1 :=
  before_placesIn_of (fun n _ => before_places n) i

end Node

open Node

/-- What is left without repetitions stands in the order of first places. -/
theorem before_eraseDups {ps : List (Address × Text)}
    (h : ps.Pairwise fun p q => p.1.Before q.1) : (ps.map (·.2)).eraseDups.Pairwise fun s t =>
      ∃ a, (a, s) ∈ ps ∧ ∀ b, (b, t) ∈ ps → a.Before b := by
  induction ps with
  | nil => exact List.Pairwise.nil
  | cons p ps ih =>
    obtain ⟨hfirst, hps⟩ := List.pairwise_cons.1 h
    have hlater {t : Text} (ht : t ∈ (ps.map (·.2)).eraseDups.filter fun t => !t == p.2)
        {b : Address} (hb : (b, t) ∈ p :: ps) : (b, t) ∈ ps := by
      rcases List.mem_cons.1 hb with rfl | hb
      · simp at ht
      · exact hb
    rw [List.map_cons, List.eraseDups_cons, Keyed.eraseDups_filter, List.pairwise_cons]
    refine ⟨fun t ht => ⟨p.1, List.mem_cons_self, fun b hb => hfirst _ (hlater ht hb)⟩, ?_⟩
    refine ((ih hps).filter _).imp_of_mem fun {s t} _ ht hst => ?_
    obtain ⟨a, ha, hbefore⟩ := hst
    exact ⟨a, List.mem_cons_of_mem _ ha, fun b hb => hbefore b (hlater ht hb)⟩

theorem dependencies_eq (nodes : List Node) :
    dependencies nodes = ((placesIn 0 nodes).map (·.2)).eraseDups.filter isComponentTag := by
  rw [dependencies, Keyed.eraseDups_filter, tags_placesIn]

theorem isComponentTag_iff {tag : Text} : isComponentTag tag = true ↔
    ∃ space ∈ ["lightning:", "ui:", "force:", "c:"], space.toList <+: lower tag := by
  simp only [isComponentTag, componentSpaces, List.any_eq_true, List.mem_cons, List.not_mem_nil,
    or_false, List.isPrefixOf_iff_prefix, exists_eq_or_imp, exists_eq_left]

/-- The dependencies of a forest are the tags of its elements that start, in small letters, with a
namespace of components.  Each is listed once, those come first whose first address is first, and a
forest that goes on adds the tags that were not listed before. -/
theorem dependencies_in_document_order (nodes : List Node) :
    (dependencies nodes).Nodup ∧
      (∀ tag, tag ∈ dependencies nodes ↔ (∃ a, tagAt? nodes a = some tag) ∧
        ∃ space ∈ ["lightning:", "ui:", "force:", "c:"], space.toList <+: lower tag) ∧
      ((dependencies nodes).Pairwise fun s t =>
        ∃ a, tagAt? nodes a = some s ∧ ∀ b, tagAt? nodes b = some t → a.Before b) ∧
      ∀ more, dependencies (nodes ++ more) =
        dependencies nodes ++ (dependencies more).filter (· ∉ dependencies nodes) := by
  refine ⟨Keyed.nodup_eraseDups _, fun tag => ?_, ?_, fun more => ?_⟩
  · rw [dependencies_eq, List.mem_filter, isComponentTag_iff, List.mem_eraseDups, List.mem_map]
    simp only [Prod.exists, exists_eq_right, mem_placesIn_zero]
  · have hfirst := before_eraseDups (before_placesIn 0 nodes)
    simp only [mem_placesIn_zero] at hfirst
    rw [dependencies_eq]
    exact hfirst.filter _
  · rw [dependencies_append, List.removeAll, Keyed.eraseDups_filter]
    refine congrArg (dependencies nodes ++ ·) (List.filter_congr fun tag _ => ?_)
    rw [Bool.eq_iff_iff, decide_eq_true_eq, Bool.not_eq_true', ← Bool.not_eq_true, List.elem_iff,
      ← List.mem_eraseDups]
    rfl

/-- What is in an element is listed before its later siblings. -/
example : dependencies
    [.element "div".toList [] [.element "UI:input".toList [] [], .element "c:row".toList [] []],
      .text "c:none".toList, .element "c:row".toList [] [.element "force:icon".toList [] []]] =
    ["UI:input".toList, "c:row".toList, "force:icon".toList] := by decide +kernel

end LightningTemplate
