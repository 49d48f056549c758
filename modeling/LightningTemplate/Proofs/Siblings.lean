import LightningTemplate.Proofs.Occurrence
import LightningTemplate.Proofs.Yield

/-! Siblings side by side.  The walks over siblings differ in which of them they write and in
what these take over; all of them put walks one after the other (`joined`), most of them a row
for each sibling with what it takes over (`handedOut`).  So what is known of each sibling is
carried to all of them once for each kind of property (`always_renderRows`, `yields_renderRows`)
and not once for each of the walks. -/
namespace LightningTemplate
open Text

namespace Node

/-- Siblings, each with what it takes of what is handed down: the first plain element takes it. -/
def handedOut (handed : Attributes) : List Node → List (Attributes × Node)
  | [] => []
  | n :: ns =>
    (if n.isPlain then handed else [], n) :: handedOut (if n.isPlain then [] else handed) ns

variable {handed : Attributes} {ns : List Node} {p : Attributes × Node}

theorem handedOut_nil (ns : List Node) : handedOut [] ns = ns.map fun n => ([], n) := by
  induction ns with
  | nil => rfl
  | cons n ns ih => rw [handedOut, ite_self, ih, List.map_cons]

theorem map_snd_handedOut (handed : Attributes) (ns : List Node) :
    (handedOut handed ns).map (·.2) = ns := by
  induction ns generalizing handed with
  | nil => rfl
  | cons n ns ih => rw [handedOut, List.map_cons, ih]

theorem mem_of_mem_handedOut (h : p ∈ handedOut handed ns) : p.2 ∈ ns := by
  rw [← map_snd_handedOut handed ns]
  exact List.mem_map_of_mem h

theorem subset_of_mem_handedOut (h : p ∈ handedOut handed ns) : p.1 ⊆ handed := by
  induction ns generalizing handed with
  | nil => cases h
  | cons n ns ih =>
    have hpart (b : Bool) : (if b then handed else []) ⊆ handed ∧
        (if b then [] else handed) ⊆ handed := by
      cases b <;> simp
    rw [handedOut, List.mem_cons] at h
    rcases h with rfl | h
    · exact (hpart _).1
    · exact List.Subset.trans (ih h) (hpart _).2

theorem mem_handedOut_nil {n : Node} (h : n ∈ ns) : ([], n) ∈ handedOut [] ns := by
  rw [handedOut_nil]
  exact List.mem_map_of_mem h

theorem stringsIn_eq (handed : Attributes) (ns : List Node) :
    stringsIn handed ns = (handedOut handed ns).flatMap fun p => strings p.1 p.2 := by
  induction ns generalizing handed with
  | nil => rfl
  | cons n ns ih => rw [stringsIn, handedOut, List.flatMap_cons, ih]

end Node

namespace Walk
variable {ι γ : Type} {pick : Finding → Option γ} {items : List ι} {w : ι → Walk Text}

def joined : List (Walk Text) → Walk Text
  | [] => return []
  | w :: ws => do
    let first ← w
    return first ++ (← joined ws)

/-- What is known of each text, and builds up from the last one, is known of them together. -/
theorem Always.joined {P : ι → Text → Prop} {Q : List ι → Text → Prop} (hnil : Q [] [])
    (hcons : ∀ {i is t u}, P i t → Q is u → Q (i :: is) (t ++ u))
    (h : ∀ i ∈ items, (w i).Always (P i)) : (joined (items.map w)).Always (Q items) := by
  induction items with
  | nil => exact .pure hnil
  | cons i items ih =>
    rw [List.forall_mem_cons] at h
    exact .bind h.1 fun t ht => .bind (ih h.2) fun u hu => .pure (hcons ht hu)

theorem Yields.joined {found : ι → List γ} (h : ∀ i ∈ items, (w i).Yields pick (found i)) :
    (joined (items.map w)).Yields pick (items.flatMap found) := by
  induction items with
  | nil => exact .pure _
  | cons i items ih =>
    rw [List.forall_mem_cons] at h
    exact h.1.bind fun t => (ih h.2).bind_nil fun u => .pure _

end Walk

namespace Render
open Node Walk

variable {γ : Type} {pick : Finding → Option γ} {s : Surroundings} {ps : List (Attributes × Node)}

/-- A sibling with what it takes over, on lines of its own unless it is empty. -/
def renderRow (s : Surroundings) (p : Attributes × Node) : Walk Text := do
  let fragment ← renderNode s p.1 p.2
  return line fragment

def renderRows (s : Surroundings) (ps : List (Attributes × Node)) : Walk Text :=
  joined (ps.map (renderRow s))

theorem renderRows_cons (s : Surroundings) (p : Attributes × Node) (ps : List (Attributes × Node)) :
    renderRows s (p :: ps) = do
      let first ← renderNode s p.1 p.2
      return line first ++ (← renderRows s ps) := by
  simp only [renderRows, List.map_cons, joined, renderRow, bind_assoc, pure_bind]

theorem always_renderRows {P : Attributes × Node → Text → Prop}
    {Q : List (Attributes × Node) → Text → Prop} (hnil : Q [] [])
    (hcons : ∀ {p ps t u}, P p t → Q ps u → Q (p :: ps) (line t ++ u))
    (h : ∀ p ∈ ps, (renderNode s p.1 p.2).Always (P p)) : (renderRows s ps).Always (Q ps) := by
  have hrow : ∀ p ∈ ps, (renderRow s p).Always fun u => ∃ t, P p t ∧ line t = u := fun p hp =>
    .bind (h p hp) fun t ht => .pure ⟨t, ht, rfl⟩
  refine Always.joined hnil ?_ hrow
  rintro p ps _ u ⟨t, ht, rfl⟩ hu
  exact hcons ht hu

theorem yields_renderRows {found : Attributes × Node → List γ}
    (h : ∀ p ∈ ps, (renderNode s p.1 p.2).Yields pick (found p)) :
    (renderRows s ps).Yields pick (ps.flatMap found) :=
  .joined fun p hp => (h p hp).bind_nil fun _ => .pure _

theorem renderAll_eq_rows (s : Surroundings) (ns : List Node) :
    renderAll s ns = renderRows s (handedOut [] ns) := by
  induction ns with
  | nil => rw [renderAll, handedOut, renderRows, List.map_nil, joined]
  | cons n ns ih => rw [renderAll, handedOut, ite_self, renderRows_cons, ih]

theorem renderKeyed_eq_rows (s : Surroundings) (key : Text × Text) (ns : List Node) :
    renderKeyed s key ns = renderRows s (handedOut [key] ns) := by
  induction ns with
  | nil => rw [renderKeyed, handedOut, renderRows, List.map_nil, joined]
  | cons n ns ih =>
    rw [renderKeyed, handedOut, renderRows_cons]
    -- behind the element that takes the key, nothing is handed down any more
    cases n.isPlain with
    | true => simp only [if_true, renderAll_eq_rows]
    | false => simp only [Bool.false_eq_true, if_false, ih]

/-- An iteration says what is to be said about the key, and its children take over what it hands
down. -/
theorem renderIteration_eq_rows (s : Surroundings) (attrs : Attributes) (ns : List Node) :
    renderIteration s (itemVariable attrs) ns = (noteAll (keyWarnings (itemVariable attrs) ns) >>=
      fun _ => renderRows s (handedOut (handedBy .iteration attrs ns) ns)) := by
  unfold renderIteration handedBy
  by_cases h : needsKey ns = true
  · simp only [h, if_true, Bool.and_true, decide_true, renderKeyed_eq_rows]
  · simp only [h, if_false, Bool.false_eq_true, Bool.and_false, renderAll_eq_rows]

theorem key_of_mem_handedBy {attrs : Attributes} {ns : List Node} {a : Text × Text}
    (h : a ∈ handedBy .iteration attrs ns) : a = (keyName, keyBinding (itemVariable attrs)) := by
  unfold handedBy at h
  split at h
  · exact List.mem_singleton.1 h
  · cases h

theorem filterMap_keyWarnings (h : ∀ w, pick (.warning w) = none) (itemVar : Text)
    (ns : List Node) : (keyWarnings itemVar ns).filterMap pick = [] := by
  unfold keyWarnings
  split
  · simp [h]
  · split <;> simp [h]

theorem renderMain_eq (s : Surroundings) (nodes : List Node) :
    renderMain s nodes = renderAll s (nodes.filter (!·.isOtherBranch)) := by
  induction nodes with
  | nil => simp [renderMain, renderAll]
  | cons n nodes ih =>
    cases h : n.isOtherBranch with
    | true => simp [renderMain, h, ih]
    | false => simp [renderMain, renderAll, h, ih]

theorem renderElse_eq_joined (s : Surroundings) (nodes : List Node) : renderElse s nodes =
    joined ((nodes.filter (·.isOtherBranch)).map fun n => renderAll s n.children) := by
  induction nodes with
  | nil => rw [renderElse, List.filter_nil, List.map_nil, joined]
  | cons n nodes ih =>
    rw [renderElse_cons]
    cases h : n.isOtherBranch with
    | true => rw [if_pos rfl, List.filter_cons_of_pos h, List.map_cons, joined, ih]
    | false => rw [if_neg Bool.false_ne_true, List.filter_cons_of_neg (by simp [h]), ih]

end Render
end LightningTemplate
