import LightningTemplate.Proofs.Siblings

/-! Two walks side by side.  `Beside pick R v w` says that, however many getters came before,
the results of the two walks are related by `R`, and that they find the same among what is
picked.  If the getters are among that, the walks hoist equally many of them, so whatever
follows the one and the other starts alike (`Beside.bind`). -/
namespace LightningTemplate
variable {α β γ δ κ : Type}

namespace Finding
variable {pick : Finding → Option κ} {read : Finding → Option γ}

/-- What is read off a finding can be told from what is picked of it. -/
def Shows (pick : Finding → Option κ) (read : Finding → Option γ) : Prop :=
  ∃ tell : κ → Option γ, ∀ f, (pick f).bind tell = read f

theorem Shows.eq (h : Shows pick read) {a b : List Finding}
    (hab : a.filterMap pick = b.filterMap pick) : a.filterMap read = b.filterMap read := by
  obtain ⟨tell, htell⟩ := h
  have hread (log : List Finding) : log.filterMap read = (log.filterMap pick).filterMap tell := by
    rw [List.filterMap_filterMap]
    congr 1
    funext f
    exact (htell f).symm
  rw [hread, hread, hab]

theorem Shows.refl (pick : Finding → Option κ) : Shows pick pick :=
  ⟨some, fun f => by cases pick f <;> rfl⟩

theorem Shows.count_eq (h : Shows pick getter?) {a b : List Finding}
    (hab : a.filterMap pick = b.filterMap pick) : getterCount a = getterCount b := by
  rw [getterCount, getterCount, h.eq hab]

end Finding

namespace Walk
open Finding

/-- The results are related, and the same is found among what is picked. -/
def Beside (pick : Finding → Option κ) (R : α → β → Prop) (v : Walk α) (w : Walk β) : Prop :=
  ∀ n, R (v.run n).1 (w.run n).1 ∧ (v.run n).2.filterMap pick = (w.run n).2.filterMap pick

namespace Beside
variable {pick : Finding → Option κ} {R : α → β → Prop} {Q : γ → δ → Prop} {v : Walk α} {w : Walk β}

theorem pure {a : α} {b : β} (h : R a b) : Beside pick R (Pure.pure a) (Pure.pure b) :=
  fun _ => ⟨h, rfl⟩

theorem refl (v : Walk α) : Beside pick Eq v v := fun _ => ⟨rfl, rfl⟩

theorem bind (hp : Shows pick getter?) {f : α → Walk γ} {g : β → Walk δ} (h : Beside pick R v w)
    (hf : ∀ a b, R a b → Beside pick Q (f a) (g b)) : Beside pick Q (v >>= f) (w >>= g) := by
  intro n
  obtain ⟨hresult, hlog⟩ := h n
  have hcount := hp.count_eq hlog
  rw [run_bind, run_bind, List.filterMap_append, List.filterMap_append, hlog, hcount]
  obtain ⟨hrest, hmore⟩ := hf _ _ hresult (n + getterCount (w.run n).2)
  exact ⟨hrest, by rw [hmore]⟩

theorem bind_same (hp : Shows pick getter?) (v : Walk α) {f : α → Walk γ} {g : α → Walk δ}
    (hf : ∀ a, Beside pick Q (f a) (g a)) : Beside pick Q (v >>= f) (v >>= g) := by
  apply bind hp (refl v)
  rintro a b rfl
  exact hf a

/-- One walk stands in front of both, and something is known of what it gives. -/
theorem bind_always (hp : Shows pick getter?) {P : α → Prop} {f : α → Walk γ} {g : α → Walk δ}
    (hv : v.Always P) (hf : ∀ a, P a → Beside pick Q (f a) (g a)) :
    Beside pick Q (v >>= f) (v >>= g) := by
  have hsame : Beside pick (fun a b => a = b ∧ P a) v v := fun n => ⟨⟨rfl, hv n⟩, rfl⟩
  apply bind hp hsame
  rintro a b ⟨rfl, ha⟩
  exact hf a ha

theorem ite {c : Prop} [Decidable c] {v' : Walk α} {w' : Walk β} (h : Beside pick R v w)
    (h' : Beside pick R v' w') :
    Beside pick R (if c then v else v') (if c then w else w') := by
  by_cases hc : c
  · rwa [if_pos hc, if_pos hc]
  · rwa [if_neg hc, if_neg hc]

theorem note {f g : Finding} (h : pick f = pick g) :
    Beside pick (fun _ _ => True) (Walk.note f) (Walk.note g) := by
  intro n
  refine ⟨trivial, ?_⟩
  rw [run_note, run_note, List.filterMap_cons, List.filterMap_cons, h]

/-- Walks that are known on their own find the same when each finds just that. -/
theorem of_yields {found : List κ} (hv : v.Yields pick found) (hw : w.Yields pick found)
    (h : ∀ n, R (v.run n).1 (w.run n).1) : Beside pick R v w :=
  fun n => ⟨h n, (hv n).trans (hw n).symm⟩

end Beside
end Walk

namespace Render
open Finding Node Walk

/-- Fragments that are related make related rows when they are put side by side. -/
structure Stacks (R J : Text → Text → Prop) : Prop where
  nil : J [] []
  line : ∀ {a b}, R a b → J (line a) (line b)
  append : ∀ {a b c d}, J a b → J c d → J (a ++ c) (b ++ d)

variable {pick : Finding → Option κ} {R J : Text → Text → Prop} (s s' : Surroundings)
  {ns : List Node}

theorem beside_joined {ι : Type} {items : List ι} {v w : ι → Walk Text} (hp : Shows pick getter?)
    (hR : Stacks R J) (h : ∀ i ∈ items, Beside pick J (v i) (w i)) :
    Beside pick J (joined (items.map v)) (joined (items.map w)) := by
  induction items with
  | nil => exact .pure hR.nil
  | cons i items ih =>
    rw [List.forall_mem_cons] at h
    exact .bind hp h.1 fun a b hab => .bind hp (ih h.2) fun c d hcd => .pure (hR.append hab hcd)

theorem beside_renderRows (hp : Shows pick getter?) (hR : Stacks R J)
    {ps : List (Attributes × Node)}
    (h : ∀ p ∈ ps, Beside pick R (renderNode s p.1 p.2) (renderNode s' p.1 p.2)) :
    Beside pick J (renderRows s ps) (renderRows s' ps) :=
  beside_joined hp hR fun p hmem => .bind hp (h p hmem) fun _ _ hab => .pure (hR.line hab)

theorem beside_renderAll (hp : Shows pick getter?) (hR : Stacks R J)
    (h : ∀ n ∈ ns, Beside pick R (renderNode s [] n) (renderNode s' [] n)) :
    Beside pick J (renderAll s ns) (renderAll s' ns) := by
  rw [renderAll_eq_rows, renderAll_eq_rows, handedOut_nil]
  exact beside_renderRows s s' hp hR (List.forall_mem_map.2 h)

theorem beside_renderMain (hp : Shows pick getter?) (hR : Stacks R J)
    (h : ∀ n ∈ ns, Beside pick R (renderNode s [] n) (renderNode s' [] n)) :
    Beside pick J (renderMain s ns) (renderMain s' ns) := by
  rw [renderMain_eq, renderMain_eq]
  exact beside_renderAll s s' hp hR fun n hn => h n (List.mem_filter.1 hn).1

theorem beside_renderElse (hp : Shows pick getter?) (hR : Stacks R J)
    (h : ∀ n ∈ ns, Beside pick J (renderAll s n.children) (renderAll s' n.children)) :
    Beside pick J (renderElse s ns) (renderElse s' ns) := by
  rw [renderElse_eq_joined, renderElse_eq_joined]
  exact beside_joined hp hR fun n hn => h n (List.mem_filter.1 hn).1

/-- The children of an iteration, told what is to be said about their key. -/
theorem beside_renderIteration (hp : Shows pick getter?) (hR : Stacks R J) (attrs : Attributes)
    (h : ∀ p ∈ handedOut (handedBy .iteration attrs ns) ns,
      Beside pick R (renderNode s p.1 p.2) (renderNode s' p.1 p.2)) :
    Beside pick J (renderIteration s (itemVariable attrs) ns)
      (renderIteration s' (itemVariable attrs) ns) := by
  rw [renderIteration_eq_rows, renderIteration_eq_rows]
  exact .bind_same hp _ fun _ => beside_renderRows s s' hp hR h

end Render
end LightningTemplate
