import LightningTemplate.Proofs.Render

/-! What a walk gives and what it finds, whatever was hoisted before it.  `Always P w`
says that every result of the walk has the property; `Yields pick w found` says that it
finds just `found` among the findings that are picked, and the parts of a walk then add
up to the whole. -/
namespace LightningTemplate.Walk
variable {α β γ : Type} {pick : Finding → Option γ} {xs ys : List γ}

def Always (P : α → Prop) (w : Walk α) : Prop := ∀ n, P (w.run n).1

theorem Always.pure {P : α → Prop} {a : α} (h : P a) : (Pure.pure a : Walk α).Always P := fun _ => h

theorem Always.bind {P : α → Prop} {Q : β → Prop} {w : Walk α} {f : α → Walk β} (hw : w.Always P)
    (hf : ∀ a, P a → (f a).Always Q) : (w >>= f).Always Q :=
  fun n => hf _ (hw n) _

theorem Always.bind_any {Q : β → Prop} {w : Walk α} {f : α → Walk β}
    (hf : ∀ a, (f a).Always Q) : (w >>= f).Always Q :=
  fun _ => hf _ _

theorem Always.ite {P : α → Prop} {c : Prop} [Decidable c] {a b : Walk α} (ha : a.Always P)
    (hb : b.Always P) : (if c then a else b).Always P := by
  split <;> assumption

def Yields (pick : Finding → Option γ) (w : Walk α) (found : List γ) : Prop :=
  ∀ n, (w.run n).2.filterMap pick = found

theorem Yields.pure (a : α) : (Pure.pure a : Walk α).Yields pick [] := fun _ => rfl

theorem Yields.bind {w : Walk α} {f : α → Walk β} (hw : w.Yields pick xs)
    (hf : ∀ a, (f a).Yields pick ys) : (w >>= f).Yields pick (xs ++ ys) := by
  intro n
  rw [run_bind, List.filterMap_append, hw n, hf]

theorem Yields.bind_nil {w : Walk α} {f : α → Walk β} (hw : w.Yields pick xs)
    (hf : ∀ a, (f a).Yields pick []) : (w >>= f).Yields pick xs := by
  simpa using hw.bind hf

theorem Yields.nil_bind {w : Walk α} {f : α → Walk β} (hw : w.Yields pick [])
    (hf : ∀ a, (f a).Yields pick ys) : (w >>= f).Yields pick ys := by
  simpa using hw.bind hf

/-- Something is known of what the first walk gives, and it finds nothing that is picked. -/
theorem Yields.nil_bind_of {P : α → Prop} {w : Walk α} {f : α → Walk β} (hw : w.Yields pick [])
    (hP : w.Always P) (hf : ∀ a, P a → (f a).Yields pick ys) : (w >>= f).Yields pick ys := by
  intro n
  rw [run_bind, List.filterMap_append, hw n, hf _ (hP n), List.nil_append]

theorem Yields.note {f : Finding} (h : pick f = none) : (Walk.note f).Yields pick [] := by
  intro n
  simp [h]

theorem Yields.ite {c : Prop} [Decidable c] {a b : Walk α} (ha : a.Yields pick xs)
    (hb : b.Yields pick xs) : (if c then a else b).Yields pick xs := by
  split <;> assumption

theorem yields_noteAll (pick : Finding → Option γ) (fs : List Finding) :
    (Render.noteAll fs).Yields pick (fs.filterMap pick) := by
  induction fs with
  | nil => exact .pure _
  | cons f fs ih =>
    intro n
    rw [Render.noteAll, run_bind, run_note, List.filterMap_append, ih]
    exact (List.filterMap_append (l := [f])).symm

theorem yields_noteAll_nil {fs : List Finding} (h : fs.filterMap pick = []) :
    (Render.noteAll fs).Yields pick [] := by
  rw [← h]
  exact yields_noteAll pick fs

end LightningTemplate.Walk
