import LightningTemplate.Proofs.Finding

/-! Writing with findings.  A walk yields a result and a log of findings; all that it
sees of what came before it is the number of getters hoisted so far, which fixes
the names of its own.  Logs are only ever joined, so a walk can add to earlier
findings and never change them. -/
namespace LightningTemplate

/-- From the number of getters so far to a result and what was found on the way. -/
def Walk (α : Type) := Nat → α × List Finding

namespace Walk
variable {α β : Type}

def run (w : Walk α) (count : Nat) : α × List Finding := w count

@[ext] theorem ext {a b : Walk α} (h : ∀ n, a.run n = b.run n) : a = b := funext h

def pure (a : α) : Walk α := fun _ => (a, [])

/-- The second walk starts with the getters of the first one added. -/
def bind (w : Walk α) (f : α → Walk β) : Walk β := fun n =>
  let first := w n
  let second := f first.1 (n + Finding.getterCount first.2)
  (second.1, first.2 ++ second.2)

instance : Monad Walk where
  pure := pure
  bind := bind

@[simp] theorem run_pure (a : α) (n : Nat) : (Pure.pure a : Walk α).run n = (a, []) := rfl

@[simp] theorem run_bind (w : Walk α) (f : α → Walk β) (n : Nat) :
    (w >>= f).run n =
      (((f (w.run n).1).run (n + Finding.getterCount (w.run n).2)).1,
        (w.run n).2 ++ ((f (w.run n).1).run (n + Finding.getterCount (w.run n).2)).2) := rfl

instance : LawfulMonad Walk := LawfulMonad.mk' Walk
  (fun x => by apply Walk.ext; intro n; simp [Functor.map, bind, pure, run])
  (fun a f => by apply Walk.ext; intro n; simp)
  (fun x f g => by apply Walk.ext; intro n; simp [Nat.add_assoc])

@[simp] theorem run_map (w : Walk α) (f : α → β) (n : Nat) :
    (f <$> w).run n = (f (w.run n).1, (w.run n).2) := by
  rw [map_eq_pure_bind, run_bind]; simp

def note (f : Finding) : Walk Unit := fun _ => ((), [f])

@[simp] theorem run_note (f : Finding) (n : Nat) : (note f).run n = ((), [f]) := rfl

def warn (w : Warning) : Walk Unit := note (.warning w)

/-- Replaces the expressions of a text and hoists those that compute. -/
def convert (t : Text) : Walk Text := fun n =>
  let r := Expression.substitute n t
  (r.text, r.hoisted.map .getter)

@[simp] theorem run_convert (t : Text) (n : Nat) : (convert t).run n =
    ((Expression.substitute n t).text, (Expression.substitute n t).hoisted.map .getter) := rfl

end Walk
end LightningTemplate
