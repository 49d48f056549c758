import LightningTemplate.Text.Basic

/-! Messages about the progress of the work, and computations that leave some
behind whether they succeed or not. -/
namespace LightningTemplate

inductive Level
  | debug | info | warning
  deriving DecidableEq, Repr

def Level.label : Level → Text
  | .debug => "DEBUG".toList
  | .info => "INFO".toList
  | .warning => "WARNING".toList

inductive Topic
  | markup | mapping | template
  deriving DecidableEq, Repr

def Topic.label : Topic → Text
  | .markup => "markup".toList
  | .mapping => "mapping".toList
  | .template => "template".toList

structure Diagnostic where
  level : Level
  topic : Topic
  message : Text
  deriving DecidableEq, Repr

structure Logged (ε α : Type) where
  outcome : Except ε α
  log : List Diagnostic

namespace Logged
variable {ε α β : Type}

def pure (a : α) : Logged ε α := ⟨.ok a, []⟩

def fail (e : ε) : Logged ε α := ⟨.error e, []⟩

def say (d : Diagnostic) : Logged ε Unit := ⟨.ok (), [d]⟩

def ofOutcome (r : Except ε α) : Logged ε α := ⟨r, []⟩

/-- The second part runs only after success; its messages come after those of the first. -/
def bind (m : Logged ε α) (f : α → Logged ε β) : Logged ε β :=
  match m.outcome with
  | .ok a => ⟨(f a).outcome, m.log ++ (f a).log⟩
  | .error e => ⟨.error e, m.log⟩

instance : Monad (Logged ε) where
  pure := pure
  bind := bind

@[simp] theorem outcome_bind (m : Logged ε α) (f : α → Logged ε β) :
    (m >>= f).outcome = m.outcome >>= fun a => (f a).outcome := by
  show (Logged.bind m f).outcome = _
  unfold Logged.bind
  split <;> rename_i h <;> simp [h, Except.bind, Bind.bind]

theorem bind_eq_ok {m : Logged ε α} {f : α → Logged ε β} {b : β}
    (h : (m >>= f).outcome = .ok b) : ∃ a, m.outcome = .ok a ∧ (f a).outcome = .ok b := by
  rw [outcome_bind] at h
  cases ha : m.outcome with
  | error e => simp [ha, Bind.bind, Except.bind] at h
  | ok a => exact ⟨a, rfl, by simpa [ha, Bind.bind, Except.bind] using h⟩

@[simp] theorem outcome_pure (a : α) : (Pure.pure a : Logged ε α).outcome = .ok a := rfl

def mapError {δ : Type} (f : ε → δ) (m : Logged ε α) : Logged δ α :=
  ⟨m.outcome.mapError f, m.log⟩

end Logged
end LightningTemplate
