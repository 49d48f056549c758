import LightningTemplate.Mapping.BuiltIn
import LightningTemplate.Proofs.StoreWalk
import LightningTemplate.Session

/-! The transformation writes into its context and never reads there.  All that it takes from a
context is the tables, the enclosing template tag and the number of getters; all that it
leaves is a log, which extends what the lists of the context held before. -/
namespace LightningTemplate

namespace Session
open Render Walk

variable {s : Session} {i : Nat}

/-- What the lists hold to which an action in the context adds. -/
def state (s : Session) (i : Nat) : Findings := s.findings (s.context i)

/-- The lists of the context are in the store. -/
def Holds (s : Session) (i : Nat) : Prop := s.store.Holds (s.context i)

/-- The action answers with the text and writes the log: what the lists of the context hold is
extended by it, and nothing else is touched. -/
structure Writes (s : Session) (i : Nat) (a : Action) (text : Text) (log : List Finding)
    (after : Session) : Prop where
  answer : (s.step i a).outcome = .ok (after, ⟨.text text, i⟩)
  state : after.state i = (s.state i).extend log
  others : Store.SameElsewhere (s.context i) s.store after.store
  mapping : after.mapping = s.mapping
  contexts : after.contexts = s.contexts

/-- The session after a log was written in the context. -/
def written (s : Session) (i : Nat) (log : List Finding) : Session :=
  { s with store := { s.store.write (s.context i) log with unmapped := s.store.unmapped } }

theorem state_written (h : s.Holds i) (log : List Finding) :
    (s.written i log).state i = (s.state i).extend log := Store.findings_write h log

theorem holds_written (h : s.Holds i) (log : List Finding) : (s.written i log).Holds i :=
  have hw := Store.Holds.write h log
  ⟨hw.warnings, hw.usedDirectives, hw.usedComponents, hw.channels, hw.recordData, hw.facets,
    hw.getters⟩

theorem getters_written (h : s.Holds i) (log : List Finding) :
    ((s.written i log).state i).getters.length =
      (s.state i).getters.length + Finding.getterCount log := Store.getters_write h log

theorem written_nil (s : Session) (i : Nat) : s.written i [] = s := by
  rw [written, Store.write_nil]

theorem written_append (s : Session) (i : Nat) (a b : List Finding) :
    (s.written i a).written i b = s.written i (a ++ b) := by
  have hstore : ({ s.store.write (s.context i) a with unmapped := s.store.unmapped } : Store).write
      (s.context i) b = { (s.store.write (s.context i) a).write (s.context i) b with
        unmapped := s.store.unmapped ++ b.filterMap Finding.unmapped? } := rfl
  have hctx : (s.written i a).context i = s.context i := rfl
  rw [written, hctx]
  simp only [written, hstore, Store.write_append]

/-- Work that simulates a walk writes what the walk finds. -/
theorem perform_eq (h : s.Holds i) {α : Type} {work : StoreM α} {w : Walk α}
    (hw : Simulates (s.context i) work w) :
    let r := w.run (s.state i).getters.length
    s.perform work = (s.written i r.2, r.1, r.2.filterMap Finding.unmapped?) := by
  intro r
  have hholds : ({ s.store with unmapped := [] } : Store).Holds (s.context i) :=
    ⟨h.warnings, h.usedDirectives, h.usedComponents, h.channels, h.recordData, h.facets, h.getters⟩
  rw [perform, hw _ hholds]
  rfl

theorem writes_of_simulates (h : s.Holds i) {a : Action} {work : StoreM Text} {w : Walk Text}
    (hw : Simulates (s.context i) work w)
    (ha : (s.step i a).outcome = .ok ((s.perform work).1, ⟨.text (s.perform work).2.1, i⟩)) :
    let r := w.run (s.state i).getters.length
    s.Writes i a r.1 r.2 (s.written i r.2) := by
  intro r
  rw [perform_eq h hw] at ha
  have hothers := Store.sameElsewhere_write s.store (s.context i) r.2
  exact ⟨ha, state_written h _, ⟨hothers.warnings, hothers.usedDirectives, hothers.usedComponents,
    hothers.channels, hothers.recordData, hothers.facets, hothers.getters⟩, rfl, rfl⟩

theorem writes_transform (h : s.Holds i) (node : Node) (indent : Text) :
    let r := (renderNode ⟨s.mapping, (s.context i).parent, indent⟩ [] node).run
      (s.state i).getters.length
    s.Writes i (.transform node indent) r.1 r.2 (s.written i r.2) :=
  writes_of_simulates h (Transformer.simulates_transform ⟨_, _, indent⟩ _ rfl [] node) rfl

theorem writes_children (h : s.Holds i) (nodes : List Node) (indent : Text) :
    let r := (renderAll ⟨s.mapping, (s.context i).parent, indent⟩ nodes).run
      (s.state i).getters.length
    s.Writes i (.children nodes indent) r.1 r.2 (s.written i r.2) :=
  writes_of_simulates h (Transformer.simulates_children ⟨_, _, indent⟩ _ rfl nodes) rfl

/-- What an action writes can be read off its step. -/
theorem Writes.told {α : Type} {a : Action} {text : Text} {log : List Finding} {after : Session}
    (hw : s.Writes i a text log after) (f : Session → Text → α) :
    (s.step i a).outcome.toOption.map (fun r => f r.1 r.2.value.display) = some (f after text) := by
  rw [hw.answer]
  rfl

end Session

open Session

def Store.ofFamilies (families : List Findings) : Store where
  warnings := families.map (·.warnings)
  usedDirectives := families.map (·.usedDirectives)
  usedComponents := families.map (·.usedComponents)
  channels := families.map (·.channels)
  recordData := families.map (·.recordData)
  facets := families.map (·.facets)
  getters := families.map (·.getters)

def Context.within (family : Nat) (parent : Value) : Context :=
  ⟨family, family, family, family, family, family, family, parent⟩

/-- A context within a card, after one getter was hoisted. -/
def earlySession : Session where
  mapping := .builtIn
  store := .ofFamilies [{ getters := [⟨"computedValue1".toList, "v.a + 1".toList⟩] }]
  contexts := [.within 0 .null, .within 0 (.text "lightning-card".toList)]

theorem holds_earlySession : earlySession.Holds 1 := by
  constructor <;> decide

end LightningTemplate
