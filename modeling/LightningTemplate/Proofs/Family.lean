import Mathlib.Data.List.Nodup
import Mathlib.Logic.Relation
import LightningTemplate.Proofs.Writer

/-! Families of contexts.  Contexts that were made from one another share their findings and
no others: whatever the actions of a session and their order, two contexts see the same
findings whenever the history has linked them, and an action on one leaves the findings of
those it is not linked to. -/
namespace LightningTemplate
open Relation

namespace Findings
variable {fs : Findings}

/-- Getters are numbered from one, and nothing is in use twice. -/
structure Tidy (fs : Findings) : Prop where
  names : fs.getters.map (·.name) =
    (List.range fs.getters.length).map fun n => Expression.getterName (n + 1)
  directives : fs.usedDirectives.Nodup
  components : fs.usedComponents.Pairwise fun earlier later => earlier.same later = false

theorem tidy_empty : Tidy {} := ⟨rfl, List.nodup_nil, .nil⟩

theorem Tidy.record (h : fs.Tidy) (f : Finding) : (fs.record f).Tidy := by
  cases f with
  | getter e =>
    refine ⟨?_, h.directives, h.components⟩
    simp [Findings.record, h.names, List.range_succ]
  | directive d =>
    refine ⟨?_, ?_, ?_⟩ <;> rw [Findings.record] <;> split
    · exact h.names
    · exact h.names
    · exact h.directives
    · rename_i hnew
      exact List.nodup_append.2 ⟨h.directives, List.nodup_singleton d, fun a ha b hb hab =>
        hnew (by simpa [← List.mem_singleton.1 hb, ← hab] using ha)⟩
    · exact h.components
    · exact h.components
  | component v =>
    refine ⟨?_, ?_, ?_⟩ <;> rw [Findings.record] <;> split
    · exact h.names
    · exact h.names
    · exact h.directives
    · exact h.directives
    · exact h.components
    · rename_i hnew
      refine List.pairwise_append.2 ⟨h.components, List.pairwise_singleton _ v, fun a ha b hb => ?_⟩
      rw [List.mem_singleton.1 hb]
      simpa using List.any_eq_false.1 (Bool.not_eq_true _ ▸ hnew) a ha
  | _ => exact ⟨h.names, h.directives, h.components⟩

theorem Tidy.extend (h : fs.Tidy) (log : List Finding) : (fs.extend log).Tidy := by
  induction log generalizing fs with
  | nil => rwa [extend_nil]
  | cons f log ih =>
    rw [extend_cons]
    exact ih (h.record f)

end Findings

/-- The place at which the lists of a context stand, and where all of them do. -/
def Context.family (c : Context) : Nat := c.warnings

def Context.IsWithin (c : Context) : Prop := c = .within c.family c.parent

namespace Store
variable {st : Store} {f g n : Nat} {parent : Value}

def family (st : Store) (f : Nat) : Findings := (Context.within f .null).findings st

structure Level (st : Store) (n : Nat) : Prop where
  warnings : st.warnings.length = n
  usedDirectives : st.usedDirectives.length = n
  usedComponents : st.usedComponents.length = n
  channels : st.channels.length = n
  recordData : st.recordData.length = n
  facets : st.facets.length = n
  getters : st.getters.length = n

theorem Level.holds (h : st.Level n) (hf : f < n) : st.Holds (.within f parent) :=
  ⟨h.warnings ▸ hf, h.usedDirectives ▸ hf, h.usedComponents ▸ hf, h.channels ▸ hf,
    h.recordData ▸ hf, h.facets ▸ hf, h.getters ▸ hf⟩

theorem Level.write (h : st.Level n) (c : Context) (log : List Finding) :
    (st.write c log).Level n := by
  constructor <;> simp only [Store.write, List.length_modify]
  exacts [h.warnings, h.usedDirectives, h.usedComponents, h.channels, h.recordData, h.facets,
    h.getters]

theorem Level.addLists (h : st.Level n) : st.addLists.Level (n + 1) := by
  constructor <;> simp only [Store.addLists, List.length_append, List.length_singleton]
  exacts [congrArg Nat.succ h.warnings, congrArg Nat.succ h.usedDirectives,
    congrArg Nat.succ h.usedComponents, congrArg Nat.succ h.channels,
    congrArg Nat.succ h.recordData, congrArg Nat.succ h.facets, congrArg Nat.succ h.getters]

theorem Level.nextContext (h : st.Level n) : st.nextContext = .within n .null := by
  simp only [Store.nextContext, Context.within, h.warnings, h.usedDirectives, h.usedComponents,
    h.channels, h.recordData, h.facets, h.getters]

theorem family_write (h : st.Level n) (hf : f < n) (log : List Finding) :
    (st.write (.within f parent) log).family f = (st.family f).extend log :=
  findings_write (h.holds hf) log

theorem SameElsewhere.family {st' : Store} (h : SameElsewhere (.within f parent) st st')
    (hg : g ≠ f) : st'.family g = st.family g := by
  simp only [Store.family, Context.findings, listAt, Context.within, h.warnings g hg,
    h.usedDirectives g hg, h.usedComponents g hg, h.channels g hg, h.recordData g hg,
    h.facets g hg, h.getters g hg]

theorem sameElsewhere_addLists (st : Store) : SameElsewhere st.nextContext st st.addLists := by
  have hlast {α : Type} (lists : List (List α)) (i : Nat) (h : i ≠ lists.length) :
      (lists ++ [[]])[i]? = lists[i]? := by
    rcases Nat.lt_or_gt_of_ne h with h | h
    · exact List.getElem?_append_left h
    · rw [List.getElem?_eq_none (by simp; omega), List.getElem?_eq_none (by omega)]
  constructor <;> exact fun i hi => hlast _ i hi

theorem family_nextContext (h : st.Level n) : st.addLists.family n = {} := by
  have hlast {α : Type} {lists : List (List α)} (h : lists.length = n) :
      listAt (lists ++ [[]]) n = [] := by
    subst h
    simp [listAt]
  simp only [Store.family, Context.findings, Context.within, Store.addLists, hlast h.warnings,
    hlast h.usedDirectives, hlast h.usedComponents, hlast h.channels, hlast h.recordData,
    hlast h.facets, hlast h.getters]

end Store

namespace Session
open Transformer

variable {m : Mapping} {s : Session} {steps : List (Nat × Action)} {i j k : Nat} {a : Action}

/-- The session after an action.  A document that cannot be finished has changed nothing. -/
def after (s : Session) (i : Nat) (a : Action) : Session :=
  match (s.step i a).outcome with
  | .ok r => r.1
  | .error _ => s

def families (s : Session) : Nat := s.store.warnings.length

def Action.makesContext : Action → Bool
  | .forParent _ | .newContext => true
  | _ => false

def Action.isDocument : Action → Bool
  | .document _ => true
  | _ => false

theorem after_document (s : Session) (i : Nat) (nodes : List Node) : s.after i (.document nodes) = s := by
  rw [after, step, Logged.outcome_bind]
  cases (Conversion.convert s.mapping nodes).outcome <;> rfl

/-- An action writes into its context, or it makes a context, or it is a document of its own. -/
theorem after_cases (h : s.Holds i) (a : Action) :
    (a.isDocument = true ∧ a.makesContext = false ∧ s.after i a = s) ∨
      (∃ log, a.makesContext = false ∧ s.after i a = s.written i log) ∨
      (∃ tag, a = .forParent tag ∧ s.after i a = s.addContext ((s.context i).forParent tag)) ∨
      (a = .newContext ∧ s.after i a = s.addNew) := by
  have hwork {α : Type} {work : StoreM α} {w : Walk α} (hw : Simulates (s.context i) work w) :
      ∃ log, (s.perform work).1 = s.written i log := ⟨_, congrArg Prod.fst (perform_eq h hw)⟩
  have hwrite (ha : a.makesContext = false) (hlog : ∃ log, s.after i a = s.written i log) :
      ∃ log, a.makesContext = false ∧ s.after i a = s.written i log :=
    hlog.imp fun _ hlog => ⟨ha, hlog⟩
  cases a with
  | document nodes => exact .inl ⟨rfl, rfl, after_document s i nodes⟩
  | forParent tag => exact .inr (.inr (.inl ⟨tag, rfl, rfl⟩))
  | newContext => exact .inr (.inr (.inr ⟨rfl, rfl⟩))
  | warn message => exact .inr (.inl (hwrite rfl (hwork (simulates_warn _ _))))
  | useDirective name => exact .inr (.inl (hwrite rfl (hwork (simulates_useDirective _ _))))
  | useComponent name => exact .inr (.inl (hwrite rfl (hwork (simulates_useComponent _ _))))
  | convert text => exact .inr (.inl (hwrite rfl (hwork (simulates_convert _ _))))
  | transform node indent =>
    exact .inr (.inl (hwrite rfl (hwork (simulates_transform ⟨_, _, indent⟩ _ rfl [] node))))
  | children nodes indent =>
    exact .inr (.inl (hwrite rfl (hwork (simulates_children ⟨_, _, indent⟩ _ rfl nodes))))
  | iterationChildren nodes indent itemVar =>
    exact .inr (.inl (hwrite rfl (hwork
      (simulates_iterationChildren ⟨_, _, indent⟩ _ rfl itemVar nodes))))

theorem context_addContext (h : j < s.contexts.length) (c : Context) :
    (s.addContext c).context j = s.context j := by
  rw [context, context, addContext, List.getElem?_append_left h]

theorem context_addNew (h : j < s.contexts.length) : s.addNew.context j = s.context j :=
  context_addContext h _

theorem context_addContext_length (s : Session) (c : Context) :
    (s.addContext c).context s.contexts.length = c := by
  rw [context, addContext, List.getElem?_concat_length]
  rfl

theorem context_after (hi : s.Holds i) (h : j < s.contexts.length) (a : Action) :
    (s.after i a).context j = s.context j := by
  obtain ⟨-, -, hafter⟩ | ⟨log, -, hafter⟩ | ⟨tag, -, hafter⟩ | ⟨-, hafter⟩ := after_cases hi a
  · rw [hafter]
  · rw [hafter]
    rfl
  · rw [hafter, context_addContext h]
  · rw [hafter, context_addNew h]

/-- The session that the steps lead to from its start, each of them on a context that is there. -/
inductive Reaches (m : Mapping) : List (Nat × Action) → Session → Prop
  | start : Reaches m [] (start m)
  | step {steps : List (Nat × Action)} {s : Session} {i : Nat} (a : Action) :
    Reaches m steps s → i < s.contexts.length → Reaches m (steps ++ [(i, a)]) (s.after i a)

def contextCount (steps : List (Nat × Action)) : Nat := 1 + steps.countP (·.2.makesContext)

/-- One of the steps has made the second context from the first. -/
def MadeFrom (steps : List (Nat × Action)) (i k : Nat) : Prop :=
  ∃ before tag later, steps = before ++ (i, .forParent tag) :: later ∧ k = contextCount before

/-- Both contexts were made from one, directly or through others. -/
def Relatives (steps : List (Nat × Action)) (i j : Nat) : Prop :=
  ∃ origin, ReflTransGen (MadeFrom steps) origin i ∧ ReflTransGen (MadeFrom steps) origin j

theorem madeFrom_concat : MadeFrom (steps ++ [(i, a)]) j k ↔
    MadeFrom steps j k ∨ j = i ∧ (∃ tag, a = .forParent tag) ∧ k = contextCount steps := by
  constructor
  · rintro ⟨before, tag, later, hsteps, rfl⟩
    rcases List.eq_nil_or_concat' later with rfl | ⟨later, last, rfl⟩
    · obtain ⟨rfl, hlast⟩ := List.append_inj' hsteps rfl
      obtain ⟨rfl, rfl⟩ := Prod.mk.inj (List.cons.inj hlast).1
      exact .inr ⟨rfl, ⟨tag, rfl⟩, rfl⟩
    · rw [← List.cons_append, ← List.append_assoc] at hsteps
      exact .inl ⟨before, tag, later, (List.append_inj' hsteps rfl).1, rfl⟩
  · rintro (⟨before, tag, later, rfl, rfl⟩ | ⟨rfl, ⟨tag, rfl⟩, rfl⟩)
    · exact ⟨before, tag, later ++ [(i, a)], by simp, rfl⟩
    · exact ⟨steps, tag, [], rfl, rfl⟩

/-- Only a step for a parent makes a context from one that is there. -/
theorem madeFrom_concat_other (ha : ∀ tag, a ≠ .forParent tag) :
    MadeFrom (steps ++ [(i, a)]) j k ↔ MadeFrom steps j k := by
  rw [madeFrom_concat, or_iff_left]
  rintro ⟨-, ⟨tag, htag⟩, -⟩
  exact ha tag htag

theorem contextCount_concat (steps : List (Nat × Action)) (i : Nat) (a : Action) :
    contextCount (steps ++ [(i, a)]) = contextCount steps + if a.makesContext then 1 else 0 := by
  simp [contextCount, List.countP_append, List.countP_singleton, Nat.add_assoc]

/-- What a history makes of a session: it has made the contexts, a context has its lists in one
family, that of the context that it was made from, and the contexts of a family stem from one
of them. -/
structure Grown (steps : List (Nat × Action)) (s : Session) : Prop where
  count : s.contexts.length = contextCount steps
  level : s.store.Level s.families
  within : ∀ i < s.contexts.length, (s.context i).IsWithin
  bound : ∀ i < s.contexts.length, (s.context i).family < s.families
  made : ∀ i k, MadeFrom steps i k →
    i < s.contexts.length ∧ k < s.contexts.length ∧ (s.context i).family = (s.context k).family
  origin : ∀ f < s.families, ∃ r, ∀ i < s.contexts.length, (s.context i).family = f →
    ReflTransGen (MadeFrom steps) r i
  tidy : ∀ f < s.families, (s.store.family f).Tidy

theorem grown_start (m : Mapping) : Grown [] (start m) := by
  have hnone : ∀ i k, ¬ MadeFrom [] i k := by
    rintro i k ⟨before, tag, later, hsteps, -⟩
    simp at hsteps
  have hempty : (Store.mk [] [] [] [] [] [] [] []).Level 0 := ⟨rfl, rfl, rfl, rfl, rfl, rfl, rfl⟩
  refine ⟨rfl, hempty.addLists, ?_, ?_, fun i k h => absurd h (hnone i k), ?_, ?_⟩
  · intro i hi
    obtain rfl : i = 0 := Nat.lt_one_iff.1 hi
    rfl
  · intro i hi
    obtain rfl : i = 0 := Nat.lt_one_iff.1 hi
    exact Nat.one_pos
  · intro f _
    refine ⟨0, fun i hi _ => ?_⟩
    obtain rfl : i = 0 := Nat.lt_one_iff.1 hi
    exact .refl
  · intro f hf
    obtain rfl : f = 0 := Nat.lt_one_iff.1 hf
    exact Findings.tidy_empty

theorem Grown.holds (h : Grown steps s) (hi : i < s.contexts.length) : s.Holds i := by
  rw [Holds, h.within i hi]
  exact h.level.holds (h.bound i hi)

theorem Grown.state_eq (h : Grown steps s) (hi : i < s.contexts.length) :
    s.state i = s.store.family (s.context i).family :=
  (congrArg (Context.findings · s.store) (h.within i hi)).trans rfl

theorem Grown.tidy_state (h : Grown steps s) (hi : i < s.contexts.length) : (s.state i).Tidy := by
  rw [h.state_eq hi]
  exact h.tidy _ (h.bound i hi)

/-- An action on a context leaves the findings of other families. -/
theorem Grown.state_after (h : Grown steps s) (hi : i < s.contexts.length)
    (hj : j < s.contexts.length) (hij : (s.context j).family ≠ (s.context i).family) (a : Action) :
    (s.after i a).state j = s.state j := by
  obtain ⟨-, -, hafter⟩ | ⟨log, -, hafter⟩ | ⟨tag, -, hafter⟩ | ⟨-, hafter⟩ :=
    after_cases (h.holds hi) a
  · rw [hafter]
  · have hsame := Store.sameElsewhere_write s.store (s.context i) log
    rw [h.within i hi] at hsame
    rw [hafter, h.state_eq hj, ← hsame.family hij, ← h.within i hi]
    exact (congrArg (Context.findings · (s.written i log).store) (h.within j hj)).trans rfl
  · rw [hafter, state, context_addContext hj]
    rfl
  · have hsame := Store.sameElsewhere_addLists s.store
    rw [h.level.nextContext] at hsame
    rw [hafter, state, context_addNew hj, h.state_eq hj, ← hsame.family (Nat.ne_of_lt (h.bound j hj))]
    exact (congrArg (Context.findings · s.addNew.store) (h.within j hj)).trans rfl

/-- A step that makes no context keeps the history of the contexts. -/
theorem Grown.same (h : Grown steps s) (ha : a.makesContext = false) {t : Session}
    (hcontexts : t.contexts = s.contexts) (hlevel : t.store.Level s.families)
    (htidy : ∀ f < s.families, (t.store.family f).Tidy) : Grown (steps ++ [(i, a)]) t := by
  have hcontext : ∀ j, t.context j = s.context j := fun j => by rw [context, context, hcontexts]
  have hfamilies : t.families = s.families := hlevel.warnings
  have hmade : ∀ j k, MadeFrom (steps ++ [(i, a)]) j k ↔ MadeFrom steps j k := fun j k =>
    madeFrom_concat_other (by rintro tag rfl; cases ha)
  refine ⟨?_, hfamilies ▸ hlevel, ?_, ?_, ?_, ?_, hfamilies ▸ htidy⟩
  · rw [hcontexts, h.count, contextCount_concat, ha]
    rfl
  · intro j hj
    rw [hcontext]
    exact h.within j (hcontexts ▸ hj)
  · intro j hj
    rw [hcontext, hfamilies]
    exact h.bound j (hcontexts ▸ hj)
  · intro j k hjk
    rw [hcontext, hcontext, hcontexts]
    exact h.made j k ((hmade j k).1 hjk)
  · intro f hf
    obtain ⟨r, hr⟩ := h.origin f (hfamilies ▸ hf)
    refine ⟨r, fun j hj hfamily => ?_⟩
    rw [hcontext] at hfamily
    exact ReflTransGen.mono (fun _ _ => (hmade _ _).2) _ _ (hr j (hcontexts ▸ hj) hfamily)

/-- A context of an old family stems from the one that it was made from. -/
theorem Grown.forParent (h : Grown steps s) (hi : i < s.contexts.length) (tag : Value) :
    Grown (steps ++ [(i, .forParent tag)]) (s.addContext ((s.context i).forParent tag)) := by
  set t := s.addContext ((s.context i).forParent tag)
  have hlength : t.contexts.length = s.contexts.length + 1 := by simp [t, addContext]
  have hold : ∀ j < s.contexts.length, t.context j = s.context j := fun j hj => context_addContext hj _
  have hadded : t.context s.contexts.length = (s.context i).forParent tag :=
    context_addContext_length s _
  have hnew : (t.context s.contexts.length).family = (s.context i).family := by
    rw [hadded]
    rfl
  have hcases : ∀ j < t.contexts.length, j < s.contexts.length ∨ j = s.contexts.length := by
    intro j hj
    omega
  have hkeeps : ∀ j k, MadeFrom steps j k → MadeFrom (steps ++ [(i, .forParent tag)]) j k :=
    fun j k hjk => madeFrom_concat.2 (.inl hjk)
  have hlink : MadeFrom (steps ++ [(i, .forParent tag)]) i s.contexts.length :=
    madeFrom_concat.2 (.inr ⟨rfl, ⟨tag, rfl⟩, h.count⟩)
  refine ⟨?_, h.level, ?_, ?_, ?_, ?_, h.tidy⟩
  · rw [hlength, h.count, contextCount_concat]
    rfl
  · intro j hj
    rcases hcases j hj with hj | rfl
    · rw [hold j hj]
      exact h.within j hj
    · rw [hadded]
      exact congrArg (Context.forParent · tag) (h.within i hi)
  · intro j hj
    rcases hcases j hj with hj | rfl
    · rw [hold j hj]
      exact h.bound j hj
    · rw [hnew]
      exact h.bound i hi
  · intro j k hjk
    rcases madeFrom_concat.1 hjk with hjk | ⟨rfl, -, rfl⟩
    · obtain ⟨hj, hk, hfamily⟩ := h.made j k hjk
      rw [hold j hj, hold k hk]
      exact ⟨by omega, by omega, hfamily⟩
    · rw [← h.count, hold j hi, hnew]
      exact ⟨by omega, by omega, rfl⟩
  · intro f hf
    obtain ⟨r, hr⟩ := h.origin f hf
    refine ⟨r, fun j hj hfamily => ?_⟩
    rcases hcases j hj with hj | rfl
    · rw [hold j hj] at hfamily
      exact ReflTransGen.mono hkeeps _ _ (hr j hj hfamily)
    · rw [hnew] at hfamily
      exact (ReflTransGen.mono hkeeps _ _ (hr i hi hfamily)).tail hlink

theorem Grown.newContext (h : Grown steps s) (i : Nat) :
    Grown (steps ++ [(i, .newContext)]) s.addNew := by
  have hlength : s.addNew.contexts.length = s.contexts.length + 1 := by simp [addNew, addContext]
  have hlevel : s.addNew.store.Level (s.families + 1) := h.level.addLists
  have hfamilies : s.addNew.families = s.families + 1 := hlevel.warnings
  have hadded : s.addNew.context s.contexts.length = .within s.families .null :=
    (context_addContext_length s _).trans h.level.nextContext
  have hnew : (s.addNew.context s.contexts.length).family = s.families := congrArg Context.family hadded
  have hcases : ∀ j < s.addNew.contexts.length, j < s.contexts.length ∨ j = s.contexts.length := by
    intro j hj
    omega
  have hmade : ∀ j k, MadeFrom (steps ++ [(i, .newContext)]) j k ↔ MadeFrom steps j k := fun j k =>
    madeFrom_concat_other fun tag htag => by cases htag
  refine ⟨?_, hfamilies ▸ hlevel, ?_, ?_, ?_, ?_, ?_⟩
  · rw [hlength, h.count, contextCount_concat]
    rfl
  · intro j hj
    rcases hcases j hj with hj | rfl
    · rw [context_addNew hj]
      exact h.within j hj
    · rw [hadded]
      rfl
  · intro j hj
    rw [hfamilies]
    rcases hcases j hj with hj | rfl
    · rw [context_addNew hj]
      exact Nat.lt_succ_of_lt (h.bound j hj)
    · rw [hnew]
      exact Nat.lt_add_one _
  · intro j k hjk
    obtain ⟨hj, hk, hfamily⟩ := h.made j k ((hmade j k).1 hjk)
    rw [context_addNew hj, context_addNew hk]
    exact ⟨by omega, by omega, hfamily⟩
  · intro f hf
    by_cases hfresh : f = s.families
    · refine ⟨s.contexts.length, fun j hj hfamily => ?_⟩
      rcases hcases j hj with hj | rfl
      · rw [context_addNew hj] at hfamily
        have hbound := h.bound j hj
        omega
      · exact .refl
    · obtain ⟨r, hr⟩ := h.origin f (by omega)
      refine ⟨r, fun j hj hfamily => ?_⟩
      rcases hcases j hj with hj | rfl
      · rw [context_addNew hj] at hfamily
        exact ReflTransGen.mono (fun _ _ => (hmade _ _).2) _ _ (hr j hj hfamily)
      · exact absurd (hfamily.symm.trans hnew) hfresh
  · intro f hf
    have hsame := Store.sameElsewhere_addLists s.store
    rw [h.level.nextContext] at hsame
    show (s.store.addLists.family f).Tidy
    by_cases hfresh : f = s.families
    · rw [hfresh, Store.family_nextContext h.level]
      exact Findings.tidy_empty
    · rw [hsame.family hfresh]
      exact h.tidy f (by omega)

theorem Grown.step (h : Grown steps s) (hi : i < s.contexts.length) (a : Action) :
    Grown (steps ++ [(i, a)]) (s.after i a) := by
  obtain ⟨-, hmakes, hafter⟩ | ⟨log, hmakes, hafter⟩ | ⟨tag, rfl, hafter⟩ | ⟨rfl, hafter⟩ :=
    after_cases (h.holds hi) a
  · rw [hafter]
    exact h.same hmakes rfl h.level h.tidy
  · have hlevel := h.level.write (s.context i) log
    have hsame := Store.sameElsewhere_write s.store (s.context i) log
    rw [h.within i hi] at hsame
    rw [hafter]
    refine h.same hmakes rfl ⟨hlevel.warnings, hlevel.usedDirectives, hlevel.usedComponents,
      hlevel.channels, hlevel.recordData, hlevel.facets, hlevel.getters⟩ fun f hf => ?_
    show ((s.store.write (s.context i) log).family f).Tidy
    rw [h.within i hi]
    by_cases hown : f = (s.context i).family
    · rw [hown, Store.family_write h.level (h.bound i hi)]
      exact (h.tidy _ (h.bound i hi)).extend log
    · rw [hsame.family hown]
      exact h.tidy f hf
  · rw [hafter]
    exact h.forParent hi tag
  · rw [hafter]
    exact h.newContext i

theorem grown_of_reaches (h : Reaches m steps s) : Grown steps s := by
  induction h with
  | start => exact grown_start m
  | step a _ hi ih => exact ih.step hi a

theorem Grown.family_eq_of_stems (h : Grown steps s) (hij : ReflTransGen (MadeFrom steps) i j) :
    (s.context i).family = (s.context j).family := by
  induction hij with
  | refl => rfl
  | tail _ hlast ih => exact ih.trans (h.made _ _ hlast).2.2

/-- Contexts are relatives exactly when they stand in one family. -/
theorem Grown.relatives_iff (h : Grown steps s) (hi : i < s.contexts.length)
    (hj : j < s.contexts.length) :
    Relatives steps i j ↔ (s.context i).family = (s.context j).family := by
  constructor
  · rintro ⟨r, hri, hrj⟩
    exact (h.family_eq_of_stems hri).symm.trans (h.family_eq_of_stems hrj)
  · intro hfamily
    obtain ⟨r, hr⟩ := h.origin _ (h.bound j hj)
    exact ⟨r, hr i hi hfamily, hr j hj rfl⟩

/-- In every session, after a step on any context: relatives hold the same findings; those of no
context but the relatives of the one acted on have changed; the contexts that were there
are what they were, with their enclosing tags; a document has changed nothing; and in every
context getters are numbered from one, and nothing is in use twice. -/
theorem relatives_share (h : Reaches m steps s) (hi : i < s.contexts.length) (a : Action) :
    (∀ j < (s.after i a).contexts.length, ∀ k < (s.after i a).contexts.length,
      Relatives (steps ++ [(i, a)]) j k → (s.after i a).state j = (s.after i a).state k) ∧
    (∀ j < s.contexts.length, ¬ Relatives steps i j → (s.after i a).state j = s.state j) ∧
    (∀ j < s.contexts.length, ((s.after i a).context j).parent = (s.context j).parent) ∧
    (a.isDocument = true → s.after i a = s) ∧
    ∀ j < (s.after i a).contexts.length, ((s.after i a).state j).Tidy := by
  have hgrown := grown_of_reaches h
  have hafter := hgrown.step hi a
  refine ⟨?_, ?_, ?_, ?_, ?_⟩
  · intro j hj k hk hrelatives
    rw [hafter.state_eq hj, hafter.state_eq hk, (hafter.relatives_iff hj hk).1 hrelatives]
  · intro j hj hapart
    refine hgrown.state_after hi hj (fun hfamily => hapart ?_) a
    exact (hgrown.relatives_iff hi hj).2 hfamily.symm
  · intro j hj
    rw [context_after (hgrown.holds hi) hj]
  · intro hdocument
    cases a with
    | document nodes => exact after_document s i nodes
    | _ => cases hdocument
  · exact fun j hj => hafter.tidy_state hj

/-- A relative for a template tag, then a context of a family of its own. -/
def forkSteps : List (Nat × Action) :=
  [(0, .forParent (.text "template".toList)), (0, .newContext)]

def forked : Session :=
  ((start .builtIn).after 0 (.forParent (.text "template".toList))).after 0 .newContext

theorem reaches_forked : Reaches .builtIn forkSteps forked :=
  (Reaches.start.step _ Nat.one_pos).step _ (Nat.lt_add_one_of_lt Nat.one_pos)

theorem relatives_share_forked :
    Reaches .builtIn forkSteps forked ∧ 1 < forked.contexts.length ∧
      ∃ s, forked.after 1 (.useComponent "c-card".toList) = s ∧
        (s.state 0).usedComponents = [.text "c-card".toList] ∧ s.state 0 = s.state 1 ∧
        (s.state 2).usedComponents = [] ∧ s.state 2 = forked.state 2 ∧
        (s.context 1).parent = .text "template".toList ∧ (s.state 1).Tidy := by
  have hi : 1 < forked.contexts.length := by decide
  obtain ⟨hshared, hothers, hparents, -, htidy⟩ :=
    relatives_share reaches_forked hi (.useComponent "c-card".toList)
  have hrelatives : Relatives (forkSteps ++ [(1, .useComponent "c-card".toList)]) 0 1 :=
    ⟨0, .refl, .single ⟨[], _, _, rfl, rfl⟩⟩
  have hapart : ¬ Relatives forkSteps 1 2 := by
    rw [(grown_of_reaches reaches_forked).relatives_iff hi (by decide)]
    decide
  exact ⟨reaches_forked, hi, _, rfl, rfl, hshared 0 (by decide) 1 (by decide) hrelatives, rfl,
    hothers 2 (by decide) hapart, hparents 1 hi, htidy 1 (by decide)⟩

end Session
end LightningTemplate
