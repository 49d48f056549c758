import LightningTemplate.Proofs.InUse
import LightningTemplate.Proofs.Trials

/-! When a conversion fails.  Its one fault is at its end: the components in use are listed by
name, and a target that a mapping file gives as a number, a truth value or anything else but a
text has none.  No text is taken for such a target, so it is met as soon as one rendered
element is written as it. -/
namespace LightningTemplate
open Node

namespace Keyed
variable {κ α : Type} [DecidableEq κ]

theorem mem_insert {key : κ} {a : α} {t : List (κ × α)} {e : κ × α} (h : e ∈ insert key a t) :
    e = (key, a) ∨ e ∈ t := by
  induction t with
  | nil => exact .inl (List.mem_singleton.1 h)
  | cons first t ih =>
    unfold insert at h
    split at h
    · rcases List.mem_cons.1 h with h | h
      · exact .inl h
      · exact .inr (List.mem_cons_of_mem _ h)
    · rcases List.mem_cons.1 h with rfl | h
      · exact .inr List.mem_cons_self
      · exact (ih h).imp id (List.mem_cons_of_mem _)

theorem mem_insertAll {t added : List (κ × α)} {e : κ × α} (h : e ∈ insertAll t added) :
    e ∈ t ∨ e ∈ added := by
  induction added generalizing t with
  | nil => exact .inl h
  | cons first added ih =>
    rcases ih h with h | h
    · rcases mem_insert h with rfl | h
      · exact .inr List.mem_cons_self
      · exact .inl h
    · exact .inr (List.mem_cons_of_mem _ h)

end Keyed

/-- The entries of a map; other values have none. -/
def Value.entries : Value → List (Value × Value)
  | .map entries => entries
  | _ => []

namespace Mapping

/-- The component entries of a mapping file, as they are written. -/
def givenComponents (content : Value) : List (Value × Value) :=
  (Value.field "components".toList content.entries).entries

/-- No component of a mapping file has a list, a map, a set or a tuple as its target. -/
def PlainTargets (content : Value) : Prop :=
  ∀ e ∈ givenComponents content, isCollection (Value.field "lwc".toList e.2.entries) = false

instance (content : Value) : Decidable (PlainTargets content) :=
  inferInstanceAs (Decidable (∀ e ∈ givenComponents content, _ = false))

theorem entriesOf_ok {v : Value} {entries : List (Value × Value)} (h : entriesOf v = .ok entries) :
    entries = v.entries := by
  unfold entriesOf at h
  split at h
  · split at h
    · exact (Except.ok.inj h).symm
    · simp at h
  · rename_i hgiven
    have hentries : v.entries = [] := by
      cases v with
      | map entries => simpa [Value.isGiven, Value.entries] using hgiven
      | _ => rfl
    rw [hentries]
    exact (Except.ok.inj h).symm

theorem target_of_readComponent {key value : Value} {e : Text × ComponentEntry}
    (h : (readComponent key value).outcome = .ok (some e)) :
    e.2.target = Value.field "lwc".toList value.entries := by
  unfold readComponent at h
  split at h
  · obtain ⟨attrs, -, he⟩ := Logged.bind_eq_ok h
    rw [← Option.some.inj (Except.ok.inj he)]
    rfl
  · obtain ⟨attrs, -, he⟩ := Logged.bind_eq_ok h
    rw [← Option.some.inj (Except.ok.inj he)]
    rfl
  · obtain ⟨-, -, he⟩ := Logged.bind_eq_ok h
    simp at he

theorem mem_of_readComponents {raw : List (Value × Value)} {components : List (Text × ComponentEntry)}
    (h : (readComponents raw).outcome = .ok components) {e : Text × ComponentEntry}
    (he : e ∈ components) : ∃ r ∈ raw, e.2.target = Value.field "lwc".toList r.2.entries := by
  induction raw generalizing components with
  | nil =>
    rw [← Except.ok.inj h] at he
    simp at he
  | cons r raw ih =>
    obtain ⟨first, hfirst, h⟩ := Logged.bind_eq_ok h
    obtain ⟨rest, hrest, h⟩ := Logged.bind_eq_ok h
    rw [← Except.ok.inj h, List.mem_append] at he
    rcases he with he | he
    · rw [Option.mem_toList] at he
      exact ⟨r, List.mem_cons_self, target_of_readComponent (hfirst.trans (congrArg _ he))⟩
    · obtain ⟨r', hr', htarget⟩ := ih hrest he
      exact ⟨r', List.mem_cons_of_mem _ hr', htarget⟩

theorem components_of_override {given path : Text} {content : Value} {m : Mapping}
    (h : (override given path content).outcome = .ok m) {e : Text × ComponentEntry}
    (he : e ∈ m.components) :
    e ∈ builtIn.components ∨
      ∃ r ∈ givenComponents content, e.2.target = Value.field "lwc".toList r.2.entries := by
  obtain ⟨entries, hentries, h⟩ := Logged.bind_eq_ok h
  have hcontent : entries = content.entries := by
    cases content with
    | map entries => exact (Except.ok.inj hentries).symm
    | _ =>
      simp only [Logged.ofOutcome] at hentries
      split at hentries
      · simp at hentries
      · exact (Except.ok.inj hentries).symm
  obtain ⟨raw, hraw, h⟩ := Logged.bind_eq_ok h
  obtain ⟨components, hcomponents, h⟩ := Logged.bind_eq_ok h
  obtain ⟨_, -, h⟩ := Logged.bind_eq_ok h
  obtain ⟨slots, -, h⟩ := Logged.bind_eq_ok h
  obtain ⟨_, -, h⟩ := Logged.bind_eq_ok h
  rw [← Except.ok.inj h] at he
  rcases Keyed.mem_insertAll he with he | he
  · exact .inl he
  · rw [entriesOf_ok hraw, hcontent] at hcomponents
    exact .inr (mem_of_readComponents hcomponents he)

theorem templateTag_given {given path : Text} {content : Value} {m : Mapping}
    (h : (override given path content).outcome = .ok m) (tag : Text) :
    (∃ t, m.templateTag tag = .text t) ∨
      (m.templateTag tag).isGiven = true ∧
        ∃ r ∈ givenComponents content, Value.field "lwc".toList r.2.entries = m.templateTag tag := by
  rcases m.templateTag_cases tag with ⟨e, he, hgiven, htag⟩ | ⟨t, ht, -⟩
  · rw [htag]
    rcases components_of_override h (mem_components he) with he | ⟨r, hr, htarget⟩
    · exact .inl (builtIn_texts _ he hgiven)
    · exact .inr ⟨hgiven, r, hr, htarget.symm⟩
  · exact .inl ⟨t, ht⟩

end Mapping

namespace Value

theorem same_text_of_ne {v : Value} (h : ∀ t, v ≠ .text t) (t : Text) : v.same (.text t) = false := by
  cases v with
  | text other => exact absurd rfl (h other)
  | atom a =>
    obtain ⟨-, -, -, -, _ | n⟩ := a <;> simp [same, number?]
  | _ => simp [same, number?]

theorem text_same_of_ne {v : Value} (h : ∀ t, v ≠ .text t) (t : Text) :
    (Value.text t).same v = false := by
  cases v with
  | text other => exact absurd rfl (h other)
  | _ => simp [same]

theorem same_self {v : Value} (h : Mapping.isCollection v = false) : v.same v = true := by
  cases v with
  | list items | map entries | set items | tuple items => cases h
  | atom a =>
    obtain ⟨-, -, -, -, _ | n⟩ := a <;> simp [same, number?]
  | _ => simp [same, number?]

end Value

namespace Findings
variable {α : Type} {same : α → α → Bool}

theorem mem_of_mem_newNames {held attempted : List α} {a : α}
    (h : a ∈ newNames same held attempted) : a ∈ attempted := by
  induction attempted generalizing held with
  | nil => exact h
  | cons first attempted ih =>
    cases hheld : held.any (same · first) with
    | true =>
      rw [newNames_cons_held hheld] at h
      exact List.mem_cons_of_mem _ (ih h)
    | false =>
      rw [newNames_cons_new hheld] at h
      exact (List.mem_cons.1 h).elim (fun h => h ▸ List.mem_cons_self)
        fun h => List.mem_cons_of_mem _ (ih h)

theorem exists_same (held : List α) {attempted : List α}
    (hself : ∀ a ∈ attempted, same a a = true) {a : α} (h : a ∈ attempted) :
    ∃ b ∈ held ++ newNames same held attempted, same b a = true := by
  induction attempted generalizing held with
  | nil => simp at h
  | cons first attempted ih =>
    have hrest : ∀ b ∈ attempted, same b b = true := fun b hb => hself b (by simp [hb])
    cases hheld : held.any (same · first) with
    | true =>
      rw [newNames_cons_held hheld]
      rcases List.mem_cons.1 h with rfl | h
      · obtain ⟨b, hb, hsame⟩ := List.any_eq_true.1 hheld
        exact ⟨b, List.mem_append_left _ hb, hsame⟩
      · exact ih held hrest h
    | false =>
      rw [newNames_cons_new hheld]
      rcases List.mem_cons.1 h with rfl | h
      · exact ⟨a, by simp, hself a List.mem_cons_self⟩
      · simpa using ih (held ++ [first]) hrest h

end Findings

theorem texts_or_first (values : List Value) :
    (∃ names : List Text, values = names.map .text) ∨
      ∃ (before : List Text) (v : Value) (after : List Value),
        values = before.map .text ++ v :: after ∧ ∀ t, v ≠ .text t := by
  induction values with
  | nil => exact .inl ⟨[], rfl⟩
  | cons v values ih =>
    by_cases hv : ∃ t, v = .text t
    · obtain ⟨t, rfl⟩ := hv
      rcases ih with ⟨names, rfl⟩ | ⟨before, v, after, rfl, htext⟩
      · exact .inl ⟨t :: names, rfl⟩
      · exact .inr ⟨t :: before, v, after, rfl, htext⟩
    · exact .inr ⟨[], v, values, rfl, fun t ht => hv ⟨t, ht⟩⟩

/-- The fault says where the first value that is no text stands, and of which sort it is. -/
theorem componentNames_first {v : Value} (htext : ∀ t, v ≠ .text t) (before : List Text)
    (after : List Value) (position : Nat) :
    componentNames position (before.map .text ++ v :: after) =
      .error ⟨position + before.length, v.sort⟩ := by
  induction before generalizing position with
  | nil =>
    cases v with
    | text t => exact absurd rfl (htext t)
    | _ => rfl
  | cons t before ih =>
    rw [List.map_cons, List.cons_append, componentNames, ih, List.length_cons, Except.map,
      Nat.add_right_comm, Nat.add_assoc]

namespace Mapping

/-- The tag has an entry whose target is given and is no text. -/
def Unnamed (m : Mapping) (tag : Text) : Prop :=
  ∃ e, m.component? tag = some e ∧ e.target.isGiven = true ∧ ∀ t, e.target ≠ .text t

theorem templateTag_of_given {m : Mapping} {tag : Text} {e : ComponentEntry}
    (he : m.component? tag = some e) (hgiven : e.target.isGiven = true) :
    m.templateTag tag = e.target := by
  simp [templateTag, he, hgiven]

theorem unnamed_iff {m : Mapping} {tag : Text} :
    m.Unnamed tag ↔ ∀ t, m.templateTag tag ≠ .text t := by
  constructor
  · rintro ⟨e, he, hgiven, htext⟩
    rwa [templateTag_of_given he hgiven]
  · intro htext
    rcases m.templateTag_cases tag with ⟨e, he, hgiven, htarget⟩ | ⟨t, ht, -⟩
    · exact ⟨e, he, hgiven, htarget ▸ htext⟩
    · exact absurd ht (htext t)

end Mapping

namespace Conversion

/-- A rendered plain element is written as a value that is no text. -/
def MeetsUnnamed (m : Mapping) (nodes : List Node) : Prop :=
  ∃ e ∈ renderedElementsIn nodes, e.isPlain = true ∧ ∃ tag, e.tag? = some tag ∧ m.Unnamed tag

variable {m : Mapping} {nodes : List Node}

theorem meetsUnnamed_iff :
    MeetsUnnamed m nodes ↔ ∃ v ∈ (uses m nodes).filterMap Use.component?, ∀ t, v ≠ .text t := by
  constructor
  · rintro ⟨e, he, hplain, tag, htag, hunnamed⟩
    have htext := Mapping.unnamed_iff.1 hunnamed
    exact ⟨_, mem_components_uses.2 ⟨e, he, tag, htag, hplain, rfl,
      Value.same_text_of_ne htext tag⟩, htext⟩
  · rintro ⟨v, hv, htext⟩
    obtain ⟨e, he, tag, htag, hplain, rfl, -⟩ := mem_components_uses.1 hv
    exact ⟨e, he, hplain, tag, htag, Mapping.unnamed_iff.2 htext⟩

/-- Of targets that are no texts, one is listed; nothing that is the same is a text. -/
theorem meetsUnnamed_iff_used
    (hself : ∀ v ∈ (uses m nodes).filterMap Use.component?, v.same v = true) :
    MeetsUnnamed m nodes ↔
      ∃ v ∈ (ofNodes m nodes).findings.usedComponents, ∀ t, v ≠ .text t := by
  rw [meetsUnnamed_iff, usedComponents_ofNodes]
  constructor
  · rintro ⟨v, hv, htext⟩
    obtain ⟨w, hw, hsame⟩ := Findings.exists_same [] hself hv
    refine ⟨w, hw, ?_⟩
    -- the name that is held for it counts as the same value, and a text never does
    rintro t rfl
    rw [Value.text_same_of_ne htext t] at hsame
    exact absurd hsame (by decide)
  · rintro ⟨v, hv, htext⟩
    exact ⟨v, Findings.mem_of_mem_newNames hv, htext⟩

end Conversion

/-- Under the tables of a mapping file whose targets are no collections, a conversion fails when a
rendered plain element has an entry with a given target that is no text; the fault then says
where the first such value stands among the components in use, and of which sort it is.
Every other body is converted. -/
theorem conversion_fails_iff {given path : Text} {content : Value} {m : Mapping}
    (hscalar : Mapping.PlainTargets content)
    (h : (Mapping.override given path content).outcome = .ok m) (nodes : List Node) :
    (Conversion.MeetsUnnamed m nodes ∧
      ∃ (before : List Text) (v : Value) (after : List Value),
        (Conversion.ofNodes m nodes).findings.usedComponents = before.map .text ++ v :: after ∧
        (∀ t, v ≠ .text t) ∧ v.isGiven = true ∧
        (∃ r ∈ Mapping.givenComponents content, Value.field "lwc".toList r.2.entries = v) ∧
        (Conversion.convert m nodes).outcome = .error ⟨before.length, v.sort⟩) ∨
    (¬ Conversion.MeetsUnnamed m nodes ∧
      (Conversion.convert m nodes).outcome = .ok (Conversion.ofNodes m nodes)) := by
  have hgiven : ∀ v ∈ (Conversion.uses m nodes).filterMap Use.component?, (∃ t, v = .text t) ∨
      v.isGiven = true ∧
        ∃ r ∈ Mapping.givenComponents content, Value.field "lwc".toList r.2.entries = v := by
    intro v hv
    obtain ⟨e, he, tag, htag, hplain, rfl, -⟩ := Conversion.mem_components_uses.1 hv
    exact Mapping.templateTag_given h tag
  have hself : ∀ v ∈ (Conversion.uses m nodes).filterMap Use.component?, v.same v = true := by
    intro v hv
    rcases hgiven v hv with ⟨t, rfl⟩ | ⟨-, r, hr, rfl⟩
    · exact Value.same_self rfl
    · exact Value.same_self (hscalar r hr)
  have hmeets := Conversion.meetsUnnamed_iff_used hself
  have hused : ∀ v ∈ (Conversion.ofNodes m nodes).findings.usedComponents,
      v ∈ (Conversion.uses m nodes).filterMap Use.component? := by
    rw [Conversion.usedComponents_ofNodes]
    exact fun v => Findings.mem_of_mem_newNames
  rcases texts_or_first (Conversion.ofNodes m nodes).findings.usedComponents with
    ⟨names, hnames⟩ | ⟨before, v, after, hfirst, htext⟩
  · refine .inr ⟨fun hmet => ?_, Conversion.convert_ok ?_⟩
    · obtain ⟨v, hv, htext⟩ := hmeets.1 hmet
      rw [hnames] at hv
      obtain ⟨t, -, rfl⟩ := List.mem_map.1 hv
      exact htext t rfl
    · rw [hnames, componentNames_texts]
      rfl
  · have hmem : v ∈ (Conversion.ofNodes m nodes).findings.usedComponents := by simp [hfirst]
    obtain ⟨t, rfl⟩ | ⟨hv, htarget⟩ := hgiven v (hused v hmem)
    · exact absurd rfl (htext t)
    · refine .inl ⟨hmeets.2 ⟨v, hmem, htext⟩, before, v, after, hfirst, htext, hv, htarget, ?_⟩
      rw [Conversion.outcome_convert, hfirst, componentNames_first htext, Nat.zero_add]
      rfl

/-- A mapping file that names numbers and a truth value as targets. -/
def numberedTargets : Value :=
  .record [("components", .record [
    ("ui:menu", .record [("lwc", .int 1)]), ("ui:tree", .record [("lwc", .bool true)]),
    ("c:card", .record [("lwc", .text "c-panel".toList)])])]

/-- A text, a truth value and the number that counts as it. -/
def numberedSample : List Node :=
  [.element "c:card".toList [] [.element "ui:tree".toList [] []], .element "ui:menu".toList [] []]

theorem conversion_fails_iff_numbered :
    ∃ m, (Mapping.override [] [] numberedTargets).outcome = .ok m ∧
      Conversion.MeetsUnnamed m numberedSample ∧
      (Conversion.convert m numberedSample).outcome = .error ⟨1, "bool".toList⟩ ∧
      ∃ (before : List Text) (v : Value) (after : List Value),
        (Conversion.ofNodes m numberedSample).findings.usedComponents =
          before.map .text ++ v :: after ∧
        (∀ t, v ≠ .text t) ∧ v.isGiven = true ∧
        (∃ r ∈ Mapping.givenComponents numberedTargets,
          Value.field "lwc".toList r.2.entries = v) ∧
        before.length = 1 ∧ v.sort = "bool".toList := by
  have hscalar : Mapping.PlainTargets numberedTargets := by decide +kernel
  have hload : (Mapping.override [] [] numberedTargets).outcome.toOption.any (fun m =>
      match (Conversion.convert m numberedSample).outcome with
      | .error u => u = ⟨1, "bool".toList⟩
      | .ok _ => false) = true := by decide +kernel
  obtain ⟨m, hm, hfault⟩ := Batch.exists_ok_of_any hload
  rcases conversion_fails_iff hscalar hm numberedSample with
    ⟨hmeets, before, v, after, hused, htext, hgiven, htarget, herror⟩ | ⟨-, hok⟩
  · rw [herror] at hfault
    have hplace : (⟨before.length, v.sort⟩ : UnnamedComponent) = ⟨1, "bool".toList⟩ :=
      of_decide_eq_true hfault
    obtain ⟨hlength, hsort⟩ := UnnamedComponent.mk.inj hplace
    exact ⟨m, hm, hmeets, hplace ▸ herror, before, v, after, hused, htext, hgiven, htarget,
      hlength, hsort⟩
  · rw [hok] at hfault
    exact absurd hfault Bool.false_ne_true

end LightningTemplate
