import Mathlib.Data.List.Nodup
import LightningTemplate.Proofs.NameWords
import LightningTemplate.Proofs.SiteText

/-! When two attributes of an element get the same name.  One rule names each attribute, and what
two of them have in common is known for each pair of rules (`Merge`).  Under the built-in tables the
names of an element are distinct just when no two of its attributes merge
(`attribute_names_distinct_iff`); a key that an iteration adds never merges with them. -/
namespace LightningTemplate
open Text Walk Node

/-- What names an attribute: it is the identifier, its component has a name for it, it is a handler
and gets small letters, or it is hyphened. -/
inductive NameRule
  | identifier
  | tabled (target : Text)
  | handler
  | hyphened

namespace NameRule

/-- The rule for a name; a name of the table is taken from there first. -/
def of (entry : Option ComponentEntry) (name : Text) : NameRule :=
  if name = auraId then .identifier
  else match entry.bind (·.attribute? name) with
    | some target => .tabled target.display
    | none => if Render.isEventName name then .handler else .hyphened

def given (rule : NameRule) (name : Text) : Text :=
  match rule with
  | .identifier => "data-id".toList
  | .tabled target => target
  | .handler => lower name
  | .hyphened => kebab name

end NameRule

variable {entry : Option ComponentEntry} {a b name t tag : Text}

theorem NameRule.of_eq_identifier : NameRule.of entry name = .identifier ↔ name = auraId := by
  unfold NameRule.of
  by_cases hid : name = auraId
  · exact iff_of_true (if_pos hid) hid
  · rw [if_neg hid]
    refine iff_of_false (fun h => ?_) hid
    split at h
    · cases h
    · split at h <;> cases h

theorem NameRule.of_eq_handler (h : NameRule.of entry name = .handler) :
    Render.isEventName name = true := by
  unfold NameRule.of at h
  split at h
  · cases h
  · split at h
    · cases h
    · split at h
      · assumption
      · cases h

theorem attributeName_eq (entry : Option ComponentEntry) (name : Text) :
    Render.attributeName entry name = (NameRule.of entry name).given name := by
  unfold Render.attributeName NameRule.of
  by_cases hid : name = auraId
  · rw [if_pos hid, if_pos hid, attributeTarget, if_pos hid]
    rfl
  · rw [if_neg hid, if_neg hid]
    cases htarget : entry.bind (·.attribute? name) with
    | some target => rfl
    | none =>
      by_cases hevent : Render.isEventName name = true
      · simp only [if_pos hevent]
        rfl
      · have hkebab : attributeTarget entry name = .text (kebab name) := by
          rw [attributeTarget, if_neg hid, htarget]
          rfl
        simp only [if_neg hevent, hkebab]
        rfl

def Value.text? : Value → Option Text
  | .text t => some t
  | _ => none

theorem Value.exists_of_text? {v : Value} (h : v.text?.isSome = true) : ∃ k, v = .text k := by
  cases v with
  | text k => exact ⟨k, rfl⟩
  | _ => cases h

theorem builtIn_attributes : ∀ e ∈ builtInComponents, ∀ x ∈ e.2.attributes,
    x.1.text?.isSome = true ∧ '-' ∉ x.2.display ∧ x.1.display ≠ Render.keyName ∧
      x.2.display ≠ Render.keyName ∧
        ∀ y ∈ e.2.attributes, x.2.display = y.2.display → x.1.display = y.1.display := by
  decide +kernel

theorem exists_of_tabled (h : NameRule.of (Mapping.builtIn.component? tag) name = .tabled t) :
    ∃ e x, Mapping.builtIn.component? tag = some e ∧ x ∈ e.attributes ∧ x.1.display = name ∧
      x.2.display = t := by
  unfold NameRule.of at h
  split at h
  · cases h
  · split at h
    · rename_i target htarget
      obtain ⟨e, he, hfield⟩ := Option.bind_eq_some_iff.1 htarget
      obtain ⟨x, hx, rfl⟩ := Option.map_eq_some_iff.1 hfield
      have hmem := List.mem_of_find?_eq_some hx
      have htext := (builtIn_attributes _ (Mapping.mem_components he) x hmem).1
      have hkey : x.1.same (.text name) = true :=
        List.find?_some (p := fun x : Value × Value => x.1.same (.text name)) hx
      refine ⟨e, x, he, hmem, ?_, NameRule.tabled.inj h⟩
      obtain ⟨k, hk⟩ := Value.exists_of_text? htext
      rw [hk, Value.same] at hkey
      rw [hk]
      exact eq_of_beq hkey
    · split at h <;> cases h

theorem target_of_tabled (h : NameRule.of (Mapping.builtIn.component? tag) name = .tabled t) :
    '-' ∉ t ∧ name ≠ Render.keyName ∧ t ≠ Render.keyName := by
  obtain ⟨e, x, he, hx, rfl, rfl⟩ := exists_of_tabled h
  obtain ⟨-, hhyphen, hname, htarget, -⟩ := builtIn_attributes _ (Mapping.mem_components he) x hx
  exact ⟨hhyphen, hname, htarget⟩

theorem tabled_inj (ha : NameRule.of (Mapping.builtIn.component? tag) a = .tabled t)
    (hb : NameRule.of (Mapping.builtIn.component? tag) b = .tabled t) : a = b := by
  obtain ⟨e, x, he, hx, rfl, rfl⟩ := exists_of_tabled ha
  obtain ⟨e', y, he', hy, rfl, hsame⟩ := exists_of_tabled hb
  obtain rfl : e = e' := Option.some.inj (he.symm.trans he')
  obtain ⟨-, -, -, -, hinj⟩ := builtIn_attributes _ (Mapping.mem_components he) x hx
  exact hinj y hy hsame.symm

/-- The attributes get one name: they have the same words; they are handlers that differ in letter
case at most; or a name that a rule makes or knows is also the one that the other name is spelled
with. -/
def Merge (entry : Option ComponentEntry) (a b : Text) : Prop :=
  match NameRule.of entry a, NameRule.of entry b with
  | .hyphened, .hyphened => words a = words b
  | .handler, .handler => lower a = lower b
  | .handler, .hyphened => words b = (splitOn '-' a).map lower
  | .hyphened, .handler => words a = (splitOn '-' b).map lower
  | .identifier, .hyphened => words b = ["data".toList, "id".toList]
  | .hyphened, .identifier => words a = ["data".toList, "id".toList]
  | .tabled target, .hyphened => words b = [target]
  | .hyphened, .tabled target => words a = [target]
  | .tabled target, .handler => lower b = target
  | .handler, .tabled target => lower a = target
  | .identifier, .identifier | .identifier, .tabled _ | .identifier, .handler
  | .tabled _, .identifier | .tabled _, .tabled _ | .handler, .identifier => False

instance (entry : Option ComponentEntry) (a b : Text) : Decidable (Merge entry a b) := by
  unfold Merge
  split <;> infer_instance

theorem head_lower_handler (h : Render.isEventName name = true) : (lower name).head? = some 'o' := by
  unfold Render.isEventName at h
  split at h
  · rfl
  · cases h

theorem attributeName_eq_iff (hne : a ≠ b) :
    Render.attributeName (Mapping.builtIn.component? tag) a =
        Render.attributeName (Mapping.builtIn.component? tag) b ↔
      Merge (Mapping.builtIn.component? tag) a b := by
  have hidentifier {t : Text} (h : "data-id".toList = t) : '-' ∈ t ∧ t.head? ≠ some 'o' := by
    rw [← h]
    decide
  rw [attributeName_eq, attributeName_eq]
  unfold Merge
  cases ha : NameRule.of (Mapping.builtIn.component? tag) a with
  | identifier =>
    have hid := NameRule.of_eq_identifier.1 ha
    cases hb : NameRule.of (Mapping.builtIn.component? tag) b with
    | identifier => exact absurd (hid.trans (NameRule.of_eq_identifier.1 hb).symm) hne
    | tabled target =>
      exact iff_of_false (fun h => (target_of_tabled hb).1 (hidentifier h).1) id
    | handler =>
      have hhead := head_lower_handler (NameRule.of_eq_handler hb)
      exact iff_of_false (fun h => (hidentifier h).2 hhead) id
    | hyphened => exact eq_kebab_iff
  | tabled target =>
    have hhyphen := (target_of_tabled ha).1
    cases hb : NameRule.of (Mapping.builtIn.component? tag) b with
    | identifier => exact iff_of_false (fun h => hhyphen (hidentifier h.symm).1) id
    | tabled target' =>
      refine iff_of_false (fun h => ?_) id
      obtain rfl : target = target' := h
      exact hne (tabled_inj ha hb)
    | handler => exact eq_comm
    | hyphened =>
      change target = kebab b ↔ words b = [target]
      rw [eq_kebab_iff, splitOn_of_notMem hhyphen]
  | handler =>
    have hhead := head_lower_handler (NameRule.of_eq_handler ha)
    cases hb : NameRule.of (Mapping.builtIn.component? tag) b with
    | identifier => exact iff_of_false (fun h => (hidentifier h.symm).2 hhead) id
    | tabled target => exact Iff.rfl
    | handler => exact Iff.rfl
    | hyphened =>
      change lower a = kebab b ↔ words b = (splitOn '-' a).map lower
      rw [eq_kebab_iff, splitOn_lower]
  | hyphened =>
    cases hb : NameRule.of (Mapping.builtIn.component? tag) b with
    | identifier => exact eq_comm.trans eq_kebab_iff
    | tabled target =>
      change kebab a = target ↔ words a = [target]
      rw [eq_comm, eq_kebab_iff, splitOn_of_notMem (target_of_tabled hb).1]
    | handler =>
      change kebab a = lower b ↔ words a = (splitOn '-' b).map lower
      rw [eq_comm, eq_kebab_iff, splitOn_lower]
    | hyphened => exact kebab_eq_kebab_iff

/-- A button has its press under the name of a click. -/
example : Merge (Mapping.builtIn.component? "ui:button".toList) "press".toList "onClick".toList := by
  decide +kernel

theorem nodup_attributeNames_iff {attrs : Attributes} (h : (attrs.map (·.1)).Nodup) :
    (attrs.map (Render.attributeName (Mapping.builtIn.component? tag) ·.1)).Nodup ↔
      attrs.Pairwise fun a b => ¬Merge (Mapping.builtIn.component? tag) a.1 b.1 := by
  rw [List.nodup_iff_pairwise_ne, List.pairwise_map] at h ⊢
  constructor
  · exact fun hnames => (h.and hnames).imp fun hab => mt (attributeName_eq_iff hab.1).2 hab.2
  · exact fun hmerge => (h.and hmerge).imp fun hab => mt (attributeName_eq_iff hab.1).1 hab.2

theorem attributeName_key (tag : Text) :
    Render.attributeName (Mapping.builtIn.component? tag) Render.keyName = Render.keyName := by
  rw [attributeName_eq]
  cases hrule : NameRule.of (Mapping.builtIn.component? tag) Render.keyName with
  | identifier => exact absurd (NameRule.of_eq_identifier.1 hrule) (by decide)
  | tabled target => exact absurd rfl (target_of_tabled hrule).2.1
  | handler => rfl
  | hyphened => rfl

theorem attributeName_ne_key (h : lower name ≠ lower Render.keyName) :
    Render.attributeName (Mapping.builtIn.component? tag) name ≠ Render.keyName := by
  rw [attributeName_eq]
  cases hrule : NameRule.of (Mapping.builtIn.component? tag) name with
  | identifier =>
    have hother : "data-id".toList ≠ Render.keyName := by decide
    exact hother
  | tabled target => exact (target_of_tabled hrule).2.2
  | handler => exact h
  | hyphened =>
    intro hkey
    have hwords : words name = [Render.keyName] := eq_kebab_iff.1 hkey.symm
    exact h (lower_of_words hwords)

namespace Site

def TakesKey (p : Site) : Prop :=
  p.handed = [] ∨
    (∃ binding, p.handed = [(Render.keyName, binding)]) ∧ p.node.attributes.has Render.keyName = false

end Site

/-- What is handed to siblings is nothing, or a key that the first plain one has not. -/
theorem takesKey_sitesIn {ns : List Node} (ih : ∀ n ∈ ns, ∀ above handed,
      Site.TakesKey ⟨above, handed, n⟩ → ∀ p ∈ sites above handed n, p.TakesKey)
    {handed : Attributes} (above : List Node)
    (h : handed = [] ∨ (∃ binding, handed = [(Render.keyName, binding)]) ∧ Render.needsKey ns = true) :
    ∀ p ∈ sitesIn above handed ns, p.TakesKey := by
  induction ns generalizing handed with
  | nil =>
    intro p hp
    rw [sitesIn] at hp
    cases hp
  | cons n ns hns =>
    rw [List.forall_mem_cons] at ih
    intro p hp
    rw [sitesIn, List.mem_append] at hp
    by_cases hplain : n.isPlain = true
    · rw [if_pos hplain, if_pos hplain] at hp
      rcases hp with hp | hp
      · refine ih.1 above handed (h.imp_right fun hkey => ⟨hkey.1, ?_⟩) p hp
        simpa [Render.needsKey, List.find?_cons_of_pos hplain] using hkey.2
      · exact hns ih.2 (.inl rfl) p hp
    · rw [if_neg hplain, if_neg hplain] at hp
      rcases hp with hp | hp
      · exact ih.1 above [] (.inl rfl) p hp
      · refine hns ih.2 (h.imp_right fun hkey => ⟨hkey.1, ?_⟩) p hp
        rw [← hkey.2, Render.needsKey, Render.needsKey, List.find?_cons_of_neg hplain]

theorem takesKey_sites (n : Node) : ∀ above handed, Site.TakesKey ⟨above, handed, n⟩ →
    ∀ p ∈ sites above handed n, p.TakesKey := by
  induction n using Node.induction with
  | text content =>
    intro above handed _ p hp
    rw [sites] at hp
    cases hp
  | element tag attrs nodes ih =>
    intro above handed h p hp
    rw [sites, List.mem_cons] at hp
    rcases hp with rfl | hp
    · exact h
    · split at hp
      · cases hp
      · refine takesKey_sitesIn ih _ ?_ p hp
        unfold handedBy
        split
        · rename_i hkey
          exact .inr ⟨⟨_, rfl⟩, (Bool.and_eq_true_iff.1 hkey).2⟩
        · exact .inl rfl

variable {nodes : List Node} {p : Site}

theorem takesKey_of_mem (hp : p ∈ sitesIn [] [] nodes) : p.TakesKey :=
  takesKey_sitesIn (fun n _ => takesKey_sites n) [] (.inl rfl) p hp

theorem notMem_of_has_eq_false {attrs : Attributes} (h : attrs.has Render.keyName = false) :
    Render.keyName ∉ attrs.map (Render.attributeName (Mapping.builtIn.component? tag) ·.1) := by
  intro hmem
  obtain ⟨a, ha, hname⟩ := List.mem_map.1 hmem
  refine attributeName_ne_key (fun hlower => ?_) hname
  rw [Attributes.has, Attributes.anyCase?, Option.isSome_map, Option.isSome_eq_false_iff,
    Option.isNone_iff_eq_none, List.find?_eq_none] at h
  exact h a ha (beq_iff_eq.2 hlower)

namespace Site
variable {own injected : List (Text × Text)}

theorem StandsAs.own_names (h : p.StandsAs .builtIn nodes own injected) : own.map (·.1) =
    p.node.attributes.map (Render.attributeName (Mapping.builtIn.component? p.tag) ·.1) :=
  h.attributes.map_fst

theorem StandsAs.injected_names (h : p.StandsAs .builtIn nodes own injected) :
    injected = [] ∨ injected.map (·.1) = [Render.keyName] ∧ Render.keyName ∉ own.map (·.1) := by
  have hnames := h.handed.map_fst
  rcases takesKey_of_mem h.rendered with hnone | ⟨⟨binding, hkey⟩, hhas⟩
  · rw [hnone, List.map_nil, List.map_eq_nil_iff] at hnames
    exact .inl hnames
  · rw [hkey, List.map_singleton, attributeName_key] at hnames
    refine .inr ⟨hnames, ?_⟩
    rw [h.own_names]
    exact notMem_of_has_eq_false hhas

theorem StandsAs.injected_notMem (h : p.StandsAs .builtIn nodes own injected) :
    ∀ w ∈ injected, w.1 ∉ own.map (·.1) := by
  intro w hw
  rcases h.injected_names with rfl | ⟨hkey, hown⟩
  · cases hw
  · have hname := List.mem_map_of_mem (f := (·.1)) hw
    rw [hkey, List.mem_singleton] at hname
    rwa [hname]

theorem StandsAs.nodup_iff (h : p.StandsAs .builtIn nodes own injected)
    (hnames : (p.node.attributes.map (·.1)).Nodup) :
    ((own ++ injected).map (·.1)).Nodup ↔ p.node.attributes.Pairwise fun a b =>
      ¬Merge (Mapping.builtIn.component? p.tag) a.1 b.1 := by
  rw [← nodup_attributeNames_iff hnames, ← h.own_names, List.map_append]
  rcases h.injected_names with rfl | ⟨hkey, hown⟩
  · rw [List.map_nil, List.append_nil]
  · rw [hkey, List.nodup_append]
    refine and_iff_left ⟨List.nodup_singleton _, fun name hname key hmem => ?_⟩
    rw [List.mem_singleton.1 hmem]
    exact ne_of_mem_of_not_mem hname hown

end Site

/-- Where all names are distinct, each of them has its own value. -/
theorem asWritten?_of_nodup {attrs : Attributes} (h : (attrs.map (·.1)).Nodup) {w : Text × Text}
    (hw : w ∈ attrs) : attrs.asWritten? w.1 = some w.2 := by
  induction attrs with
  | nil => cases hw
  | cons a attrs ih =>
    rw [List.map_cons, List.nodup_cons] at h
    rw [Attributes.asWritten?] at ih ⊢
    rcases List.mem_cons.1 hw with rfl | hw
    · rw [List.find?_cons_of_pos (by simp)]
      rfl
    · have hne : a.1 ≠ w.1 := fun heq => h.1 (heq ▸ List.mem_map_of_mem hw)
      rw [List.find?_cons_of_neg (by simpa using hne)]
      exact ih h.2 hw

/-- A plain element that is rendered stands in the template with names of which that of a key that
it is handed is never one of the others.  They are distinct just when no two of its attributes
merge; then each name has the value of its attribute. -/
theorem attribute_names_distinct_iff {nodes : List Node} {p : Site} (hp : p ∈ sitesIn [] [] nodes)
    (hplain : p.node.isPlain = true) (hnames : (p.node.attributes.map (·.1)).Nodup) :
    (∃ own injected, p.StandsAs .builtIn nodes own injected) ∧
      ∀ own injected, p.StandsAs .builtIn nodes own injected →
        (∀ w ∈ injected, w.1 ∉ own.map (·.1)) ∧
        (((own ++ injected).map (·.1)).Nodup ↔ p.node.attributes.Pairwise fun a b =>
          ¬Merge (Mapping.builtIn.component? p.tag) a.1 b.1) ∧
        ((p.node.attributes.Pairwise fun a b =>
            ¬Merge (Mapping.builtIn.component? p.tag) a.1 b.1) →
          ∀ w ∈ own ++ injected, Attributes.asWritten? (own ++ injected) w.1 = some w.2) := by
  refine ⟨exists_standsAs hp hplain, fun own injected hstands => ?_⟩
  have hiff := hstands.nodup_iff hnames
  exact ⟨hstands.injected_notMem, hiff, fun hmerge w => asWritten?_of_nodup (hiff.2 hmerge)⟩

/-- A row of a list with an attribute for each rule that holds without a table. -/
def namedRow : Node :=
  .element "li".toList [("aura:id".toList, "row".toList), ("iconName".toList, "a".toList),
    ("onClick".toList, "{!c.go}".toList), ("data-key".toList, "{!r.Id}".toList)] []

def namedRows : List Node :=
  [.element "aura:iteration".toList [("items".toList, "{!v.rows}".toList), ("var".toList, "r".toList)]
    [namedRow]]

/-- The row as it is handed its key. -/
def namedSite : Site :=
  ⟨namedRows, [("key".toList, "{r.Id}".toList)], namedRow⟩

theorem attribute_names_distinct_iff_rows :
    namedSite ∈ sitesIn [] [] namedRows ∧ namedRow.isPlain = true ∧
      (namedRow.attributes.map (·.1)).Nodup ∧
      (∃ own injected, namedSite.StandsAs .builtIn namedRows own injected) ∧
      ∀ own injected, namedSite.StandsAs .builtIn namedRows own injected →
        (∀ w ∈ injected, w.1 ∉ own.map (·.1)) ∧
        (((own ++ injected).map (·.1)).Nodup ↔ namedRow.attributes.Pairwise fun a b =>
          ¬Merge (Mapping.builtIn.component? namedSite.tag) a.1 b.1) ∧
        ((namedRow.attributes.Pairwise fun a b =>
            ¬Merge (Mapping.builtIn.component? namedSite.tag) a.1 b.1) →
          ∀ w ∈ own ++ injected, Attributes.asWritten? (own ++ injected) w.1 = some w.2) :=
  ⟨List.mem_cons_of_mem _ List.mem_cons_self, by decide, by decide +kernel,
    attribute_names_distinct_iff (p := namedSite) (List.mem_cons_of_mem _ List.mem_cons_self)
      (by decide) (by decide +kernel)⟩

/-- An icon that is named in both spellings. -/
def iconTwice : List Node :=
  [.element "p".toList [("iconName".toList, "a".toList), ("icon-name".toList, "b".toList)] []]

/-- Both attributes get one name. -/
theorem iconTwice_merges :
    (Conversion.ofNodes .builtIn iconTwice).template =
        "<template>\n    <p icon-name=\"a\" icon-name=\"b\"></p>\n</template>".toList ∧
      ∃ p ∈ sitesIn [] [] iconTwice, p.node.isPlain = true ∧
        (p.node.attributes.map (·.1)).Nodup ∧
        ∃ own injected, p.StandsAs .builtIn iconTwice own injected ∧
          ¬((own ++ injected).map (·.1)).Nodup := by
  have hmem : ⟨[], [], iconTwice[0]⟩ ∈ sitesIn [] [] iconTwice := mem_sitesIn_singleton _ _ _
  obtain ⟨own, injected, hstands⟩ := exists_standsAs (m := .builtIn) hmem (by decide)
  refine ⟨by decide +kernel, _, hmem, by decide, by decide +kernel, own, injected, hstands, ?_⟩
  intro hnodup
  rw [List.map_append, hstands.own_names, List.nodup_append] at hnodup
  exact absurd hnodup.1 (by decide +kernel)

end LightningTemplate
