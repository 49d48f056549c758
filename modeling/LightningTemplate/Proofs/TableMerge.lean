import Mathlib.Data.List.Induction
import LightningTemplate.Proofs.UnnamedTarget

/-! Mapping files over the built-in tables.  A file is rejected for three reasons alone
(`Rejected`), and one that is not gives every tag and every slot table its last well-formed entry,
or else the built-in one (`Merges`).  Tables are changed in place while a file is read, so they
are kept on a shelf: a file changes only a copy of the built-in tables, also when it is rejected
halfway (`follows_load`). -/
namespace LightningTemplate
open Text

namespace Keyed
variable {κ α : Type} [DecidableEq κ] [BEq κ] [LawfulBEq κ]

theorem lookup_insertAll (table added : List (κ × α)) (key : κ) :
    (insertAll table added).lookup key =
      ((added.reverse.find? (·.1 == key)).map (·.2)).or (table.lookup key) := by
  induction added using List.reverseRecOn with
  | nil => rfl
  | append_singleton added e ih =>
    have hstep : insertAll table (added ++ [e]) = insert e.1 e.2 (insertAll table added) := by
      simp [insertAll]
    rw [hstep, lookup_insert, ih, List.reverse_append, List.reverse_singleton,
      List.singleton_append]
    by_cases h : key = e.1
    · simp [h]
    · simp [h, Ne.symm h]

theorem lookup_insertAll_map {β : Type} (table : List (κ × α)) (raw : List β) (p : β → Bool)
    (f : β → κ × α) (key : κ) : (insertAll table ((raw.filter p).map f)).lookup key =
      ((raw.reverse.find? fun b => p b && (f b).1 == key).map fun b => (f b).2).or
        (table.lookup key) := by
  rw [lookup_insertAll, ← List.map_reverse, List.find?_map, ← List.filter_reverse,
    List.find?_filter, Option.map_map]
  simp only [Bool.decide_and, Bool.decide_eq_true]
  rfl

end Keyed

namespace Value

def isMap : Value → Bool
  | .map _ => true
  | _ => false

theorem isMap_iff {v : Value} : v.isMap = true ↔ v = .map v.entries := by
  cases v <;> simp [isMap, entries]

end Value

namespace Mapping
variable {content key value v : Value} {given path : Text} {raw : List (Value × Value)}

/-- A value that can be a key: no list, map or set, and no tuple with such a value in it. -/
inductive IsKey : Value → Prop
  | plain {v : Value} (h : isCollection v = false) : IsKey v
  | tuple {items : List Value} (h : ∀ v ∈ items, IsKey v) : IsKey (.tuple items)

mutual
theorem isKey_iff : ∀ v : Value, unhashable? v = none ↔ IsKey v
  | .tuple items => by
    rw [unhashable?, isKeys_iff items]
    refine ⟨.tuple, fun h => ?_⟩
    cases h with
    | plain h => cases h
    | tuple h => exact h
  | .list _ | .map _ | .set _ => by
    refine ⟨fun h => ?_, fun h => ?_⟩
    · cases h
    · cases h with
      | plain h => cases h
  | .null | .bool _ | .int _ | .text _ | .atom _ | .octets _ => ⟨fun _ => .plain rfl, fun _ => rfl⟩

theorem isKeys_iff : ∀ items : List Value, unhashableIn? items = none ↔ ∀ v ∈ items, IsKey v
  | [] => by simp [unhashableIn?]
  | v :: vs => by
    rw [unhashableIn?, Option.or_eq_none_iff, isKey_iff v, isKeys_iff vs, List.forall_mem_cons]
end

/-- A sequence of two that can stand for an attribute and its target. -/
def IsPair (v : Value) : Prop := ∃ a b, elements? v = some [a, b] ∧ IsKey a

def IsTable (v : Value) : Prop :=
  v.isMap = true ∨ ∃ items, elements? v = some items ∧ ∀ item ∈ items, IsPair item

def givenAttributes (value : Value) : Value := Value.field "attributes".toList value.entries

def givenTarget (value : Value) : Value := Value.field "lwc".toList value.entries

def givenSlots (content : Value) : List (Value × Value) :=
  (Value.field "slots".toList content.entries).entries

def RejectedEntry (value : Value) : Prop :=
  value.isMap = true ∧ (givenAttributes value).isGiven = true ∧ ¬ IsTable (givenAttributes value)

/-- Why a mapping file is rejected: it is no map, one of its tables is no map, or an entry of its
component table is rejected.  Values that do not count as given are empty maps in the first two
places. -/
inductive Rejected (content : Value) : Prop
  | file (hgiven : content.isGiven = true) (hmap : content.isMap = false)
  | table (name : String) (hname : name ∈ ["components", "slots"])
      (hgiven : (Value.field name.toList content.entries).isGiven = true)
      (hmap : (Value.field name.toList content.entries).isMap = false)
  | entry (key value : Value) (hentry : (key, value) ∈ givenComponents content)
      (hvalue : RejectedEntry value)

theorem map_eq_error_iff {ε α β : Type} {f : α → β} {r : Except ε α} {e : ε} :
    r.map f = .error e ↔ r = .error e := by
  cases r <;> simp [Except.map]

theorem fails_pairsOf (i : Nat) (items : List Value) :
    (∃ f, pairsOf i items = .error f) ↔ ∃ item ∈ items, ¬ IsPair item := by
  induction items generalizing i with
  | nil => simp [pairsOf]
  | cons v vs ih =>
    rw [pairsOf, List.exists_mem_cons_iff]
    split
    · rename_i hnone
      simp [IsPair, hnone]
    · rename_i a b helements
      split
      · rename_i hkey
        have hno : ¬ IsKey a := by simp [← isKey_iff, hkey]
        simp [IsPair, helements, hno]
      · rename_i hkey
        have hpair : IsPair v := ⟨a, b, helements, (isKey_iff a).1 hkey⟩
        simp only [map_eq_error_iff, ih, hpair, not_true_eq_false, false_or]
    · rename_i items hother helements
      have hno : ¬ IsPair v := by
        rintro ⟨a, b, hpair, -⟩
        rw [helements] at hpair
        exact hother a b (Option.some.inj hpair)
      simp [hno]

theorem attributesOf_of_not_map (hgiven : v.isGiven = true) (hmap : v.isMap = false) :
    attributesOf v = match elements? v with
      | none => .error (.notIterable v.sort)
      | some items => (pairsOf 0 items).map Value.ofEntries := by
  unfold attributesOf
  rw [if_pos hgiven]
  cases v with
  | map entries => simp [Value.isMap] at hmap
  | _ => rfl

theorem fails_attributesOf (v : Value) :
    (∃ f, attributesOf v = .error f) ↔ v.isGiven = true ∧ ¬ IsTable v := by
  by_cases hgiven : v.isGiven = true
  · by_cases hmap : v.isMap = true
    · obtain ⟨entries, rfl⟩ : ∃ entries, v = .map entries := ⟨_, Value.isMap_iff.1 hmap⟩
      have hok : attributesOf (.map entries) = .ok entries := by
        unfold attributesOf
        rw [if_pos hgiven]
      simp [hok, IsTable, hmap]
    · rw [Bool.not_eq_true] at hmap
      rw [attributesOf_of_not_map hgiven hmap]
      cases helements : elements? v with
      | none => simp [IsTable, hgiven, hmap, helements]
      | some items =>
        have htable : ¬ IsTable v ↔ ∃ item ∈ items, ¬ IsPair item := by
          simp [IsTable, hmap, helements]
        rw [htable, ← fails_pairsOf 0 items]
        simp only [map_eq_error_iff, hgiven, true_and]
  · simp [attributesOf, hgiven]

theorem fails_entriesOf (v : Value) :
    (∃ f, entriesOf v = .error f) ↔ v.isGiven = true ∧ v.isMap = false := by
  unfold entriesOf
  by_cases hgiven : v.isGiven = true
  · rw [if_pos hgiven]
    cases v with
    | map entries => simp [Value.isMap]
    | _ => simp [hgiven, Value.isMap]
  · simp [hgiven]

theorem entriesOf_of_not_fails (h : ¬(v.isGiven = true ∧ v.isMap = false)) :
    entriesOf v = .ok v.entries := by
  cases hok : entriesOf v with
  | error f => exact absurd ((fails_entriesOf v).1 ⟨f, hok⟩) h
  | ok entries => rw [entriesOf_ok hok]

def isComponent : Value → Bool
  | .null | .map _ => true
  | _ => false

theorem isComponent_of_isMap (h : value.isMap = true) : isComponent value = true := by
  rw [Value.isMap_iff.1 h]
  rfl

theorem outcome_readComponent (key value : Value) : (readComponent key value).outcome =
    if isComponent value then (attributesOf (givenAttributes value)).map fun attributes =>
      some (lower key.display, ⟨key.display, givenTarget value, attributes⟩)
    else .ok none := by
  have hbuild : ∀ fields : List (Value × Value),
      (Logged.ofOutcome (attributesOf (Value.field "attributes".toList fields)) >>=
        fun attributes =>
          (return some (lower key.display,
            ⟨key.display, Value.field "lwc".toList fields, attributes⟩) :
              Reading (Option (Text × ComponentEntry)))).outcome =
      (attributesOf (Value.field "attributes".toList fields)).map fun attributes =>
        some (lower key.display, ⟨key.display, Value.field "lwc".toList fields, attributes⟩) := by
    intro fields
    rw [Logged.outcome_bind]
    rfl
  cases value with
  | null => exact hbuild []
  | map fields => exact hbuild fields
  | _ => rfl

theorem readComponent_error_iff (key : Value) :
    (∃ f, (readComponent key value).outcome = .error f) ↔ RejectedEntry value := by
  rw [outcome_readComponent, RejectedEntry]
  by_cases hcomponent : isComponent value = true
  · simp only [hcomponent, if_true, map_eq_error_iff, fails_attributesOf]
    cases value with
    | map fields => simp [Value.isMap]
    | null =>
      have hnone : (givenAttributes .null).isGiven = false := rfl
      simp [Value.isMap, hnone]
    | _ => simp [isComponent] at hcomponent
  · have hmap : value.isMap ≠ true := fun hmap => hcomponent (isComponent_of_isMap hmap)
    simp [hcomponent, hmap]

def builtPair (e : Value × Value) : Text × ComponentEntry :=
  (lower e.1.display, ⟨e.1.display, givenTarget e.2,
    ((attributesOf (givenAttributes e.2)).toOption.getD [])⟩)

theorem outcome_readComponent_of (h : ¬ RejectedEntry value) : (readComponent key value).outcome =
    .ok (if isComponent value then some (builtPair (key, value)) else none) := by
  have hok : ¬ ∃ f, (readComponent key value).outcome = .error f := fun hf =>
    h ((readComponent_error_iff key).1 hf)
  rw [outcome_readComponent] at hok ⊢
  by_cases hcomponent : isComponent value = true
  · rw [if_pos hcomponent] at hok ⊢
    rw [if_pos hcomponent, builtPair]
    cases hattributes : attributesOf (givenAttributes value) with
    | error f => exact absurd ⟨f, by rw [hattributes]; rfl⟩ hok
    | ok attributes => rfl
  · rw [if_neg hcomponent, if_neg hcomponent]

/-- The entry that a well-formed one of a file gives. -/
structure Built (key value : Value) (e : ComponentEntry) : Prop where
  auraTag : e.auraTag = key.display
  target : e.target = givenTarget value
  attributes : attributesOf (givenAttributes value) = .ok e.attributes

theorem built_builtPair (hcomponent : isComponent value = true) (h : ¬ RejectedEntry value) :
    Built key value (builtPair (key, value)).2 := by
  refine ⟨rfl, rfl, ?_⟩
  cases hattributes : attributesOf (givenAttributes value) with
  | ok attributes => simp [builtPair, hattributes, Except.toOption]
  | error f =>
    have hfails := (fails_attributesOf (givenAttributes value)).1 ⟨f, hattributes⟩
    cases value with
    | map fields => exact absurd ⟨rfl, hfails⟩ h
    | null => exact absurd hfails.1 (by decide)
    | _ => simp [isComponent] at hcomponent

theorem outcome_readComponents (h : ∀ e ∈ raw, ¬ RejectedEntry e.2) :
    (readComponents raw).outcome = .ok ((raw.filter fun e => isComponent e.2).map builtPair) := by
  induction raw with
  | nil => rfl
  | cons e raw ih =>
    rw [List.forall_mem_cons] at h
    have hrest := ih h.2
    rw [readComponents, Logged.outcome_bind, outcome_readComponent_of h.1]
    simp only [Bind.bind, Except.bind]
    show (Logged.bind (readComponents raw) _).outcome = _
    rw [Logged.bind, hrest]
    by_cases hcomponent : isComponent e.2 = true
    · simp [hcomponent]
    · simp [hcomponent]

theorem readComponents_error (h : ∃ e ∈ raw, RejectedEntry e.2) :
    ∃ f, (readComponents raw).outcome = .error f := by
  induction raw with
  | nil => simp at h
  | cons e raw ih =>
    rw [readComponents, Logged.outcome_bind]
    cases hfirst : (readComponent e.1 e.2).outcome with
    | error f => exact ⟨f, rfl⟩
    | ok first =>
      have hfine : ¬ RejectedEntry e.2 := fun hrejected => by
        obtain ⟨f, hf⟩ := (readComponent_error_iff e.1).2 hrejected
        rw [hfirst] at hf
        cases hf
      rw [List.exists_mem_cons_iff, or_iff_right hfine] at h
      obtain ⟨f, hf⟩ := ih h
      refine ⟨f, ?_⟩
      show (Logged.bind (readComponents raw) _).outcome = _
      rw [Logged.bind, hf]

def isSlotList : Value → Bool
  | .list _ => true
  | _ => false

def slotNames : Value → List Text
  | .list names => names.map Value.display
  | _ => []

theorem outcome_readSlotTables (raw : List (Value × Value)) : (readSlotTables raw).outcome =
    .ok ((raw.filter fun e => isSlotList e.2).map fun e => (e.1.display, slotNames e.2)) := by
  induction raw with
  | nil => rfl
  | cons e raw ih =>
    obtain ⟨key, value⟩ := e
    rw [readSlotTables, Logged.outcome_bind]
    cases value with
    | list names =>
      show (readSlotTables raw >>= fun rest => _).outcome = _
      rw [Logged.outcome_bind, ih]
      rfl
    | _ =>
      show (readSlotTables raw >>= fun rest => _).outcome = _
      rw [Logged.outcome_bind, ih]
      rfl

def fileEntries (path : Text) (content : Value) : Except MappingFault (List (Value × Value)) :=
  match content with
  | .map entries => .ok entries
  | v => if v.isGiven then .error (.noMap path) else .ok []

theorem fileEntries_error_iff : (∃ f, fileEntries path content = .error f) ↔
    content.isGiven = true ∧ content.isMap = false := by
  cases content with
  | map entries => simp [fileEntries, Value.isMap]
  | _ =>
    simp only [fileEntries, Value.isMap, and_true]
    split <;> simp [*]

theorem fileEntries_ok {entries : List (Value × Value)}
    (h : fileEntries path content = .ok entries) : entries = content.entries := by
  unfold fileEntries at h
  split at h
  · exact (Except.ok.inj h).symm
  · rename_i hmap
    split at h
    · cases h
    · rw [← Except.ok.inj h]
      cases content with
      | map entries => exact absurd rfl (hmap entries)
      | _ => rfl

theorem outcome_override : (override given path content).outcome =
    (fileEntries path content >>= fun entries =>
      entriesOf (Value.field "components".toList entries) >>= fun rawComponents =>
      (readComponents rawComponents).outcome >>= fun components =>
      entriesOf (Value.field "slots".toList entries) >>= fun rawSlots =>
      (readSlotTables rawSlots).outcome >>= fun slots =>
      .ok ⟨Keyed.insertAll builtIn.components components,
        Keyed.insertAll builtIn.slots slots⟩) := by
  simp only [override, Logged.outcome_bind]
  rfl

/-- The built-in tables with the well-formed entries of a file put in. -/
def merged (content : Value) : Mapping :=
  ⟨Keyed.insertAll builtIn.components
      (((givenComponents content).filter fun e => isComponent e.2).map builtPair),
    Keyed.insertAll builtIn.slots
      (((givenSlots content).filter fun e => isSlotList e.2).map fun e =>
        (e.1.display, slotNames e.2))⟩

theorem outcome_override_of (given path : Text) (h : ¬ Rejected content) :
    (override given path content).outcome = .ok (merged content) := by
  have hentries : fileEntries path content = .ok content.entries := by
    cases hfile : fileEntries path content with
    | ok entries => rw [fileEntries_ok hfile]
    | error f =>
      have hfails := fileEntries_error_iff.1 ⟨f, hfile⟩
      exact absurd (.file hfails.1 hfails.2) h
  have htable : ∀ name ∈ ["components", "slots"],
      entriesOf (Value.field name.toList content.entries) =
        .ok (Value.field name.toList content.entries).entries := fun name hname =>
    entriesOf_of_not_fails fun hfails => h (.table name hname hfails.1 hfails.2)
  have hcomponents : (readComponents (givenComponents content)).outcome =
      .ok (((givenComponents content).filter fun e => isComponent e.2).map builtPair) :=
    outcome_readComponents fun e he hrejected => h (.entry e.1 e.2 he hrejected)
  rw [outcome_override, hentries]
  show entriesOf (Value.field "components".toList content.entries) >>= _ = _
  rw [htable "components" (by simp)]
  show (readComponents (givenComponents content)).outcome >>= _ = _
  rw [hcomponents]
  show entriesOf (Value.field "slots".toList content.entries) >>= _ = _
  rw [htable "slots" (by simp)]
  show (readSlotTables (givenSlots content)).outcome >>= _ = _
  rw [outcome_readSlotTables]
  rfl

theorem not_rejected_of_ok {m : Mapping} (h : (override given path content).outcome = .ok m) :
    ¬ Rejected content := by
  obtain ⟨entries, hentries, h⟩ := Logged.bind_eq_ok h
  obtain ⟨raw, hraw, h⟩ := Logged.bind_eq_ok h
  obtain ⟨components, hcomponents, h⟩ := Logged.bind_eq_ok h
  obtain ⟨rawSlots, hrawSlots, -⟩ := Logged.bind_eq_ok h
  have hfile : fileEntries path content = .ok entries := hentries
  obtain rfl := fileEntries_ok hfile
  have hnone : ∀ {α : Type} {r : Except MappingFault α} {a : α},
      r = .ok a → ¬ ∃ f, r = .error f := by
    rintro α r a rfl ⟨f, hf⟩
    cases hf
  rintro (⟨hgiven, hmap⟩ | ⟨name, hname, hgiven, hmap⟩ | ⟨key, value, hentry, hvalue⟩)
  · exact hnone hfile (fileEntries_error_iff.2 ⟨hgiven, hmap⟩)
  · simp only [List.mem_cons, List.not_mem_nil, or_false] at hname
    rcases hname with rfl | rfl
    · exact hnone hraw ((fails_entriesOf _).2 ⟨hgiven, hmap⟩)
    · exact hnone hrawSlots ((fails_entriesOf _).2 ⟨hgiven, hmap⟩)
  · rw [entriesOf_ok hraw] at hcomponents
    exact hnone hcomponents (readComponents_error ⟨(key, value), hentry, hvalue⟩)

theorem override_error_iff :
    (∃ f, (override given path content).outcome = .error f) ↔ Rejected content := by
  constructor
  · rintro ⟨f, hf⟩
    by_contra h
    rw [outcome_override_of given path h] at hf
    cases hf
  · intro h
    cases hok : (override given path content).outcome with
    | error f => exact ⟨f, rfl⟩
    | ok m => exact absurd h (not_rejected_of_ok hok)

/-- The last well-formed entry of a file for a tag, in any letter case. -/
def lastComponent? (content : Value) (tag : Text) : Option (Value × Value) :=
  (givenComponents content).reverse.find? fun e => isComponent e.2 && lower e.1.display == lower tag

def lastSlots? (content : Value) (tag : Text) : Option (Value × Value) :=
  (givenSlots content).reverse.find? fun e => isSlotList e.2 && e.1.display == tag

/-- Every tag has the last entry of the file for it, as a whole, or else the built-in one. -/
structure Merges (content : Value) (m : Mapping) : Prop where
  component : ∀ tag, match lastComponent? content tag with
    | some e => ∃ entry, m.component? tag = some entry ∧ Built e.1 e.2 entry
    | none => m.component? tag = builtIn.component? tag
  slots : ∀ tag, tag ≠ [] → m.slotsOf (.text tag) = match lastSlots? content tag with
    | some e => slotNames e.2
    | none => builtIn.slotsOf (.text tag)

theorem component?_merged (content : Value) (tag : Text) : (merged content).component? tag =
    ((lastComponent? content tag).map fun e => (builtPair e).2).or (builtIn.component? tag) := by
  rw [component?, merged, Keyed.lookup_insertAll_map]
  rfl

theorem slotsOf_merged (content : Value) {tag : Text} (htag : tag ≠ []) :
    (merged content).slotsOf (.text tag) =
      ((lastSlots? content tag).map fun e => slotNames e.2).getD (builtIn.slotsOf (.text tag)) := by
  obtain ⟨c, cs, rfl⟩ := List.exists_cons_of_ne_nil htag
  have hlookup : (merged content).slots.lookup (c :: cs) =
      ((lastSlots? content (c :: cs)).map fun e => slotNames e.2).or
        (builtIn.slots.lookup (c :: cs)) := by
    rw [merged, Keyed.lookup_insertAll_map]
    rfl
  rw [slotsOf, hlookup]
  cases lastSlots? content (c :: cs) <;> rfl

theorem merges_merged (h : ¬ Rejected content) : Merges content (merged content) := by
  constructor
  · intro tag
    rw [component?_merged]
    cases hlast : lastComponent? content tag with
    | none => rfl
    | some e =>
      have hmem : e ∈ givenComponents content :=
        List.mem_reverse.1 (List.mem_of_find?_eq_some hlast)
      have hsome := List.find?_some hlast
      rw [Bool.and_eq_true] at hsome
      exact ⟨_, rfl, built_builtPair hsome.1 fun hvalue => h (.entry e.1 e.2 hmem hvalue)⟩
  · intro tag htag
    rw [slotsOf_merged content htag]
    cases lastSlots? content tag <;> rfl

/-- A file without its malformed entries. -/
def wellFormedPart (content : Value) : Value :=
  .map
    [(.text "components".toList, .map ((givenComponents content).filter fun e => isComponent e.2)),
      (.text "slots".toList, .map ((givenSlots content).filter fun e => isSlotList e.2))]

theorem field_components_wellFormedPart (content : Value) :
    Value.field "components".toList (wellFormedPart content).entries =
      .map ((givenComponents content).filter fun e => isComponent e.2) := by
  simp only [wellFormedPart, Value.entries, Value.field, Value.field?, List.find?_cons,
    Value.same_text, beq_self_eq_true, Option.map_some, Option.getD_some]

theorem field_slots_wellFormedPart (content : Value) :
    Value.field "slots".toList (wellFormedPart content).entries =
      .map ((givenSlots content).filter fun e => isSlotList e.2) := by
  have hother : ("components".toList == "slots".toList) = false := by decide
  simp only [wellFormedPart, Value.entries, Value.field, Value.field?, List.find?_cons,
    Value.same_text, hother, beq_self_eq_true, Option.map_some, Option.getD_some]

theorem givenComponents_wellFormedPart (content : Value) :
    givenComponents (wellFormedPart content) =
      (givenComponents content).filter fun e => isComponent e.2 := by
  rw [givenComponents, field_components_wellFormedPart, Value.entries]

theorem givenSlots_wellFormedPart (content : Value) :
    givenSlots (wellFormedPart content) = (givenSlots content).filter fun e => isSlotList e.2 := by
  rw [givenSlots, field_slots_wellFormedPart, Value.entries]

theorem merged_wellFormedPart (content : Value) :
    merged (wellFormedPart content) = merged content := by
  simp only [merged, givenComponents_wellFormedPart, givenSlots_wellFormedPart, List.filter_filter,
    Bool.and_self]

theorem not_rejected_wellFormedPart (h : ¬ Rejected content) :
    ¬ Rejected (wellFormedPart content) := by
  rintro (⟨-, hmap⟩ | ⟨name, hname, -, hmap⟩ | ⟨key, value, hentry, hvalue⟩)
  · cases hmap
  · simp only [List.mem_cons, List.not_mem_nil, or_false] at hname
    rcases hname with rfl | rfl
    · rw [field_components_wellFormedPart] at hmap
      cases hmap
    · rw [field_slots_wellFormedPart] at hmap
      cases hmap
  · rw [givenComponents_wellFormedPart] at hentry
    exact h (.entry key value (List.mem_filter.1 hentry).1 hvalue)

/-- Tables that can be changed in place, the built-in ones first. -/
abbrev Shelf := List Mapping

abbrev Loading := EStateM MappingFault Shelf

namespace Loading

def ofOutcome {α : Type} (r : Except MappingFault α) : Loading α := fun shelf =>
  match r with
  | .ok a => .ok a shelf
  | .error f => .error f shelf

def copyFirst : Loading Nat := fun shelf => .ok shelf.length (shelf ++ [shelf.headD builtIn])

def change (i : Nat) (f : Mapping → Mapping) : Loading Unit := fun shelf =>
  .ok () (shelf.modify i f)

end Loading

/-- Reads a file into a copy of the built-in tables and gives its number.  The components are put
in before the slot tables are looked at. -/
def load (path : Text) (content : Value) : Loading Nat := do
  let own ← Loading.copyFirst
  let entries ← .ofOutcome (fileEntries path content)
  let rawComponents ← .ofOutcome (entriesOf (Value.field "components".toList entries))
  let components ← .ofOutcome (readComponents rawComponents).outcome
  Loading.change own fun m => { m with components := Keyed.insertAll m.components components }
  let rawSlots ← .ofOutcome (entriesOf (Value.field "slots".toList entries))
  let slots ← .ofOutcome (readSlotTables rawSlots).outcome
  Loading.change own fun m => { m with slots := Keyed.insertAll m.slots slots }
  return own

theorem modify_last (shelf : Shelf) (m : Mapping) (f : Mapping → Mapping) :
    (shelf ++ [m]).modify shelf.length f = shelf ++ [f m] := by
  induction shelf with
  | nil => rfl
  | cons first shelf ih => exact congrArg (first :: ·) ih

variable {shelf : Shelf}

/-- A result puts one table more on the shelf and leaves the others: a finished one with its number,
or with the fault what there was of it. -/
def Follows (shelf : Shelf) (r : Except MappingFault Mapping)
    (result : EStateM.Result MappingFault Shelf Nat) : Prop :=
  match r with
  | .ok m => result = .ok shelf.length (shelf ++ [m])
  | .error f => ∃ own, result = .error f (shelf ++ [own])

theorem Follows.bind {α : Type} {r : Except MappingFault α} {k : α → Except MappingFault Mapping}
    {next : α → Loading Nat} {own : Mapping}
    (h : ∀ a, Follows shelf (k a) (next a (shelf ++ [own]))) :
    Follows shelf (r >>= k) ((Loading.ofOutcome r >>= next) (shelf ++ [own])) := by
  cases r with
  | error f => exact ⟨own, rfl⟩
  | ok a => exact h a

theorem follows_load (given path : Text) (content : Value) (hfirst : shelf.head? = some builtIn) :
    Follows shelf (override given path content).outcome (load path content shelf) := by
  have hcopy : shelf.headD builtIn = builtIn := by
    rw [List.headD_eq_head?_getD, hfirst]
    rfl
  have hstart : Loading.copyFirst shelf = .ok shelf.length (shelf ++ [builtIn]) := by
    rw [Loading.copyFirst, hcopy]
  rw [outcome_override, load]
  simp only [Bind.bind, EStateM.bind, hstart]
  refine Follows.bind fun entries => Follows.bind fun rawComponents =>
    Follows.bind fun components => ?_
  show Follows shelf _ ((Loading.ofOutcome _ >>= _) ((shelf ++ [builtIn]).modify shelf.length _))
  rw [modify_last]
  refine Follows.bind fun rawSlots => Follows.bind fun slots => ?_
  exact congrArg (EStateM.Result.ok shelf.length) (modify_last shelf _ _)

def Shelf.next (shelf : Shelf) (file : Text × Value) : Shelf :=
  match load file.1 file.2 shelf with
  | .ok _ shelf' => shelf'
  | .error _ shelf' => shelf'

/-- The shelf when files have been read one after the other. -/
def Shelf.after (files : List (Text × Value)) : Shelf := files.foldl Shelf.next [builtIn]

theorem Shelf.prefix_next (hfirst : shelf.head? = some builtIn) (file : Text × Value) :
    shelf <+: shelf.next file := by
  have hfollows := follows_load file.1 file.1 file.2 hfirst
  rw [Shelf.next]
  cases hok : (override file.1 file.1 file.2).outcome with
  | ok m =>
    rw [hok] at hfollows
    rw [hfollows]
    exact List.prefix_append shelf [m]
  | error f =>
    rw [hok] at hfollows
    obtain ⟨own, hown⟩ := hfollows
    rw [hown]
    exact List.prefix_append shelf [own]

theorem Shelf.head?_of_prefix {shelf' : Shelf} (hfirst : shelf.head? = some builtIn)
    (h : shelf <+: shelf') : shelf'.head? = some builtIn := by
  obtain ⟨rest, rfl⟩ := h
  rw [List.head?_append, hfirst]
  rfl

theorem Shelf.head?_after (files : List (Text × Value)) :
    (Shelf.after files).head? = some builtIn := by
  induction files using List.reverseRecOn with
  | nil => rfl
  | append_singleton files file ih =>
    rw [Shelf.after, List.foldl_append]
    exact Shelf.head?_of_prefix ih (Shelf.prefix_next ih file)

/-- Whatever files were read before, a file is rejected for the reasons of `Rejected` alone, and
else its last well-formed entries stand over the built-in tables, as if there were no others; in
both cases the built-in tables and all those read before are what they were. -/
theorem overrides_merge (files : List (Text × Value)) (given path : Text) (content : Value) :
    (Rejected content ∧ ∃ f own, (override given path content).outcome = .error f ∧
        load path content (Shelf.after files) = .error f (Shelf.after files ++ [own]) ∧
        (Shelf.after files ++ [own]).head? = some builtIn) ∨
    (¬ Rejected content ∧ ∃ m, (override given path content).outcome = .ok m ∧
        load path content (Shelf.after files) =
          .ok (Shelf.after files).length (Shelf.after files ++ [m]) ∧
        (Shelf.after files ++ [m]).head? = some builtIn ∧ Merges content m ∧
        (override given path (wellFormedPart content)).outcome = .ok m) := by
  have hfirst := Shelf.head?_after files
  have hfollows := follows_load given path content hfirst
  have hhead : ∀ own, (Shelf.after files ++ [own]).head? = some builtIn := fun own =>
    Shelf.head?_of_prefix hfirst (List.prefix_append _ _)
  by_cases h : Rejected content
  · obtain ⟨f, hf⟩ := override_error_iff.2 h
    rw [hf] at hfollows
    obtain ⟨own, hown⟩ := hfollows
    exact .inl ⟨h, f, own, hf, hown, hhead own⟩
  · have hok := outcome_override_of given path h
    have hclean := outcome_override_of given path (not_rejected_wellFormedPart h)
    rw [merged_wellFormedPart] at hclean
    rw [hok] at hfollows
    exact .inr ⟨h, merged content, hok, hfollows, hhead _, merges_merged h, hclean⟩

end Mapping
end LightningTemplate
