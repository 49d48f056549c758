import Mathlib.Data.List.Induction
import LightningTemplate.Component
import LightningTemplate.Proofs.PathToken
import LightningTemplate.Proofs.Trials
import LightningTemplate.SideChannel

/-! Where the children of a component's element go.  The tag of a child tells its place, and
declarations and content get there whole and in order.  Facets are kept under their names, one
entry a name, so an entry holds the content of the last element of its name alone; whether
that is all there was is what `parts_accounted_iff` says. -/
namespace LightningTemplate
open Text

namespace Keyed
variable {κ α : Type} [DecidableEq κ] [BEq κ] [LawfulBEq κ]

def lastOf [Inhabited α] (pairs : List (κ × α)) (key : κ) : α :=
  ((pairs.filter (·.1 == key)).getLast?.map (·.2)).getD default

theorem lastOf_concat [Inhabited α] (pairs : List (κ × α)) (e : κ × α) :
    lastOf (pairs ++ [e]) = Function.update (lastOf pairs) e.1 e.2 := by
  funext key
  by_cases h : key = e.1
  · simp [lastOf, h]
  · simp [lastOf, Function.update_of_ne h, Ne.symm h]

theorem insert_map (key : κ) (a : α) (v : κ → α) {keys : List κ} (h : keys.Nodup) :
    insert key a (keys.map fun k => (k, v k)) =
      (if key ∈ keys then keys else keys ++ [key]).map fun k => (k, Function.update v key a k) := by
  induction keys with
  | nil => simp [insert]
  | cons k keys ih =>
    rw [List.nodup_cons] at h
    by_cases hk : k = key
    · subst hk
      have hrest : ∀ k' ∈ keys, (k', Function.update v k a k') = (k', v k') := by
        intro k' hk'
        rw [Function.update_of_ne (ne_of_mem_of_not_mem hk' h.1)]
      simp [insert, List.map_congr_left hrest]
    · have hne : key ≠ k := Ne.symm hk
      by_cases hmem : key ∈ keys <;>
        simp [insert, hk, hne, hmem, ih h.2]

/-- Every key stands where it came first, with the value that came last. -/
theorem insertAll_nil [Inhabited α] (pairs : List (κ × α)) :
    insertAll [] pairs = (pairs.map (·.1)).eraseDups.map fun key => (key, lastOf pairs key) := by
  induction pairs using List.reverseRecOn with
  | nil => rfl
  | append_singleton pairs e ih =>
    have hstep : insertAll [] (pairs ++ [e]) = insert e.1 e.2 (insertAll [] pairs) := by
      simp [insertAll]
    rw [hstep, ih, insert_map _ _ _ (nodup_eraseDups _), lastOf_concat]
    congr 1
    rw [List.map_append, List.eraseDups_append]
    by_cases h : e.1 ∈ pairs.map (·.1) <;>
      simp [List.removeAll, List.eraseDups_cons, h, List.mem_eraseDups]

end Keyed

/-- The lists of a component that the children of its element go to. -/
inductive Place
  | attributes | handlers | events | methods | facets | body
  deriving DecidableEq

namespace Place

def table : List (Text × Place) :=
  [(attributeTag, .attributes), ("aura:handler".toList, .handlers),
   ("aura:registerevent".toList, .events), ("aura:method".toList, .methods),
   ("aura:set".toList, .facets)]

def ofTag (tag : Text) : Place := (table.lookup (lower tag)).getD .body

end Place

namespace Node

def place? : Node → Option Place
  | .text t => if isAllBlank t then none else some .body
  | .element tag _ _ => some (.ofTag tag)

/-- The children of an element that belong to the place, in document order. -/
def childrenAt (element : Node) (p : Place) : List Node :=
  element.children.filter (·.place? == some p)

def slotName (n : Node) : Text := facetName n.attributes.trimmed

def givenSlot (n : Node) : Text := n.attributes.get "attribute".toList

theorem slotName_eq_strip (n : Node) : n.slotName = strip n.givenSlot := rfl

/-- The slots of facets, each at its first place, with the content of all facets for it in
document order. -/
def gathered (facets : List Node) : List (Text × List Node) :=
  (facets.map slotName).eraseDups.map fun slot =>
    (slot, (facets.filter (·.slotName == slot)).flatMap children)

end Node

namespace Part

theorem ofElement_eq (tag : Text) (attrs : Attributes) (children : List Node) :
    ofElement tag attrs children =
      match Place.ofTag tag with
      | .attributes => .attributeDeclaration (.ofAttributes attrs)
      | .handlers => .handler (.ofAttributes attrs)
      | .events => .event (.ofAttributes attrs)
      | .methods => .method (.ofElement attrs children)
      | .facets => .facet (attrs.get "attribute".toList) children
      | .body => .content (.element tag attrs children) := by
  have hfirst : ∀ (k a : Text) (p : Place) (rest : List (Text × Place)),
      (((a, p) :: rest).lookup k).getD .body = if k = a then p else (rest.lookup k).getD .body := by
    intro k a p rest
    rw [List.lookup_cons]
    by_cases h : k = a
    · rw [if_pos h, beq_iff_eq.2 h]
      rfl
    · rw [if_neg h, beq_eq_false_iff_ne.2 h]
  rw [ofElement, Place.ofTag, Place.table, hfirst, hfirst, hfirst, hfirst, hfirst]
  by_cases hattribute : lower tag = attributeTag
  · rw [if_pos hattribute, if_pos hattribute]
  rw [if_neg hattribute, if_neg hattribute]
  by_cases hhandler : lower tag = "aura:handler".toList
  · rw [if_pos hhandler, if_pos hhandler]
  rw [if_neg hhandler, if_neg hhandler]
  by_cases hevent : lower tag = "aura:registerevent".toList
  · rw [if_pos hevent, if_pos hevent]
  rw [if_neg hevent, if_neg hevent]
  by_cases hmethod : lower tag = "aura:method".toList
  · rw [if_pos hmethod, if_pos hmethod]
  rw [if_neg hmethod, if_neg hmethod]
  by_cases hset : lower tag = "aura:set".toList
  · rw [if_pos hset, if_pos hset]
  · rw [if_neg hset, if_neg hset]
    rfl

def ofPlace (n : Node) : Option Place → Part
  | none => .blank
  | some .attributes => .attributeDeclaration (.ofAttributes n.attributes)
  | some .handlers => .handler (.ofAttributes n.attributes)
  | some .events => .event (.ofAttributes n.attributes)
  | some .methods => .method (.ofElement n.attributes n.children)
  | some .facets => .facet n.givenSlot n.children
  | some .body => .content n

theorem ofNode_eq (n : Node) : ofNode n = ofPlace n n.place? := by
  cases n with
  | text t => by_cases h : isAllBlank t = true <;> simp [ofNode, Node.place?, ofPlace, h]
  | element tag attrs children =>
    rw [ofNode, ofElement_eq, Node.place?]
    cases Place.ofTag tag <;> rfl

/-- A reading of parts that looks at one place sees the children there. -/
theorem filterMap_at {β : Type} {pick : Part → Option β} {p : Place} {f : Node → Option β}
    (h : ∀ n q, pick (ofPlace n q) = if q = some p then f n else none) (element : Node) :
    (element.children.map ofNode).filterMap pick = (element.childrenAt p).filterMap f := by
  rw [List.filterMap_map, Node.childrenAt, List.filterMap_filter]
  congr 1
  funext n
  simp [ofNode_eq, h]

theorem map_at {β : Type} {pick : Part → Option β} {p : Place} {f : Node → β}
    (h : ∀ n q, pick (ofPlace n q) = if q = some p then some (f n) else none) (element : Node) :
    (element.children.map ofNode).filterMap pick = (element.childrenAt p).map f := by
  rw [filterMap_at h, List.filterMap_eq_map']

end Part

namespace Node
variable {facets : List Node}

/-- Every facet gives its slot, with no blanks around it, and a facet that another one for the
same slot follows has no content. -/
structure SlotsApart (facets : List Node) : Prop where
  given : ∀ n ∈ facets, n.givenSlot ≠ []
  bare : ∀ n ∈ facets, strip n.givenSlot = n.givenSlot
  apart : facets.Pairwise fun earlier later => earlier.slotName = later.slotName →
    earlier.children = []

instance : Decidable (SlotsApart facets) :=
  decidable_of_iff ((∀ n ∈ facets, n.givenSlot ≠ []) ∧
      (∀ n ∈ facets, strip n.givenSlot = n.givenSlot) ∧
      facets.Pairwise fun earlier later => earlier.slotName = later.slotName →
        earlier.children = [])
    ⟨fun ⟨given, bare, apart⟩ => ⟨given, bare, apart⟩,
      fun ⟨given, bare, apart⟩ => ⟨given, bare, apart⟩⟩

def keyed? (n : Node) : Option (Text × List Node) :=
  if n.givenSlot.isEmpty then none else some (n.givenSlot, n.children)

theorem keys_keyed (facets : List Node) :
    (facets.filterMap keyed?).map (·.1) = (facets.map givenSlot).filter (!·.isEmpty) := by
  induction facets with
  | nil => rfl
  | cons n facets ih =>
    by_cases h : n.givenSlot.isEmpty = true <;> simp_all [keyed?]

/-- The last list is all of them exactly when those before it are empty. -/
theorem getLast_eq_flatten_iff {α : Type} (lists : List (List α)) :
    lists.getLast?.getD [] = lists.flatten ↔ lists.Pairwise fun earlier _ => earlier = [] := by
  induction lists with
  | nil => simp
  | cons a lists ih =>
    rcases List.eq_nil_or_concat' lists with rfl | ⟨init, last, rfl⟩
    · simp
    · have hlast : (a :: (init ++ [last])).getLast? = some last := by
        rw [← List.cons_append, List.getLast?_concat]
      rw [List.pairwise_cons, ← ih, hlast, List.getLast?_concat]
      constructor
      · intro h
        have hlength := congrArg List.length h
        simp only [Option.getD_some, List.flatten_cons, List.flatten_append, List.flatten_nil,
          List.append_nil, List.length_append] at hlength
        have ha : a = [] := List.eq_nil_of_length_eq_zero (by omega)
        subst ha
        exact ⟨fun _ _ => rfl, by simpa using h⟩
      · rintro ⟨ha, h⟩
        have ha : a = [] := ha last (by simp)
        subst ha
        simpa using h

/-- Facets that give their slots bare are entered under them. -/
theorem keyed_eq_map (hgiven : ∀ n ∈ facets, n.givenSlot ≠ [])
    (hbare : ∀ n ∈ facets, strip n.givenSlot = n.givenSlot) :
    facets.filterMap keyed? = facets.map fun n => (n.slotName, n.children) := by
  have hentry : ∀ n ∈ facets, keyed? n = some (n.slotName, n.children) := by
    intro n hn
    have hne : n.givenSlot.isEmpty = false := by simpa using hgiven n hn
    rw [keyed?, hne, slotName_eq_strip, hbare n hn]
    rfl
  rw [← List.filterMap_eq_map']
  exact List.filterMap_congr hentry

theorem lastOf_map (facets : List Node) (slot : Text) :
    Keyed.lastOf (facets.map fun n => (n.slotName, n.children)) slot =
      ((facets.filter (·.slotName == slot)).map children).getLast?.getD [] := by
  rw [Keyed.lastOf, List.filter_map, List.getLast?_map, List.getLast?_map, Option.map_map]
  rfl

theorem bare_of_insertAll_eq (h : Keyed.insertAll [] (facets.filterMap keyed?) = gathered facets) :
    (∀ n ∈ facets, n.givenSlot ≠ []) ∧ ∀ n ∈ facets, strip n.givenSlot = n.givenSlot := by
  have hkeys := congrArg (List.map (·.1)) h
  simp only [Keyed.insertAll_nil, gathered, List.map_map, Function.comp_def, List.map_id'] at hkeys
  have hmem : ∀ slot, slot ∈ (facets.map givenSlot).filter (!·.isEmpty) ↔
      slot ∈ facets.map slotName := by
    intro slot
    rw [← List.mem_eraseDups, ← keys_keyed, hkeys, List.mem_eraseDups]
  have hgiven : ∀ n ∈ facets, n.givenSlot ≠ [] := by
    intro n hn hempty
    have hslot := (hmem n.slotName).2 (List.mem_map_of_mem hn)
    simp [slotName_eq_strip, hempty, strip, stripBoth, stripRight, stripLeft] at hslot
  refine ⟨hgiven, fun n hn => ?_⟩
  have hgivenSlot : n.givenSlot ∈ (facets.map givenSlot).filter (!·.isEmpty) := by
    simpa [hgiven n hn] using ⟨n, hn, rfl⟩
  obtain ⟨m, -, hm⟩ := List.mem_map.1 ((hmem _).1 hgivenSlot)
  rw [← hm, slotName_eq_strip, strip_strip]

theorem insertAll_eq_gathered_iff (facets : List Node) :
    Keyed.insertAll [] (facets.filterMap keyed?) = gathered facets ↔ SlotsApart facets := by
  have happart : (∀ n ∈ facets, n.givenSlot ≠ []) → (∀ n ∈ facets, strip n.givenSlot = n.givenSlot) →
      (Keyed.insertAll [] (facets.filterMap keyed?) = gathered facets ↔
        facets.Pairwise fun earlier later => earlier.slotName = later.slotName →
          earlier.children = []) := by
    intro hgiven hbare
    -- both sides list the slots alike, and for each slot the last content is compared with all
    rw [keyed_eq_map hgiven hbare, Keyed.insertAll_nil, gathered, List.map_map]
    show (facets.map slotName).eraseDups.map _ = _ ↔ _
    simp only [List.map_inj_left, List.mem_eraseDups, Prod.mk.injEq, true_and, lastOf_map,
      List.flatMap_def, getLast_eq_flatten_iff, List.pairwise_map, List.pairwise_filter, beq_iff_eq]
    constructor
    · intro h
      rw [List.pairwise_iff_getElem]
      intro i j hi hj hij hslot
      have hpair := h (facets[i].slotName) (List.mem_map_of_mem (List.getElem_mem hi))
      exact List.pairwise_iff_getElem.1 hpair i j hi hj hij rfl hslot.symm
    · intro h slot _
      exact h.imp fun hempty hearlier hlater => hempty (hearlier.trans hlater.symm)
  constructor
  · intro h
    obtain ⟨hgiven, hbare⟩ := bare_of_insertAll_eq h
    exact ⟨hgiven, hbare, (happart hgiven hbare).1 h⟩
  · rintro ⟨hgiven, hbare, h⟩
    exact (happart hgiven hbare).2 h

end Node

namespace Component

theorem outcome_read {name markup : Text} {root element : Node} (h : Markup.read markup = .ok root)
    (he : element? root = some element) :
    (read name markup).outcome = .ok (ofElement name markup element) := by
  simp only [read, h, he]

theorem exists_element (markup : Text) (p : Node → Bool)
    (h : (Markup.read markup).toOption.any (fun root => (element? root).any p) = true) :
    ∃ root element, Markup.read markup = .ok root ∧ element? root = some element ∧
      p element = true := by
  obtain ⟨root, hroot, hany⟩ := Batch.exists_ok_of_any h
  obtain ⟨element, he, hp⟩ := (Option.any_eq_true _ _).1 hany
  exact ⟨root, element, hroot, he, hp⟩

theorem facets_ofElement (name markup : Text) (element : Node) :
    (ofElement name markup element).facets =
      Keyed.insertAll [] ((element.childrenAt .facets).filterMap Node.keyed?) := by
  have hkeyed : (element.children.map Part.ofNode).filterMap Part.facet? =
      (element.childrenAt .facets).filterMap Node.keyed? := by
    refine Part.filterMap_at ?_ element
    rintro n (_ | p)
    · rfl
    · cases p <;> rfl
  rw [ofElement, hkeyed]

end Component

open Node

/-- Every child of a component's element but blank text is in the list of its place, in document
order: a declaration is read there, and the body has it unchanged.  The facets are gathered
under their slots with nothing lost exactly when they keep apart. -/
theorem parts_accounted_iff (name : Text) {markup : Text} {root element : Node}
    (h : Markup.read markup = .ok root) (he : Component.element? root = some element) :
    ∃ c, (Component.read name markup).outcome = .ok c ∧
      c.attributes = (element.childrenAt .attributes).map (.ofAttributes ·.attributes) ∧
      c.handlers = (element.childrenAt .handlers).map (.ofAttributes ·.attributes) ∧
      c.events = (element.childrenAt .events).map (.ofAttributes ·.attributes) ∧
      c.methods = (element.childrenAt .methods).map (fun n => .ofElement n.attributes n.children) ∧
      c.body = element.childrenAt .body ∧
      (c.facets = gathered (element.childrenAt .facets) ↔
        SlotsApart (element.childrenAt .facets)) := by
  refine ⟨_, Component.outcome_read h he, ?attributes, ?handlers, ?events, ?methods, ?body, ?facets⟩
  case facets =>
    rw [Component.facets_ofElement]
    exact insertAll_eq_gathered_iff _
  case body =>
    rw [← List.map_id' (element.childrenAt .body)]
    refine Part.map_at ?_ element
    rintro n (_ | p)
    · rfl
    · cases p <;> rfl
  all_goals
    refine Part.map_at ?_ element
    rintro n (_ | p)
    · rfl
    · cases p <;> rfl

def panelMarkup : Text :=
  ("<aura:component><aura:attribute name=\"open\"/><aura:set attribute=\"header\">Top</aura:set>" ++
    "<p/><aura:set attribute=\"footer\"><b/></aura:set></aura:component>").toList

/-- Two facets for two slots, between a declaration and content. -/
theorem parts_accounted_iff_panel :
    ∃ root element c, Markup.read panelMarkup = .ok root ∧
      Component.element? root = some element ∧
      (Component.read "Panel".toList panelMarkup).outcome = .ok c ∧
      (element.childrenAt .facets).map slotName = ["header".toList, "footer".toList] ∧
      c.facets = gathered (element.childrenAt .facets) := by
  obtain ⟨root, element, h, he, hfacets⟩ := Component.exists_element panelMarkup
    (fun element =>
      (element.childrenAt .facets).map slotName = ["header".toList, "footer".toList] ∧
        SlotsApart (element.childrenAt .facets)) (by decide +kernel)
  obtain ⟨c, hc, -, -, -, -, -, hiff⟩ := parts_accounted_iff "Panel".toList h he
  obtain ⟨hslots, hapart⟩ := of_decide_eq_true hfacets
  exact ⟨root, element, c, h, he, hc, hslots, hiff.2 hapart⟩

def unnamedMarkup : Text :=
  "<aura:component><aura:set><b>x</b></aura:set></aura:component>".toList

/-- A facet that gives no slot is the content of the slot without a name, and it is dropped. -/
theorem unnamedFacet_dropped :
    ∃ root element c, Markup.read unnamedMarkup = .ok root ∧
      Component.element? root = some element ∧
      (Component.read "Card".toList unnamedMarkup).outcome = .ok c ∧
      (gathered (element.childrenAt .facets)).map (fun e => (e.1, e.2.length)) = [([], 1)] ∧
      c.facets = [] ∧ c.body = [] := by
  obtain ⟨root, element, h, he, hfacets⟩ := Component.exists_element unnamedMarkup
    (fun element =>
      (gathered (element.childrenAt .facets)).map (fun e => (e.1, e.2.length)) = [([], 1)] ∧
        (Component.ofElement "Card".toList unnamedMarkup element).facets = [] ∧
        (Component.ofElement "Card".toList unnamedMarkup element).body = []) (by decide +kernel)
  obtain ⟨hgathered, hdropped⟩ := of_decide_eq_true hfacets
  exact ⟨root, element, _, h, he, Component.outcome_read h he, hgathered, hdropped⟩

end LightningTemplate
