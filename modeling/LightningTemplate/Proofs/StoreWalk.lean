import LightningTemplate.Conversion
import LightningTemplate.Proofs.Render

/-! What the handlers leave in the store.  A handler may read and write every list of every
context; that it only adds to the lists of its own, and that nothing it gives depends on what
they held but for the number of getters, is proved here: `Simulates` relates work on the store
to a walk, each handler simulates its frame, and `simulates_transform` puts them together. -/
namespace LightningTemplate
open Findings

namespace Store

def write (st : Store) (c : Context) (log : List Finding) : Store where
  warnings := st.warnings.modify c.warnings (· ++ log.filterMap Finding.warning?)
  usedDirectives := st.usedDirectives.modify c.usedDirectives fun held =>
    held ++ newNames (· == ·) held (log.filterMap Finding.directive?)
  usedComponents := st.usedComponents.modify c.usedComponents fun held =>
    held ++ newNames Value.same held (log.filterMap Finding.component?)
  channels := st.channels.modify c.channels (· ++ log.filterMap Finding.channel?)
  recordData := st.recordData.modify c.recordData (· ++ log.filterMap Finding.recordData?)
  facets := st.facets.modify c.facets (· ++ log.filterMap Finding.facet?)
  getters := st.getters.modify c.getters fun held =>
    held ++ named held.length (log.filterMap Finding.getter?)
  unmapped := st.unmapped ++ log.filterMap Finding.unmapped?

@[simp] theorem modify_same {α : Type} (lists : List (List α)) (place : Nat) :
    lists.modify place (fun held => held) = lists := List.modify_id _ _

@[simp] theorem write_nil (st : Store) (c : Context) : st.write c [] = st := by
  simp [write]

theorem write_append (st : Store) (c : Context) (a b : List Finding) :
    (st.write c a).write c b = st.write c (a ++ b) := by
  simp only [write, List.filterMap_append, List.modify_modify_eq, Function.comp_def,
    newNames_append, named_append, List.append_assoc, List.length_append, length_named]

variable {α : Type} {st : Store} {c : Context}

/-- All lists of the context are in the store. -/
structure Holds (st : Store) (c : Context) : Prop where
  warnings : c.warnings < st.warnings.length
  usedDirectives : c.usedDirectives < st.usedDirectives.length
  usedComponents : c.usedComponents < st.usedComponents.length
  channels : c.channels < st.channels.length
  recordData : c.recordData < st.recordData.length
  facets : c.facets < st.facets.length
  getters : c.getters < st.getters.length

/-- The stores differ in no list but those of the context. -/
structure SameElsewhere (c : Context) (st st' : Store) : Prop where
  warnings : ∀ i, i ≠ c.warnings → st'.warnings[i]? = st.warnings[i]?
  usedDirectives : ∀ i, i ≠ c.usedDirectives → st'.usedDirectives[i]? = st.usedDirectives[i]?
  usedComponents : ∀ i, i ≠ c.usedComponents → st'.usedComponents[i]? = st.usedComponents[i]?
  channels : ∀ i, i ≠ c.channels → st'.channels[i]? = st.channels[i]?
  recordData : ∀ i, i ≠ c.recordData → st'.recordData[i]? = st.recordData[i]?
  facets : ∀ i, i ≠ c.facets → st'.facets[i]? = st.facets[i]?
  getters : ∀ i, i ≠ c.getters → st'.getters[i]? = st.getters[i]?

theorem listAt_modify (f : List α → List α) {lists : List (List α)} {place : Nat}
    (h : place < lists.length) : listAt (lists.modify place f) place = f (listAt lists place) := by
  simp [listAt, h]

theorem Holds.write (h : st.Holds c) (log : List Finding) : (st.write c log).Holds c where
  warnings := by simpa [Store.write] using h.warnings
  usedDirectives := by simpa [Store.write] using h.usedDirectives
  usedComponents := by simpa [Store.write] using h.usedComponents
  channels := by simpa [Store.write] using h.channels
  recordData := by simpa [Store.write] using h.recordData
  facets := by simpa [Store.write] using h.facets
  getters := by simpa [Store.write] using h.getters

theorem sameElsewhere_write (st : Store) (c : Context) (log : List Finding) :
    SameElsewhere c st (st.write c log) := by
  constructor <;> exact fun i hi => List.getElem?_modify_ne _ _ (Ne.symm hi)

theorem findings_write (h : st.Holds c) (log : List Finding) :
    c.findings (st.write c log) = (c.findings st).extend log := by
  simp only [Context.findings, Store.write, extend, listAt_modify, h.warnings, h.usedDirectives,
    h.usedComponents, h.channels, h.recordData, h.facets, h.getters]

theorem getters_write (h : st.Holds c) (log : List Finding) :
    (c.findings (st.write c log)).getters.length =
      (c.findings st).getters.length + Finding.getterCount log := by
  rw [findings_write h, length_getters_extend]

end Store

variable {α β : Type} {c : Context} {st : Store}

/-- In every store that holds the context, the work gives what the walk gives from the number of
getters that are there, and writes the log of the walk. -/
def Simulates (c : Context) (work : StoreM α) (w : Walk α) : Prop :=
  ∀ st : Store, st.Holds c →
    work.run st = ((w.run (c.findings st).getters.length).1,
      st.write c (w.run (c.findings st).getters.length).2)

namespace Simulates
variable {work other : StoreM α} {w v : Walk α}

theorem pure (a : α) : Simulates c (Pure.pure a) (Pure.pure a) := by
  intro st _
  rw [Walk.run_pure, Store.write_nil]
  rfl

theorem bind {f : α → StoreM β} {g : α → Walk β} (h : Simulates c work w)
    (hf : ∀ a, Simulates c (f a) (g a)) : Simulates c (work >>= f) (w >>= g) := by
  intro st hst
  have hrun : (work >>= f).run st = (f (work.run st).1).run (work.run st).2 := rfl
  rw [hrun, h st hst, hf _ _ (hst.write _), Store.getters_write hst, Store.write_append, Walk.run_bind]

theorem ite {p : Prop} [Decidable p] (h : Simulates c work w) (h' : Simulates c other v) :
    Simulates c (if p then work else other) (if p then w else v) := by
  split
  · exact h
  · exact h'

theorem of_forParent {tag : Value} (h : Simulates (c.forParent tag) work w) : Simulates c work w :=
  fun st hst => h st ⟨hst.warnings, hst.usedDirectives, hst.usedComponents, hst.channels,
    hst.recordData, hst.facets, hst.getters⟩

end Simulates

theorem foldl_register (gs : List Getter) (es : List Text) :
    es.foldl Store.register gs = gs ++ named gs.length es := by
  induction es generalizing gs with
  | nil => simp
  | cons e es ih =>
    have hcons : named gs.length (e :: es) = named gs.length [e] ++ named (gs.length + 1) es :=
      named_append _ [e] es
    rw [List.foldl_cons, ih, hcons, ← List.append_assoc, Store.register, List.length_append]
    rfl

theorem Simulates.note {work : StoreM Unit} {f : Finding}
    (h : ∀ st : Store, work.run st = ((), st.write c [f])) : Simulates c work (Walk.note f) :=
  fun st _ => h st

theorem simulates_warn (c : Context) (x : Warning) : Simulates c (c.warn x) (Walk.warn x) :=
  .note fun st => by simp [Store.write, List.filterMap_cons, Context.warn, Store.push]; rfl

theorem simulates_useDirective (c : Context) (name : Text) :
    Simulates c (c.useDirective name) (Walk.note (.directive name)) :=
  .note fun st => by
    simp [Store.write, List.filterMap_cons, Context.useDirective, Store.pushNew, append_newNames]
    rfl

theorem simulates_useComponent (c : Context) (target : Value) :
    Simulates c (c.useComponent target) (Walk.note (.component target)) :=
  .note fun st => by
    simp [Store.write, List.filterMap_cons, Context.useComponent, Store.pushNew, append_newNames]
    rfl

theorem simulates_addChannel (c : Context) (x : MessageChannel) :
    Simulates c (c.addChannel x) (Walk.note (.channel x)) :=
  .note fun st => by simp [Store.write, List.filterMap_cons, Context.addChannel, Store.push]; rfl

theorem simulates_addRecordData (c : Context) (x : RecordData) :
    Simulates c (c.addRecordData x) (Walk.note (.recordData x)) :=
  .note fun st => by simp [Store.write, List.filterMap_cons, Context.addRecordData, Store.push]; rfl

theorem simulates_addFacet (c : Context) (x : Facet) :
    Simulates c (c.addFacet x) (Walk.note (.facet x)) :=
  .note fun st => by simp [Store.write, List.filterMap_cons, Context.addFacet, Store.push]; rfl

theorem simulates_reportUnmapped (c : Context) (tag : Text) :
    Simulates c (reportUnmapped tag) (Walk.note (.unmapped tag)) :=
  .note fun st => by simp [Store.write, List.filterMap_cons, reportUnmapped]; rfl

theorem simulates_convert (c : Context) (t : Text) : Simulates c (c.convert t) (Walk.convert t) := by
  intro st _
  simp [Store.write, List.filterMap_map, Function.comp_def, Context.convert, foldl_register,
    Context.findings]
  rfl

namespace Transformer
open Render

variable {m : Mapping} {indent : Text} {content otherwise main : StoreM Text} {w ow mw : Walk Text}

theorem simulates_text (c : Context) (indent t : Text) :
    Simulates c (transformText c indent t)
      (do return Template.textLines (← Walk.convert t) indent) :=
  (simulates_convert c t).bind fun _ => .pure _

theorem simulates_channel (c : Context) (attrs : Attributes) :
    Simulates c (transformChannel c attrs) (channelFrame attrs) :=
  (simulates_addChannel c _).bind fun _ => (simulates_warn c _).bind fun _ => .pure _

theorem simulates_recordData (c : Context) (attrs : Attributes) :
    Simulates c (transformRecordData c attrs) (recordDataFrame attrs) :=
  (simulates_addRecordData c _).bind fun _ => (simulates_warn c _).bind fun _ => .pure _

theorem simulates_guard (c : Context) (attrs : Attributes) :
    Simulates c (convertGuard c attrs) (guardOf attrs) :=
  .ite ((simulates_convert c _).bind fun _ => .pure _)
    (.ite ((simulates_convert c _).bind fun _ => .pure _) (.pure _))

theorem simulates_conditional {s : Surroundings} (attrs : Attributes) (hasElse : Bool)
    (ho : Simulates c otherwise ow) (hm : Simulates c main mw) :
    Simulates c (transformConditional c s.indent attrs hasElse otherwise main)
      (conditionalFrame s attrs hasElse ow mw) := by
  refine (simulates_guard c attrs).bind fun guard => ho.bind fun elseContent => ?_
  refine hm.bind fun mainContent => ?_
  cases guard with
  | none => exact (simulates_warn c _).bind fun _ => .pure _
  | some g =>
    refine (simulates_useDirective c _).bind fun _ => ?_
    exact .ite ((simulates_useDirective c _).bind fun _ => .pure _) (.pure _)

theorem simulates_reportKey (c : Context) (itemVar : Text) (children : List Node) :
    Simulates c (reportKey c itemVar children) (noteAll (keyWarnings itemVar children)) := by
  unfold reportKey keyWarnings
  split
  · exact simulates_warn c _
  · split
    · exact simulates_warn c _
    · exact .pure _

theorem simulates_iteration {s : Surroundings} (attrs : Attributes) (h : Simulates c content w) :
    Simulates c (transformIteration c s.indent attrs content) (iterationFrame s attrs w) := by
  refine .ite ((simulates_warn c _).bind fun _ => ?_) ?_
  all_goals
    refine (simulates_convert c _).bind fun collection => (simulates_useDirective c _).bind fun _ => ?_
    exact h.bind fun body => .pure _

theorem simulates_slot {s : Surroundings} (hp : c.parent = s.parent) (attrs : Attributes)
    (h : Simulates c content w) :
    Simulates c (transformSlot s.mapping c s.indent attrs content) (slotFrame s attrs w) := by
  unfold transformSlot slotFrame
  rw [hp]
  refine h.bind fun body => (simulates_addFacet c _).bind fun _ => ?_
  refine .ite ((simulates_warn c _).bind fun _ => .pure _) ?_
  exact .ite ((simulates_warn c _).bind fun _ => .pure _) (.pure _)

theorem simulates_rawHtml {s : Surroundings} (attrs : Attributes) (h : Simulates c content w) :
    Simulates c (transformRawHtml c s.indent attrs content) (rawHtmlFrame s attrs w) := by
  refine .ite ((simulates_warn c _).bind fun _ => ?_) ?_
  all_goals
    refine (simulates_convert c _).bind fun body => (simulates_warn c _).bind fun _ => ?_
    exact h.bind fun children => .ite (.pure _) (.pure _)

theorem simulates_attribute (c : Context) (tag : Text) (entry : Option ComponentEntry)
    (a : Text × Text) : Simulates c (convertAttribute c tag entry a) (bindAttribute tag entry a) := by
  refine .ite (.pure _) ((simulates_convert c _).bind fun value => ?_)
  exact .ite ((simulates_warn c _).bind fun _ => .pure _) (.pure _)

theorem simulates_attributes (c : Context) (tag : Text) (entry : Option ComponentEntry)
    (attrs : Attributes) :
    Simulates c (convertAttributes c tag entry attrs) (bindAttributes tag entry attrs) := by
  induction attrs with
  | nil => exact .pure _
  | cons a as ih => exact (simulates_attribute c tag entry a).bind fun first => ih.bind fun _ => .pure _

theorem simulates_reportTag (c : Context) (tag : Text) (target : Value) :
    Simulates c (reportTag c tag target) (noteAll (tagFinding tag target)) := by
  unfold reportTag tagFinding
  split
  · exact simulates_useComponent c _
  · split
    · exact simulates_reportUnmapped c _
    · exact .pure _

theorem simulates_element {s : Surroundings} (tag : Text) (attrs : Attributes) (solid : Bool)
    (h : Simulates c content w) :
    Simulates c (transformElement s.mapping c s.indent tag attrs solid content)
      (plainFrame s tag attrs solid w) := by
  refine (simulates_reportTag c _ _).bind fun _ => (simulates_attributes c _ _ _).bind fun converted => ?_
  exact .ite (h.bind fun body => .pure _) (.pure _)

mutual
theorem simulates_transform (s : Surroundings) (c : Context) (h : c.parent = s.parent)
    (handed : Attributes) :
    (n : Node) → Simulates c (transform s.mapping c s.indent handed n) (renderNode s handed n)
  | .text content => by
    rw [transform, renderNode]
    exact simulates_text c s.indent content
  | .element tag attrs children => by
    rw [transform, renderNode]
    cases Directive.ofTag tag with
    | messageChannel => exact simulates_channel c attrs
    | recordData => exact simulates_recordData c attrs
    | metadata => exact .pure _
    | conditional =>
      exact simulates_conditional attrs _ (simulates_else s.inner c h children)
        (simulates_main s.inner c h children)
    | iteration =>
      refine simulates_iteration attrs ((simulates_reportKey c _ children).bind fun _ => ?_)
      exact .ite (simulates_keyed s.inner c h _ children) (simulates_children s.inner c h children)
    | slot => exact simulates_slot h attrs (simulates_children s.inner c h children)
    | rawHtml => exact simulates_rawHtml attrs (simulates_children s.inner c h children)
    | text | element =>
      -- the context of the children has the lists of this one
      exact simulates_element tag _ _ (Simulates.of_forParent
        (simulates_children (s.inside (s.mapping.templateTag tag)) (c.forParent _) rfl children))
termination_by structural n => n

theorem simulates_children (s : Surroundings) (c : Context) (h : c.parent = s.parent) :
    (ns : List Node) → Simulates c (transformChildren s.mapping c s.indent ns) (renderAll s ns)
  | [] => by
    rw [transformChildren, renderAll]
    exact .pure _
  | n :: ns => by
    rw [transformChildren, renderAll]
    exact (simulates_transform s c h [] n).bind fun _ =>
      (simulates_children s c h ns).bind fun _ => .pure _
termination_by structural ns => ns

theorem simulates_keyed (s : Surroundings) (c : Context) (h : c.parent = s.parent)
    (key : Text × Text) :
    (ns : List Node) → Simulates c (transformKeyed s.mapping c s.indent key ns) (renderKeyed s key ns)
  | [] => by
    rw [transformKeyed, renderKeyed]
    exact .pure _
  | n :: ns => by
    rw [transformKeyed, renderKeyed]
    exact (simulates_transform s c h _ n).bind fun _ =>
      .ite ((simulates_children s c h ns).bind fun _ => .pure _)
        ((simulates_keyed s c h key ns).bind fun _ => .pure _)
termination_by structural ns => ns

theorem simulates_main (s : Surroundings) (c : Context) (h : c.parent = s.parent) :
    (ns : List Node) → Simulates c (transformMain s.mapping c s.indent ns) (renderMain s ns)
  | [] => by
    rw [transformMain, renderMain]
    exact .pure _
  | n :: ns => by
    rw [transformMain, renderMain]
    exact .ite (simulates_main s c h ns)
      ((simulates_transform s c h [] n).bind fun _ =>
        (simulates_main s c h ns).bind fun _ => .pure _)
termination_by structural ns => ns

theorem simulates_else (s : Surroundings) (c : Context) (h : c.parent = s.parent) :
    (ns : List Node) → Simulates c (transformElse s.mapping c s.indent ns) (renderElse s ns)
  | [] => by
    rw [transformElse, renderElse]
    exact .pure _
  | .text _ :: ns => by
    rw [transformElse, renderElse]
    exact simulates_else s c h ns
  | .element _ _ children :: ns => by
    rw [transformElse, renderElse]
    exact .ite ((simulates_children s c h children).bind fun _ =>
      (simulates_else s c h ns).bind fun _ => .pure _) (simulates_else s c h ns)
termination_by structural ns => ns
end

theorem simulates_iterationChildren (s : Surroundings) (c : Context) (h : c.parent = s.parent)
    (itemVar : Text) (ns : List Node) :
    Simulates c (transformIterationChildren s.mapping c s.indent itemVar ns)
      (renderIteration s itemVar ns) :=
  (simulates_reportKey c itemVar ns).bind fun _ =>
    .ite (simulates_keyed s c h _ ns) (simulates_children s c h ns)

end Transformer

theorem Store.holds_nextContext (st : Store) : st.addLists.Holds st.nextContext := by
  constructor <;> simp [Store.addLists, Store.nextContext]

/-- A body is converted as the walk over it says, in lists that are empty at first. -/
theorem Conversion.ofNodes_eq (m : Mapping) (nodes : List Node) :
    let r := (Render.renderAll ⟨m, .null, Template.step⟩ nodes).run 0
    ofNodes m nodes =
      ⟨Template.document r.1, ({} : Findings).extend r.2, r.2.filterMap Finding.unmapped?⟩ := by
  intro r
  let c := Store.nextContext {}
  have hc : (Store.addLists {}).Holds c := Store.holds_nextContext {}
  have hwork := Transformer.simulates_children ⟨m, .null, Template.step⟩ c rfl nodes _ hc
  have hbody : (transformBody m nodes).run {} = ((c, r.1), (Store.addLists {}).write c r.2) :=
    congrArg (fun x : Text × Store => ((c, x.1), x.2)) hwork
  have hfindings : c.findings ((Store.addLists {}).write c r.2) = ({} : Findings).extend r.2 :=
    Store.findings_write hc r.2
  rw [ofNodes, hbody]
  simp only [hfindings]
  rfl

theorem Conversion.template_ofNodes (m : Mapping) (nodes : List Node) :
    (ofNodes m nodes).template =
      Template.document ((Render.renderAll ⟨m, .null, Template.step⟩ nodes).run 0).1 := by
  rw [ofNodes_eq]

theorem Conversion.findings_ofNodes (m : Mapping) (nodes : List Node) :
    (ofNodes m nodes).findings =
      ({} : Findings).extend ((Render.renderAll ⟨m, .null, Template.step⟩ nodes).run 0).2 := by
  rw [ofNodes_eq]

end LightningTemplate
