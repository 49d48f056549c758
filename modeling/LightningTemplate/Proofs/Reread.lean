import Mathlib.Data.List.Chain
import LightningTemplate.Proofs.AliasBinding

/-! Reading serialised bodies.  The machine and the tree that is built of its tokens go through
the markup together (`Between`): behind every node the machine is in content again and the
innermost frame has taken the node.  So the component that is read of a serialised body has the
body, and nothing else that markup could declare. -/
namespace LightningTemplate.Markup
open Text Machine

namespace Frame

def takeText (f : Frame) (content : Text) : Frame := { f with text := content.reverse ++ f.text }

def take (f : Frame) : Node → Frame
  | .text content => f.takeText content
  | .element tag attrs nodes => f.addChild (.element tag attrs nodes)

def takeAll (f : Frame) (ns : List Node) : Frame := ns.foldl take f

@[simp] theorem takeAll_cons (f : Frame) (n : Node) (ns : List Node) :
    f.takeAll (n :: ns) = (f.take n).takeAll ns := rfl

theorem flush_eq (f : Frame) : f.flush = { f with children := f.flush.children, text := [] } := by
  rw [flush]
  split
  · rename_i h
    rw [← List.isEmpty_iff.1 h]
  · rfl

theorem addChild_scope (f : Frame) (n : Node) : (f.addChild n).scope = f.scope := by
  rw [addChild, flush_eq]

theorem takeAll_tag (f : Frame) (ns : List Node) :
    (f.takeAll ns).rawName = f.rawName ∧ (f.takeAll ns).tag = f.tag ∧
      (f.takeAll ns).attributes = f.attributes ∧ (f.takeAll ns).scope = f.scope := by
  induction ns generalizing f with
  | nil => exact ⟨rfl, rfl, rfl, rfl⟩
  | cons n ns ih =>
    rw [takeAll_cons]
    obtain ⟨hraw, htag, hattrs, hscope⟩ := ih (f.take n)
    rw [hraw, htag, hattrs, hscope]
    cases n with
    | text content => exact ⟨rfl, rfl, rfl, rfl⟩
    | element tag attrs nodes =>
      rw [take, addChild, flush_eq]
      exact ⟨rfl, rfl, rfl, rfl⟩

/-- A frame that holds no text, or goes on with an element, takes the nodes as they are. -/
theorem flush_takeAll {f : Frame} {ns : List Node} (happart : TextsApart ns)
    (hfilled : ∀ content, .text content ∈ ns → content ≠ [])
    (h : f.text = [] ∨ ns.head?.all Node.isElement = true) :
    (f.takeAll ns).flush.children = ns.reverse ++ f.flush.children := by
  induction ns generalizing f with
  | nil => rfl
  | cons n ns ih =>
    obtain ⟨hnext, hothers⟩ := List.isChain_cons.1 happart
    have hrest : ∀ content, .text content ∈ ns → content ≠ [] :=
      fun content hmem => hfilled content (List.mem_cons_of_mem _ hmem)
    rw [takeAll_cons]
    cases n with
    | text content =>
      have hcontent := hfilled content (List.mem_cons_self ..)
      have htext : f.text = [] := h.resolve_right (by simp [Node.isElement])
      have helement : ns.head?.all Node.isElement = true := by
        simp only [Option.all_eq_true]
        exact fun next hhead => (hnext next hhead).resolve_left (by simp [Node.isElement])
      rw [ih hothers hrest (.inr helement)]
      simp [take, takeText, flush, htext, hcontent]
    | element tag attrs nodes =>
      have hnone : (f.take (.element tag attrs nodes)).text = [] := by
        rw [take, addChild, flush_eq]
      rw [ih hothers hrest (.inl hnone), flush, hnone]
      simp [take, addChild]

end Frame

theorem Builder.addAll_concat {naming : Naming} {b b₁ b₂ : Builder} (ts : List Token) {t : Token}
    (h : Builder.addAll naming b ts = .ok b₁) (ht : b₁.add naming t = .ok b₂) :
    Builder.addAll naming b (ts ++ [t]) = .ok b₂ := by
  induction ts generalizing b with
  | nil =>
    obtain rfl : b = b₁ := Except.ok.inj h
    rw [List.nil_append, addAll, ht]
    rfl
  | cons u ts ih =>
    rw [List.cons_append, addAll]
    rw [addAll] at h
    cases hu : b.add naming u with
    | error fault =>
      rw [hu] at h
      cases h
    | ok next =>
      rw [hu] at h
      exact ih h

/-- The machine stands in content, and its tokens have built the open frames. -/
structure Between (naming : Naming) (f : Frame) (fs : List Frame) (m : Machine) : Prop where
  mode : ∃ brackets, m.mode = .content brackets
  depth : m.depth = fs.length + 1
  built : Builder.addAll naming ⟨[], none⟩ m.tokens.reverse = .ok ⟨f :: fs, none⟩

namespace Between
variable {naming : Naming} {f g : Frame} {fs : List Frame} {m : Machine}

theorem built_put (h : Between naming f fs m) {t : Token} {b : Builder}
    (ht : Builder.add naming ⟨f :: fs, none⟩ t = .ok b) :
    Builder.addAll naming ⟨[], none⟩ (t :: m.tokens).reverse = .ok b := by
  rw [List.reverse_cons]
  exact Builder.addAll_concat _ h.built ht

theorem char (h : Between naming f fs m) {c : Char} {s : Text} (hs : SpelledChar none c s)
    (hc : isTextChar c = true) : Between naming (f.takeText [c]) fs (m.run s) := by
  obtain ⟨brackets, hmode⟩ := h.mode
  cases hs with
  | bare hbare _ =>
    simp only [List.mem_cons, List.not_mem_nil, or_false, not_or] at hbare
    have hreact : m.react c
        = m.put (.char c) (.content (if c = ']' then min (brackets + 1) 2 else 0)) := by
      simp [react, hmode, hbare, not_isForbidden_of_isTextChar hc]
    rw [run_cons, run_nil, step, hreact]
    exact ⟨⟨_, rfl⟩, h.depth, h.built_put rfl⟩
  | escaped hescape =>
    have hopen : m.step '&' =
        { m with mode := .reference .start, start := m.offset, offset := m.offset + 1 } := by
      simp only [step, react, hmode]
      rfl
    obtain ⟨r, v, hname, hend, hchar⟩ := moves_reference (fun r => .reference r)
      (m := { m with mode := .reference .start, start := m.offset, offset := m.offset + 1 })
      (fun m' r d r' hm' h => by simp [react, hm', h]) rfl hescape
    rw [Moves] at hname
    rw [run_cons, hopen, run_append, hname, run_cons, run_nil]
    simp only [step, react, ahead, hend]
    exact ⟨⟨0, rfl⟩, h.depth, h.built_put (by simp only [Builder.add, hchar]; rfl)⟩

theorem spelled (h : Between naming f fs m) {t s : Text} (hs : Spelled none t s)
    (ht : ∀ c ∈ t, isTextChar c = true) : Between naming (f.takeText t) fs (m.run s) := by
  induction hs generalizing f m with
  | nil => exact h
  | @cons c s t rest hchar _ ih =>
    rw [run_append]
    have hrest := ih (h.char hchar (ht c (List.mem_cons_self ..)))
      fun d hd => ht d (List.mem_cons_of_mem _ hd)
    simpa [Frame.takeText] using hrest

/-- A start tag read up to its end opens the frame of its element. -/
theorem startTag (h : Between naming f fs m) {tag s : Text} {attrs : Attributes}
    (htag : PlainTag naming f.scope tag attrs) (hdefault : f.scope.address? [] = none)
    (hs : SerialisedAttributes attrs s) :
    ∃ mode raws offset, m.run ('<' :: (tag ++ s)) =
        { m with mode := mode, start := m.offset, offset := offset } ∧
      Inside ⟨tag, raws.reverse⟩ mode ∧
      ∀ start, Builder.openFrame naming f.scope start tag raws = .ok (plainFrame tag attrs f.scope) := by
  obtain ⟨brackets, hmode⟩ := h.mode
  obtain ⟨mode, raws, offset, hread, hinside, hraws⟩ := run_opening hmode
    (fun hdepth => by rw [h.depth] at hdepth; cases hdepth) htag.tag.1.markupName hs htag.markup
  exact ⟨mode, raws, offset, hread, hinside, fun _ => openFrame_plain htag hdefault hraws⟩

/-- The start tag of an element that may have content. -/
theorem opening (h : Between naming f fs m) {tag s : Text} {attrs : Attributes}
    (htag : PlainTag naming f.scope tag attrs) (hdefault : f.scope.address? [] = none)
    (hs : SerialisedAttributes attrs s) :
    Between naming (plainFrame tag attrs f.scope) (f :: fs) (m.run ('<' :: (tag ++ s) ++ ['>'])) := by
  obtain ⟨mode, raws, offset, hread, hinside, hframe⟩ := h.startTag htag hdefault hs
  set read : Machine := { m with mode := mode, start := m.offset, offset := offset }
  have hend : read.react '>' = read.finishStart ⟨tag, raws.reverse⟩ false := react_inside hinside (by simp)
  rw [run_append, hread, run_cons, run_nil, step, hend]
  refine ⟨⟨0, rfl⟩, ?_, h.built_put ?_⟩
  · simp [finishStart, put, read, h.depth]
  · simp only [Builder.add, Builder.scope, List.reverse_reverse, hframe]
    rfl

theorem empty (h : Between naming f fs m) {tag s gap : Text} {attrs : Attributes}
    (htag : PlainTag naming f.scope tag attrs) (hdefault : f.scope.address? [] = none)
    (hs : SerialisedAttributes attrs s) (hgap : gap = [] ∨ gap = [' ']) :
    Between naming (f.addChild (.element tag attrs [])) fs
      (m.run ('<' :: (tag ++ s) ++ gap ++ ['/', '>'])) := by
  obtain ⟨mode, raws, offset, hread, hinside, hframe⟩ := h.startTag htag hdefault hs
  set d : Draft := ⟨tag, raws.reverse⟩
  set read : Machine := { m with mode := mode, start := m.offset, offset := offset }
  have hslash : ∀ m' : Machine, Inside d m'.mode → m'.react '/' = m'.goto (.tagSlash d) :=
    fun m' h => react_inside h (by simp)
  have hgapped : read.Moves (gap ++ ['/']) (.tagSlash d) := by
    rcases hgap with rfl | rfl
    · exact moves_singleton (hslash read hinside)
    · have hblank : read.react ' ' = read.goto (.tagGap d) := react_inside hinside (by simp)
      exact Moves.cons hblank (moves_singleton (hslash _ rfl))
  rw [Moves] at hgapped
  have hparts : '<' :: (tag ++ s) ++ gap ++ ['/', '>'] = '<' :: (tag ++ s) ++ ((gap ++ ['/']) ++ ['>']) := by
    simp
  rw [hparts, run_append, hread, run_append, hgapped, run_cons, run_nil]
  simp only [step, react, ahead]
  refine ⟨⟨0, ?_⟩, ?_, h.built_put ?_⟩
  · simp [finishStart, put, read, between, h.depth]
  · simp [finishStart, put, read, h.depth]
  · simp only [Builder.add, Builder.scope, d, List.reverse_reverse, hframe]
    rfl

theorem closing (h : Between naming g (f :: fs) m) (hname : MarkupName g.rawName) :
    Between naming (f.addChild g.node) fs (m.run ('<' :: '/' :: (g.rawName ++ ['>']))) := by
  obtain ⟨brackets, hmode⟩ := h.mode
  obtain ⟨offset, hread⟩ := run_closing hmode (by rw [h.depth]; simp) hname
  rw [hread]
  refine ⟨⟨0, ?_⟩, ?_, h.built_put ?_⟩
  · simp [between, h.depth]
  · simp [h.depth]
  · simp [Builder.add, Builder.addNode]

theorem closingRoot (h : Between naming g [] m) (hname : MarkupName g.rawName) :
    (m.run ('<' :: '/' :: (g.rawName ++ ['>']))).mode = .epilog ∧
      Builder.addAll naming ⟨[], none⟩ (m.run ('<' :: '/' :: (g.rawName ++ ['>']))).tokens.reverse =
        .ok ⟨[], some g.node⟩ := by
  obtain ⟨brackets, hmode⟩ := h.mode
  obtain ⟨offset, hread⟩ := run_closing hmode (by rw [h.depth]; simp) hname
  rw [hread]
  refine ⟨?_, h.built_put ?_⟩
  · simp [between, h.depth]
  · simp [Builder.add, Builder.addNode]

theorem node_takeAll {tag : Text} {attrs : Attributes} {nodes : List Node} (scope : Scope)
    (happart : TextsApart nodes) (hnodes : ∀ n ∈ nodes, PlainNode n) :
    ((plainFrame tag attrs scope).takeAll nodes).node = .element tag attrs nodes := by
  have hfilled : ∀ content, .text content ∈ nodes → content ≠ [] := by
    intro content hmem
    cases hnodes _ hmem with
    | text hcontent _ => exact hcontent
  have hchildren := Frame.flush_takeAll (f := plainFrame tag attrs scope) happart hfilled (.inl rfl)
  obtain ⟨-, htag, hattrs, -⟩ := (plainFrame tag attrs scope).takeAll_tag nodes
  rw [Frame.node, hchildren, htag, hattrs]
  simp [plainFrame, Frame.flush]

theorem serialised {ns : List Node} {s : Text} (hs : Serialised ns s) (hns : ∀ n ∈ ns, PlainNode n)
    {rest : Text} (hbinds : BindsIn naming f.scope (s ++ rest)) (hdefault : f.scope.address? [] = none)
    (h : Between naming f fs m) : Between naming (f.takeAll ns) fs (m.run s) := by
  induction hs generalizing f fs m rest with
  | nil => exact h
  | @text content s later ns hcontent _ ih =>
    rw [List.append_assoc] at hbinds
    cases hns _ (List.mem_cons_self ..) with
    | text _ hchars =>
      rw [run_append]
      exact ih (fun n hn => hns n (List.mem_cons_of_mem _ hn)) hbinds.suffix hdefault
        (h.spelled hcontent hchars)
  | @empty tag s gap later attrs ns hattributes hgap _ ih =>
    have hothers : ∀ n ∈ ns, PlainNode n := fun n hn => hns n (List.mem_cons_of_mem _ hn)
    cases hns _ (List.mem_cons_self ..) with
    | element hname hattrs hdistinct _ _ =>
      have hparts : '<' :: (tag ++ s) ++ gap ++ '/' :: '>' :: later =
          ('<' :: (tag ++ s) ++ gap ++ ['/', '>']) ++ later := by simp
      have hopening : BindsIn naming f.scope ('<' :: (tag ++ s) ++
          (gap ++ '/' :: '>' :: (later ++ rest))) := by simpa using hbinds
      have htag : PlainTag naming f.scope tag attrs :=
        hopening.plainTag hname hattributes hattrs hdistinct
      have hlater : BindsIn naming f.scope (later ++ rest) :=
        BindsIn.suffix (s := '<' :: (tag ++ s) ++ gap ++ ['/', '>']) (by simpa using hbinds)
      have hscope : (f.addChild (.element tag attrs [])).scope = f.scope := f.addChild_scope _
      rw [hparts, run_append, Frame.takeAll_cons]
      exact ih hothers (hscope ▸ hlater) (hscope ▸ hdefault) (h.empty htag hdefault hattributes hgap)
  | @element tag s body later attrs nodes ns hattributes _ _ ihbody ih =>
    have hothers : ∀ n ∈ ns, PlainNode n := fun n hn => hns n (List.mem_cons_of_mem _ hn)
    cases hns _ (List.mem_cons_self ..) with
    | element hname hattrs hdistinct happart hnodes =>
      have hparts : '<' :: (tag ++ s) ++ '>' :: (body ++ '<' :: '/' :: (tag ++ '>' :: later)) =
          ('<' :: (tag ++ s) ++ ['>']) ++ (body ++ (('<' :: '/' :: (tag ++ ['>'])) ++ later)) := by simp
      have hopening : BindsIn naming f.scope ('<' :: (tag ++ s) ++
          ('>' :: (body ++ '<' :: '/' :: (tag ++ '>' :: later)) ++ rest)) := by simpa using hbinds
      have htag : PlainTag naming f.scope tag attrs :=
        hopening.plainTag hname hattributes hattrs hdistinct
      have hinside : BindsIn naming f.scope (body ++ ('<' :: '/' :: (tag ++ '>' :: later) ++ rest)) :=
        BindsIn.suffix (s := '<' :: (tag ++ s) ++ ['>']) (by simpa using hbinds)
      have hlater : BindsIn naming f.scope (later ++ rest) :=
        BindsIn.suffix (s := '<' :: (tag ++ s) ++ '>' :: (body ++ '<' :: '/' :: (tag ++ ['>'])))
          (by simpa using hbinds)
      have hraw := ((plainFrame tag attrs f.scope).takeAll_tag nodes).1
      have hinner := ihbody hnodes (f := plainFrame tag attrs f.scope) hinside hdefault
        (h.opening htag hdefault hattributes)
      have hclosed := hinner.closing (hraw ▸ hname.markupName)
      rw [node_takeAll f.scope happart hnodes, hraw] at hclosed
      have hscope : (f.addChild (.element tag attrs nodes)).scope = f.scope := f.addChild_scope _
      rw [hparts, run_append, run_append, run_append, Frame.takeAll_cons]
      exact ih hothers (hscope ▸ hlater) (hscope ▸ hdefault) hclosed

end Between

/-- The machine behind the start tag of the element around the markup. -/
theorem between_outer {aliases : List Text} (h : Bindable aliases) (naming : Naming) :
    Between naming (outerFrame aliases) []
      (initial.run ('<' :: (outerTag ++ aliases.flatMap bindingText) ++ ['>'])) := by
  obtain ⟨mode, raws, offset, hread, hinside, hraws⟩ := run_opening (m := initial) rfl (fun _ => rfl)
    markupName_outerTag (serialisedAttributes_bindings h.simple)
    (bindings_markup h.simple)
  have hend : react { initial with mode := mode, start := initial.offset, offset := offset } '>' =
      finishStart { initial with mode := mode, start := initial.offset, offset := offset }
        ⟨outerTag, raws.reverse⟩ false := react_inside hinside (by simp)
  rw [run_append, hread, run_cons, run_nil, step, hend]
  refine ⟨⟨0, rfl⟩, rfl, ?_⟩
  refine Builder.addAll_concat [] rfl ?_
  simp only [Builder.add, Builder.scope, List.reverse_reverse, openFrame_outer h naming _ hraws]
  rfl

/-- A serialised forest comes back as the content of the element that binds its aliases. -/
theorem tree_wrap {ns : List Node} {s : Text} (hs : Serialised ns s) (hns : ∀ n ∈ ns, PlainNode n)
    (happart : TextsApart ns) {naming : Naming} {aliases : List Text} (h : Bindable aliases)
    (hbinds : BindsIn naming (boundScope aliases .initial) s) :
    tree naming (wrap aliases s) = .ok (.element outerTag [] ns) := by
  have hall : BindsIn naming (outerFrame aliases).scope (s ++ []) := (List.append_nil s).symm ▸ hbinds
  have hinner := (between_outer h naming).serialised hs hns hall (address?_boundScope_nil h.simple)
  have hraw : ((outerFrame aliases).takeAll ns).rawName = outerTag :=
    ((outerFrame aliases).takeAll_tag ns).1
  have hnode : ((outerFrame aliases).takeAll ns).node = .element outerTag [] ns :=
    Between.node_takeAll _ happart hns
  obtain ⟨hmode, hbuilt⟩ := hinner.closingRoot (hraw ▸ markupName_outerTag)
  rw [hraw, ← run_append, ← run_append, List.append_assoc] at hmode hbuilt
  have hparts : wrap aliases s = '<' :: (outerTag ++ aliases.flatMap bindingText) ++ ['>'] ++
      (s ++ '<' :: '/' :: (outerTag ++ ['>'])) := by simp [wrap]
  rw [← List.append_assoc, ← hparts] at hmode hbuilt
  rw [hnode] at hbuilt
  have hfault : fault? (initial.run (wrap aliases s)) = none := by rw [fault?, hmode]
  simp only [tree, tokenize, hfault, hbuilt]
  rfl

def componentTag : Text := "aura:component".toList

theorem componentTag_eq : componentTag = "aura".toList ++ ':' :: "component".toList := by decide +kernel

theorem inComponent_eq (s : Text) :
    inComponent s = '<' :: (componentTag ++ []) ++ '>' :: (s ++ '<' :: '/' :: (componentTag ++ ['>'])) := by
  have hparts : ∀ start stop : Text, start = '<' :: (componentTag ++ []) ++ ['>'] →
      stop = '<' :: '/' :: (componentTag ++ ['>']) →
      start ++ s ++ stop =
        '<' :: (componentTag ++ []) ++ '>' :: (s ++ '<' :: '/' :: (componentTag ++ ['>'])) := by
    rintro _ _ rfl rfl
    simp only [List.append_assoc, List.cons_append, List.nil_append]
  exact hparts _ _ (by decide +kernel) (by decide +kernel)

theorem serialised_inComponent {ns : List Node} {s : Text} (h : Serialised ns s) :
    Serialised [.element componentTag [] ns] (inComponent s) := by
  rw [inComponent_eq]
  exact .element .nil h .nil

theorem plainNode_component {ns : List Node} (h : PlainBody ns) : PlainNode (.element componentTag [] ns) :=
  .element (componentTag_eq ▸ .aliased (by decide) (by decide) (by decide) (by decide) (by decide))
    (by simp) List.nodup_nil h.apart h.plain

theorem dropDeclaration_of_ne {c : Char} (h : c ≠ '?') (t : Text) :
    dropDeclaration ('<' :: c :: t) = '<' :: c :: t := by
  have hmark : "<?xml".toList.isPrefixOf ('<' :: c :: t) = false := by
    have hchars : "<?xml".toList = ['<', '?', 'x', 'm', 'l'] := by decide +kernel
    rw [hchars]
    simp [List.isPrefixOf, Ne.symm h]
  have hblank : isBlank '<' = false := by decide
  rw [dropDeclaration, List.dropWhile_cons_of_neg (by simp [hblank])]
  simp only [hmark]
  rfl

theorem dropDeclaration_inComponent (s : Text) : dropDeclaration (inComponent s) = inComponent s := by
  rw [inComponent_eq, componentTag_eq]
  exact dropDeclaration_of_ne (by decide) _

theorem piecewise_wrap {P : Text → Prop} (hP : Piecewise P) {aliases : List Text} (h : Bindable aliases)
    {s : Text} (hs : P s) : P (wrap aliases s) := by
  have htag : P outerTag := hP.name markupName_outerTag
  have hbindings : P (aliases.flatMap bindingText) :=
    hP.attributes (serialisedAttributes_bindings h.simple) (bindings_markup h.simple)
  have hend : P ['>'] := hP.cons (by decide) (by decide) hP.nil
  exact hP.append
    (hP.append (hP.cons (by decide) (by decide) (hP.append (hP.append htag hbindings) hend)) hs)
    (hP.cons (by decide) (by decide) (hP.cons (by decide) (by decide) (hP.append htag hend)))

/-- The markup is read under its own aliases, and nothing in it is changed before that. -/
theorem read_serialised {ns : List Node} {s : Text} (hs : Serialised ns s)
    (hns : ∀ n ∈ ns, PlainNode n) (happart : TextsApart ns) (hdrop : dropDeclaration s = s) :
    read s = .ok (.element outerTag [] ns) := by
  have hchars : ∀ c ∈ s, isTextChar c = true := piecewise_isTextChar.serialised hs hns
  have hbindable : Bindable (boundAliases s) := bindable_boundAliases fun c hc =>
    toNat_lt_of_isTextChar (hchars c hc)
  have hbinds : BindsIn (Prepared.naming ⟨wrap (boundAliases s) s, boundAliases s⟩)
      (boundScope (boundAliases s) .initial) s :=
    fun a ha hfree => bound_of_mem (mem_boundAliases.2 ⟨ha, hfree⟩) _ _
  have hbody : numberEntities (dropDeclaration s) = s := by rw [hdrop, numberEntities_serialised hs hns]
  have hlines : unifyLineEnds (wrap (boundAliases s) s) = wrap (boundAliases s) s :=
    unifyLineEnds_of_notMem fun hr =>
      absurd (piecewise_wrap piecewise_isTextChar hbindable hchars _ hr) (by decide)
  have hprepared : prepare s = ⟨wrap (boundAliases s) s, boundAliases s⟩ := by
    simp only [prepare, hbody, hlines]
  rw [read, hprepared, tree_wrap hs hns happart hbindable hbinds]
  rfl

end LightningTemplate.Markup

namespace LightningTemplate.Component
open Markup Text

theorem ofNode_plain {ns : List Node} (h : PlainBody ns) : ns.map Part.ofNode = ns.map Part.content := by
  refine List.map_congr_left fun n hn => ?_
  cases n with
  | text content =>
    have hsolid : isAllBlank content = false := by simpa [Node.isSolid] using h.solid _ hn
    rw [Part.ofNode, hsolid]
    rfl
  | element tag attrs nodes =>
    have hplace : Place.ofTag tag = .body := by
      have htags : partTags = Place.table.map (·.1) := by decide +kernel
      have hnone : Place.table.lookup (lower tag) = none := by
        refine List.lookup_eq_none_iff.2 fun e he => ?_
        have hne : lower tag ≠ e.1 := fun htag => h.content _ hn tag rfl (by
          rw [htags, htag]
          exact List.mem_map_of_mem he)
        simpa using hne
      rw [Place.ofTag, hnone]
      rfl
    rw [Part.ofNode, Part.ofElement_eq, hplace]

theorem element?_outer (nodes : List Node) :
    element? (.element outerTag [] [.element componentTag [] nodes]) =
      some (.element componentTag [] nodes) := by
  have houter : (lower outerTag == "aura:component".toList) = false := by decide +kernel
  have hinner : (lower componentTag == "aura:component".toList) = true := by decide +kernel
  have hskip : ∀ (children : List Node), isComponentElement (.element outerTag [] children) = false :=
    fun _ => houter
  have hfound : isComponentElement (.element componentTag [] nodes) = true := hinner
  simp only [element?, Node.elements, Node.elementsIn, List.append_nil, List.find?_cons, hskip, hfound]

/-- A component with nothing but a body. -/
def bare (name markup : Text) (body : List Node) : Component where
  name := name
  interfaces := []
  parent := []
  extensible := false
  isAbstract := false
  controller := []
  attributes := []
  handlers := []
  events := []
  methods := []
  facets := []
  expressions := Expression.mentions markup
  dependencies := LightningTemplate.dependencies body
  body := body

theorem ofElement_plain (name markup : Text) {ns : List Node} (h : PlainBody ns) :
    ofElement name markup (.element componentTag [] ns) = bare name markup ns := by
  have hflag : ∀ flag, isTrue [] flag = false := fun flag => by
    show (lower [] == "true".toList) = false
    decide +kernel
  have hpick : ∀ {β : Type} (pick : Part → Option β), (∀ n, pick (.content n) = none) →
      (ns.map Part.content).filterMap pick = [] := by
    intro β pick hnone
    simp [List.filterMap_map, hnone]
  have hbody : (ns.map Part.content).filterMap Part.content? = ns := by
    simp [List.filterMap_map, Function.comp_def, Part.content?]
  simp only [ofElement, Node.children, Node.attributes, ofNode_plain h, hbody, hflag,
    hpick Part.attribute? fun _ => rfl, hpick Part.handler? fun _ => rfl,
    hpick Part.event? fun _ => rfl, hpick Part.method? fun _ => rfl, hpick Part.facet? fun _ => rfl]
  rfl

/-- Every plain body can be serialised, and however it is, what is read of it inside a component
element is a component with that body and the dependencies of the body, and with nothing else. -/
theorem read_undoes_serialise (name : Text) {ns : List Node} (h : PlainBody ns) :
    Serialised ns (serialise ns) ∧ ∀ s, Serialised ns s →
      (read name (inComponent s)).outcome = .ok (bare name (inComponent s) ns) := by
  refine ⟨serialised_serialise ns, fun s hs => ?_⟩
  have hread := read_serialised (serialised_inComponent hs)
    (fun n hn => by rw [List.mem_singleton.1 hn]; exact plainNode_component h)
    (List.isChain_singleton _) (dropDeclaration_inComponent s)
  rw [outcome_read hread (element?_outer ns), ofElement_plain name _ h]

/-- Text that looks like an attribute stands before an element, and text comes after it. -/
def noteBody : List Node :=
  [.element "c:note".toList [("title".toList, "R&D <x:y>".toList), ("aura:id".toList, "'n' \"m\"".toList)]
    [.text "\n k:v = 1 ".toList, .element "br".toList [] [], .text " ".toList]]

theorem plainBody_noteBody : PlainBody noteBody := by
  have htag : PlainName "c:note".toList := by
    rw [show "c:note".toList = "c".toList ++ ':' :: "note".toList by decide +kernel]
    exact .aliased (by decide) (by decide) (by decide) (by decide) (by decide)
  have hid : PlainName "aura:id".toList := by
    rw [show "aura:id".toList = "aura".toList ++ ':' :: "id".toList by decide +kernel]
    exact .aliased (by decide) (by decide) (by decide) (by decide) (by decide)
  have hsimple : PlainName "title".toList ∧ PlainName "br".toList :=
    ⟨.simple (by decide) (by decide), .simple (by decide) (by decide)⟩
  have hbreak : PlainNode (.element "br".toList [] []) :=
    .element hsimple.2 (by simp) List.nodup_nil .nil (by simp)
  refine ⟨fun n hn => ?_, List.isChain_singleton _, fun n hn => ?_, fun n hn tag htag => ?_⟩
  · rw [List.mem_singleton.1 hn]
    refine .element htag (fun a ha => ?_) (by decide) (by simp [TextsApart, Node.isElement]) fun m hm => ?_
    · rcases List.mem_cons.1 ha with rfl | ha
      · exact ⟨hsimple.1, List.all_eq_true.1 (by decide)⟩
      · rw [List.mem_singleton.1 ha]
        exact ⟨hid, List.all_eq_true.1 (by decide)⟩
    · simp only [List.mem_cons, List.not_mem_nil, or_false] at hm
      rcases hm with rfl | rfl | rfl
      · exact .text (by decide) (List.all_eq_true.1 (by decide))
      · exact hbreak
      · exact .text (by decide) (List.all_eq_true.1 (by decide))
  · rw [List.mem_singleton.1 hn]
    rfl
  · rw [List.mem_singleton.1 hn] at htag
    rw [← Option.some.inj htag]
    decide +kernel

theorem read_undoes_serialise_note :
    PlainBody noteBody ∧
      serialise noteBody = ("<c:note title=\"R&amp;D &lt;x:y&gt;\" aura:id=\"&apos;n&apos; &quot;m&quot;\">"
        ++ "\n k:v = 1 <br></br> </c:note>").toList ∧
      (read "note".toList (inComponent (serialise noteBody))).outcome =
        .ok (bare "note".toList (inComponent (serialise noteBody)) noteBody) ∧
      (bare "note".toList (inComponent (serialise noteBody)) noteBody).dependencies = ["c:note".toList] := by
  obtain ⟨hs, hread⟩ := read_undoes_serialise "note".toList plainBody_noteBody
  exact ⟨plainBody_noteBody, by decide +kernel, hread _ hs, by decide +kernel⟩

end LightningTemplate.Component
