import LightningTemplate.Proofs.WarningAccount

/-! What stands in a template because of one of its elements.  Frames put text around what their
content gives, and all that a frame takes away are line feeds at the end; so whatever text the
node at a site is always written with, unless it ends in a line feed, is found in the template
(`template_contains`).  For a plain element that is its start tag (`exists_standsAs`). -/
namespace LightningTemplate
open Text Walk Node

namespace Template

variable {W : Text → Prop} {t u w : Text}

def Contains (W : Text → Prop) (t : Text) : Prop := ∃ w, W w ∧ w <:+: t

theorem Contains.mono (h : Contains W t) (htu : t <:+: u) : Contains W u :=
  h.imp fun _ hw => ⟨hw.1, hw.2.trans htu⟩

theorem Contains.line (h : Contains W t) : Contains W (Render.line t) := by
  unfold Render.line
  split
  · rename_i hempty
    rwa [List.isEmpty_iff.1 hempty] at h
  · exact h.mono (List.prefix_append t _).isInfix

/-- A text that does not end in a line feed stays where line feeds at the end are taken away. -/
theorem infix_stripLineEnds (hw : w.getLast? ≠ some '\n') (h : w <:+: t) :
    w <:+: Render.stripLineEnds t := by
  obtain ⟨before, after, hinfix⟩ := h
  obtain ⟨ends, hends, hfeeds⟩ := exists_stripRight (· == '\n') t
  rw [hends] at hinfix
  unfold Render.stripLineEnds
  generalize stripRight (· == '\n') t = kept at hinfix
  rcases List.append_eq_append_iff.1 hinfix with ⟨more, rfl, -⟩ | ⟨cut, hcut, rfl⟩
  · exact ⟨before, more, rfl⟩
  · -- what is cut off is made of line feeds, and `w` would end in the last of them
    rcases List.eq_nil_or_concat' cut with rfl | ⟨init, c, rfl⟩
    · exact ⟨before, [], by rw [hcut, List.append_nil, List.append_nil]⟩
    · have hfeed : c = '\n' := by simpa using List.all_eq_true.1 hfeeds c (by simp)
      rcases List.eq_nil_or_concat' w with rfl | ⟨start, d, rfl⟩
      · exact List.nil_infix
      · rw [← List.append_assoc, ← List.append_assoc] at hcut
        obtain ⟨-, hlast⟩ := List.append_inj' hcut rfl
        obtain rfl := (List.cons.inj hlast).1
        rw [List.getLast?_concat, hfeed] at hw
        exact absurd rfl hw

theorem Contains.stripLineEnds (hW : ∀ w, W w → w.getLast? ≠ some '\n') (h : Contains W t) :
    Contains W (Render.stripLineEnds t) :=
  h.imp fun w hw => ⟨hw.1, infix_stripLineEnds (hW w hw.1) hw.2⟩

theorem content_infix_block (i opening t closing : Text) : t <:+: block i opening t closing :=
  ⟨i ++ opening ++ ['\n'], i ++ closing, by simp [block]⟩

theorem opening_infix_block (i opening t closing : Text) : opening <:+: block i opening t closing :=
  ⟨i, '\n' :: t ++ i ++ closing, by simp [block]⟩

end Template

namespace Render
open Template

variable {W : Text → Prop} {s : Surroundings} {attrs : Attributes} {tag : Text} {n : Node}
  {nodes ns above : List Node} {content otherwise main : Walk Text} {p : Site}

theorem plainFrame_contains (tag : Text) (attrs : Attributes) (hc : content.Always (Contains W)) :
    (plainFrame s tag attrs true content).Always (Contains W) :=
  .bind_any fun _ => .bind_any fun _ => .bind hc fun _ hbody =>
    .pure (hbody.mono (content_infix_block _ _ _ _))

/-- The content of one branch is enough; that of the other branch is written only if there is one. -/
theorem conditionalFrame_contains (hW : ∀ w, W w → w.getLast? ≠ some '\n') {Q R : Text → Prop}
    {hasElse : Bool} (ho : otherwise.Always Q) (hm : main.Always R)
    (h : ∀ e t, Q e → R t → Contains W t ∨ hasElse = true ∧ Contains W e) :
    (conditionalFrame s attrs hasElse otherwise main).Always (Contains W) := by
  refine .bind_any fun guard => .bind ho fun e he => .bind hm fun t ht => ?_
  cases guard with
  | none =>
    have hbranches : Contains W (t ++ e) := by
      rcases h e t he ht with hmain | ⟨-, helse⟩
      · exact hmain.mono (List.prefix_append t e).isInfix
      · exact helse.mono (List.suffix_append t e).isInfix
    refine .bind_any fun _ => .pure (Contains.stripLineEnds hW (hbranches.mono ?_))
    exact ((List.suffix_cons '\n' _).trans (List.suffix_append _ _)).isInfix
  | some g =>
    refine .bind_any fun _ => ?_
    cases hasElse with
    | true =>
      refine .bind_any fun _ => .pure ?_
      rcases h e t he ht with hmain | ⟨-, helse⟩
      · exact hmain.mono ((content_infix_block _ _ _ _).trans (List.prefix_append _ _).isInfix)
      · refine Contains.mono (t := '\n' :: block s.indent "<template lwc:else>".toList e templateClose)
          (helse.mono ?_) (List.suffix_append _ _).isInfix
        exact (content_infix_block _ _ _ _).trans (List.suffix_cons '\n' _).isInfix
    | false =>
      have hmain := (h e t he ht).resolve_right fun helse => Bool.noConfusion helse.1
      exact .pure (hmain.mono (content_infix_block _ _ _ _))

theorem iterationFrame_contains (hc : content.Always (Contains W)) :
    (iterationFrame s attrs content).Always (Contains W) := by
  unfold iterationFrame
  refine .ite (.bind_any fun _ => ?_) ?_
  all_goals
    exact .bind_any fun _ => .bind_any fun _ => .bind hc fun _ hbody =>
      .pure (hbody.mono (content_infix_block _ _ _ _))

theorem slotFrame_contains (hW : ∀ w, W w → w.getLast? ≠ some '\n')
    (hc : content.Always (Contains W)) : (slotFrame s attrs content).Always (Contains W) := by
  refine .bind hc fun body hbody => .bind_any fun _ => .ite (.bind_any fun _ => .pure ?_) ?_
  · refine Contains.stripLineEnds hW (hbody.mono ?_)
    exact ((List.suffix_cons '\n' body).trans (List.suffix_append _ _)).isInfix
  · have hblock := hbody.mono (content_infix_block s.indent ("<div slot=\"".toList ++
      facetName attrs.trimmed ++ "\">".toList) body "</div>".toList)
    exact .ite (.bind_any fun _ => .pure hblock) (.pure hblock)

theorem rawHtmlFrame_contains (hc : content.Always (Contains W)) :
    (rawHtmlFrame s attrs content).Always (Contains W) := by
  unfold rawHtmlFrame
  refine .ite (.bind_any fun _ => ?_) ?_
  all_goals
    refine .bind_any fun body => .bind_any fun _ => .bind hc fun children hchildren => ?_
    split
    · rename_i hempty
      rw [List.isEmpty_iff.1 hempty] at hchildren
      exact .pure (hchildren.mono List.nil_infix)
    · refine .pure (hchildren.mono (.trans ?_ (content_infix_block _ _ _ _)))
      exact (List.suffix_append _ _).isInfix

theorem joined_contains {ι : Type} {items : List ι} {i : ι} {w : ι → Walk Text} (hi : i ∈ items)
    (h : (w i).Always (Contains W)) : (joined (items.map w)).Always (Contains W) := by
  induction items with
  | nil => exact absurd hi List.not_mem_nil
  | cons first items ih =>
    rcases List.mem_cons.1 hi with rfl | hi
    · exact .bind h fun _ ht => .bind_any fun _ => .pure (ht.mono (List.prefix_append _ _).isInfix)
    · exact .bind_any fun _ => .bind (ih hi) fun _ ht =>
        .pure (ht.mono (List.suffix_append _ _).isInfix)

theorem renderRows_contains {ps : List (Attributes × Node)} {q : Attributes × Node} (hq : q ∈ ps)
    (h : (renderNode s q.1 q.2).Always (Contains W)) : (renderRows s ps).Always (Contains W) :=
  joined_contains hq (.bind h fun _ ht => .pure ht.line)

theorem renderAll_contains (hn : n ∈ ns) (h : (renderNode s [] n).Always (Contains W)) :
    (renderAll s ns).Always (Contains W) := by
  rw [renderAll_eq_rows, handedOut_nil]
  exact renderRows_contains (List.mem_map_of_mem hn) h

theorem renderElse_contains (hn : n ∈ ns) (hbranch : n.isOtherBranch = true)
    (h : (renderAll s n.children).Always (Contains W)) :
    (renderElse s ns).Always (Contains W) := by
  rw [renderElse_eq_joined]
  exact joined_contains (List.mem_filter.2 ⟨hn, hbranch⟩) h

def WrittenWith (W : Text → Prop) (m : Mapping) (p : Site) : Prop :=
  ∀ s, s.mapping = m → (renderNode s p.handed p.node).Always (Contains W)

/-- With the node at the site, a node around it and its children below are written with a text of
the sort. -/
structure Carries (W : Text → Prop) (m : Mapping) (p : Site) (n : Node) : Prop where
  node : ∀ s above handed, s.mapping = m → p ∈ sites above handed n →
    (renderNode s handed n).Always (Contains W)
  below : ∀ s above, s.mapping = m → p ∈ sitesIn above [] n.children →
    (renderAll s n.children).Always (Contains W)

variable {m : Mapping}

theorem renderAll_carries (ih : ∀ n ∈ ns, Carries W m p n) (hs : s.mapping = m)
    (hp : p ∈ sitesIn above [] ns) : (renderAll s ns).Always (Contains W) := by
  rw [sitesIn_nil, List.mem_flatMap] at hp
  obtain ⟨n, hn, hmem⟩ := hp
  exact renderAll_contains hn ((ih n hn).node s above [] hs hmem)

theorem renderIteration_carries (ih : ∀ n ∈ nodes, Carries W m p n) (hs : s.mapping = m)
    (hp : p ∈ sitesIn above (handedBy .iteration attrs nodes) nodes) :
    (renderIteration s (itemVariable attrs) nodes).Always (Contains W) := by
  rw [sitesIn_eq, List.mem_flatMap] at hp
  obtain ⟨q, hq, hmem⟩ := hp
  rw [renderIteration_eq_rows]
  exact .bind_any fun _ => renderRows_contains hq
    ((ih q.2 (mem_of_mem_handedOut hq)).node s above q.1 hs hmem)

/-- An else facet is written as its children, so only sites below it are written there. -/
theorem conditional_carries (hW : ∀ w, W w → w.getLast? ≠ some '\n') {c : Node}
    (hc : c.directive = .conditional) (hbranch : p.isBranch = false)
    (ih : ∀ n ∈ nodes, Carries W m p n) (hs : s.mapping = m)
    (hp : p ∈ sitesIn (c :: above) [] nodes) (r : Surroundings) :
    (conditionalFrame r attrs (nodes.any (·.isOtherBranch)) (renderElse s nodes)
      (renderMain s nodes)).Always (Contains W) := by
  rw [sitesIn_nil, List.mem_flatMap] at hp
  obtain ⟨n, hn, hmem⟩ := hp
  by_cases hother : n.isOtherBranch = true
  · have hslot := directive_of_isOtherBranch hother
    cases n with
    | text content => cases hslot
    | element tag attrs' children =>
      have htag : Directive.ofTag tag = .slot := hslot
      have hhanded : handedBy .slot attrs' children = [] := rfl
      simp only [sites, htag, Directive.isSilent, Bool.false_eq_true, if_false, hhanded,
        List.mem_cons] at hmem
      rcases hmem with rfl | hmem
      · simp [Site.isBranch, hother, hc] at hbranch
      · have helse := renderElse_contains hn hother ((ih _ hn).below s _ hs hmem)
        exact conditionalFrame_contains hW helse (R := fun _ => True) (fun _ => trivial)
          fun e t he _ => .inr ⟨List.any_eq_true.2 ⟨_, hn, hother⟩, he⟩
  · have hmain : (renderMain s nodes).Always (Contains W) := by
      rw [renderMain_eq]
      refine renderAll_contains (List.mem_filter.2 ⟨hn, by simpa using hother⟩) ?_
      exact (ih n hn).node s _ [] hs hmem
    exact conditionalFrame_contains hW (Q := fun _ => True) (fun _ => trivial) hmain
      fun e t _ ht => .inl ht

theorem carries (hW : ∀ w, W w → w.getLast? ≠ some '\n') (hbranch : p.isBranch = false)
    (hown : WrittenWith W m p) (n : Node) : Carries W m p n := by
  induction n using Node.induction with
  | text content =>
    refine ⟨fun s above handed _ hp => ?_, fun s above hs => ?_⟩
    · rw [sites] at hp
      cases hp
    · exact renderAll_carries (by simp [Node.children]) hs
  | element tag attrs nodes ih =>
    refine ⟨fun s above handed hs hp => ?_, fun s above hs => renderAll_carries ih hs⟩
    have hnone {d : Directive} (hne : d ≠ .iteration) : handedBy d attrs nodes = [] := by
      simp [handedBy, hne]
    rw [sites, List.mem_cons] at hp
    rcases hp with rfl | hp
    · exact hown s hs
    · rw [renderNode]
      cases hd : Directive.ofTag tag <;>
        simp only [hd, Directive.isSilent, if_true, Bool.false_eq_true, if_false,
          List.not_mem_nil] at hp
      case conditional =>
        rw [hnone (by decide)] at hp
        exact conditional_carries (c := .element tag attrs nodes) (s := s.inner) hW hd hbranch ih hs
          hp s
      case iteration =>
        exact iterationFrame_contains (renderIteration_carries (s := s.inner) ih hs hp)
      case slot =>
        rw [hnone (by decide)] at hp
        exact slotFrame_contains hW (renderAll_carries (s := s.inner) ih hs hp)
      case rawHtml =>
        rw [hnone (by decide)] at hp
        exact rawHtmlFrame_contains (renderAll_carries (s := s.inner) ih hs hp)
      case text => exact absurd hd (Directive.ofTag_ne_text tag)
      case element =>
        rw [hnone (by decide)] at hp
        have hsolid : nodes.any isSolid = true := by
          by_contra hblank
          rw [sitesIn_blank [] (by simpa using hblank)] at hp
          cases hp
        rw [hsolid]
        exact plainFrame_contains tag _
          (renderAll_carries (s := s.inside (s.mapping.templateTag tag)) ih hs hp)

def writtenAttribute (entry : Option ComponentEntry) (count : Nat) (a : Text × Text) : Text × Text :=
  (attributeName entry a.1,
    if a.1 = auraId then a.2 else (Expression.substitute count a.2).text)

/-- Every attribute is written in its place, each after some getters. -/
def WrittenAs (entry : Option ComponentEntry) (attrs : Attributes) (pairs : List (Text × Text)) :
    Prop :=
  List.Forall₂ (fun a w => ∃ count, w = writtenAttribute entry count a) attrs pairs

theorem run_bindAttribute (tag : Text) (entry : Option ComponentEntry) (a : Text × Text)
    (count : Nat) : ((bindAttribute tag entry a).run count).1 = writtenAttribute entry count a := by
  unfold bindAttribute writtenAttribute
  by_cases hid : a.1 = auraId
  · rw [if_pos hid, if_pos hid]
    rfl
  · rw [if_neg hid, if_neg hid, run_bind]
    split <;> rfl

theorem always_bindAttributes_writtenAs (tag : Text) (entry : Option ComponentEntry)
    (attrs : Attributes) : (bindAttributes tag entry attrs).Always (WrittenAs entry attrs) := by
  induction attrs with
  | nil => exact .pure .nil
  | cons a attrs ih =>
    have hfirst : (bindAttribute tag entry a).Always fun w =>
        ∃ count, w = writtenAttribute entry count a :=
      fun count => ⟨count, run_bindAttribute tag entry a count⟩
    exact .bind hfirst fun _ hw => .bind ih fun _ hws => .pure (.cons hw hws)

theorem WrittenAs.map_fst {entry : Option ComponentEntry} {pairs : List (Text × Text)}
    (h : WrittenAs entry attrs pairs) : pairs.map (·.1) = attrs.map (attributeName entry ·.1) := by
  induction h with
  | nil => rfl
  | cons hw _ ih =>
    obtain ⟨count, rfl⟩ := hw
    exact congrArg (_ :: ·) ih

theorem WrittenAs.exists_zip {entry : Option ComponentEntry} {pairs : List (Text × Text)}
    (h : WrittenAs entry attrs pairs) {a : Text × Text} (ha : a ∈ attrs) :
    ∃ count, (a, writtenAttribute entry count a) ∈ attrs.zip pairs := by
  induction h with
  | nil => exact absurd ha List.not_mem_nil
  | cons hw _ ih =>
    rw [List.zip_cons_cons]
    rcases List.mem_cons.1 ha with rfl | ha
    · obtain ⟨count, rfl⟩ := hw
      exact ⟨count, List.mem_cons_self⟩
    · obtain ⟨count, hmem⟩ := ih ha
      exact ⟨count, List.mem_cons_of_mem _ hmem⟩

theorem WrittenAs.exists_append {entry : Option ComponentEntry} {handed : Attributes}
    {pairs : List (Text × Text)} (h : WrittenAs entry (attrs ++ handed) pairs) :
    ∃ own injected, pairs = own ++ injected ∧ WrittenAs entry attrs own ∧
      WrittenAs entry handed injected := by
  have htake := List.forall₂_take attrs.length h
  have hdrop := List.forall₂_drop attrs.length h
  rw [List.take_left] at htake
  rw [List.drop_left] at hdrop
  exact ⟨_, _, (List.take_append_drop attrs.length pairs).symm, htake, hdrop⟩

def startTag (m : Mapping) (tag : Text) (pairs : List (Text × Text)) : Text :=
  '<' :: ((m.templateTag tag).display ++ attributeList pairs ++ ['>'])

theorem getLast?_startTag (m : Mapping) (tag : Text) (pairs : List (Text × Text)) :
    (startTag m tag pairs).getLast? = some '>' := by
  rw [startTag, ← List.cons_append, List.getLast?_concat]

theorem plainFrame_startTag (tag : Text) (attrs : Attributes) (solid : Bool)
    (content : Walk Text) : (plainFrame s tag attrs solid content).Always (Contains fun w =>
      ∃ pairs, WrittenAs (s.mapping.component? tag) attrs pairs ∧
        w = startTag s.mapping tag pairs) := by
  refine .bind_any fun _ => .bind (always_bindAttributes_writtenAs tag _ attrs) fun pairs hpairs => ?_
  cases solid with
  | true =>
    exact .bind_any fun _ => .pure ⟨_, ⟨pairs, hpairs, rfl⟩, opening_infix_block _ _ _ _⟩
  | false =>
    refine .pure ⟨_, ⟨pairs, hpairs, rfl⟩, s.indent,
      "</".toList ++ (s.mapping.templateTag tag).display ++ ['>'], ?_⟩
    simp [startTag, emptyElement]

end Render
open Template

namespace Site

def tag (p : Site) : Text := p.node.tag?.getD []

/-- The start tag of a plain element stands in the template, with its own attributes and those an
iteration handed to it. -/
structure StandsAs (m : Mapping) (nodes : List Node) (p : Site)
    (own injected : List (Text × Text)) : Prop where
  rendered : p ∈ sitesIn [] [] nodes
  plain : p.node.isPlain = true
  attributes : Render.WrittenAs (m.component? p.tag) p.node.attributes own
  handed : Render.WrittenAs (m.component? p.tag) p.handed injected
  shown : Render.startTag m p.tag (own ++ injected) <:+: (Conversion.ofNodes m nodes).template

end Site

variable {W : Text → Prop} {m : Mapping} {nodes : List Node} {p : Site}

theorem template_contains (hW : ∀ w, W w → w.getLast? ≠ some '\n') (hp : p ∈ sitesIn [] [] nodes)
    (hbranch : p.isBranch = false) (hown : Render.WrittenWith W m p) :
    Contains W (Conversion.ofNodes m nodes).template := by
  have hbody := Render.renderAll_carries (fun n (_ : n ∈ nodes) => Render.carries hW hbranch hown n)
    (s := ⟨m, .null, Template.step⟩) rfl hp 0
  rw [Conversion.template_ofNodes]
  exact hbody.mono ⟨"<template>\n".toList, "</template>".toList, rfl⟩

/-- Every plain element that is rendered has its start tag in the template. -/
theorem exists_standsAs (hp : p ∈ sitesIn [] [] nodes) (hplain : p.node.isPlain = true) :
    ∃ own injected, p.StandsAs m nodes own injected := by
  have hdirective : p.node.directive = .element := by simpa [isPlain] using hplain
  have hbranch : p.isBranch = false := by
    rw [Site.isBranch, Node.isOtherBranch, hdirective]
    rfl
  have hown : Render.WrittenWith (fun w => ∃ pairs,
      Render.WrittenAs (m.component? p.tag) (p.node.attributes ++ p.handed) pairs ∧
        w = Render.startTag m p.tag pairs) m p := by
    rintro s rfl
    obtain ⟨above, handed, node⟩ := p
    cases node with
    | text content => cases hdirective
    | element tag attrs children =>
      have htag : Directive.ofTag tag = .element := hdirective
      simp only [Render.renderNode, htag]
      exact Render.plainFrame_startTag tag (attrs ++ handed) _ _
  have hends : ∀ w, (∃ pairs, Render.WrittenAs (m.component? p.tag) (p.node.attributes ++ p.handed)
      pairs ∧ w = Render.startTag m p.tag pairs) → w.getLast? ≠ some '\n' := by
    rintro w ⟨pairs, -, rfl⟩
    rw [Render.getLast?_startTag]
    decide
  obtain ⟨w, ⟨pairs, hpairs, rfl⟩, hshown⟩ := template_contains hends hp hbranch hown
  obtain ⟨own, injected, rfl, hattributes, hhanded⟩ := hpairs.exists_append
  exact ⟨own, injected, hp, hplain, hattributes, hhanded, hshown⟩

end LightningTemplate
