import LightningTemplate.Proofs.Beside
import LightningTemplate.Proofs.Layout
import LightningTemplate.Proofs.Mark
import LightningTemplate.Proofs.Writer

/-! The indent of a fragment.  Walks over one node at two indents, side by side, give the same
lines, and each of them is one line and not blank (`Render.keepsLines`).  This needs names
and values without line feeds: a line feed in a value would stand in the middle of a tag,
where no indent follows it.  So another text in front of the indent stands in front of every line of
the fragment (`fragment_follows_indent`). -/
namespace LightningTemplate
open Text Expression Walk

namespace Mapping

/-- No target is broken into lines. -/
def Unbroken (m : Mapping) : Prop :=
  ∀ e ∈ m.components, '\n' ∉ e.2.target.display ∧ ∀ a ∈ e.2.attributes, '\n' ∉ a.2.display

instance (m : Mapping) : Decidable m.Unbroken := by
  unfold Unbroken
  infer_instance

end Mapping

namespace Attributes

/-- No name and no value is broken into lines. -/
def Unbroken (attrs : Attributes) : Prop := ∀ a ∈ attrs, '\n' ∉ a.1 ∧ '\n' ∉ a.2

variable {attrs : Attributes}

theorem Unbroken.get (h : attrs.Unbroken) (name : Text) : '\n' ∉ attrs.get name := by
  cases hget : attrs.get? name with
  | none => simp [Attributes.get, hget]
  | some value =>
    have hfound : ∃ a ∈ attrs, a.2 = value := by
      rw [get?, Option.or_eq_some_iff] at hget
      rcases hget with hget | ⟨-, hget⟩
      · obtain ⟨a, ha, rfl⟩ := Option.map_eq_some_iff.1 hget
        exact ⟨a, List.mem_of_find?_eq_some ha, rfl⟩
      · obtain ⟨a, ha, rfl⟩ := Option.map_eq_some_iff.1 hget
        exact ⟨a, List.mem_of_find?_eq_some ha, rfl⟩
    obtain ⟨a, ha, rfl⟩ := hfound
    rw [Attributes.get, hget, Option.getD_some]
    exact (h a ha).2

theorem Unbroken.trimmed (h : attrs.Unbroken) (name : Text) : '\n' ∉ attrs.trimmed name :=
  fun hmem => h.get name (mem_strip hmem)

end Attributes

namespace Node

/-- No tag, attribute name or attribute value of the tree is broken into lines. -/
def Unbroken (n : Node) : Prop :=
  ∀ e ∈ n.elements, (∀ t ∈ e.tag?, '\n' ∉ t) ∧ e.attributes.Unbroken

instance (n : Node) : Decidable n.Unbroken := by
  unfold Unbroken Attributes.Unbroken
  infer_instance

variable {t : Text} {attrs : Attributes} {nodes : List Node}

theorem Unbroken.tag (h : (element t attrs nodes).Unbroken) : '\n' ∉ t :=
  (h _ List.mem_cons_self).1 t rfl

theorem Unbroken.attributes (h : (element t attrs nodes).Unbroken) : attrs.Unbroken :=
  (h _ List.mem_cons_self).2

theorem Unbroken.child (h : (element t attrs nodes).Unbroken) {n : Node} (hn : n ∈ nodes) :
    n.Unbroken := by
  intro e he
  apply h e
  rw [elements, elementsIn_eq_flatMap]
  exact List.mem_cons_of_mem _ (List.mem_flatMap.2 ⟨n, hn, he⟩)

end Node

theorem Text.Renamed.unbroken {old new : Text} (h : Renamed old new) (hold : '\n' ∉ old) :
    '\n' ∉ new := by
  intro hmem
  rcases h.chars _ hmem with hmem | htame
  · exact hold hmem
  · exact absurd htame (by decide)

namespace Mapping
variable {m : Mapping} {tag name : Text}

theorem Unbroken.templateTag (h : m.Unbroken) (htag : '\n' ∉ tag) :
    '\n' ∉ (m.templateTag tag).display := by
  rcases templateTag_cases m tag with ⟨e, he, -, htarget⟩ | ⟨t, ht, hrenamed⟩
  · rw [htarget]
    exact (h _ (mem_components he)).1
  · rw [ht]
    exact hrenamed.unbroken htag

theorem Unbroken.attributeName (h : m.Unbroken) (hname : '\n' ∉ name) :
    '\n' ∉ Render.attributeName (m.component? tag) name := by
  rcases attributeName_cases (m.component? tag) name with ⟨e, a, he, ha, htarget⟩ | hrenamed
  · rw [htarget]
    exact (h _ (mem_components he)).2 a ha
  · exact hrenamed.unbroken hname

end Mapping

namespace Expression

/-- A mark in a converted text stands in the text itself. -/
theorem mem_substitutePiece {count : Nat} {p : Piece} {c : Char} (hc : isMark c = true)
    (h : c ∈ (p.substitute count).text) : c ∈ p.source := by
  have hbrace : c ≠ '{' ∧ c ≠ '}' ∧ c ≠ '!' := by
    refine ⟨?_, ?_, ?_⟩ <;> rintro rfl <;> exact absurd hc (by decide)
  have hbare {t : Text} (ht : ∀ d ∈ t, isBare d = true) (hmem : c ∈ t) : False := by
    have := ht c hmem
    simp [isBare, hc] at this
  cases p with
  | char d => exact h
  | expression sign inner =>
    rw [Piece.substitute] at h
    split at h
    · have hname : c ∈ getterName (count + 1) := by simpa [inBraces, hbrace] using h
      exact (hbare (bare_getterName _) hname).elim
    · rename_i hkind
      have href : c ∈ (classify inner).reference := by simpa [inBraces, hbrace] using h
      rcases classify_cases inner with ⟨hcomplex, -⟩ | ⟨name, hname, heq⟩ | ⟨-, -, heq⟩
      · simp [Classification.needsGetter, hcomplex] at hkind
      · rw [heq] at href
        have hin : c ∈ name := by
          split at href
          · simpa [hbrace] using href
          · exact href
        exact (hbare hname hin).elim
      · rw [heq] at href
        simp [Piece.source, mem_strip href]

theorem mem_substitute {count : Nat} {t : Text} {c : Char} (hc : isMark c = true)
    (h : c ∈ (substitute count t).text) : c ∈ t := by
  have hpieces (count : Nat) (ps : List Piece) (h : c ∈ (substitutePieces count ps).text) :
      c ∈ ps.flatMap Piece.source := by
    induction ps generalizing count with
    | nil => exact absurd h List.not_mem_nil
    | cons p ps ih =>
      rw [substitutePieces, List.mem_append] at h
      rw [List.flatMap_cons, List.mem_append]
      exact h.imp (mem_substitutePiece hc) (ih _)
  have hsource := hpieces count (pieces t) h
  rwa [source_pieces] at hsource

end Expression

namespace Template
variable {i j t u t' u' opening closing : Text}

def Aligned (i j t u : Text) : Prop :=
  ∃ ls, (∀ l ∈ ls, IsSolidLine l) ∧ t = fragment i ls ∧ u = fragment j ls

def AlignedRows (i j t u : Text) : Prop :=
  ∃ ls, (∀ l ∈ ls, IsSolidLine l) ∧ t = rows i ls ∧ u = rows j ls

theorem AlignedRows.nil : AlignedRows i j [] [] := ⟨[], by simp, rfl, rfl⟩

theorem AlignedRows.append (h : AlignedRows i j t u) (h' : AlignedRows i j t' u') :
    AlignedRows i j (t ++ t') (u ++ u') := by
  obtain ⟨ls, hls, rfl, rfl⟩ := h
  obtain ⟨ms, hms, rfl, rfl⟩ := h'
  refine ⟨ls ++ ms, ?_, (rows_append _ _ _).symm, (rows_append _ _ _).symm⟩
  exact List.forall_mem_append.2 ⟨hls, hms⟩

theorem AlignedRows.ofDeeper (h : AlignedRows (deeper i) (deeper j) t u) : AlignedRows i j t u := by
  obtain ⟨ls, hls, rfl, rfl⟩ := h
  exact ⟨_, isSolidLine_steps hls, rows_deeper i ls, rows_deeper j ls⟩

theorem AlignedRows.isEmpty_eq (h : AlignedRows i j t u) : t.isEmpty = u.isEmpty := by
  obtain ⟨ls, -, rfl, rfl⟩ := h
  rw [Bool.eq_iff_iff, List.isEmpty_iff, List.isEmpty_iff, rows_eq_nil, rows_eq_nil]

theorem stacks_aligned (i j : Text) : Render.Stacks (Aligned i j) (AlignedRows i j) where
  nil := .nil
  line := by
    rintro a b ⟨ls, hls, rfl, rfl⟩
    exact ⟨ls, hls, line_fragment hls, line_fragment hls⟩
  append := .append

namespace Aligned

theorem nil : Aligned i j [] [] := ⟨[], by simp, rfl, rfl⟩

theorem single {l : Text} (h : IsSolidLine l) : Aligned i j (i ++ l) (j ++ l) :=
  ⟨[l], by simpa using h, by simp [fragment, join, List.intercalate],
    by simp [fragment, join, List.intercalate]⟩

theorem textLines (t : Text) : Aligned i j (textLines t i) (textLines t j) :=
  ⟨solidLines t, isSolidLine_solidLines t, rfl, rfl⟩

theorem block (ho : IsSolidLine opening) (hc : IsSolidLine closing)
    (h : AlignedRows (deeper i) (deeper j) t u) :
    Aligned i j (block i opening t closing) (block j opening u closing) := by
  obtain ⟨ls, hls, rfl, rfl⟩ := h
  refine ⟨_, ?_, block_rows i opening closing ls, block_rows j opening closing ls⟩
  intro l hl
  rw [List.cons_append, List.mem_cons, List.mem_append, List.mem_singleton] at hl
  rcases hl with rfl | hl | rfl
  · exact ho
  · exact isSolidLine_steps hls l hl
  · exact hc

theorem below (h : Aligned i j t u) (h' : Aligned i j t' u') (hne : t ≠ []) (hne' : t' ≠ []) :
    Aligned i j (t ++ '\n' :: t') (u ++ '\n' :: u') := by
  obtain ⟨ls, hls, rfl, rfl⟩ := h
  obtain ⟨ms, hms, rfl, rfl⟩ := h'
  have hlines {ns : List Text} (hn : fragment i ns ≠ []) : ns ≠ [] := by
    rintro rfl
    exact hn rfl
  refine ⟨ls ++ ms, List.forall_mem_append.2 ⟨hls, hms⟩, ?_, ?_⟩
  all_goals rw [← fragment_append _ _ (hlines hne'), rows_eq_fragment _ (hlines hne)]; simp

/-- A line with rows under it, whose last line feed goes. -/
theorem headed {l : Text} (hl : IsSolidLine l) (h : AlignedRows i j t u) :
    Aligned i j (Render.stripLineEnds (i ++ l ++ '\n' :: t))
      (Render.stripLineEnds (j ++ l ++ '\n' :: u)) := by
  obtain ⟨ls, hls, rfl, rfl⟩ := h
  have hall : ∀ k ∈ l :: ls, IsSolidLine k := List.forall_mem_cons.2 ⟨hl, hls⟩
  have hrows (i : Text) : i ++ l ++ '\n' :: rows i ls = rows i (l :: ls) := by simp [rows]
  exact ⟨l :: ls, hall, by rw [hrows, stripLineEnds_rows hall], by rw [hrows, stripLineEnds_rows hall]⟩

end Aligned

theorem unbroken_inBraces (h : '\n' ∉ t) : '\n' ∉ inBraces t := by simp [inBraces, h]

theorem unbroken_unbrace (h : '\n' ∉ t) : '\n' ∉ unbrace t := fun hmem => h (mem_unbrace hmem)

theorem unbroken_escapeValue (h : '\n' ∉ t) : '\n' ∉ escapeValue t := by
  rw [escapeValue, List.mem_flatMap, not_exists]
  rintro c ⟨hmem, hc⟩
  rcases mem_escapeChar hc with rfl | hentity
  · exact h hmem
  · exact absurd hentity (by decide)

theorem unbroken_attributeList {pairs : Attributes} (h : pairs.Unbroken) :
    '\n' ∉ attributeList pairs := by
  rw [attributeList, List.mem_flatMap, not_exists]
  rintro p ⟨hp, hmem⟩
  obtain ⟨hname, hvalue⟩ := h p hp
  have hescaped := unbroken_escapeValue hvalue
  unfold attributeText at hmem
  split at hmem
  · simp [hname, hvalue] at hmem
  · simp [hname, hescaped] at hmem

end Template

def Surroundings.withIndent (s : Surroundings) (j : Text) : Surroundings := { s with indent := j }

namespace Render
open Finding Node Template

variable {s : Surroundings} {j : Text} {attrs : Attributes}
  {content content' otherwise otherwise' main main' : Walk Text}

/-- Walks that hoist the same getters and give texts of the same lines. -/
abbrev Aligns (i j : Text) (v w : Walk Text) : Prop := Beside getter? (Aligned i j) v w

abbrev AlignsRows (i j : Text) (v w : Walk Text) : Prop := Beside getter? (AlignedRows i j) v w

theorem always_convert_unbroken {t : Text} (h : '\n' ∉ t) : (convert t).Always fun u => '\n' ∉ u :=
  fun _ hmem => h (mem_substitute (by decide) hmem)

theorem always_bindAttributes_unbroken (hm : s.mapping.Unbroken) (tag : Text) (h : attrs.Unbroken) :
    (bindAttributes tag (s.mapping.component? tag) attrs).Always Attributes.Unbroken := by
  induction attrs with
  | nil => exact .pure (by simp [Attributes.Unbroken])
  | cons a attrs ih =>
    obtain ⟨ha, hattrs⟩ := List.forall_mem_cons.1 h
    have hname : '\n' ∉ attributeName (s.mapping.component? tag) a.1 := hm.attributeName ha.1
    have hfirst : (bindAttribute tag (s.mapping.component? tag) a).Always
        fun p => '\n' ∉ p.1 ∧ '\n' ∉ p.2 := by
      unfold bindAttribute
      refine .ite (.pure ⟨hname, ha.2⟩) (.bind (always_convert_unbroken ha.2) fun u hu => ?_)
      exact .ite (.bind_any fun _ => .pure ⟨hname, hu⟩) (.pure ⟨hname, hu⟩)
    refine .bind hfirst fun p hp => .bind (ih hattrs) fun ps hps => .pure ?_
    exact List.forall_mem_cons.2 ⟨hp, hps⟩

theorem isSolidLine_tag {t : Text} (h : '\n' ∉ t) : IsSolidLine ('<' :: t) :=
  isSolidLine_of_mem (c := '<') (by simp [h]) (by simp) (by decide)

theorem isSolidLine_templateClose : IsSolidLine templateClose := by decide

theorem aligns_plainFrame (hm : s.mapping.Unbroken) {tag : Text} (htag : '\n' ∉ tag)
    (hattrs : attrs.Unbroken) (solid : Bool)
    (h : AlignsRows (deeper s.indent) (deeper j) content content') :
    Aligns s.indent j (plainFrame s tag attrs solid content)
      (plainFrame (s.withIndent j) tag attrs solid content') := by
  have hname := hm.templateTag htag
  refine .bind_same (.refl _) _ fun _ => ?_
  refine .bind_always (.refl _) (always_bindAttributes_unbroken hm tag hattrs) fun pairs hpairs => ?_
  have hlist := unbroken_attributeList hpairs
  have hclosing : IsSolidLine ('<' :: '/' :: ((s.mapping.templateTag tag).display ++ ['>'])) :=
    isSolidLine_tag (by simp [hname])
  refine .ite (.bind (.refl _) h fun t u htu => .pure ?_) (.pure ?_)
  · exact .block (isSolidLine_tag (by simp [hname, hlist])) hclosing htu
  · have hline : IsSolidLine ('<' :: ((s.mapping.templateTag tag).display ++ attributeList pairs ++
        "></".toList ++ (s.mapping.templateTag tag).display ++ ['>'])) :=
      isSolidLine_tag (by simp [hname, hlist])
    simpa [emptyElement, Surroundings.withIndent] using Aligned.single (i := s.indent) (j := j) hline

theorem always_guardOf_unbroken (h : attrs.Unbroken) :
    (guardOf attrs).Always fun g => ∀ t ∈ g, '\n' ∉ t := by
  unfold guardOf
  refine .ite (.bind (always_convert_unbroken (h.get _)) fun u hu => .pure ?_) ?_
  · rintro t ⟨⟩
    exact unbroken_unbrace hu
  · refine .ite (.bind (always_convert_unbroken (h.get _)) fun u hu => .pure ?_) (.pure (by simp))
    rintro t ⟨⟩
    simp [unbroken_unbrace hu]

theorem aligns_conditionalFrame (hattrs : attrs.Unbroken) (hasElse : Bool)
    (hotherwise : AlignsRows (deeper s.indent) (deeper j) otherwise otherwise')
    (hmain : AlignsRows (deeper s.indent) (deeper j) main main') :
    Aligns s.indent j (conditionalFrame s attrs hasElse otherwise main)
      (conditionalFrame (s.withIndent j) attrs hasElse otherwise' main') := by
  refine .bind_always (.refl _) (always_guardOf_unbroken hattrs) fun guard hguard => ?_
  refine .bind (.refl _) hotherwise fun e e' he => .bind (.refl _) hmain fun b b' hb => ?_
  cases guard with
  | none =>
    refine .bind_same (.refl _) _ fun _ => .pure ?_
    have hnote : IsSolidLine "<!-- TODO: Convert aura:if without a condition -->".toList := by decide
    simpa [comment, Surroundings.withIndent] using Aligned.headed hnote (hb.append he).ofDeeper
  | some g =>
    have hstart : IsSolidLine "<template lwc:if=".toList := by decide
    have hopening : IsSolidLine ("<template lwc:if=".toList ++ inBraces g ++ ['>']) :=
      (hstart.append (unbroken_inBraces (hguard g rfl))).append (by decide)
    have hfirst := Aligned.block hopening isSolidLine_templateClose hb
    have helse : IsSolidLine "<template lwc:else>".toList := by decide
    have hsecond := Aligned.block helse isSolidLine_templateClose he
    refine .bind_same (.refl _) _ fun _ => ?_
    refine .ite (.bind_same (.refl _) _ fun _ => .pure ?_) (.pure hfirst)
    exact hfirst.below hsecond (by simp [block]) (by simp [block])

theorem unbroken_itemVariable (hattrs : attrs.Unbroken) : '\n' ∉ itemVariable attrs := by
  have hvar : '\n' ∉ attrs.get "var".toList := hattrs.get _
  show '\n' ∉ if (attrs.get "var".toList).isEmpty then "item".toList else attrs.get "var".toList
  split
  · decide
  · exact hvar

theorem isSolidLine_iteration (hattrs : attrs.Unbroken) {collection : Text}
    (hcollection : '\n' ∉ collection) :
    IsSolidLine ("<template for:each=".toList ++ inBraces collection ++ " for:item=\"".toList
      ++ itemVariable attrs ++ ['"'] ++ (if (attrs.get "indexVar".toList).isEmpty then []
        else " for:index=\"".toList ++ attrs.get "indexVar".toList ++ ['"']) ++ ['>']) := by
  have hitem := unbroken_itemVariable hattrs
  have hindex : '\n' ∉ attrs.get "indexVar".toList := hattrs.get _
  have hlabel : '\n' ∉ " for:index=\"".toList := by decide
  have hstart : IsSolidLine "<template for:each=".toList := by decide
  have hvariable := (hstart.append (unbroken_inBraces hcollection)).append
    (by decide : '\n' ∉ " for:item=\"".toList)
  refine (((hvariable.append hitem).append (by decide)).append ?_).append (by decide)
  split
  · exact List.not_mem_nil
  · rw [List.mem_append, List.mem_append, not_or, not_or]
    exact ⟨⟨hlabel, hindex⟩, by decide⟩

theorem aligns_iterationFrame (hattrs : attrs.Unbroken)
    (h : AlignsRows (deeper s.indent) (deeper j) content content') :
    Aligns s.indent j (iterationFrame s attrs content)
      (iterationFrame (s.withIndent j) attrs content') := by
  unfold iterationFrame
  refine .ite (.bind_same (.refl _) _ fun _ => ?_) ?_
  all_goals
    refine .bind_always (.refl _) (always_convert_unbroken (hattrs.get _)) fun u hu => ?_
    refine .bind_same (.refl _) _ fun _ => .bind (.refl _) h fun b b' hb => .pure ?_
    exact .block (isSolidLine_iteration hattrs (unbroken_unbrace hu)) isSolidLine_templateClose hb

theorem aligns_slotFrame (hattrs : attrs.Unbroken)
    (h : AlignsRows (deeper s.indent) (deeper j) content content') :
    Aligns s.indent j (slotFrame s attrs content) (slotFrame (s.withIndent j) attrs content') := by
  have hname : '\n' ∉ facetName attrs.trimmed := hattrs.trimmed _
  refine .bind (.refl _) h fun b b' hb => .bind (.refl _) (.note rfl) fun _ _ _ => ?_
  refine .ite (.bind_same (.refl _) _ fun _ => .pure ?_) ?_
  · have hnote : IsSolidLine "<!-- TODO: Convert aura:set to slot content -->".toList := by decide
    simpa [comment, Surroundings.withIndent] using Aligned.headed hnote hb.ofDeeper
  · have hstart : IsSolidLine "<div slot=\"".toList := by decide
    have hopening : IsSolidLine ("<div slot=\"".toList ++ facetName attrs.trimmed ++ "\">".toList) :=
      (hstart.append hname).append (by decide)
    have hclosing : IsSolidLine "</div>".toList := by decide
    have hblock := Aligned.block hopening hclosing hb
    exact .ite (.bind_same (.refl _) _ fun _ => .pure hblock) (.pure hblock)

theorem alignedRows_body (i j body : Text) :
    AlignedRows i j (if isAllBlank body then [] else textLines body i ++ ['\n'])
      (if isAllBlank body then [] else textLines body j ++ ['\n']) := by
  by_cases hblank : isAllBlank body = true
  · rw [if_pos hblank, if_pos hblank]
    exact .nil
  · have hne := solidLines_ne_nil (Bool.eq_false_iff.2 hblank)
    rw [if_neg hblank, if_neg hblank]
    exact ⟨solidLines body, isSolidLine_solidLines body, (rows_eq_fragment i hne).symm,
      (rows_eq_fragment j hne).symm⟩

theorem aligned_inlineElement {i tag body : Text} (htag : '\n' ∉ tag) (hbody : '\n' ∉ body) :
    Aligned i j (inlineElement i tag body) (inlineElement j tag body) := by
  have hline : IsSolidLine ('<' :: (tag ++ '>' :: (body ++ "</".toList ++ tag ++ ['>']))) :=
    isSolidLine_tag (by simp [htag, hbody])
  simpa [inlineElement] using Aligned.single (i := i) (j := j) hline

theorem aligned_tagBlock {i tag t u : Text} (htag : '\n' ∉ tag)
    (h : AlignedRows (deeper i) (deeper j) t u) :
    Aligned i j (block i ('<' :: (tag ++ ['>'])) t ('<' :: '/' :: (tag ++ ['>'])))
      (block j ('<' :: (tag ++ ['>'])) u ('<' :: '/' :: (tag ++ ['>']))) :=
  .block (isSolidLine_tag (by simp [htag])) (isSolidLine_tag (by simp [htag])) h

theorem aligns_rawHtmlFrame (hattrs : attrs.Unbroken)
    (h : AlignsRows (deeper s.indent) (deeper j) content content') :
    Aligns s.indent j (rawHtmlFrame s attrs content)
      (rawHtmlFrame (s.withIndent j) attrs content') := by
  have hgiven : '\n' ∉ attrs.trimmed "tag".toList := hattrs.trimmed _
  have htag : '\n' ∉ (if (attrs.trimmed "tag".toList).isEmpty ||
      occurs (attrs.trimmed "tag".toList) then divTag else attrs.trimmed "tag".toList) := by
    split
    · decide
    · exact hgiven
  unfold rawHtmlFrame
  refine .ite (.bind_same (.refl _) _ fun _ => ?_) ?_
  all_goals
    refine .bind_always (.refl _) (always_convert_unbroken (hattrs.get _)) fun body hbody => ?_
    refine .bind_same (.refl _) _ fun _ => .bind (.refl _) h fun b b' hb => ?_
    rw [hb.isEmpty_eq]
    exact .ite (.pure (aligned_inlineElement htag hbody))
      (.pure (aligned_tagBlock htag ((alignedRows_body _ _ body).append hb)))

theorem unbroken_handedBy (nodes : List Node) (hattrs : attrs.Unbroken) :
    (handedBy .iteration attrs nodes).Unbroken := by
  have hname : '\n' ∉ keyName := by decide
  have hid : '\n' ∉ ".Id".toList := by decide
  have hkey : '\n' ∉ keyBinding (itemVariable attrs) := unbroken_inBraces <| by
    rw [List.mem_append, not_or]
    exact ⟨unbroken_itemVariable hattrs, hid⟩
  intro a ha
  rw [key_of_mem_handedBy ha]
  exact ⟨hname, hkey⟩

/-- At any two indents a node gives the same lines, and so do its children as they stand in an
else facet. -/
structure KeepsLines (n : Node) : Prop where
  node : ∀ s j handed, s.mapping.Unbroken → handed.Unbroken →
    Aligns s.indent j (renderNode s handed n) (renderNode (s.withIndent j) handed n)
  below : ∀ s j, s.mapping.Unbroken →
    AlignsRows s.indent j (renderAll s n.children) (renderAll (s.withIndent j) n.children)

variable {nodes : List Node}

theorem aligns_renderAll (hm : s.mapping.Unbroken) (ih : ∀ n ∈ nodes, KeepsLines n) :
    AlignsRows s.indent j (renderAll s nodes) (renderAll (s.withIndent j) nodes) :=
  beside_renderAll s (s.withIndent j) (.refl _) (stacks_aligned _ _) fun n hn =>
    (ih n hn).node s j [] hm (List.forall_mem_nil _)

theorem keepsLines (n : Node) (hn : n.Unbroken) : KeepsLines n := by
  induction n using Node.induction with
  | text content =>
    refine ⟨fun s j handed _ _ => ?_, fun s j hm => aligns_renderAll hm (by simp [Node.children])⟩
    rw [renderNode, renderNode]
    exact .bind_same (.refl _) _ fun u => .pure (.textLines u)
  | element tag attrs nodes ih =>
    have hbelow : ∀ n ∈ nodes, KeepsLines n := fun n hmem => ih n hmem (hn.child hmem)
    refine ⟨fun s j handed hm hhanded => ?_, fun s j hm => aligns_renderAll hm hbelow⟩
    have hattrs := hn.attributes
    have hnone : Attributes.Unbroken [] := List.forall_mem_nil _
    have hplain := aligns_plainFrame (j := j) hm hn.tag
      (List.forall_mem_append.2 ⟨hattrs, hhanded⟩) (nodes.any isSolid)
      (aligns_renderAll (s := s.inside (s.mapping.templateTag tag)) hm hbelow)
    rw [renderNode, renderNode]
    cases Directive.ofTag tag with
    | messageChannel => exact .bind_same (.refl _) _ fun _ => .bind_same (.refl _) _ fun _ => .pure .nil
    | recordData => exact .bind_same (.refl _) _ fun _ => .bind_same (.refl _) _ fun _ => .pure .nil
    | metadata => exact .pure .nil
    | conditional =>
      have hotherwise := beside_renderElse s.inner (s.withIndent j).inner (.refl _)
        (stacks_aligned (deeper s.indent) (deeper j)) fun n hmem => (hbelow n hmem).below s.inner _ hm
      have hmain := beside_renderMain s.inner (s.withIndent j).inner (.refl _)
        (stacks_aligned (deeper s.indent) (deeper j)) fun n hmem =>
          (hbelow n hmem).node s.inner _ [] hm hnone
      exact aligns_conditionalFrame hattrs _ hotherwise hmain
    | iteration =>
      have hchildren := beside_renderIteration s.inner (s.withIndent j).inner
        (.refl _) (stacks_aligned (deeper s.indent) (deeper j)) attrs fun p hp =>
          (hbelow p.2 (mem_of_mem_handedOut hp)).node s.inner _ p.1 hm fun a ha =>
            unbroken_handedBy nodes hattrs a (subset_of_mem_handedOut hp ha)
      exact aligns_iterationFrame hattrs hchildren
    | slot => exact aligns_slotFrame hattrs (aligns_renderAll (s := s.inner) hm hbelow)
    | rawHtml => exact aligns_rawHtmlFrame hattrs (aligns_renderAll (s := s.inner) hm hbelow)
    | text => exact hplain
    | element => exact hplain

end Render

open Template

/-- With another text in front of the indent, a node gives the same fragment with that text in
front of every line.  Lines of fragments start with the indent and are not blank, so the body
of a document is lines at one step, none of them blank. -/
theorem fragment_follows_indent {s : Session} {c : Nat} (h : s.Holds c) (hm : s.mapping.Unbroken) :
    (∀ n : Node, n.Unbroken → ∀ p i : Text, '\n' ∉ i →
      ∃ text log after log' after', s.Writes c (.transform n i) text log after ∧
        s.Writes c (.transform n (p ++ i)) (prefixed p text) log' after' ∧ IsFragment i text) ∧
    ∀ (nodes : List Node) (d : Conversion), (∀ n ∈ nodes, n.Unbroken) →
      (Conversion.convert s.mapping nodes).outcome = .ok d →
      ∃ ls, d.template = document (rows step ls) ∧ ∀ l ∈ ls, IsSolidLine l := by
  constructor
  · intro n hn p i hi
    have halign := (Render.keepsLines n hn).node ⟨s.mapping, (s.context c).parent, i⟩ (p ++ i) [] hm
      (List.forall_mem_nil _) (s.state c).getters.length
    obtain ⟨ls, hls, htext, hshifted⟩ := halign.1
    have hw := Session.writes_transform h n i
    have hw' := Session.writes_transform h n (p ++ i)
    simp only [Surroundings.withIndent] at hshifted
    simp only [htext] at hw
    simp only [hshifted] at hw'
    rw [← prefixed_fragment p hi hls] at hw'
    exact ⟨_, _, _, _, _, hw, hw', isFragment_fragment hi hls⟩
  · intro nodes d hnodes hd
    obtain rfl := Conversion.eq_ofNodes_of_convert hd
    have hkept : ∀ n ∈ nodes, Render.KeepsLines n := fun n hn => Render.keepsLines n (hnodes n hn)
    have halign := Render.aligns_renderAll (s := ⟨s.mapping, .null, step⟩) (j := step) hm hkept
    obtain ⟨ls, hls, htext, -⟩ := (halign 0).1
    exact ⟨ls, (Conversion.template_ofNodes _ _).trans (congrArg document htext), hls⟩

/-- Text over several lines, a conditional without a condition, a raw element with a body above
its children, and a branch after another one. -/
def layoutSample : Node :=
  let element (tag : String) (attrs : List (String × String)) (nodes : List Node) : Node :=
    .element tag.toList (attrs.map fun a => (a.1.toList, a.2.toList)) nodes
  element "lightning:card" [("title", "{!v.a + 1}")]
    [.text "one\r\n\n  two {!v.b}\x0cthree".toList,
      element "aura:if" [] [.text "four".toList],
      element "aura:html" [("tag", "p"), ("body", "five\rsix")] [element "c:rowItem" [] []],
      element "aura:if" [("isTrue", "{!v.c}")] [.text "seven".toList,
        element "aura:set" [("attribute", "else")] [.text "eight".toList]]]

def layoutText : Text :=
  join ['\n'] (["\t<lightning-card title=\x7bcomputedValue2\x7d>", "\t    one",
    "\t    two \x7bb\x7d", "\t    three",
    "\t    <!-- TODO: Convert aura:if without a condition -->", "\t        four", "\t    <p>",
    "\t        five", "\t        six", "\t        <c-row-item></c-row-item>", "\t    </p>",
    "\t    <template lwc:if=\x7bc\x7d>", "\t        seven", "\t    </template>",
    "\t    <template lwc:else>", "\t        eight", "\t    </template>",
    "\t</lightning-card>"].map String.toList)

theorem fragment_follows_indent_card :
    (∃ log after log' after',
      earlySession.Writes 1 (.transform layoutSample "\t".toList) layoutText log after ∧
      earlySession.Writes 1 (.transform layoutSample ("| ".toList ++ "\t".toList))
        (prefixed "| ".toList layoutText) log' after' ∧
      IsFragment "\t".toList layoutText) ∧
    ∃ d ls, (Conversion.convert .builtIn [layoutSample]).outcome = .ok d ∧
      d.template = document (rows step ls) ∧ ∀ l ∈ ls, IsSolidLine l := by
  have hm : earlySession.mapping.Unbroken := by decide +kernel
  have hn : layoutSample.Unbroken := by decide +kernel
  have hd : (Conversion.convert .builtIn [layoutSample]).outcome = .ok (.ofNodes .builtIn [layoutSample]) :=
    Conversion.convert_ok (by decide +kernel)
  obtain ⟨hshift, hbody⟩ := fragment_follows_indent (s := earlySession) (c := 1) holds_earlySession hm
  obtain ⟨ls, hls⟩ := hbody _ _ (List.forall_mem_singleton.2 hn) hd
  obtain ⟨text, log, after, log', after', hw, hw', hfragment⟩ :=
    hshift _ hn "| ".toList "\t".toList (by decide)
  have htext := (hw.told fun _ text => text).symm.trans (by decide +kernel : _ = some layoutText)
  rw [Option.some.inj htext] at hw hw' hfragment
  exact ⟨⟨log, after, log', after', hw, hw', hfragment⟩, _, ls, hd, hls⟩

end LightningTemplate
