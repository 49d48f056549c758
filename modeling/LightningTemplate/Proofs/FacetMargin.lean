import LightningTemplate.Proofs.Indentation

/-! The content that is recorded of a facet.  Fragments are flush: their first line starts at the
indent with a character of its own (`flush_renderNode`), and no line stands further out.  So the
margin that all lines of a content share is its indent, and the record of a facet is the lines
that stand in its slot without it (`record_rows`), wherever the facet is written. -/
namespace LightningTemplate
open Text Walk

namespace Text
variable {m l : Text}

theorem commonStart_append_self (m l : Text) : commonStart m (m ++ l) = m := by
  induction m with
  | nil => rfl
  | cons c m ih => simp [commonStart, ih]

/-- A beginning that all of the texts have stays the longest one. -/
theorem foldl_commonStart {ts : List Text} (h : ∀ t ∈ ts, m <+: t) :
    ts.foldl commonStart m = m := by
  induction ts with
  | nil => rfl
  | cons t ts ih =>
    rw [List.forall_mem_cons] at h
    obtain ⟨l, rfl⟩ := h.1
    rw [List.foldl_cons, commonStart_append_self, ih h.2]

theorem dropMark_append (m l : Text) : dropMark m (m ++ l) = l := by simp [dropMark]

theorem dropMark_nil (m : Text) : dropMark m [] = [] := by simp [dropMark]

theorem isBlank_of_isMarginChar {c : Char} (h : isMarginChar c = true) : isBlank c = true := by
  simp only [isMarginChar, Bool.or_eq_true, beq_iff_eq] at h
  rcases h with rfl | rfl <;> decide

theorem all_isMarginChar_append (m : Text) (hl : isAllBlank l = false) :
    (m ++ l).all isMarginChar = false := by
  rw [← Bool.not_eq_true]
  intro hall
  rw [List.all_append, Bool.and_eq_true] at hall
  have hblank : isAllBlank l = true :=
    List.all_eq_true.2 fun c hc => isBlank_of_isMarginChar (List.all_eq_true.1 hall.2 c hc)
  rw [hl] at hblank
  exact Bool.false_ne_true hblank

theorem marginOf?_append (hm : m.all isMarginChar = true) (hl : isAllBlank l = false) :
    marginOf? (m ++ l) = some (m ++ l.takeWhile isMarginChar) := by
  rw [marginOf?, all_isMarginChar_append m hl, if_neg Bool.false_ne_true,
    List.takeWhile_append_of_pos (List.all_eq_true.1 hm)]

end Text

namespace Template
open Render

variable {i t u : Text} {ls : List Text}

/-- Nothing, or a text whose first line starts at the indent and not further in. -/
def IsFlush (i t : Text) : Prop :=
  t = [] ∨ ∃ c rest, t = i ++ c :: rest ∧ isMarginChar c = false

namespace IsFlush

theorem nil : IsFlush i [] := .inl rfl

theorem of_head (opening : Text) (ho : opening.head? = some '<') (rest : Text) :
    IsFlush i (i ++ opening ++ rest) := by
  obtain ⟨o, rfl⟩ := List.head?_eq_some_iff.1 ho
  exact .inr ⟨'<', o ++ rest, by simp, by decide⟩

theorem append_of_ne (h : IsFlush i t) (hne : t ≠ []) (u : Text) : IsFlush i (t ++ u) := by
  obtain ⟨c, rest, rfl, hc⟩ := h.resolve_left hne
  exact .inr ⟨c, rest ++ u, by simp, hc⟩

theorem append (h : IsFlush i t) (h' : IsFlush i u) : IsFlush i (t ++ u) := by
  by_cases hne : t = []
  · rwa [hne]
  · exact h.append_of_ne hne u

theorem line (h : IsFlush i t) : IsFlush i (line t) := by
  rcases h with rfl | ⟨c, rest, rfl, hc⟩
  · exact nil
  · exact .inr ⟨c, rest ++ ['\n'], by simp [Render.line], hc⟩

theorem stripLineEnds (opening : Text) (ho : opening.head? = some '<') (rest : Text) :
    IsFlush i (stripLineEnds (i ++ opening ++ rest)) := by
  obtain ⟨o, rfl⟩ := List.head?_eq_some_iff.1 ho
  obtain ⟨after, hsplit, hafter⟩ := exists_stripRight (· == '\n') (i ++ '<' :: o ++ rest)
  rw [List.append_assoc, List.cons_append] at hsplit
  rcases List.append_eq_append_iff.1 hsplit with ⟨kept, hkept, hrest⟩ | ⟨cut, hcut, hrest⟩
  · cases kept with
    | nil =>
      rw [List.nil_append] at hrest
      have hmem : '<' ∈ after := hrest ▸ List.mem_cons_self
      exact absurd (List.all_eq_true.1 hafter _ hmem) (by decide)
    | cons c kept =>
      obtain ⟨rfl, -⟩ := List.cons.inj hrest
      rw [Render.stripLineEnds, List.append_assoc, List.cons_append, hkept]
      exact .inr ⟨'<', kept, rfl, by decide⟩
  · have hmem : '<' ∈ after := by simp [hrest]
    exact absurd (List.all_eq_true.1 hafter _ hmem) (by decide)

theorem block {opening : Text} (ho : opening.head? = some '<') (content closing : Text) :
    IsFlush i (block i opening content closing) := by
  simpa [Template.block] using of_head (i := i) opening ho ('\n' :: (content ++ (i ++ closing)))

theorem textLines (t : Text) : IsFlush i (textLines t i) := by
  have hsolid := isSolidLine_solidLines t
  cases hl : solidLines t with
  | nil => exact .inl (by simp [Template.textLines, hl, join, List.intercalate])
  | cons l ls =>
    have hmem : l ∈ solidLines t := by simp [hl]
    obtain ⟨hne, raw, -, rfl⟩ := mem_solidLines hmem
    obtain ⟨c, cs, hcs⟩ := List.exists_cons_of_ne_nil hne
    have hblank : isBlank c = false := isBlank_head_strip (by rw [hcs]; rfl)
    have hmargin : isMarginChar c = false :=
      Bool.eq_false_iff.2 fun hc => Bool.false_ne_true (hblank ▸ isBlank_of_isMarginChar hc)
    obtain ⟨rest, hrest⟩ : i ++ strip raw <+: join ['\n'] ((strip raw :: ls).map (i ++ ·)) := by
      cases ls with
      | nil => exact ⟨[], by simp [join, List.intercalate]⟩
      | cons m ms => exact ⟨_, (join_cons_cons _ _ _ _).symm⟩
    refine .inr ⟨c, cs ++ rest, ?_, hmargin⟩
    rw [Template.textLines, hl, ← hrest, hcs]
    simp

end IsFlush

theorem rows_eq_join (i : Text) (ls : List Text) :
    rows i ls = join ['\n'] (ls.map (i ++ ·) ++ [[]]) := by
  induction ls with
  | nil => rfl
  | cons l ls ih =>
    obtain ⟨m, ms, hms⟩ : ∃ m ms, ls.map (i ++ ·) ++ [[]] = m :: ms :=
      List.exists_cons_of_ne_nil (by simp)
    rw [List.map_cons, List.cons_append, hms, join_cons_cons, ← hms, ← ih]
    simp [rows]

theorem splitOn_rows (hi : '\n' ∉ i) (h : ∀ l ∈ ls, IsSolidLine l) :
    splitOn '\n' (rows i ls) = ls.map (i ++ ·) ++ [[]] := by
  rw [rows_eq_join, splitOn_join (by simp)]
  intro l hl
  rw [List.mem_append, List.mem_map, List.mem_singleton] at hl
  rcases hl with ⟨k, hk, rfl⟩ | rfl
  · simp [hi, (h k hk).1]
  · exact List.not_mem_nil

/-- The first of flush rows has no more margin than the indent. -/
theorem IsFlush.head_row {l : Text} (h : IsFlush i (rows i (l :: ls))) (hl : IsSolidLine l) :
    l.takeWhile isMarginChar = [] := by
  rcases h with hnil | ⟨c, rest, hrest, hc⟩
  · exact absurd (rows_eq_nil.1 hnil) (List.cons_ne_nil _ _)
  · obtain ⟨d, ds, rfl⟩ := List.exists_cons_of_ne_nil hl.ne_nil
    rw [rows, List.flatMap_cons, List.append_assoc, List.append_assoc] at hrest
    obtain ⟨rfl, -⟩ := List.cons.inj (List.append_cancel_left hrest)
    exact List.takeWhile_cons_of_neg (by simp [hc])

theorem commonMargin_rows (hi : i.all isMarginChar = true) (h : ∀ l ∈ ls, IsSolidLine l)
    (hne : ls ≠ []) (hflush : IsFlush i (rows i ls)) :
    commonMargin (ls.map (i ++ ·) ++ [[]]) = i := by
  obtain ⟨l, ms, rfl⟩ := List.exists_cons_of_ne_nil hne
  have hmargins : ((l :: ms).map (i ++ ·) ++ [[]]).filterMap marginOf? =
      (l :: ms).map fun k => i ++ k.takeWhile isMarginChar := by
    have hlines : ∀ k ∈ l :: ms, marginOf? (i ++ k) = some (i ++ k.takeWhile isMarginChar) :=
      fun k hk => marginOf?_append hi (h k hk).2
    have hlast : [([] : Text)].filterMap marginOf? = [] := by decide
    rw [List.filterMap_append, hlast, List.append_nil, List.filterMap_map, ← List.filterMap_eq_map]
    exact List.filterMap_congr hlines
  rw [commonMargin, hmargins, List.map_cons, hflush.head_row (h l List.mem_cons_self),
    List.append_nil]
  refine foldl_commonStart fun t ht => ?_
  obtain ⟨k, -, rfl⟩ := List.mem_map.1 ht
  exact List.prefix_append _ _

theorem removeMargin_rows (hi : i.all isMarginChar = true) (h : ∀ l ∈ ls, IsSolidLine l)
    (hne : ls ≠ []) (hflush : IsFlush i (rows i ls)) : removeMargin (rows i ls) = rows [] ls := by
  have hfeed : '\n' ∉ i := fun hmem => absurd (List.all_eq_true.1 hi _ hmem) (by decide)
  have hkept : (ls.map (i ++ ·) ++ [[]]).map
      (fun l : Text => if l.all isMarginChar = true then [] else l) = ls.map (i ++ ·) ++ [[]] := by
    rw [List.map_append, List.map_map]
    refine congrArg (· ++ [[]]) (List.map_congr_left fun l hl => ?_)
    exact if_neg (Bool.eq_false_iff.1 (all_isMarginChar_append i (h l hl).2))
  rw [removeMargin, splitOn_rows hfeed h, hkept]
  rw [commonMargin_rows hi h hne hflush, rows_eq_join []]
  simp [dropMark_append, dropMark_nil, Function.comp_def]

/-- What is recorded of flush rows are the lines alone, the last one not ended. -/
theorem record_rows (hi : i.all isMarginChar = true) (h : ∀ l ∈ ls, IsSolidLine l)
    (hflush : IsFlush i (rows i ls)) :
    stripBoth (· == '\n') (removeMargin (rows i ls)) = fragment [] ls := by
  by_cases hne : ls = []
  · rw [hne]
    rfl
  · obtain ⟨l, ms, rfl⟩ := List.exists_cons_of_ne_nil hne
    obtain ⟨hl, -⟩ := h l List.mem_cons_self
    obtain ⟨d, ds, rfl⟩ := List.exists_cons_of_ne_nil (h l List.mem_cons_self).ne_nil
    have hd : (d == '\n') = false := by
      rw [List.mem_cons, not_or] at hl
      simpa using Ne.symm hl.1
    have hstart : stripLeft (· == '\n') (rows [] ((d :: ds) :: ms)) = rows [] ((d :: ds) :: ms) := by
      rw [rows, List.flatMap_cons, List.nil_append, List.cons_append, List.cons_append]
      exact List.dropWhile_cons_of_neg (by simp [hd])
    rw [removeMargin_rows hi h hne hflush, stripBoth, hstart]
    exact stripLineEnds_rows h

end Template

namespace Render
open Template

variable {s : Surroundings} {attrs : Attributes} {content otherwise main : Walk Text}

theorem flush_plainFrame (tag : Text) (solid : Bool) :
    (plainFrame s tag attrs solid content).Always (IsFlush s.indent) := by
  refine .bind_any fun _ => .bind_any fun pairs => .ite (.bind_any fun body => .pure ?_) (.pure ?_)
  · exact .block rfl body _
  · simpa [emptyElement] using IsFlush.of_head (i := s.indent)
      ('<' :: (s.mapping.templateTag tag).display) rfl
      (attributeList pairs ++ "></".toList ++ (s.mapping.templateTag tag).display ++ ['>'])

theorem flush_note (note rest : Text) :
    IsFlush s.indent (stripLineEnds (comment s.indent note ++ ('\n' :: rest))) := by
  simpa [comment] using IsFlush.stripLineEnds (i := s.indent)
    "<!-- ".toList rfl (note ++ " -->".toList ++ ('\n' :: rest))

theorem flush_conditionalFrame (hasElse : Bool) :
    (conditionalFrame s attrs hasElse otherwise main).Always (IsFlush s.indent) := by
  refine .bind_any fun guard => .bind_any fun elseText => .bind_any fun mainText => ?_
  cases guard with
  | none => exact .bind_any fun _ => .pure (flush_note _ _)
  | some g =>
    have hfirst : IsFlush s.indent (block s.indent
        ("<template lwc:if=".toList ++ Expression.inBraces g ++ ['>']) mainText templateClose) :=
      .block rfl _ _
    exact .bind_any fun _ => .ite
      (.bind_any fun _ => .pure (hfirst.append_of_ne (by simp [block]) _)) (.pure hfirst)

theorem flush_iterationFrame :
    (iterationFrame s attrs content).Always (IsFlush s.indent) := by
  unfold iterationFrame
  refine .ite (.bind_any fun _ => ?_) ?_
  all_goals
    exact .bind_any fun _ => .bind_any fun _ => .bind_any fun _ => .pure (.block rfl _ _)

theorem flush_slotFrame : (slotFrame s attrs content).Always (IsFlush s.indent) := by
  refine .bind_any fun body => .bind_any fun _ =>
    .ite (.bind_any fun _ => .pure (flush_note _ _)) ?_
  exact .ite (.bind_any fun _ => .pure (.block rfl _ _)) (.pure (.block rfl _ _))

theorem flush_rawHtmlFrame : (rawHtmlFrame s attrs content).Always (IsFlush s.indent) := by
  unfold rawHtmlFrame
  refine .ite (.bind_any fun _ => ?_) ?_
  all_goals
    refine .bind_any fun body => .bind_any fun _ => .bind_any fun children => ?_
    refine .ite (.pure ?_) (.pure (.block rfl _ _))
    simpa [inlineElement] using IsFlush.of_head (i := s.indent) ['<'] rfl _

theorem flush_renderNode (s : Surroundings) (handed : Attributes) (n : Node) :
    (renderNode s handed n).Always (IsFlush s.indent) := by
  cases n with
  | text content =>
    rw [renderNode]
    exact .bind_any fun u => .pure (.textLines u)
  | element tag attrs nodes =>
    rw [renderNode]
    cases Directive.ofTag tag with
    | messageChannel => exact .bind_any fun _ => .bind_any fun _ => .pure .nil
    | recordData => exact .bind_any fun _ => .bind_any fun _ => .pure .nil
    | metadata => exact .pure .nil
    | conditional => exact flush_conditionalFrame _
    | iteration => exact flush_iterationFrame
    | slot => exact flush_slotFrame
    | rawHtml => exact flush_rawHtmlFrame
    | text => exact flush_plainFrame tag _
    | element => exact flush_plainFrame tag _

theorem flush_renderAll (s : Surroundings) (nodes : List Node) :
    (renderAll s nodes).Always (IsFlush s.indent) := by
  rw [renderAll_eq_rows]
  exact always_renderRows (P := fun _ => IsFlush s.indent) (Q := fun _ => IsFlush s.indent) .nil
    (fun ht hu => ht.line.append hu) fun p _ => flush_renderNode s p.1 p.2

end Render

namespace Template

def contentLines (record : Text) : List Text := if record.isEmpty then [] else splitOn '\n' record

/-- The lines of a slot: those of the content one step further in, under a line with the name
and over a closing line, or under a note when there is no name. -/
def slotLines (indent name record : Text) : List Text :=
  let content := (contentLines record).map (deeper indent ++ ·)
  if name.isEmpty then
    (indent ++ "<!-- TODO: Convert aura:set to slot content -->".toList) :: content
  else (indent ++ ("<div slot=\"".toList ++ name ++ "\">".toList)) :: content
    ++ [indent ++ "</div>".toList]

theorem contentLines_fragment {ls : List Text} (h : ∀ l ∈ ls, IsSolidLine l) :
    contentLines (fragment [] ls) = ls := by
  by_cases hne : ls = []
  · rw [hne]
    rfl
  · have hfull := fragment_ne_nil (i := []) hne h
    rw [contentLines, if_neg (by simpa using hfull), splitOn_fragment List.not_mem_nil hne h]
    simp

def slotText (indent name content : Text) : Text :=
  if name.isEmpty then
    Render.stripLineEnds
      (comment indent "TODO: Convert aura:set to slot content".toList ++ ('\n' :: content))
  else block indent ("<div slot=\"".toList ++ name ++ "\">".toList) content "</div>".toList

theorem splitOn_slotText {i name : Text} {ls : List Text} (hi : '\n' ∉ i) (hname : '\n' ∉ name)
    (h : ∀ l ∈ ls, IsSolidLine l) :
    splitOn '\n' (slotText i name (rows (deeper i) ls)) = slotLines i name (fragment [] ls) := by
  have hsteps := isSolidLine_steps h
  have hcontent : ls.map (deeper i ++ ·) = (ls.map (step ++ ·)).map (i ++ ·) := by
    simp [deeper, Function.comp_def]
  rw [slotText, slotLines, contentLines_fragment h, hcontent]
  split
  · have hnote : IsSolidLine "<!-- TODO: Convert aura:set to slot content -->".toList := by decide
    have hall := List.forall_mem_cons.2 ⟨hnote, hsteps⟩
    have hrows : comment i "TODO: Convert aura:set to slot content".toList ++
        ('\n' :: rows (deeper i) ls) =
        rows i ("<!-- TODO: Convert aura:set to slot content -->".toList :: ls.map (step ++ ·)) := by
      rw [rows_deeper]
      simp [rows, comment]
    rw [hrows, stripLineEnds_rows hall, splitOn_fragment hi (List.cons_ne_nil _ _) hall,
      List.map_cons]
  · have hstart : IsSolidLine "<div slot=\"".toList := by decide
    have hopening := (hstart.append hname).append (by decide : '\n' ∉ "\">".toList)
    have hclosing : IsSolidLine "</div>".toList := by decide
    have hall := List.forall_mem_append.2
      ⟨List.forall_mem_cons.2 ⟨hopening, hsteps⟩, List.forall_mem_singleton.2 hclosing⟩
    rw [block_rows, splitOn_fragment hi (by simp) hall]
    simp

end Template

namespace Render
open Template

/-- A slot puts its lines around its content and records it, after what the content found. -/
theorem run_slotFrame (s : Surroundings) (attrs : Attributes) (content : Walk Text) (n : Nat) :
    ((slotFrame s attrs content).run n).1 =
        slotText s.indent (facetName attrs.trimmed) (content.run n).1 ∧
      ((slotFrame s attrs content).run n).2.filterMap Finding.facet? =
        (content.run n).2.filterMap Finding.facet? ++
          [⟨facetName attrs.trimmed, stripBoth (· == '\n') (removeMargin (content.run n).1)⟩] := by
  unfold slotFrame slotText
  dsimp only
  generalize "TODO: Convert aura:set to slot content".toList = todo
  generalize "<div slot=\"".toList = start, "\">".toList = close, "</div>".toList = closing
  by_cases hname : (facetName attrs.trimmed).isEmpty = true
  · simp [hname, warn]
  · -- a slot that is not known adds a warning and nothing else
    generalize (s.mapping.slotsOf s.parent).contains (facetName attrs.trimmed) = known
    cases known <;> simp [hname, warn]

end Render

open Template

/-- The record of a facet is the same at every indent, and the lines of its slot are those of
the record, one step further in than the slot itself. -/
theorem facet_is_slot_content {s : Session} {c : Nat} (h : s.Holds c) (hm : s.mapping.Unbroken)
    {tag : Text} {attrs : Attributes} {nodes : List Node} (hslot : Directive.ofTag tag = .slot)
    (hn : (Node.element tag attrs nodes).Unbroken) :
    ∃ record, ∀ indent : Text, indent.all isMarginChar = true → ∃ text log after nested,
      s.Writes c (.transform (.element tag attrs nodes) indent) text log after ∧
      (after.state c).facets =
        (s.state c).facets ++ nested ++ [⟨facetName attrs.trimmed, record⟩] ∧
      splitOn '\n' text = slotLines indent (facetName attrs.trimmed) record := by
  let content (indent : Text) : Walk Text :=
    Render.renderAll ⟨s.mapping, (s.context c).parent, deeper indent⟩ nodes
  let count := (s.state c).getters.length
  have hmargin {indent : Text} (hi : indent.all isMarginChar = true) :
      (deeper indent).all isMarginChar = true := by
    rw [deeper, List.all_append, hi]
    decide
  have hflush (indent : Text) : IsFlush (deeper indent) ((content indent).run count).1 :=
    Render.flush_renderAll _ nodes count
  -- the record is taken without an indent, and the lines at any other one are the same
  refine ⟨stripBoth (· == '\n') (removeMargin ((content []).run count).1), fun indent hi => ?_⟩
  obtain ⟨⟨ls, hls, hbase, hbody⟩, -⟩ := Render.aligns_renderAll
    (s := ⟨s.mapping, (s.context c).parent, deeper []⟩) (j := deeper indent) hm
    (fun n hmem => Render.keepsLines n (hn.child hmem)) count
  have hrecord (j : Text) (hj : j.all isMarginChar = true)
      (hrows : ((content j).run count).1 = rows (deeper j) ls) :
      stripBoth (· == '\n') (removeMargin ((content j).run count).1) = fragment [] ls := by
    have hf := hflush j
    rw [hrows] at hf ⊢
    exact record_rows (hmargin hj) hls hf
  have hfeed : '\n' ∉ indent := fun hmem => absurd (List.all_eq_true.1 hi _ hmem) (by decide)
  have hname : '\n' ∉ facetName attrs.trimmed := hn.attributes.trimmed _
  have hw := Session.writes_transform h (.element tag attrs nodes) indent
  rw [Render.renderNode, hslot] at hw
  obtain ⟨htext, hfacets⟩ := Render.run_slotFrame ⟨s.mapping, (s.context c).parent, indent⟩ attrs
    (content indent) count
  refine ⟨_, _, _, ((content indent).run count).2.filterMap Finding.facet?, hw, ?_, ?_⟩
  · rw [hw.state, Findings.extend, List.append_assoc, hrecord [] rfl hbase, ← hrecord indent hi hbody]
    exact congrArg _ hfacets
  · rw [hrecord [] rfl hbase, ← splitOn_slotText hfeed hname hls, ← hbody]
    exact congrArg _ htext

/-- A facet of text over several lines, a conditional without a condition and a facet within. -/
def marginSample : List Node :=
  let element (tag : String) (attrs : List (String × String)) (nodes : List Node) : Node :=
    .element tag.toList (attrs.map fun a => (a.1.toList, a.2.toList)) nodes
  [.text "\n  one {!v.a}\n      two\r\tthree".toList,
    element "aura:if" [] [.text "four".toList, element "p" [] []],
    element "aura:set" [("attribute", "footer")] [element "c:rowItem" [] [.text " five ".toList]]]

def marginRecord : Text :=
  join ['\n'] (["one \x7ba\x7d", "two", "three",
    "<!-- TODO: Convert aura:if without a condition -->", "    four", "    <p></p>",
    "<div slot=\"footer\">", "    <c-row-item>", "        five", "    </c-row-item>",
    "</div>"].map String.toList)

def marginText : Text :=
  join ['\n'] (["\t<div slot=\"actions\">", "\t    one \x7ba\x7d", "\t    two", "\t    three",
    "\t    <!-- TODO: Convert aura:if without a condition -->", "\t        four",
    "\t        <p></p>", "\t    <div slot=\"footer\">", "\t        <c-row-item>",
    "\t            five", "\t        </c-row-item>", "\t    </div>",
    "\t</div>"].map String.toList)

theorem facet_is_slot_content_nested :
    ∃ log after nested,
      earlySession.Writes 1
        (.transform (.element "aura:set".toList [("attribute".toList, "actions".toList)]
          marginSample) "\t".toList) marginText log after ∧
      (after.state 1).facets =
        (earlySession.state 1).facets ++ nested ++ [⟨"actions".toList, marginRecord⟩] ∧
      splitOn '\n' marginText = slotLines "\t".toList "actions".toList marginRecord := by
  have hm : earlySession.mapping.Unbroken := by decide +kernel
  have hn : (Node.element "aura:set".toList [("attribute".toList, "actions".toList)]
      marginSample).Unbroken := by decide +kernel
  obtain ⟨record, hrecord⟩ :=
    facet_is_slot_content (s := earlySession) (c := 1) holds_earlySession hm rfl hn
  have hname : facetName (Attributes.trimmed [("attribute".toList, "actions".toList)]) =
      "actions".toList := by decide
  rw [hname] at hrecord
  obtain ⟨text, log, after, nested, hw, hfacets, hlines⟩ := hrecord "\t".toList (by decide)
  have hlast : (after.state 1).facets.getLast?.map Facet.content = some record := by simp [hfacets]
  have hpinned := (hw.told fun s text => (text, (s.state 1).facets.getLast?.map Facet.content)).symm.trans
    (by decide +kernel : _ = some (marginText, some marginRecord))
  obtain ⟨htext, hcontent⟩ := Prod.mk.inj (Option.some.inj hpinned)
  rw [htext] at hw hlines
  rw [Option.some.inj (hlast.symm.trans hcontent)] at hfacets hlines
  exact ⟨log, after, nested, hw, hfacets, hlines⟩

end LightningTemplate
