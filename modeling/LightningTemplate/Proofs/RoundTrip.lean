import LightningTemplate.Proofs.StoreWalk
import LightningTemplate.Proofs.TemplateReader
import LightningTemplate.Proofs.Yield

/-! Trees without directives and without expressions.  Their template is read back as
the same forest under its template names, and nothing but names of components is found
on the way. -/
namespace LightningTemplate
open Text Walk

namespace Expression

theorem substitutePieces_of_chars {ps : List Piece} (h : ∀ p ∈ ps, p.isExpression = false)
    (count : Nat) : substitutePieces count ps = ⟨ps.flatMap Piece.source, []⟩ := by
  induction ps generalizing count with
  | nil => rfl
  | cons p ps ih =>
    have hp := h p (by simp)
    cases p with
    | expression sign inner => simp [Piece.isExpression] at hp
    | char c =>
      rw [substitutePieces, ih fun q hq => h q (by simp [hq])]
      rfl

theorem substitute_of_not_occurs {t : Text} (h : occurs t = false) (count : Nat) :
    substitute count t = ⟨t, []⟩ := by
  have hchars : ∀ p ∈ pieces t, p.isExpression = false := by
    intro p hp
    rw [occurs, List.any_eq_false] at h
    simpa using h p hp
  rw [substitute, substitutePieces_of_chars hchars, source_pieces]

end Expression

namespace Walk

theorem run_convert_of_not_occurs {t : Text} (h : Expression.occurs t = false) (n : Nat) :
    (convert t).run n = (t, []) := by
  rw [run_convert, Expression.substitute_of_not_occurs h]
  rfl

end Walk

namespace Template

theorem solidLines_of_blank {t : Text} (h : isAllBlank t = true) : solidLines t = [] := by
  rw [List.eq_nil_iff_forall_not_mem]
  intro l hl
  obtain ⟨hne, raw, hraw, rfl⟩ := mem_solidLines hl
  cases hs : strip raw with
  | nil => exact hne hs
  | cons c cs =>
    obtain ⟨before, after, heq, -⟩ := exists_of_mem_lines hraw
    have hinside : c ∈ raw := mem_strip (by simp [hs])
    have hmem : c ∈ t := by simp [heq, hinside]
    have := isBlank_head_strip (t := raw) (c := c) (by simp [hs])
    rw [List.all_eq_true.1 h c hmem] at this
    simp at this

theorem join_line_feed (ls : List Text) (hne : ls ≠ []) :
    join ['\n'] ls ++ ['\n'] = ls.flatMap (· ++ ['\n']) := by
  induction ls with
  | nil => exact absurd rfl hne
  | cons l ls ih =>
    cases ls with
    | nil => simp [join, List.intercalate]
    | cons m ms =>
      have := ih (by simp)
      simp only [join, List.intercalate, List.intersperse_cons_cons, List.flatten_cons,
        List.flatMap_cons, List.append_assoc] at this ⊢
      rw [this]

theorem line_textLines (t indent : Text) :
    Render.line (textLines t indent) = (solidLines t).flatMap fun l => indent ++ l ++ ['\n'] := by
  rw [textLines]
  cases hls : solidLines t with
  | nil => rfl
  | cons l ls =>
    have hl : l ≠ [] := (mem_solidLines (t := t) (by simp [hls])).1
    have hne : (join ['\n'] ((l :: ls).map (indent ++ ·))).isEmpty = false := by
      cases ls <;> simp [join, List.intercalate, hl]
    rw [Render.line, hne, if_neg (by simp), join_line_feed _ (by simp), List.flatMap_map]

theorem reads_textLines {t indent : Text} (hindent : indent.all isBlank = true)
    (h : t.contains '<' = false) :
    Reads (Render.line (textLines t indent)) ((solidLines t).map .text) := by
  have hline : ∀ l ∈ solidLines t, Reads (indent ++ l ++ ['\n']) [.text l] := by
    intro l hl
    obtain ⟨hne, raw, hraw, rfl⟩ := mem_solidLines hl
    obtain ⟨before, after, heq, hclear, -⟩ := exists_of_mem_lines hraw
    rw [List.append_assoc]
    refine (Reads.blanks hindent).append (Reads.textLine hne (fun c => isBlank_head_strip) fun c hc => ?_)
    have hraw : c ∈ raw := mem_strip hc
    constructor
    · rintro rfl
      rw [← Bool.not_eq_true, List.contains_iff_mem] at h
      exact h (by simp [heq, hraw])
    · rintro rfl
      exact absurd (hclear _ hraw) (by decide)
  rw [line_textLines]
  generalize solidLines t = ls at hline
  induction ls with
  | nil => exact Reads.nil
  | cons l ls ih =>
    rw [List.flatMap_cons, List.map_cons]
    exact (hline l (by simp)).append (ih fun m hm => hline m (by simp [hm]))

end Template

namespace Node

def isPlainValue (value : Text) : Bool := !Expression.occurs value && !Template.isBraced value

mutual
/-- Plain elements at every depth, and no expression in a text or a value. -/
def isStatic : Node → Bool
  | .text content => !Expression.occurs content && !content.contains '<'
  | .element tag attrs nodes =>
    Directive.ofTag tag == .element && isName tag
      && attrs.all (fun a => isName a.1 && isPlainValue a.2) && isStaticIn nodes

def isStaticIn : List Node → Bool
  | [] => true
  | n :: ns => isStatic n && isStaticIn ns
end

mutual
/-- What is to be read back: solid lines for a text, and template names for the others. -/
def settled (m : Mapping) : Node → List Node
  | .text content => (Template.solidLines content).map .text
  | .element tag attrs nodes =>
    [.element (m.templateTag tag).display
      (attrs.map fun a => (Render.attributeName (m.component? tag) a.1, a.2)) (settledIn m nodes)]

def settledIn (m : Mapping) : List Node → List Node
  | [] => []
  | n :: ns => settled m n ++ settledIn m ns
end

theorem isStaticIn_iff {ns : List Node} : isStaticIn ns = true ↔ ∀ n ∈ ns, isStatic n = true := by
  induction ns with
  | nil => simp [isStaticIn]
  | cons n ns ih => simp [isStaticIn, ih]

theorem settledIn_eq (m : Mapping) (ns : List Node) : settledIn m ns = ns.flatMap (settled m) := by
  induction ns with
  | nil => rfl
  | cons n ns ih => rw [settledIn, List.flatMap_cons, ih]

theorem settledIn_of_not_solid (m : Mapping) {ns : List Node} (h : ns.any isSolid = false) :
    settledIn m ns = [] := by
  rw [settledIn_eq, List.flatMap_eq_nil_iff]
  intro n hn
  obtain ⟨content, rfl, hblank⟩ := eq_text_of_not_solid h hn
  rw [settled, Template.solidLines_of_blank hblank, List.map_nil]

end Node

namespace Render
open Node

theorem run_bindAttributes {attrs : Attributes} (h : ∀ a ∈ attrs, isPlainValue a.2 = true)
    (tag : Text) (entry : Option ComponentEntry) (k : Nat) :
    (bindAttributes tag entry attrs).run k =
      (attrs.map fun a => (attributeName entry a.1, a.2), []) := by
  induction attrs generalizing k with
  | nil => rfl
  | cons a attrs ih =>
    have ha := h a (by simp)
    simp only [isPlainValue, Bool.and_eq_true, Bool.not_eq_true'] at ha
    have hfirst : ∀ k, (bindAttribute tag entry a).run k = ((attributeName entry a.1, a.2), []) := by
      intro k
      unfold bindAttribute
      split
      · rfl
      · simp [run_convert_of_not_occurs ha.1, ha.1]
    simp only [bindAttributes, run_bind, hfirst, run_pure, ih fun b hb => h b (by simp [hb])]
    simp

/-- The text of a plain element whose values stand as they are, around what its content gives. -/
theorem text_plainFrame {attrs : Attributes} (h : ∀ a ∈ attrs, isPlainValue a.2 = true)
    (s : Surroundings) (tag : Text) (solid : Bool) (content : Walk Text) (k : Nat) :
    let name := (s.mapping.templateTag tag).display
    let list := Template.attributeList
      (attrs.map fun a => (attributeName (s.mapping.component? tag) a.1, a.2))
    ∃ j, ((plainFrame s tag attrs solid content).run k).1 =
      if solid then Template.block s.indent ('<' :: (name ++ list ++ ['>'])) (content.run j).1
        ('<' :: '/' :: (name ++ ['>']))
      else Template.emptyElement s.indent name list := by
  intro name list
  simp only [plainFrame, run_bind, run_bindAttributes h]
  cases solid with
  | false => exact ⟨0, rfl⟩
  | true => exact ⟨_, rfl⟩

theorem renderNode_static {tag : Text} (h : Directive.ofTag tag = .element) (s : Surroundings)
    (attrs : Attributes) (nodes : List Node) :
    renderNode s [] (.element tag attrs nodes) =
      plainFrame s tag attrs (nodes.any isSolid)
        (renderAll (s.inside (s.mapping.templateTag tag)) nodes) := by
  simp only [renderNode, h, List.append_nil]

theorem reads_line {t : Text} {ns : List Node} (h : Template.Reads t ns) :
    Template.Reads (line t) ns := by
  unfold line
  split
  · rename_i he
    rwa [List.isEmpty_iff.1 he] at h
  · simpa using h.append (.blanks (t := ['\n']) (by decide))

theorem reads_renderAll {m : Mapping} {ns : List Node}
    (ih : ∀ n ∈ ns, ∀ s : Surroundings, s.mapping = m → s.indent.all isBlank = true → ∀ k,
      Template.Reads (line ((renderNode s [] n).run k).1) (settled m n))
    (s : Surroundings) (hs : s.mapping = m) (hi : s.indent.all isBlank = true) (k : Nat) :
    Template.Reads ((renderAll s ns).run k).1 (settledIn m ns) := by
  induction ns generalizing k with
  | nil => exact .nil
  | cons n ns hns =>
    simp only [renderAll, run_bind, run_pure, settledIn]
    exact (ih n (by simp) s hs hi k).append (hns (fun a ha => ih a (by simp [ha])) _)

theorem reads_renderNode {m : Mapping} (hm : m.KeepsNames) (n : Node) (hn : n.isStatic = true)
    (s : Surroundings) (hs : s.mapping = m) (hi : s.indent.all isBlank = true) (k : Nat) :
    Template.Reads (line ((renderNode s [] n).run k).1) (settled m n) := by
  induction n using Node.induction generalizing s k with
  | text content =>
    simp only [isStatic, Bool.and_eq_true, Bool.not_eq_true'] at hn
    simp only [renderNode, run_bind, run_convert_of_not_occurs hn.1, run_pure, settled]
    exact Template.reads_textLines hi hn.2
  | element tag attrs nodes ih =>
    simp only [isStatic, Bool.and_eq_true, beq_iff_eq, List.all_eq_true] at hn
    obtain ⟨⟨⟨hd, htag⟩, hattrs⟩, hnodes⟩ := hn
    have hname : isName (m.templateTag tag).display = true := by
      obtain ⟨t, ht, hr⟩ := hm.tags tag
      rw [ht]
      exact hr.isName htag
    have hpairs : ∀ p ∈ attrs.map fun a => (attributeName (m.component? tag) a.1, a.2),
        isName p.1 = true ∧ Template.isBraced p.2 = false := by
      intro p hp
      obtain ⟨a, ha, rfl⟩ := List.mem_map.1 hp
      have hplain := (hattrs a ha).2
      simp only [isPlainValue, Bool.and_eq_true, Bool.not_eq_true'] at hplain
      exact ⟨(hm.attributes tag a.1).isName (hattrs a ha).1, hplain.2⟩
    rw [isStaticIn_iff] at hnodes
    have hbody := reads_renderAll (m := m) (fun n hn s hs hi k => ih n hn (hnodes n hn) s hs hi k)
      (s.inside (s.mapping.templateTag tag)) hs (Template.blank_deeper hi)
    obtain ⟨j, hj⟩ := text_plainFrame (fun a ha => (hattrs a ha).2) s tag (nodes.any isSolid)
      (renderAll (s.inside (s.mapping.templateTag tag)) nodes) k
    rw [renderNode_static hd, hj, settled]
    subst hs
    refine reads_line ?_
    split
    · exact .block hi hname hpairs (hbody j)
    · rename_i hsolid
      rw [settledIn_of_not_solid _ (by simpa using hsolid)]
      exact .emptyElement hi hname hpairs

def notable? : Finding → Option Finding
  | .component (.text _) => none
  | .unmapped _ => none
  | f => some f

theorem plainFrame_quiet {s : Surroundings} (hm : s.mapping.KeepsNames) {attrs : Attributes}
    (h : ∀ a ∈ attrs, isPlainValue a.2 = true) (tag : Text) (solid : Bool) {content : Walk Text}
    (hcontent : content.Yields notable? []) :
    (plainFrame s tag attrs solid content).Yields notable? [] := by
  have htag : ∀ f ∈ tagFinding tag (s.mapping.templateTag tag), notable? f = none := by
    obtain ⟨t, ht, -⟩ := hm.tags tag
    rw [ht, tagFinding]
    intro f hf
    split at hf
    · rw [List.mem_singleton.1 hf]
      rfl
    · split at hf
      · rw [List.mem_singleton.1 hf]
        rfl
      · simp at hf
  have hbind : (bindAttributes tag (s.mapping.component? tag) attrs).Yields notable? [] := by
    intro k
    rw [run_bindAttributes h]
    rfl
  refine .nil_bind (yields_noteAll_nil (List.filterMap_eq_nil_iff.2 htag)) fun _ => .nil_bind hbind fun _ => ?_
  exact .ite (.bind_nil hcontent fun _ => .pure _) (.pure _)

theorem renderAll_quiet {s : Surroundings} {ns : List Node}
    (ih : ∀ n ∈ ns, (renderNode s [] n).Yields notable? []) :
    (renderAll s ns).Yields notable? [] := by
  induction ns with
  | nil => exact .pure _
  | cons n ns hns =>
    rw [renderAll]
    refine .nil_bind (ih n (by simp)) fun _ => ?_
    exact .bind_nil (hns fun a ha => ih a (by simp [ha])) fun _ => .pure _

/-- A static node gives rise to nothing but names of components. -/
theorem renderNode_quiet (n : Node) (hn : n.isStatic = true) (s : Surroundings)
    (hm : s.mapping.KeepsNames) : (renderNode s [] n).Yields notable? [] := by
  induction n using Node.induction generalizing s with
  | text content =>
    simp only [isStatic, Bool.and_eq_true, Bool.not_eq_true'] at hn
    rw [renderNode]
    refine .bind_nil (fun k => ?_) fun _ => .pure _
    rw [run_convert_of_not_occurs hn.1]
    rfl
  | element tag attrs nodes ih =>
    simp only [isStatic, Bool.and_eq_true, beq_iff_eq, List.all_eq_true] at hn
    obtain ⟨⟨⟨hd, -⟩, hattrs⟩, hnodes⟩ := hn
    rw [isStaticIn_iff] at hnodes
    rw [renderNode_static hd]
    exact plainFrame_quiet hm (fun a ha => (hattrs a ha).2) tag _
      (renderAll_quiet fun n hn => ih n hn (hnodes n hn) _ hm)

end Render

open Node Render

theorem Findings.extend_quiet (fs : Findings) {log : List Finding}
    (h : log.filterMap notable? = []) : ∃ names : List Text, fs.extend log =
      { fs with usedComponents := fs.usedComponents ++ names.map .text } := by
  induction log generalizing fs with
  | nil => exact ⟨[], by simp [extend_nil]⟩
  | cons f log ih =>
    rw [List.filterMap_eq_nil_iff, List.forall_mem_cons, ← List.filterMap_eq_nil_iff] at h
    obtain ⟨names, hnames⟩ := ih (fs.record f) h.2
    rw [extend_cons, hnames]
    unfold notable? at h
    split at h
    · rename_i t
      simp only [record]
      split
      · exact ⟨names, rfl⟩
      · exact ⟨t :: names, by simp⟩
    · exact ⟨names, rfl⟩
    · simp at h

theorem componentNames_texts (names : List Text) (position : Nat) :
    componentNames position (names.map .text) = .ok names := by
  induction names generalizing position with
  | nil => rfl
  | cons t ts ih => simp [componentNames, ih, Except.map]

/-- The template of a static forest is read back as the forest under its template names,
and nothing is found that is to be reported, generated or hoisted. -/
theorem static_read_back (nodes : List Node) (h : isStaticIn nodes = true) :
    ∃ c, (Conversion.convert .builtIn nodes).outcome = .ok c ∧
      Template.read c.template =
        some (.element "template".toList [] (settledIn .builtIn nodes)) ∧
      c.findings.warnings = [] ∧ c.findings.channels = [] ∧ c.findings.recordData = [] ∧
      c.findings.facets = [] ∧ c.findings.getters = [] ∧ c.findings.usedDirectives = [] := by
  have hm := Mapping.builtIn_keepsNames
  rw [isStaticIn_iff] at h
  have hquiet := renderAll_quiet (s := ⟨.builtIn, .null, Template.step⟩)
    fun n hn => renderNode_quiet n (h n hn) _ hm
  have hreads := reads_renderAll (fun n hn s hs hi k => reads_renderNode hm n (h n hn) s hs hi k)
    ⟨.builtIn, .null, Template.step⟩ rfl (by decide) 0
  obtain ⟨names, hnames⟩ := Findings.extend_quiet {} (hquiet 0)
  have hfindings : (Conversion.ofNodes .builtIn nodes).findings =
      { usedComponents := names.map .text } := by rw [Conversion.findings_ofNodes, hnames]; rfl
  have hok : (componentNames 0
      (Conversion.ofNodes .builtIn nodes).findings.usedComponents).isOk = true := by
    rw [hfindings, componentNames_texts]
    rfl
  refine ⟨_, Conversion.convert_ok hok, ?_, ?_⟩
  · rw [Conversion.template_ofNodes]
    exact Template.read_document hreads
  rw [hfindings]
  exact ⟨rfl, rfl, rfl, rfl, rfl, rfl⟩

/-- A card with renamed tags and attributes, marks in a value, blanks and two lines of text. -/
def staticSample : List Node :=
  [.text "  \n".toList,
    .element "lightning:card".toList [("iconName".toList, "a & \"b\" <c>".toList)]
      [.text " one \n\n two".toList, .text "three".toList,
        .element "ui:inputCheckbox".toList
          [("aura:id".toList, "{a} b".toList), ("value".toList, [])] [.text " ".toList]]]

theorem static_read_back_card :
    ∃ c, (Conversion.convert .builtIn staticSample).outcome = .ok c ∧
      Template.read c.template =
        some (.element "template".toList [] (settledIn .builtIn staticSample)) ∧
      c.findings.warnings = [] ∧ c.findings.channels = [] ∧ c.findings.recordData = [] ∧
      c.findings.facets = [] ∧ c.findings.getters = [] ∧ c.findings.usedDirectives = [] :=
  static_read_back staticSample (by decide +kernel)

end LightningTemplate
