import LightningTemplate.Proofs.Mark
import LightningTemplate.Proofs.RawExpression

/-! Every tag and comment of a template is one that the emitter writes for a node.  `marks`
lists what it writes for a node; `bareStrings` lists the strings of a node that it writes
without escaping them.  Where no tag can open in these, the template bears just the marks
of its nodes.  The body of a raw element is markup and passes as it stands. -/
namespace LightningTemplate
open Text Expression Walk

namespace Node
open Template Render

def converted (t : Text) : Text := (substitute 0 t).text

def templateName : Text := "template".toList

def elementMarks (name : Text) (attributed : Bool) (content : List Mark) : List Mark :=
  .startTag name attributed :: (content ++ [.endTag name])

def conditionalMarks (attrs : Attributes) (hasElse : Bool) (main otherwise : List Mark) : List Mark :=
  if isAllBlank (attrs.get "isTrue".toList) && isAllBlank (attrs.get "isFalse".toList) then
    .comment "TODO: Convert aura:if without a condition".toList :: (main ++ otherwise)
  else
    .conditional :: (main ++ [.endTag templateName])
      ++ if hasElse then .otherwise :: (otherwise ++ [.endTag templateName]) else []

def slotMarks (name : Text) (content : List Mark) : List Mark :=
  if name.isEmpty then .comment "TODO: Convert aura:set to slot content".toList :: content
  else .slot :: (content ++ [.endTag divTag])

def rawMarks (attrs : Attributes) (content : List Mark) : List Mark :=
  elementMarks (rawTag attrs) false
    (List.replicate ((converted (attrs.get "body".toList)).count '<') .passed ++ content)

mutual
/-- What is written for a node, with the attributes that an iteration around it hands to it. -/
def marks (m : Mapping) (handed : Attributes) : Node → List Mark
  | .text _ => []
  | .element tag attrs nodes =>
    match Directive.ofTag tag with
    | .messageChannel | .recordData | .metadata => []
    | .conditional =>
      conditionalMarks attrs (nodes.any isOtherBranch) (marksMain m nodes) (marksElse m nodes)
    | .iteration =>
      .iteration :: (marksIn m (handedBy .iteration attrs nodes) nodes ++ [.endTag templateName])
    | .slot => slotMarks (facetName attrs.trimmed) (marksIn m [] nodes)
    | .rawHtml => rawMarks attrs (marksIn m [] nodes)
    | .text | .element =>
      elementMarks (m.templateTag tag).display (!(attrs ++ handed).isEmpty) (marksIn m [] nodes)

/-- Of siblings; the first plain element takes what is handed down. -/
def marksIn (m : Mapping) (handed : Attributes) : List Node → List Mark
  | [] => []
  | n :: ns => marks m (if n.isPlain then handed else []) n
    ++ marksIn m (if n.isPlain then [] else handed) ns

def marksMain (m : Mapping) : List Node → List Mark
  | [] => []
  | n :: ns => (if n.isOtherBranch then [] else marks m [] n) ++ marksMain m ns

def marksElse (m : Mapping) : List Node → List Mark
  | [] => []
  | .text _ :: ns => marksElse m ns
  | .element tag attrs nodes :: ns =>
    (if isOtherBranch (.element tag attrs []) then marksIn m [] nodes else []) ++ marksElse m ns
end

theorem marksIn_eq (m : Mapping) (handed : Attributes) (ns : List Node) :
    marksIn m handed ns = (handedOut handed ns).flatMap fun p => marks m p.1 p.2 := by
  induction ns generalizing handed with
  | nil => rfl
  | cons n ns ih => rw [marksIn, handedOut, List.flatMap_cons, ih]

theorem marksMain_eq (m : Mapping) (ns : List Node) :
    marksMain m ns = (ns.filter (!·.isOtherBranch)).flatMap (marks m []) := by
  induction ns with
  | nil => rfl
  | cons n ns ih =>
    rw [marksMain, List.filter_cons, ih]
    cases n.isOtherBranch <;> rfl

theorem marksElse_eq (m : Mapping) (ns : List Node) :
    marksElse m ns = (ns.filter (·.isOtherBranch)).flatMap fun n => marksIn m [] n.children := by
  induction ns with
  | nil => rfl
  | cons n ns ih =>
    have hcons : marksElse m (n :: ns) =
        (if n.isOtherBranch then marksIn m [] n.children else []) ++ marksElse m ns := by
      cases n <;> rw [marksElse] <;> rfl
    rw [hcons, List.filter_cons, ih]
    cases n.isOtherBranch <;> rfl

theorem marksIn_of_not_solid (m : Mapping) (handed : Attributes) {ns : List Node}
    (h : ns.any isSolid = false) : marksIn m handed ns = [] := by
  rw [marksIn_eq, List.flatMap_eq_nil_iff]
  intro p hp
  obtain ⟨content, htext, -⟩ := eq_text_of_not_solid h (mem_of_mem_handedOut hp)
  rw [htext, marks]

def writtenValue (a : Text × Text) : Text := if a.1 = auraId then a.2 else converted a.2

/-- The names, and the values that are written without quotes or without escaping. -/
def ownBareStrings (d : Directive) (tag : Text) (attrs handed : Attributes) : List Text :=
  match d with
  | .conditional => (ownStrings .conditional attrs handed).map converted
  | .iteration => [converted (attrs.get "items".toList), itemVariable attrs,
      attrs.get "indexVar".toList]
  | .slot => [facetName attrs.trimmed]
  | .rawHtml => [rawTag attrs]
  | .text | .element =>
    tag :: attrs.map (·.1) ++ ((attrs ++ handed).map writtenValue).filter isBraced
  | .messageChannel | .recordData | .metadata => []

mutual
def bareStrings (handed : Attributes) : Node → List Text
  | .text content => [converted content]
  | .element tag attrs nodes =>
    if (Directive.ofTag tag).isSilent then []
    else ownBareStrings (.ofTag tag) tag attrs handed
      ++ bareStringsIn (handedBy (.ofTag tag) attrs nodes) nodes

def bareStringsIn (handed : Attributes) : List Node → List Text
  | [] => []
  | n :: ns => bareStrings (if n.isPlain then handed else []) n
    ++ bareStringsIn (if n.isPlain then [] else handed) ns
end

/-- No tag can open in any of the texts. -/
def OpenNothing (ts : List Text) : Prop := ∀ t ∈ ts, '<' ∉ t

instance (ts : List Text) : Decidable (OpenNothing ts) :=
  inferInstanceAs (Decidable (∀ t ∈ ts, '<' ∉ t))

theorem openNothing_append {ts us : List Text} :
    OpenNothing (ts ++ us) ↔ OpenNothing ts ∧ OpenNothing us := List.forall_mem_append

theorem bareStringsIn_eq (handed : Attributes) (ns : List Node) :
    bareStringsIn handed ns = (handedOut handed ns).flatMap fun p => bareStrings p.1 p.2 := by
  induction ns generalizing handed with
  | nil => rfl
  | cons n ns ih => rw [bareStringsIn, handedOut, List.flatMap_cons, ih]

/-- No tag can open in a sibling with what it takes over. -/
theorem OpenNothing.of_mem {handed : Attributes} {ns : List Node} {p : Attributes × Node}
    (h : OpenNothing (bareStringsIn handed ns)) (hp : p ∈ handedOut handed ns) :
    OpenNothing (bareStrings p.1 p.2) := by
  rw [bareStringsIn_eq] at h
  exact fun t ht => h t (List.mem_flatMap.2 ⟨p, hp, ht⟩)

end Node

namespace Render
open Node Template

variable {s : Surroundings} {attrs : Attributes} {content otherwise main : Walk Text}
  {ms ks : List Mark}

theorem always_convert (t : Text) : (convert t).Always fun u =>
    u.count '<' = (converted t).count '<' ∧ isBraced u = isBraced (converted t) := fun n =>
  ⟨count_lt_substitute n 0 t, isBraced_substitute n 0 t⟩

theorem always_convert_notMem {t : Text} (h : '<' ∉ converted t) :
    (convert t).Always fun u => '<' ∉ u := fun n => by
  rw [← List.count_eq_zero] at h ⊢
  exact (always_convert t n).1.trans h

theorem bears_startTag {name list : Text} (attributed : Bool) (hname : '<' ∉ name)
    (hlist : '<' ∉ list) (hstart : list.head? = if attributed then some ' ' else none) :
    Bears [.startTag name attributed] ('<' :: (name ++ list ++ ['>'])) := by
  cases attributed with
  | false =>
    obtain rfl := List.head?_eq_none_iff.1 hstart
    have := Bears.mark (.startTag name false) (t := []) rfl (by simp [hname]) (by simp)
    simpa using this
  | true =>
    obtain ⟨rest, rfl⟩ := List.head?_eq_some_iff.1 hstart
    have := Bears.mark (.startTag name true) (t := rest ++ ['>']) rfl (by simp [hname])
      (by simpa using hlist)
    simpa using this

theorem bears_endTag {name : Text} (hname : '<' ∉ name) :
    Bears [.endTag name] ('<' :: '/' :: (name ++ ['>'])) := by
  have := Bears.mark (.endTag name) (t := []) rfl (by simp [hname]) (by simp)
  simpa using this

theorem bears_templateClose : Bears [.endTag templateName] templateClose :=
  bears_endTag (by decide)

theorem bears_comment {note : Text} (hi : s.indent.all isBlank = true) (hnote : '<' ∉ note) :
    Bears [.comment note] (comment s.indent note) := by
  have hopening : '<' ∉ "!-- ".toList := by decide
  have hclosing : '<' ∉ " -->".toList := by decide
  have hrest : '<' ∉ "!-- ".toList ++ note ++ " -->".toList := by
    rw [List.mem_append, List.mem_append, not_or, not_or]
    exact ⟨⟨hopening, hnote⟩, hclosing⟩
  have hmark : Bears [.comment note] ("<!-- ".toList ++ note ++ " -->".toList ++ []) :=
    Bears.mark (.comment note) (c := "!-- ".toList ++ note ++ " -->".toList) rfl hrest (by simp)
  rw [List.append_nil] at hmark
  have heq : comment s.indent note = s.indent ++ ("<!-- ".toList ++ note ++ " -->".toList) := by
    simp only [comment, List.append_assoc]
  exact heq ▸ hmark.literal_append (lt_notMem_of_blank hi)

/-- Names and values that leave the list of attributes without an opening. -/
def CanStand (pairs : List (Text × Text)) : Prop :=
  ∀ p ∈ pairs, '<' ∉ p.1 ∧ (isBraced p.2 = true → '<' ∉ p.2)

theorem always_bindAttributes_canStand {tag : Text} (hm : s.mapping.KeepsNames)
    (hnames : ∀ a ∈ attrs, '<' ∉ a.1)
    (hvalues : ∀ a ∈ attrs, isBraced (writtenValue a) = true → '<' ∉ writtenValue a) :
    (bindAttributes tag (s.mapping.component? tag) attrs).Always fun pairs =>
      CanStand pairs ∧ pairs.length = attrs.length := by
  induction attrs with
  | nil => exact .pure ⟨by simp [CanStand], rfl⟩
  | cons a attrs ih =>
    rw [List.forall_mem_cons] at hnames hvalues
    have hname : '<' ∉ attributeName (s.mapping.component? tag) a.1 := by
      intro hmem
      rcases (hm.attributes tag a.1).chars _ hmem with h | h
      · exact hnames.1 h
      · exact absurd h (by decide)
    have hfirst : (bindAttribute tag (s.mapping.component? tag) a).Always fun p =>
        '<' ∉ p.1 ∧ (isBraced p.2 = true → '<' ∉ p.2) := by
      have hvalue := hvalues.1
      unfold writtenValue at hvalue
      unfold bindAttribute
      split
      · rename_i hid
        rw [if_pos hid] at hvalue
        exact .pure ⟨hname, hvalue⟩
      · rename_i hid
        rw [if_neg hid] at hvalue
        refine .bind (always_convert a.2) fun value h => ?_
        have hwritten : isBraced value = true → '<' ∉ value := by
          rw [← List.count_eq_zero, h.1, h.2, List.count_eq_zero]
          exact hvalue
        split
        · exact .bind_any fun _ => .pure ⟨hname, hwritten⟩
        · exact .pure ⟨hname, hwritten⟩
    refine .bind hfirst fun p hp => .bind (ih hnames.2 hvalues.2) fun ps hps => .pure ?_
    exact ⟨List.forall_mem_cons.2 ⟨hp, hps.1⟩, by rw [List.length_cons, List.length_cons, hps.2]⟩

theorem head_attributeList (pairs : List (Text × Text)) :
    (attributeList pairs).head? = if !pairs.isEmpty then some ' ' else none := by
  cases pairs <;> rfl

theorem bears_plainFrame (hs : Sound s) {tag : Text} (htag : '<' ∉ tag)
    (hnames : ∀ a ∈ attrs, '<' ∉ a.1)
    (hvalues : ∀ a ∈ attrs, isBraced (writtenValue a) = true → '<' ∉ writtenValue a) {solid : Bool}
    (hcontent : content.Always (Bears ms)) (hempty : solid = false → ms = []) :
    (plainFrame s tag attrs solid content).Always
      (Bears (elementMarks (s.mapping.templateTag tag).display (!attrs.isEmpty) ms)) := by
  have hname : '<' ∉ (s.mapping.templateTag tag).display := by
    obtain ⟨t, ht, hr⟩ := hs.names.tags tag
    rw [ht]
    intro hmem
    rcases hr.chars _ hmem with h | h
    · exact htag h
    · exact absurd h (by decide)
  refine .bind_any fun _ =>
    .bind (always_bindAttributes_canStand hs.names hnames hvalues) fun pairs ⟨hpairs, hlength⟩ => ?_
  have hlist : '<' ∉ attributeList pairs := lt_notMem_attributeList hpairs
  have hattributed : pairs.isEmpty = attrs.isEmpty := by
    rw [Bool.eq_iff_iff, List.isEmpty_iff_length_eq_zero, List.isEmpty_iff_length_eq_zero, hlength]
  have hhead := head_attributeList pairs
  rw [hattributed] at hhead
  simp only
  generalize (s.mapping.templateTag tag).display = name at hname
  have hopening := bears_startTag _ hname hlist hhead
  cases solid with
  | true =>
    exact .bind hcontent fun body hbody => .pure (.block hs.indent hopening hbody (bears_endTag hname))
  | false =>
    rw [hempty rfl]
    have heq : emptyElement s.indent name (attributeList pairs) =
        s.indent ++ (('<' :: (name ++ attributeList pairs ++ ['>'])) ++ '<' :: '/' :: (name ++ ['>'])) := by
      simp [emptyElement]
    refine .pure ?_
    rw [heq]
    exact .literal_append (lt_notMem_of_blank hs.indent) (hopening.append (bears_endTag hname))

theorem always_guardOf_notMem (h : OpenNothing ((ownStrings .conditional attrs []).map converted)) :
    (guardOf attrs).Always fun g => (∀ t, g = some t → '<' ∉ t) ∧ g.isNone =
      (isAllBlank (attrs.get "isTrue".toList) && isAllBlank (attrs.get "isFalse".toList)) := by
  unfold guardOf
  simp only [ownStrings] at h
  generalize isAllBlank (attrs.get "isTrue".toList) = noTrue at h ⊢
  generalize isAllBlank (attrs.get "isFalse".toList) = noFalse at h ⊢
  cases noTrue with
  | false =>
    simp only [Bool.not_false, if_true, List.map_cons, OpenNothing, List.forall_mem_cons] at h ⊢
    refine .bind (always_convert_notMem h.1) fun u hu => .pure ⟨?_, rfl⟩
    rintro t ⟨⟩ hmem
    exact hu (mem_unbrace hmem)
  | true =>
    cases noFalse with
    | false =>
      simp only [Bool.not_true, Bool.not_false, Bool.false_eq_true, if_false, if_true, List.map_cons,
        OpenNothing, List.forall_mem_cons] at h ⊢
      refine .bind (always_convert_notMem h.1) fun u hu => .pure ⟨?_, rfl⟩
      rintro t ⟨⟩ hmem
      rcases List.mem_cons.1 hmem with hsign | hmem
      · exact absurd hsign (by decide)
      · exact hu (mem_unbrace hmem)
    | true => exact .pure ⟨by simp, rfl⟩

theorem bears_templateBlock {opening body : Text} (hi : s.indent.all isBlank = true)
    (ho : Bears ms opening) (hb : Bears ks body) :
    Bears (ms ++ (ks ++ [.endTag templateName])) (block s.indent opening body templateClose) :=
  .block hi ho hb bears_templateClose

theorem lt_notMem_inBraces {t : Text} (h : '<' ∉ t) : '<' ∉ inBraces t := by
  simp [inBraces, h]

theorem bears_conditionalFrame (hi : s.indent.all isBlank = true)
    (h : OpenNothing ((ownStrings .conditional attrs []).map converted)) {hasElse : Bool}
    (hotherwise : otherwise.Always (Bears ks)) (hmain : main.Always (Bears ms)) :
    (conditionalFrame s attrs hasElse otherwise main).Always
      (Bears (conditionalMarks attrs hasElse ms ks)) := by
  refine .bind (always_guardOf_notMem h) fun g ⟨hg, hblank⟩ =>
    .bind hotherwise fun elseText he => .bind hmain fun mainText hm => ?_
  cases g with
  | none =>
    have hnote : '<' ∉ "TODO: Convert aura:if without a condition".toList := by decide
    refine .bind_any fun _ => .pure ?_
    rw [conditionalMarks, ← hblank, if_pos Option.isNone_none]
    exact ((bears_comment hi hnote).append
      (Bears.literal_append (a := ['\n']) (by decide) (hm.append he))).stripLineEnds
  | some t =>
    have hopening : Bears [.conditional] ("<template lwc:if=".toList ++ inBraces t ++ ['>']) := by
      have hrest : '<' ∉ inBraces t ++ ['>'] := by simp [lt_notMem_inBraces (hg t rfl)]
      rw [List.append_assoc]
      exact Bears.mark .conditional (c := "template lwc:if=".toList) rfl (by decide) hrest
    have hfirst := bears_templateBlock hi hopening hm
    refine .bind_any fun _ => ?_
    rw [conditionalMarks, ← hblank, if_neg (by simp)]
    cases hasElse with
    | false =>
      refine .pure ?_
      simpa using hfirst
    | true =>
      have hsecond : Bears [.otherwise] "<template lwc:else>".toList :=
        Bears.mark .otherwise (c := "template lwc:else>".toList) (t := []) rfl
          (by decide) (by simp)
      refine .bind_any fun _ => .pure ?_
      exact hfirst.append (Bears.literal_append (a := ['\n']) (by decide)
        (bears_templateBlock hi hsecond he))

theorem bears_iterationFrame (hi : s.indent.all isBlank = true)
    (h : OpenNothing [converted (attrs.get "items".toList), itemVariable attrs,
      attrs.get "indexVar".toList]) (hcontent : content.Always (Bears ms)) :
    (iterationFrame s attrs content).Always
      (Bears (.iteration :: (ms ++ [.endTag templateName]))) := by
  simp only [OpenNothing, List.forall_mem_cons] at h
  obtain ⟨hitems, hvar, hindex, -⟩ := h
  have hopening (u : Text) (hu : '<' ∉ u) : Bears [.iteration] ("<template for:each=".toList
      ++ inBraces (unbrace u) ++ " for:item=\"".toList ++ itemVariable attrs ++ ['"']
      ++ (if (attrs.get "indexVar".toList).isEmpty then []
        else " for:index=\"".toList ++ attrs.get "indexVar".toList ++ ['"']) ++ ['>']) := by
    have hrest : '<' ∉ inBraces (unbrace u) ++ (" for:item=\"".toList ++ (itemVariable attrs ++ (['"']
        ++ ((if (attrs.get "indexVar".toList).isEmpty then []
          else " for:index=\"".toList ++ attrs.get "indexVar".toList ++ ['"']) ++ ['>'])))) := by
      have hbraced := lt_notMem_inBraces fun hmem => hu (mem_unbrace hmem)
      have hitem : '<' ∉ " for:item=\"".toList := by decide
      have hname : '<' ∉ " for:index=\"".toList := by decide
      simp only [List.mem_append, not_or]
      refine ⟨hbraced, hitem, hvar, by decide, ?_, by decide⟩
      split
      · simp
      · simp only [List.mem_append, not_or]
        exact ⟨⟨hname, hindex⟩, by decide⟩
    simp only [List.append_assoc] at hrest ⊢
    exact Bears.mark .iteration (c := "template for:each=".toList) rfl (by decide) hrest
  unfold iterationFrame
  refine .ite (.bind_any fun _ => ?_) ?_
  all_goals
    refine .bind (always_convert_notMem hitems) fun u hu => .bind_any fun _ => ?_
    exact .bind hcontent fun body hbody => .pure (bears_templateBlock hi (hopening u hu) hbody)

theorem bears_slotFrame (hi : s.indent.all isBlank = true)
    (h : '<' ∉ facetName attrs.trimmed) (hcontent : content.Always (Bears ms)) :
    (slotFrame s attrs content).Always (Bears (slotMarks (facetName attrs.trimmed) ms)) := by
  have hopening : Bears [.slot] ("<div slot=\"".toList ++ facetName attrs.trimmed ++ "\">".toList) := by
    have hclosing : '<' ∉ "\">".toList := by decide
    rw [List.append_assoc]
    exact Bears.mark .slot (c := "div slot=\"".toList) rfl (by decide)
      (by rw [List.mem_append, not_or]; exact ⟨h, hclosing⟩)
  have hclosing : Bears [.endTag divTag] "</div>".toList := bears_endTag (by decide)
  have hblock (body : Text) (hbody : Bears ms body) : Bears (.slot :: (ms ++ [.endTag divTag]))
      (block s.indent ("<div slot=\"".toList ++ facetName attrs.trimmed ++ "\">".toList) body
        "</div>".toList) :=
    .block hi hopening hbody hclosing
  have hnote : '<' ∉ "TODO: Convert aura:set to slot content".toList := by decide
  unfold slotFrame slotMarks
  refine .bind hcontent fun body hbody => .bind_any fun _ => ?_
  dsimp only
  split
  · refine .bind_any fun _ => .pure ?_
    exact ((bears_comment hi hnote).append
      (Bears.literal_append (a := ['\n']) (by decide) hbody)).stripLineEnds
  · exact .ite (.bind_any fun _ => .pure (hblock body hbody)) (.pure (hblock body hbody))

theorem bears_rawHtmlFrame (hi : s.indent.all isBlank = true) (h : '<' ∉ rawTag attrs)
    (hcontent : content.Always (Bears ms)) :
    (rawHtmlFrame s attrs content).Always (Bears (rawMarks attrs ms)) := by
  have hopening : Bears [.startTag (rawTag attrs) false] ('<' :: (rawTag attrs ++ ['>'])) := by
    have htag := bears_startTag false h List.not_mem_nil rfl
    rwa [List.append_nil] at htag
  have hpassed (body : Text)
      (hcount : body.count '<' = (converted (attrs.get "body".toList)).count '<') :
      Bears (List.replicate ((converted (attrs.get "body".toList)).count '<') .passed) body :=
    hcount ▸ Bears.passed body
  have hinline (body : Text)
      (hcount : body.count '<' = (converted (attrs.get "body".toList)).count '<') :
      Bears (rawMarks attrs []) (inlineElement s.indent (rawTag attrs) body) := by
    have heq : inlineElement s.indent (rawTag attrs) body = s.indent
        ++ (('<' :: (rawTag attrs ++ ['>'])) ++ (body ++ '<' :: '/' :: (rawTag attrs ++ ['>']))) := by
      simp [inlineElement]
    rw [heq, rawMarks, elementMarks, List.append_nil]
    exact (hopening.append ((hpassed body hcount).append (bears_endTag h))).literal_append
      (lt_notMem_of_blank hi)
  have hblock (body children : Text) (hchildren : Bears ms children)
      (hcount : body.count '<' = (converted (attrs.get "body".toList)).count '<') :
      Bears (rawMarks attrs ms) (block s.indent ('<' :: (rawTag attrs ++ ['>']))
        ((if isAllBlank body then [] else textLines body (deeper s.indent) ++ ['\n']) ++ children)
        ('<' :: '/' :: (rawTag attrs ++ ['>']))) := by
    refine .block hi hopening (.append ?_ hchildren) (bears_endTag h)
    split
    · rename_i hblank
      have hnone := lt_notMem_of_blank hblank
      rw [← hcount, List.count_eq_zero.2 hnone]
      exact .nil
    · refine Bears.append_literal (hpassed _ ?_) (by decide)
      rw [count_lt_textLines (blank_deeper hi), hcount]
  unfold rawHtmlFrame
  refine .ite (.bind_any fun _ => ?_) ?_
  all_goals
    refine .bind (always_convert _) fun body hbody => .bind_any fun _ => ?_
    refine .bind hcontent fun children hchildren => ?_
    split
    · rename_i hempty
      rw [List.isEmpty_iff.1 hempty] at hchildren
      rw [hchildren.eq_nil]
      exact .pure (hinline body hbody.1)
    · exact .pure (hblock body children hchildren hbody.1)

/-- A node bears its marks, and so do its children as they stand in an else facet. -/
structure BearsMarks (n : Node) : Prop where
  node : ∀ s, Sound s → ∀ handed : Attributes, (∀ a ∈ handed, a.1 = keyName) →
    OpenNothing (bareStrings handed n) →
    (renderNode s handed n).Always (Bears (marks s.mapping handed n))
  below : ∀ s, Sound s → OpenNothing (bareStringsIn [] n.children) →
    (renderAll s n.children).Always (Bears (marksIn s.mapping [] n.children))

variable {ns nodes : List Node}

theorem bears_renderRows {ps : List (Attributes × Node)} (ih : ∀ p ∈ ps, BearsMarks p.2)
    (hs : Sound s) (hhanded : ∀ p ∈ ps, ∀ a ∈ p.1, a.1 = keyName)
    (h : ∀ p ∈ ps, OpenNothing (bareStrings p.1 p.2)) :
    (renderRows s ps).Always (Bears (ps.flatMap fun p => marks s.mapping p.1 p.2)) :=
  always_renderRows (P := fun p => Bears (marks s.mapping p.1 p.2))
    (Q := fun ps => Bears (ps.flatMap fun p : Attributes × Node => marks s.mapping p.1 p.2)) .nil
    (fun hfirst hrest => hfirst.line.append hrest) fun p hp =>
      (ih p hp).node s hs p.1 (hhanded p hp) (h p hp)

theorem bears_siblings (ih : ∀ n ∈ ns, BearsMarks n) (hs : Sound s)
    (h : ∀ n ∈ ns, OpenNothing (bareStrings [] n)) :
    (renderAll s ns).Always (Bears (ns.flatMap (marks s.mapping []))) := by
  have hmarks : ns.flatMap (marks s.mapping []) =
      (handedOut [] ns).flatMap fun p => marks s.mapping p.1 p.2 := by
    rw [handedOut_nil, List.flatMap_map]
  rw [renderAll_eq_rows, hmarks, handedOut_nil]
  exact bears_renderRows (List.forall_mem_map.2 ih) hs
    (List.forall_mem_map.2 fun _ _ => List.forall_mem_nil _) (List.forall_mem_map.2 h)

theorem bears_renderAll (ih : ∀ n ∈ ns, BearsMarks n) (hs : Sound s)
    (h : OpenNothing (bareStringsIn [] ns)) :
    (renderAll s ns).Always (Bears (marksIn s.mapping [] ns)) := by
  rw [marksIn_eq, handedOut_nil, List.flatMap_map]
  exact bears_siblings ih hs fun _ hn => h.of_mem (mem_handedOut_nil hn)

theorem bears_renderMain (ih : ∀ n ∈ ns, BearsMarks n) (hs : Sound s)
    (h : OpenNothing (bareStringsIn [] ns)) :
    (renderMain s ns).Always (Bears (marksMain s.mapping ns)) := by
  rw [renderMain_eq, marksMain_eq]
  exact bears_siblings (fun n hn => ih n (List.mem_filter.1 hn).1) hs fun n hn =>
    h.of_mem (mem_handedOut_nil (List.mem_filter.1 hn).1)

theorem openNothing_below {n : Node} (hother : n.isOtherBranch = true)
    (h : OpenNothing (bareStrings [] n)) : OpenNothing (bareStringsIn [] n.children) := by
  cases n with
  | text content => simp [isOtherBranch, Node.directive] at hother
  | element tag attrs nodes =>
    have hd : Directive.ofTag tag = .slot := directive_of_isOtherBranch hother
    simp only [bareStrings, hd, Directive.isSilent, handedBy, Bool.false_eq_true, if_false,
      openNothing_append] at h
    exact h.2

theorem bears_renderElse (ih : ∀ n ∈ ns, BearsMarks n) (hs : Sound s)
    (h : OpenNothing (bareStringsIn [] ns)) :
    (renderElse s ns).Always (Bears (marksElse s.mapping ns)) := by
  rw [renderElse_eq_joined, marksElse_eq]
  refine Always.joined (P := fun n : Node => Bears (marksIn s.mapping [] n.children))
    (Q := fun ns => Bears (ns.flatMap fun n : Node => marksIn s.mapping [] n.children)) .nil .append
    fun n hn => ?_
  obtain ⟨hmem, hother⟩ := List.mem_filter.1 hn
  exact (ih n hmem).below s hs (openNothing_below hother (h.of_mem (mem_handedOut_nil hmem)))

theorem bears_renderIteration (ih : ∀ n ∈ ns, BearsMarks n) (hs : Sound s)
    (h : OpenNothing (bareStringsIn (handedBy .iteration attrs ns) ns)) :
    (renderIteration s (itemVariable attrs) ns).Always
      (Bears (marksIn s.mapping (handedBy .iteration attrs ns) ns)) := by
  rw [renderIteration_eq_rows, marksIn_eq]
  exact .bind_any fun _ => bears_renderRows (fun p hp => ih p.2 (mem_of_mem_handedOut hp)) hs
    (fun p hp a ha => by rw [key_of_mem_handedBy (subset_of_mem_handedOut hp ha)])
    fun p hp => h.of_mem hp

theorem bears_plainElement (ih : ∀ n ∈ nodes, BearsMarks n) (hs : Sound s) {tag : Text}
    {handed : Attributes} (hhanded : ∀ a ∈ handed, a.1 = keyName)
    (h : OpenNothing (tag :: attrs.map (·.1)
      ++ ((attrs ++ handed).map writtenValue).filter isBraced))
    (hbelow : OpenNothing (bareStringsIn [] nodes)) :
    (plainFrame s tag (attrs ++ handed) (nodes.any Node.isSolid)
      (renderAll (s.inside (s.mapping.templateTag tag)) nodes)).Always
      (Bears (elementMarks (s.mapping.templateTag tag).display (!(attrs ++ handed).isEmpty)
        (marksIn s.mapping [] nodes))) := by
  have hkey : '<' ∉ keyName := by decide
  obtain ⟨hwritten, hvalues⟩ := openNothing_append.1 h
  obtain ⟨htag, hnames⟩ := List.forall_mem_cons.1 hwritten
  refine bears_plainFrame hs htag ?_ ?_ (bears_renderAll ih (hs.inside _) hbelow)
    fun hsolid => marksIn_of_not_solid _ _ hsolid
  · intro a ha
    rcases List.mem_append.1 ha with ha | ha
    · exact hnames _ (List.mem_map_of_mem ha)
    · rw [hhanded a ha]
      exact hkey
  · exact fun a ha hbraced => hvalues _ (List.mem_filter.2 ⟨List.mem_map_of_mem ha, hbraced⟩)

/-- Nodes in whose bare strings no tag opens bear their marks. -/
theorem bearsMarks (n : Node) : BearsMarks n := by
  induction n using Node.induction with
  | text content =>
    refine ⟨fun s hs handed _ h => ?_, fun s _ _ => ?_⟩
    · rw [renderNode, marks]
      refine .bind (always_convert_notMem (h _ (by simp [bareStrings]))) fun u hu => .pure (.literal ?_)
      rw [← List.count_eq_zero, count_lt_textLines hs.indent, List.count_eq_zero]
      exact hu
    · rw [Node.children, renderAll, marksIn]
      exact .pure .nil
  | element tag attrs nodes ih =>
    refine ⟨fun s hs handed hhanded h => ?_, fun s hs h => bears_renderAll ih hs h⟩
    rw [bareStrings] at h
    rw [renderNode, marks]
    generalize Directive.ofTag tag = d at h
    cases d <;> simp only [Directive.isSilent, Bool.false_eq_true, ite_true, ite_false,
      openNothing_append] at h
    case messageChannel => exact .bind_any fun _ => .bind_any fun _ => .pure .nil
    case recordData => exact .bind_any fun _ => .bind_any fun _ => .pure .nil
    case metadata => exact .pure .nil
    case conditional =>
      exact bears_conditionalFrame hs.indent h.1 (bears_renderElse ih hs.inner h.2)
        (bears_renderMain ih hs.inner h.2)
    case iteration =>
      exact bears_iterationFrame hs.indent h.1 (bears_renderIteration ih hs.inner h.2)
    case slot =>
      exact bears_slotFrame hs.indent (h.1 _ (by simp [ownBareStrings]))
        (bears_renderAll ih hs.inner h.2)
    case rawHtml =>
      exact bears_rawHtmlFrame hs.indent (h.1 _ (by simp [ownBareStrings]))
        (bears_renderAll ih hs.inner h.2)
    case text => exact bears_plainElement ih hs hhanded h.1 h.2
    case element => exact bears_plainElement ih hs hhanded h.1 h.2

end Render

open Node Render Template

def Node.templateMarks (m : Mapping) (nodes : List Node) : List Mark :=
  elementMarks templateName false (marksIn m [] nodes)

theorem bears_template {m : Mapping} (hm : m.KeepsNames) {nodes : List Node}
    (h : OpenNothing (bareStringsIn [] nodes)) :
    Bears (templateMarks m nodes) (Conversion.ofNodes m nodes).template := by
  have hsound : Sound ⟨m, .null, Template.step⟩ := ⟨hm, (by decide : Template.step.all isBlank = true)⟩
  have hbody := bears_renderAll (fun n _ => bearsMarks n) hsound h 0
  have hopening : Bears [.startTag templateName false] "<template>\n".toList :=
    Bears.mark (.startTag templateName false) (c := "template>".toList) (t := ['\n']) rfl
      (by decide) (by decide)
  have hdocument := (hopening.append hbody).append bears_templateClose
  rw [List.append_assoc] at hdocument
  rw [Conversion.template_ofNodes]
  exact hdocument

/-- With the built-in tables, where no tag opens in the strings that are written unescaped,
the characters that open tags in the template are, one after the other, the starts of the
tags and comments that are written for the nodes, and what the bodies of raw elements pass on. -/
theorem openings_are_marks (nodes : List Node) (h : OpenNothing (bareStringsIn [] nodes)) (c : Conversion)
    (hc : (Conversion.convert .builtIn nodes).outcome = .ok c) :
    Bears (templateMarks .builtIn nodes) c.template := by
  obtain rfl := Conversion.eq_ofNodes_of_convert hc
  exact bears_template Mapping.builtIn_keepsNames h

/-- A comparison that is hoisted, a value that is escaped, every frame, and markup in a raw body. -/
def markedSample : List Node :=
  let element (tag : String) (attrs : List (String × String)) (nodes : List Node) : Node :=
    .element tag.toList (attrs.map fun a => (a.1.toList, a.2.toList)) nodes
  [element "aura:if" [("isTrue", "{!v.a < v.b}")]
      [element "p" [("title", "a < b")] [.text "{!v.a < v.b}".toList],
        element "aura:set" [("attribute", "else")] [element "aura:if" [] []]],
    element "aura:iteration" [("items", "{!v.rows}")] [element "lightning:card" []
      [element "aura:set" [("attribute", "actions")] []]],
    element "aura:html" [("tag", "p"), ("body", "<b>x</b>")] []]

theorem openings_are_marks_sample :
    ∃ c, (Conversion.convert .builtIn markedSample).outcome = .ok c ∧
      OpenNothing (bareStringsIn [] markedSample) ∧
      Bears (templateMarks .builtIn markedSample) c.template := by
  have hc : (Conversion.convert .builtIn markedSample).outcome = .ok (.ofNodes .builtIn markedSample) :=
    Conversion.convert_ok (by decide +kernel)
  have hbare : OpenNothing (bareStringsIn [] markedSample) := by decide +kernel
  exact ⟨_, hc, hbare, openings_are_marks markedSample hbare _ hc⟩

/-- No tag opens in a tag or a name of an attribute, and the body has the template, in which
more tags open than are written for the nodes. -/
def opensMore (nodes : List Node) (template : Text) : Bool :=
  match (Conversion.convert .builtIn nodes).outcome with
  | .ok c => (elementsIn nodes).all (fun e => e.tag?.all (!·.contains '<')
        && e.attributes.all fun a => !a.1.contains '<')
      && c.template == template
      && decide (((templateMarks .builtIn nodes).filter (· != .passed)).length < template.count '<')
  | .error _ => false

/-- Bodies whose texts or values open tags in the template. -/
def openSamples : List (List Node × Text) :=
  let element (tag : String) (attrs : List (String × String)) : Node :=
    .element tag.toList (attrs.map fun a => (a.1.toList, a.2.toList)) []
  let template (inside : String) : Text := ("<template>\n    " ++ inside ++ "\n</template>").toList
  -- the body of a raw element, which is meant to be markup
  [([element "aura:html" [("tag", "p"), ("body", "<b>x</b>")]], template "<p><b>x</b></p>"),
    -- what is written without quotes or without escaping
    ([.text "a < b".toList], template "a < b"),
    ([element "p" [("title", "\x7ba < b\x7d")]], template "<p title=\x7ba < b\x7d></p>"),
    ([element "aura:set" [("attribute", "<x>")]], template "<div slot=\"<x>\">\n    </div>"),
    ([element "aura:if" [("isTrue", "a < b")]], template
      "<template lwc:if=\x7ba < b\x7d>\n    </template>"),
    ([element "aura:iteration" [("items", "{!v.x}"), ("var", "<i>")]], template
      "<template for:each=\x7bx\x7d for:item=\"<i>\">\n    </template>"),
    ([element "aura:html" [("tag", "a<b"), ("body", "x")]], template "<a<b>x</a<b>")]

theorem openSamples_open_more : (openSamples.all fun s => opensMore s.1 s.2) = true := by
  decide +kernel

end LightningTemplate
