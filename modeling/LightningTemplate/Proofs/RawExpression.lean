import LightningTemplate.Mapping.BuiltIn
import LightningTemplate.Proofs.Siblings
import LightningTemplate.Proofs.StoreWalk
import LightningTemplate.Proofs.Substituted

/-! No expression is left in a template.  What is converted leaves no opening but those
of negations, and a conditional adds those of its negated guard.  The rest of a template
is written as it stands in the source, so no expression may stand there. -/
namespace LightningTemplate
open Text Expression Walk

namespace Template
variable {accepted : Text → Prop} {indent a b : Text}

theorem brace_notMem_of_blank (h : indent.all isBlank = true) : '{' ∉ indent := fun hmem =>
  absurd (List.all_eq_true.1 h _ hmem) (by decide)

/-- The text is clear, and stays so in front of any other clear text. -/
def Joins (accepted : Text → Prop) (t : Text) : Prop :=
  ∀ b, Clear accepted b → Clear accepted (t ++ b)

theorem Joins.clear (h : Joins accepted a) : Clear accepted a := by
  simpa using h [] .nil

theorem joins_nil : Joins accepted [] := fun _ hb => hb

theorem Joins.append (ha : Joins accepted a) (hb : Joins accepted b) : Joins accepted (a ++ b) := by
  intro c hc
  rw [List.append_assoc]
  exact ha _ (hb c hc)

theorem joins_line (ha : Clear accepted a) : Joins accepted (Render.line a) := by
  intro b hb
  unfold Render.line
  split
  · exact hb
  · rw [List.append_assoc]
    exact ha.append_cons rfl ((Clear.cons_of_ne (by decide)).2 hb)

theorem clear_stripLineEnds (ha : Clear accepted a) : Clear accepted (Render.stripLineEnds a) := by
  obtain ⟨after, heq, hafter⟩ := exists_stripRight (· == '\n') a
  rw [heq] at ha
  refine ha.left_of_notMem fun hmem => ?_
  exact absurd (List.all_eq_true.1 hafter _ hmem) (by decide)

theorem isSign_of_isBlank {c : Char} (h : isBlank c = true) : isSign c = false := by
  rw [← Bool.not_eq_true]
  intro hs
  simp only [isSign, Bool.or_eq_true, beq_iff_eq] at hs
  rcases hs with rfl | rfl
  · exact absurd h (by decide)
  · exact absurd h (by decide)

theorem clear_block {opening content closing : Text} (hi : indent.all isBlank = true)
    (ho : Clear accepted opening) (hb : Clear accepted content) (hcl : Clear accepted closing)
    (hhead : ∀ s, closing.head? = some s → isSign s = false) :
    Clear accepted (block indent opening content closing) := by
  have hindent := brace_notMem_of_blank hi
  have hend : Clear accepted (content ++ (indent ++ closing)) := by
    refine hb.append ((Clear.literal_append hindent).2 hcl) fun s hs => ?_
    cases indent with
    | nil => exact hhead s hs
    | cons d ds =>
      obtain rfl : d = s := by simpa using hs
      exact isSign_of_isBlank (List.all_eq_true.1 hi d (by simp))
  simp only [block, List.append_assoc, List.cons_append]
  exact (Clear.literal_append hindent).2 (ho.append_cons rfl ((Clear.cons_of_ne (by decide)).2 hend))

def CanList (accepted : Text → Prop) (pairs : List (Text × Text)) : Prop :=
  ∀ p ∈ pairs, '{' ∉ p.1 ∧ Clear accepted p.2

theorem clear_attributeList (hneg : ∀ r, accepted r → IsNegation r) {pairs : List (Text × Text)}
    (h : CanList accepted pairs) : Clear accepted (attributeList pairs) := by
  induction pairs with
  | nil => exact .nil
  | cons p ps ih =>
    have hrest := ih fun q hq => h q (by simp [hq])
    have hp := h p (by simp)
    rw [attributeList, List.flatMap_cons, ← attributeList, List.cons_append]
    refine (Clear.cons_of_ne (by decide)).2 ((hp.2.attributeText hneg hp.1).append hrest ?_)
    cases ps with
    | nil => simp [attributeList]
    | cons q qs => exact unsigned_head rfl (by decide : isSign ' ' = false)

end Template

namespace Render

def rawTag (attrs : Attributes) : Text :=
  let given := attrs.trimmed "tag".toList
  if given.isEmpty || Expression.occurs given then divTag else given

end Render

namespace Node

def writtenNames (d : Directive) (tag : Text) (attrs : Attributes) : List Text :=
  match d with
  | .text | .element => tag :: attrs.map (·.1)
  | _ => []

def copiedValues (d : Directive) (attrs : Attributes) : List Text :=
  match d with
  | .slot => [facetName attrs.trimmed]
  | .iteration => [Render.itemVariable attrs, attrs.get "indexVar".toList]
  | .rawHtml => [Render.rawTag attrs]
  | .text | .element => (attrs.filter fun a => a.1 == auraId).map (·.2)
  | _ => []

def bracedValues (d : Directive) (attrs : Attributes) : List Text :=
  match d with
  | .conditional =>
    if !isAllBlank (attrs.get "isTrue".toList) then [attrs.get "isTrue".toList] else []
  | .iteration => [attrs.get "items".toList]
  | _ => []

def negatedConditions (d : Directive) (attrs : Attributes) : List Text :=
  match d with
  | .conditional =>
    if isAllBlank (attrs.get "isTrue".toList) && !isAllBlank (attrs.get "isFalse".toList) then
      [attrs.get "isFalse".toList]
    else []
  | _ => []

def writesNoOpening : Node → Bool
  | .text _ => true
  | .element tag attrs _ =>
    (writtenNames (.ofTag tag) tag attrs).all (!·.contains '{')
      && (copiedValues (.ofTag tag) attrs).all (!hasOpening ·)
      && (bracedValues (.ofTag tag) attrs).all (!leadsWithSign ·)

/-- The braced text is the guard that negates one of the conditions. -/
def IsNegatedGuard (elements : List Node) (r : Text) : Prop :=
  ∃ e ∈ elements, ∃ v ∈ negatedConditions e.directive e.attributes, ∃ count,
    r = '!' :: unbrace (substitute count v).text

end Node

namespace Render
open Node Template

variable {accepted negated : Text → Prop} {s : Surroundings} {attrs : Attributes}
  {content otherwise main : Walk Text}

def Converts (negated : Text → Prop) (t : Text) : Prop :=
  ∀ count, Clear negated (substitute count t).text

theorem always_bindAttributes {tag : Text} (hm : s.mapping.KeepsNames)
    (hnames : ∀ a ∈ attrs, '{' ∉ a.1)
    (hvalues : ∀ a ∈ attrs, if a.1 = auraId then Clear negated a.2 else Converts negated a.2) :
    (bindAttributes tag (s.mapping.component? tag) attrs).Always (CanList negated) := by
  induction attrs with
  | nil => exact .pure (by simp [CanList])
  | cons a attrs ih =>
    have hname : '{' ∉ attributeName (s.mapping.component? tag) a.1 := by
      intro hmem
      rcases (hm.attributes tag a.1).chars _ hmem with h | h
      · exact hnames a (by simp) h
      · exact absurd h (by decide)
    have hfirst : (bindAttribute tag (s.mapping.component? tag) a).Always fun p =>
        '{' ∉ p.1 ∧ Clear negated p.2 := by
      have hvalue := hvalues a (by simp)
      unfold bindAttribute
      split
      · rename_i hid
        rw [if_pos hid] at hvalue
        exact .pure ⟨hname, hvalue⟩
      · rename_i hid
        rw [if_neg hid] at hvalue
        refine .bind (P := Clear negated) hvalue fun value hclear => ?_
        split
        · exact .bind_any fun _ => .pure ⟨hname, hclear⟩
        · exact .pure ⟨hname, hclear⟩
    refine .bind hfirst fun p hp => ?_
    refine .bind (ih (fun b hb => hnames b (by simp [hb])) fun b hb => hvalues b (by simp [hb]))
      fun ps hps => .pure ?_
    rw [CanList, List.forall_mem_cons]
    exact ⟨hp, hps⟩

theorem always_plainFrame (hm : s.mapping.KeepsNames) (hi : s.indent.all isBlank = true)
    (hneg : ∀ r, negated r → IsNegation r) (hsub : ∀ r, negated r → accepted r) {tag : Text}
    (htag : '{' ∉ tag) (hnames : ∀ a ∈ attrs, '{' ∉ a.1)
    (hvalues : ∀ a ∈ attrs, if a.1 = auraId then Clear negated a.2 else Converts negated a.2)
    (solid : Bool) (hcontent : content.Always (Joins accepted)) :
    (plainFrame s tag attrs solid content).Always (Clear accepted) := by
  have hname : '{' ∉ (s.mapping.templateTag tag).display := by
    obtain ⟨t, ht, hr⟩ := hm.tags tag
    rw [ht]
    intro hmem
    rcases hr.chars _ hmem with h | h
    · exact htag h
    · exact absurd h (by decide)
  have hindent := brace_notMem_of_blank hi
  refine .bind_any fun _ => .bind (always_bindAttributes hm hnames hvalues) fun pairs hpairs => ?_
  have hlist : Clear accepted (attributeList pairs) := (clear_attributeList hneg hpairs).mono hsub
  simp only
  generalize (s.mapping.templateTag tag).display = name at hname
  split
  · refine .bind hcontent fun body hbody => .pure (clear_block hi ?_ hbody.clear ?_ ?_)
    · rw [Clear.cons_of_ne (by decide), List.append_assoc, Clear.literal_append hname]
      exact hlist.append_cons rfl (.literal (by decide))
    · exact .literal (by simp [hname])
    · exact unsigned_head rfl (by decide : isSign '<' = false)
  · have hclosing : Clear accepted ("></".toList ++ name ++ ['>']) := .literal (by simp [hname])
    refine .pure ?_
    simp only [emptyElement, List.append_assoc, List.cons_append] at hclosing ⊢
    rw [Clear.literal_append hindent, Clear.cons_of_ne (by decide), Clear.literal_append hname]
    exact hlist.append hclosing (unsigned_head rfl (by decide : isSign '>' = false))

theorem always_guardOf (hsub : ∀ r, negated r → accepted r)
    (hstrings : ∀ t ∈ ownStrings .conditional attrs [], Converts negated t)
    (hbraced : ∀ t ∈ bracedValues .conditional attrs, leadsWithSign t = false)
    (hguard : ∀ t ∈ negatedConditions .conditional attrs, ∀ count,
      accepted ('!' :: unbrace (substitute count t).text)) :
    (guardOf attrs).Always fun g => ∀ t, g = some t → CanGuard accepted t := by
  unfold guardOf
  simp only [ownStrings, bracedValues, negatedConditions] at hstrings hbraced hguard
  split
  · rename_i htrue
    rw [if_pos htrue] at hstrings hbraced
    intro count t ht
    obtain rfl := Option.some.inj ht
    exact ((hstrings _ (by simp) count).mono hsub).guard fun c hc =>
      head_strip_substitute (hbraced _ (by simp)) count hc
  · rename_i htrue
    rw [if_neg htrue] at hstrings
    split
    · rename_i hfalse
      rw [if_pos hfalse] at hstrings
      rw [if_pos (by simpa using And.intro (by simpa using htrue) (by simpa using hfalse))] at hguard
      intro count t ht
      obtain rfl := Option.some.inj ht
      exact ((hstrings _ (by simp) count).mono hsub).negatedGuard (hguard _ (by simp) count)
    · exact .pure (by simp)

theorem clear_templateBlock {opening body : Text} (hi : s.indent.all isBlank = true)
    (ho : Clear accepted opening) (hb : Clear accepted body) :
    Clear accepted (block s.indent opening body templateClose) :=
  clear_block hi ho hb (.literal (by decide))
    (unsigned_head rfl (by decide : isSign '<' = false))

theorem clear_comment {note : Text} (hi : s.indent.all isBlank = true) (hnote : '{' ∉ note) :
    '{' ∉ comment s.indent note := by
  have hopening : '{' ∉ "<!-- ".toList := by simp
  have hclosing : '{' ∉ " -->".toList := by simp
  simp only [comment, List.mem_append, not_or]
  exact ⟨⟨⟨brace_notMem_of_blank hi, hopening⟩, hnote⟩, hclosing⟩

theorem always_conditionalFrame (hi : s.indent.all isBlank = true)
    (hguard : (guardOf attrs).Always fun g => ∀ t, g = some t → CanGuard accepted t)
    (hasElse : Bool) (hotherwise : otherwise.Always (Joins accepted))
    (hmain : main.Always (Joins accepted)) :
    (conditionalFrame s attrs hasElse otherwise main).Always (Clear accepted) := by
  refine .bind hguard fun g hg => .bind hotherwise fun elseText he => .bind hmain fun mainText hm => ?_
  cases g with
  | none =>
    refine .bind_any fun _ => .pure (clear_stripLineEnds ?_)
    have hnote : '{' ∉ "TODO: Convert aura:if without a condition".toList := by simp
    refine (Clear.literal_append (clear_comment hi hnote)).2 ?_
    exact (Clear.cons_of_ne (by decide)).2 (hm.append he).clear
  | some t =>
    have hopening : Clear accepted
        ("<template lwc:if=".toList ++ inBraces t ++ ['>']) := by
      rw [List.append_assoc, Clear.literal_append (by simp)]
      exact hg t rfl _ (.literal (by decide)) (unsigned_head rfl (by decide : isSign '>' = false))
    have hfirst := clear_templateBlock hi hopening hm.clear
    refine .bind_any fun _ => ?_
    split
    · refine .bind_any fun _ => .pure (hfirst.append_cons rfl ((Clear.cons_of_ne (by decide)).2 ?_))
      exact clear_templateBlock hi (.literal (by simp)) he.clear
    · exact .pure hfirst

theorem always_iterationFrame (hi : s.indent.all isBlank = true)
    (hsub : ∀ r, negated r → accepted r)
    (hstrings : Converts negated (attrs.get "items".toList))
    (hbraced : leadsWithSign (attrs.get "items".toList) = false)
    (hcopied : ∀ t ∈ copiedValues .iteration attrs, hasOpening t = false)
    (hcontent : content.Always (Joins accepted)) :
    (iterationFrame s attrs content).Always (Clear accepted) := by
  have hquoted : ∀ t : Text, hasOpening t = false → ∀ b, Clear accepted b →
      Clear accepted (t ++ '"' :: b) := fun t ht b hb =>
    (Clear.of_hasOpening ht).append_cons rfl ((Clear.cons_of_ne (by decide)).2 hb)
  have hvar : hasOpening (itemVariable attrs) = false := hcopied _ (by simp [copiedValues])
  have hindex : hasOpening (attrs.get "indexVar".toList) = false := hcopied _ (by simp [copiedValues])
  have hrest : Clear accepted
      ((if (attrs.get "indexVar".toList).isEmpty then []
        else " for:index=\"".toList ++ attrs.get "indexVar".toList ++ ['"']) ++ ['>']) := by
    split
    · exact .literal (by decide)
    · rw [List.append_assoc, List.append_assoc, Clear.literal_append (by simp)]
      exact hquoted _ hindex _ (.literal (by decide))
  have htag : ∀ count, Clear accepted ("<template for:each=".toList
      ++ inBraces (unbrace (substitute count (attrs.get "items".toList)).text)
      ++ " for:item=\"".toList ++ itemVariable attrs ++ ['"']
      ++ (if (attrs.get "indexVar".toList).isEmpty then []
        else " for:index=\"".toList ++ attrs.get "indexVar".toList ++ ['"']) ++ ['>']) := by
    intro count
    have hitems := ((hstrings count).mono hsub).guard fun c hc =>
      head_strip_substitute hbraced count hc
    simp only [List.append_assoc] at hrest ⊢
    rw [Clear.literal_append (by simp)]
    refine hitems _ ?_ (unsigned_head rfl (by decide : isSign ' ' = false))
    rw [Clear.literal_append (by simp)]
    exact hquoted _ hvar _ hrest
  unfold iterationFrame
  refine .ite (.bind_any fun _ => ?_) ?_
  all_goals
    refine .bind (P := fun t => ∃ count, t = (substitute count (attrs.get "items".toList)).text)
      (fun count => ⟨count, rfl⟩) fun converted hconverted => .bind_any fun _ => ?_
    obtain ⟨count, rfl⟩ := hconverted
    exact .bind hcontent fun body hbody => .pure (clear_templateBlock hi (htag count) hbody.clear)

theorem always_slotFrame (hi : s.indent.all isBlank = true)
    (hcopied : ∀ t ∈ copiedValues .slot attrs, hasOpening t = false)
    (hcontent : content.Always (Joins accepted)) :
    (slotFrame s attrs content).Always (Clear accepted) := by
  have hopening : Clear accepted
      ("<div slot=\"".toList ++ facetName attrs.trimmed ++ "\">".toList) := by
    rw [List.append_assoc, Clear.literal_append (by simp)]
    exact (Clear.of_hasOpening (hcopied _ (by simp [copiedValues]))).append
      (.literal (by simp)) (unsigned_head rfl (by decide : isSign '"' = false))
  unfold slotFrame
  refine .bind hcontent fun body hbody => .bind_any fun _ => ?_
  have hslot : Clear accepted (block s.indent
      ("<div slot=\"".toList ++ facetName attrs.trimmed ++ "\">".toList) body "</div>".toList) :=
    clear_block hi hopening hbody.clear (.literal (by simp))
      (unsigned_head rfl (by decide : isSign '<' = false))
  refine .ite (.bind_any fun _ => .pure (clear_stripLineEnds ?_)) ?_
  · have hnote : '{' ∉ "TODO: Convert aura:set to slot content".toList := by simp
    refine (Clear.literal_append (clear_comment hi hnote)).2 ?_
    exact (Clear.cons_of_ne (by decide)).2 hbody.clear
  · exact .ite (.bind_any fun _ => .pure hslot) (.pure hslot)

theorem always_rawHtmlFrame (hi : s.indent.all isBlank = true)
    (hneg : ∀ r, negated r → IsNegation r) (hsub : ∀ r, negated r → accepted r)
    (hstrings : Converts negated (attrs.get "body".toList))
    (hcopied : ∀ t ∈ copiedValues .rawHtml attrs, hasOpening t = false)
    (hcontent : content.Always (Joins accepted)) :
    (rawHtmlFrame s attrs content).Always (Clear accepted) := by
  have hraw : ∀ b, Clear accepted b → Clear accepted (rawTag attrs ++ '>' :: b) := fun b hb =>
    (Clear.of_hasOpening (hcopied _ (by simp [copiedValues]))).append_cons rfl
      ((Clear.cons_of_ne (by decide)).2 hb)
  have hclosing : Clear accepted ('<' :: '/' :: (rawTag attrs ++ ['>'])) := by
    rw [Clear.cons_of_ne (by decide), Clear.cons_of_ne (by decide)]
    exact hraw [] .nil
  have hinline : ∀ body, Clear accepted body →
      Clear accepted (inlineElement s.indent (rawTag attrs) body) := by
    intro body hbody
    have heq : inlineElement s.indent (rawTag attrs) body =
        s.indent ++ '<' :: (rawTag attrs ++ '>' :: (body ++ '<' :: '/' :: (rawTag attrs ++ ['>']))) := by
      simp [inlineElement]
    rw [heq, Clear.literal_append (brace_notMem_of_blank hi), Clear.cons_of_ne (by decide)]
    exact hraw _ (hbody.append_cons rfl hclosing)
  have hblock : ∀ body children, Clear negated body → Clear accepted children →
      Clear accepted (block s.indent ('<' :: (rawTag attrs ++ ['>']))
        ((if isAllBlank body then [] else textLines body (deeper s.indent) ++ ['\n']) ++ children)
        ('<' :: '/' :: (rawTag attrs ++ ['>']))) := by
    intro body children hbody hchildren
    refine clear_block hi ((Clear.cons_of_ne (by decide)).2 (hraw [] .nil)) ?_ hclosing
      (unsigned_head rfl (by decide : isSign '<' = false))
    split
    · exact hchildren
    · have hlines := (hbody.textLines hneg (brace_notMem_of_blank (blank_deeper hi))).mono hsub
      rw [List.append_assoc]
      exact hlines.append_cons rfl ((Clear.cons_of_ne (by decide)).2 hchildren)
  unfold rawHtmlFrame
  refine .ite (.bind_any fun _ => ?_) ?_
  all_goals
    refine .bind (P := Clear negated) hstrings fun body hbody => .bind_any fun _ => ?_
    refine .bind hcontent fun children hchildren => .ite (.pure ?_) (.pure ?_)
    · exact hinline body (hbody.mono hsub)
    · exact hblock body children hbody hchildren.clear

/-- The strings are converted to clear text, and the elements write no opening and have
their negated guards accepted. -/
structure Tidy (accepted negated : Text → Prop) (strings : List Text) (elements : List Node) :
    Prop where
  converts : ∀ t ∈ strings, Converts negated t
  writes : ∀ e ∈ elements, e.writesNoOpening = true
  guards : ∀ r, IsNegatedGuard elements r → accepted r

namespace Tidy
variable {ts us : List Text} {ds es : List Node}

theorem mono (h : Tidy accepted negated ts ds) (ht : us ⊆ ts) (he : es ⊆ ds) :
    Tidy accepted negated us es := by
  refine ⟨fun t hu => h.converts t (ht hu), fun e hd => h.writes e (he hd), fun r hr => ?_⟩
  obtain ⟨e, hd, hv⟩ := hr
  exact h.guards r ⟨e, he hd, hv⟩

/-- Each of the siblings is tidy with what it takes over. -/
theorem of_mem {handed : Attributes} {ns : List Node} {p : Attributes × Node}
    (h : Tidy accepted negated (stringsIn handed ns) (renderedElementsIn ns))
    (hp : p ∈ handedOut handed ns) :
    Tidy accepted negated (strings p.1 p.2) (renderedElements p.2) := by
  refine h.mono (fun t ht => ?_) fun e he => ?_
  · rw [stringsIn_eq]
    exact List.mem_flatMap.2 ⟨p, hp, ht⟩
  · exact mem_renderedElementsIn.2 ⟨p.2, mem_of_mem_handedOut hp, he⟩

/-- The strings of an element that is not silent are its own and those of its children. -/
theorem parts {tag : Text} {attrs handed : Attributes} {nodes : List Node}
    (h : Tidy accepted negated (strings handed (.element tag attrs nodes))
      (renderedElements (.element tag attrs nodes))) (hd : (Directive.ofTag tag).isSilent = false) :
    (∀ t ∈ ownStrings (.ofTag tag) attrs handed, Converts negated t) ∧
      Tidy accepted negated (stringsIn (handedBy (.ofTag tag) attrs nodes) nodes)
        (renderedElementsIn nodes) := by
  simp only [strings, renderedElements, hd, Bool.false_eq_true, if_false] at h
  exact ⟨fun t ht => h.converts t (List.mem_append_left _ ht),
    h.mono (List.subset_append_right ..) (List.subset_cons_self ..)⟩

end Tidy

/-- Surroundings in which names stay names and the indent is blank. -/
structure Sound (s : Surroundings) : Prop where
  names : s.mapping.KeepsNames
  indent : s.indent.all isBlank = true

theorem Sound.inner (h : Sound s) : Sound s.inner := ⟨h.names, blank_deeper h.indent⟩

theorem Sound.inside (h : Sound s) (tag : Value) : Sound (s.inside tag) := ⟨h.names, h.inner.indent⟩

/-- A tidy node gives clear text, and so do its children as they stand in an else facet. -/
structure Clears (accepted negated : Text → Prop) (n : Node) : Prop where
  node : ∀ s, Sound s → ∀ handed : Attributes, (∀ a ∈ handed, a.1 = keyName) →
    Tidy accepted negated (strings handed n) (renderedElements n) →
    (renderNode s handed n).Always (Clear accepted)
  below : ∀ s, Sound s →
    Tidy accepted negated (stringsIn [] n.children) (renderedElementsIn n.children) →
    (renderAll s n.children).Always (Joins accepted)

variable {ns nodes : List Node}

/-- Siblings that are tidy with what they take over. -/
theorem joins_renderRows {ps : List (Attributes × Node)} (ih : ∀ p ∈ ps, Clears accepted negated p.2)
    (hs : Sound s) (hhanded : ∀ p ∈ ps, ∀ a ∈ p.1, a.1 = keyName)
    (ht : ∀ p ∈ ps, Tidy accepted negated (strings p.1 p.2) (renderedElements p.2)) :
    (renderRows s ps).Always (Joins accepted) :=
  always_renderRows (P := fun _ => Clear accepted) (Q := fun _ => Joins accepted) joins_nil
    (fun hfirst hrest => (joins_line hfirst).append hrest) fun p hp =>
      (ih p hp).node s hs p.1 (hhanded p hp) (ht p hp)

theorem joins_siblings (ih : ∀ n ∈ ns, Clears accepted negated n) (hs : Sound s)
    (ht : ∀ n ∈ ns, Tidy accepted negated (strings [] n) (renderedElements n)) :
    (renderAll s ns).Always (Joins accepted) := by
  rw [renderAll_eq_rows, handedOut_nil]
  exact joins_renderRows (List.forall_mem_map.2 ih) hs
    (List.forall_mem_map.2 fun _ _ => List.forall_mem_nil _) (List.forall_mem_map.2 ht)

theorem joins_renderAll (ih : ∀ n ∈ ns, Clears accepted negated n) (hs : Sound s)
    (ht : Tidy accepted negated (stringsIn [] ns) (renderedElementsIn ns)) :
    (renderAll s ns).Always (Joins accepted) :=
  joins_siblings ih hs fun _ hn => ht.of_mem (mem_handedOut_nil hn)

theorem joins_renderMain (ih : ∀ n ∈ ns, Clears accepted negated n) (hs : Sound s)
    (ht : Tidy accepted negated (stringsIn [] ns) (renderedElementsIn ns)) :
    (renderMain s ns).Always (Joins accepted) := by
  rw [renderMain_eq]
  exact joins_siblings (fun n hn => ih n (List.mem_filter.1 hn).1) hs fun n hn =>
    ht.of_mem (mem_handedOut_nil (List.mem_filter.1 hn).1)

theorem tidy_below {n : Node} (h : n.isOtherBranch = true)
    (ht : Tidy accepted negated (strings [] n) (renderedElements n)) :
    Tidy accepted negated (stringsIn [] n.children) (renderedElementsIn n.children) := by
  cases n with
  | text content => simp [isOtherBranch, Node.directive] at h
  | element tag attrs nodes =>
    have hd : Directive.ofTag tag = .slot := directive_of_isOtherBranch h
    have hstrings : strings [] (.element tag attrs nodes) = stringsIn [] nodes := by
      simp [strings, hd, Directive.isSilent, ownStrings, handedBy]
    have helements : renderedElements (.element tag attrs nodes) =
        .element tag attrs nodes :: renderedElementsIn nodes := by
      simp [renderedElements, hd, Directive.isSilent]
    rw [hstrings, helements] at ht
    exact ht.mono (List.Subset.refl _) (List.subset_cons_self ..)

theorem joins_renderElse (ih : ∀ n ∈ ns, Clears accepted negated n) (hs : Sound s)
    (ht : Tidy accepted negated (stringsIn [] ns) (renderedElementsIn ns)) :
    (renderElse s ns).Always (Joins accepted) := by
  rw [renderElse_eq_joined]
  refine Always.joined (P := fun _ => Joins accepted) (Q := fun _ => Joins accepted) joins_nil
    .append fun n hn => ?_
  obtain ⟨hmem, hother⟩ := List.mem_filter.1 hn
  exact (ih n hmem).below s hs (tidy_below hother (ht.of_mem (mem_handedOut_nil hmem)))

theorem joins_renderIteration (ih : ∀ n ∈ ns, Clears accepted negated n) (hs : Sound s)
    (ht : Tidy accepted negated (stringsIn (handedBy .iteration attrs ns) ns)
      (renderedElementsIn ns)) :
    (renderIteration s (itemVariable attrs) ns).Always (Joins accepted) := by
  rw [renderIteration_eq_rows]
  exact .bind_any fun _ => joins_renderRows (fun p hp => ih p.2 (mem_of_mem_handedOut hp)) hs
    (fun p hp a ha => by rw [key_of_mem_handedBy (subset_of_mem_handedOut hp ha)])
    fun p hp => ht.of_mem hp

theorem always_plainElement (ih : ∀ n ∈ nodes, Clears accepted negated n)
    (hneg : ∀ r, negated r → IsNegation r) (hsub : ∀ r, negated r → accepted r)
    {d : Directive} (hd : d = .text ∨ d = .element) {tag : Text} {handed : Attributes}
    (hs : Sound s) (hhanded : ∀ a ∈ handed, a.1 = keyName)
    (hstrings : ∀ t ∈ ownStrings d attrs handed, Converts negated t)
    (ht : Tidy accepted negated (stringsIn [] nodes) (renderedElementsIn nodes))
    (hnames : ∀ t ∈ writtenNames d tag attrs, t.contains '{' = false)
    (hcopied : ∀ t ∈ copiedValues d attrs, hasOpening t = false) :
    (plainFrame s tag (attrs ++ handed) (nodes.any Node.isSolid)
      (renderAll (s.inside (s.mapping.templateTag tag)) nodes)).Always (Clear accepted) := by
  have hown : ownStrings d attrs handed =
      ((attrs ++ handed).filter fun a => a.1 != auraId).map (·.2) := by
    rcases hd with rfl | rfl <;> rfl
  have hwritten : writtenNames d tag attrs = tag :: attrs.map (·.1) := by
    rcases hd with rfl | rfl <;> rfl
  have hkept : copiedValues d attrs = (attrs.filter fun a => a.1 == auraId).map (·.2) := by
    rcases hd with rfl | rfl <;> rfl
  rw [hown] at hstrings
  rw [hwritten] at hnames
  rw [hkept] at hcopied
  simp only [List.forall_mem_cons, List.forall_mem_map, List.contains_eq_mem,
    decide_eq_false_iff_not] at hnames
  obtain ⟨htag, hkeys⟩ := hnames
  have hids : ∀ a ∈ attrs, a.1 = auraId → hasOpening a.2 = false := fun a ha hid =>
    hcopied _ (List.mem_map.2 ⟨a, List.mem_filter.2 ⟨ha, by simpa using hid⟩, rfl⟩)
  have hkey : '{' ∉ keyName ∧ keyName ≠ auraId := by decide
  refine always_plainFrame hs.names hs.indent hneg hsub htag ?_ ?_ _
    (joins_renderAll ih (hs.inside _) ht)
  · intro a ha
    rcases List.mem_append.1 ha with ha | ha
    · exact hkeys a ha
    · rw [hhanded a ha]
      exact hkey.1
  · intro a ha
    split
    · rename_i hid
      rcases List.mem_append.1 ha with ha | ha
      · exact .of_hasOpening (hids a ha hid)
      · exact absurd (hhanded a ha ▸ hid) hkey.2
    · rename_i hid
      exact hstrings _ (List.mem_map.2 ⟨a, List.mem_filter.2 ⟨ha, by simpa using hid⟩, rfl⟩)

theorem clears (hneg : ∀ r, negated r → IsNegation r) (hsub : ∀ r, negated r → accepted r)
    (n : Node) : Clears accepted negated n := by
  induction n using Node.induction with
  | text content =>
    refine ⟨fun s hs handed _ ht => ?_, fun s _ _ => ?_⟩
    · have hconverts : Converts negated content := ht.converts content (by simp [strings])
      rw [renderNode]
      refine .bind (P := Clear negated) hconverts fun t hclear => .pure ?_
      exact (hclear.textLines hneg (brace_notMem_of_blank hs.indent)).mono hsub
    · rw [Node.children, renderAll]
      exact .pure joins_nil
  | element tag attrs nodes ih =>
    refine ⟨fun s hs handed hhanded ht => ?_, fun s hs ht => joins_renderAll ih hs ht⟩
    have hwrites := ht.writes (.element tag attrs nodes) (by simp [renderedElements])
    have hguards : ∀ t ∈ negatedConditions (.ofTag tag) attrs, ∀ count,
        accepted ('!' :: unbrace (substitute count t).text) := fun t hmem count =>
      ht.guards _ ⟨.element tag attrs nodes, by simp [renderedElements], t, hmem, count, rfl⟩
    have hparts := ht.parts
    simp only [writesNoOpening] at hwrites
    rw [renderNode]
    generalize Directive.ofTag tag = d at hparts hwrites hguards
    simp only [Bool.and_eq_true, List.all_eq_true, Bool.not_eq_true'] at hwrites
    obtain ⟨⟨hnames, hcopied⟩, hbraced⟩ := hwrites
    cases d
    case messageChannel => exact .bind_any fun _ => .bind_any fun _ => .pure .nil
    case recordData => exact .bind_any fun _ => .bind_any fun _ => .pure .nil
    case metadata => exact .pure .nil
    case conditional =>
      obtain ⟨hown, hbelow⟩ := hparts rfl
      exact always_conditionalFrame hs.indent (always_guardOf hsub hown hbraced hguards) _
        (joins_renderElse ih hs.inner hbelow) (joins_renderMain ih hs.inner hbelow)
    case iteration =>
      obtain ⟨hown, hbelow⟩ := hparts rfl
      exact always_iterationFrame hs.indent hsub (hown _ (by simp [ownStrings]))
        (hbraced _ (by simp [bracedValues])) hcopied (joins_renderIteration ih hs.inner hbelow)
    case slot =>
      exact always_slotFrame hs.indent hcopied (joins_renderAll ih hs.inner (hparts rfl).2)
    case rawHtml =>
      obtain ⟨hown, hbelow⟩ := hparts rfl
      exact always_rawHtmlFrame hs.indent hneg hsub (hown _ (by simp [ownStrings])) hcopied
        (joins_renderAll ih hs.inner hbelow)
    case text =>
      obtain ⟨hown, hbelow⟩ := hparts rfl
      exact always_plainElement ih hneg hsub (.inl rfl) hs hhanded hown hbelow hnames hcopied
    case element =>
      obtain ⟨hown, hbelow⟩ := hparts rfl
      exact always_plainElement ih hneg hsub (.inr rfl) hs hhanded hown hbelow hnames hcopied

end Render

open Node Render

/-- The references of the negated paths in the rendered strings of a forest. -/
def Node.negationsIn (nodes : List Node) : List Text := (stringsIn [] nodes).flatMap negations

/-- The strings that are converted leave no opening behind, and none is written unconverted. -/
def Node.isTidyForest (nodes : List Node) : Bool :=
  (stringsIn [] nodes).all Expression.isTidy && (renderedElementsIn nodes).all writesNoOpening

theorem clear_template {m : Mapping} (hm : m.KeepsNames) {nodes : List Node}
    (h : isTidyForest nodes = true) :
    Clear (fun r => r ∈ negationsIn nodes ∨ IsNegatedGuard (renderedElementsIn nodes) r)
      (Conversion.ofNodes m nodes).template := by
  simp only [isTidyForest, Bool.and_eq_true, List.all_eq_true] at h
  have hneg : ∀ r, r ∈ negationsIn nodes → IsNegation r := fun r hr => by
    obtain ⟨t, -, ht⟩ := List.mem_flatMap.1 hr
    exact isNegation_of_mem ht
  have htidy : Tidy (fun r => r ∈ negationsIn nodes ∨ IsNegatedGuard (renderedElementsIn nodes) r)
      (· ∈ negationsIn nodes) (stringsIn [] nodes) (renderedElementsIn nodes) := by
    refine ⟨fun t ht count => ?_, h.2, fun r => .inr⟩
    exact clear_substitute (h.1 t ht) (fun r hr => List.mem_flatMap.2 ⟨t, ht, hr⟩) count
  have hsound : Sound ⟨m, .null, Template.step⟩ := ⟨hm, (by decide : Template.step.all isBlank = true)⟩
  have hbody := joins_renderAll (fun n _ => clears hneg (fun r => .inl) n) hsound htidy 0
  have hopening : '{' ∉ "<template>\n".toList := by simp
  have hclosing : '{' ∉ "</template>".toList := by simp
  have heq : (Conversion.ofNodes m nodes).template = "<template>\n".toList ++
      (((renderAll ⟨m, .null, Template.step⟩ nodes).run 0).1 ++ "</template>".toList) := by
    rw [Conversion.template_ofNodes]
    exact List.append_assoc ..
  rw [heq, Clear.literal_append hopening]
  exact hbody _ (.literal hclosing)

/-- Of a forest in which nothing opens an expression that is written unconverted, every
expression that is found in the template is the reference of a negated path, or starts
where a conditional negates its guard. -/
theorem expressions_left_are_negations (nodes : List Node) (h : isTidyForest nodes = true)
    (c : Conversion) (hc : (Conversion.convert .builtIn nodes).outcome = .ok c)
    (a found b : Text) (p : Piece) (ht : c.template = a ++ found ++ b)
    (hp : expressionAt? found = some (p, [])) :
    (∃ name : Text, found = inBraces ('!' :: name) ∧ '!' :: name ∈ negationsIn nodes ∧
      ∀ d ∈ name, isBare d = true) ∨
    ∃ r, IsNegatedGuard (renderedElementsIn nodes) r ∧ inBraces r <+: found ++ b ∧
      (IsNegation r → found = inBraces r) := by
  obtain rfl := Conversion.eq_ofNodes_of_convert hc
  have hclear := clear_template Mapping.builtIn_keepsNames h
  rw [ht] at hclear
  obtain ⟨r, hr | hr, hstart⟩ := hclear.startsBinding hp
  · obtain ⟨t, -, hmem⟩ := List.mem_flatMap.1 hr
    have hneg := isNegation_of_mem hmem
    have heq := eq_of_startsNegation hneg hstart hp
    obtain ⟨name, rfl, hname⟩ := hneg
    exact .inl ⟨name, heq, hr, hname⟩
  · exact .inr ⟨r, hr, hstart, fun hneg => eq_of_startsNegation hneg hstart hp⟩

/-- A negated path beside other text, and a negated guard. -/
def tidySample : List Node :=
  [.text "Hello {!v.name}, {! !v.open }!".toList,
    .element "aura:if".toList [("isFalse".toList, "{!v.a.B__c}".toList)] [.text "{!v.x + 1}".toList]]

theorem expressions_left_are_negations_greeting :
    ∃ c, (Conversion.convert .builtIn tidySample).outcome = .ok c ∧ ∃ a b : Text,
      c.template = a ++ "{!open}".toList ++ b ∧
      ((∃ name : Text, "{!open}".toList = inBraces ('!' :: name) ∧
          '!' :: name ∈ negationsIn tidySample ∧ ∀ d ∈ name, isBare d = true) ∨
        ∃ r, IsNegatedGuard (renderedElementsIn tidySample) r ∧
          inBraces r <+: "{!open}".toList ++ b ∧ (IsNegation r → "{!open}".toList = inBraces r)) := by
  have h : (Conversion.convert .builtIn tidySample).outcome =
      .ok (.ofNodes .builtIn tidySample) := Conversion.convert_ok (by decide +kernel)
  have ht : (Conversion.ofNodes .builtIn tidySample).template =
      "<template>\n    Hello {name}, ".toList ++ "{!open}".toList ++
        ("!\n    <template lwc:if={!b}>\n        {computedValue1}\n    </template>\n"
          ++ "</template>").toList := by decide +kernel
  exact ⟨_, h, _, _, ht, expressions_left_are_negations tidySample (by decide +kernel) _ h _ _ _
    (.expression '!' "open".toList) ht (by decide +kernel)⟩

/-- The text stands in the template of the body, is an expression, and comes from no negated
path of the body. -/
def keepsExpression (nodes : List Node) (raw : Text) : Bool :=
  match (Conversion.convert .builtIn nodes).outcome with
  | .ok c => occursIn raw c.template && (expressionAt? raw).map (·.2) == some []
    && !((negationsIn nodes).map inBraces).contains raw
  | .error _ => false

/-- Bodies with an expression that reaches their template otherwise. -/
def rawSamples : List (List Node × Text) :=
  let element (tag : String) (attrs : List (String × String)) : Node :=
    .element tag.toList (attrs.map fun a => (a.1.toList, a.2.toList)) []
  -- guards that a conditional negates, and what passes as it stands
  [([element "aura:if" [("isFalse", "{!v.a}")]], "{!a}".toList),
    ([.text "{!#x}".toList], "{#x}".toList),
    ([.text "\x7b!'{!v.a}'\x7d".toList], "{!v.a}".toList),
    -- what is written unconverted
    ([element "p" [("aura:id", "{!v.x}")]], "{!v.x}".toList),
    ([element "aura:set" [("attribute", "{!v.x}")]], "{!v.x}".toList),
    ([element "aura:iteration" [("items", "{!v.x}"), ("var", "{!x}")]], "{!x}".toList),
    ([element "aura:iteration" [("items", "{!v.x}"), ("indexVar", "{!x}")]], "{!x}".toList),
    ([element "aura:html" [("tag", "\x7b!x"), ("body", "\x7d")]], "{!x>}".toList),
    ([element "p" [("{!x}", "y")]], "{!x}".toList),
    -- openings that the template closes
    ([.text "\x7b!a".toList, .text "b\x7d".toList], "\x7b!a\n    b\x7d".toList),
    ([element "aura:if" [("isTrue", "!x")]], "{!x}".toList),
    ([element "aura:iteration" [("items", "#x")]], "{#x}".toList)]

theorem rawSamples_keep_expressions :
    (rawSamples.all fun s => keepsExpression s.1 s.2) = true := by
  decide +kernel

end LightningTemplate
