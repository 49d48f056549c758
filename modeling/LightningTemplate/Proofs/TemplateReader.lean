import LightningTemplate.Proofs.Naming
import LightningTemplate.Template

/-! A reader of template text, one character at a time.  It keeps the elements that are
open; blanks between tags are passed over, and a run of other text up to its line end
is a text of its own.  What the printing functions of `Template` write, it reads. -/
namespace LightningTemplate.Template
open Text

def unescape : Text → Text
  | '&' :: 'a' :: 'm' :: 'p' :: ';' :: cs => '&' :: unescape cs
  | '&' :: 'q' :: 'u' :: 'o' :: 't' :: ';' :: cs => '"' :: unescape cs
  | '&' :: 'l' :: 't' :: ';' :: cs => '<' :: unescape cs
  | c :: cs => c :: unescape cs
  | [] => []

theorem unescape_escapeChar (c : Char) (t : Text) : unescape (escapeChar c ++ t) = c :: unescape t := by
  unfold escapeChar
  split
  · subst c
    simp [unescape]
  · rename_i hamp
    split
    · subst c
      simp [unescape]
    · split
      · subst c
        simp [unescape]
      · rw [List.singleton_append, unescape] <;> simp [hamp]

theorem unescape_escapeValue (value : Text) : unescape (escapeValue value) = value := by
  induction value with
  | nil => rfl
  | cons c cs ih =>
    rw [escapeValue, List.flatMap_cons, unescape_escapeChar, ← escapeValue, ih]

theorem quote_notMem_escapeValue (value : Text) : '"' ∉ escapeValue value := by
  rw [escapeValue, List.mem_flatMap]
  rintro ⟨c, -, hc⟩
  unfold escapeChar at hc
  split at hc
  · exact absurd hc (by decide)
  · split at hc
    · exact absurd hc (by decide)
    · rename_i hquote
      split at hc
      · exact absurd hc (by decide)
      · exact hquote (List.mem_singleton.1 hc).symm

/-- An element that is open, with what was read of its content. -/
structure Open where
  tag : Text
  attributes : Attributes
  nodes : List Node

def Open.add (o : Open) (ns : List Node) : Open := { o with nodes := o.nodes ++ ns }

@[simp] theorem Open.add_nil (o : Open) : o.add [] = o := by simp [add]

@[simp] theorem Open.add_add (o : Open) (ms ns : List Node) : (o.add ms).add ns = o.add (ms ++ ns) := by
  simp [add]

inductive Place
  | content
  | line (read : Text)
  | tagOpened
  | startTag (name : Text)
  | endTag (name : Text)
  /-- After a name or a value; a blank or the end of the tag follows. -/
  | tagPart (name : Text) (attrs : Attributes)
  | attributeStart (name : Text) (attrs : Attributes)
  | attributeName (name : Text) (attrs : Attributes) (key : Text)
  | valueStart (name : Text) (attrs : Attributes) (key : Text)
  | value (name : Text) (attrs : Attributes) (key raw : Text)

/-- The place, the innermost open element and those around it. -/
structure Reading where
  place : Place
  inner : Open
  outer : List Open

namespace Reading

def move (r : Reading) (p : Place) : Reading := { r with place := p }

def close? (r : Reading) (name : Text) : Option Reading :=
  match r.outer with
  | [] => none
  | o :: os =>
    if r.inner.tag = name then
      some ⟨.content, o.add [.element name r.inner.attributes r.inner.nodes], os⟩
    else none

def openElement (r : Reading) (name : Text) (attrs : Attributes) : Reading :=
  ⟨.content, ⟨name, attrs, []⟩, r.inner :: r.outer⟩

def afterPart (r : Reading) (name : Text) (attrs : Attributes) (c : Char) : Option Reading :=
  if c = '>' then some (r.openElement name attrs)
  else if isBlank c then some (r.move (.attributeStart name attrs))
  else none

def step (r : Reading) (c : Char) : Option Reading :=
  match r.place with
  | .content =>
    if c = '<' then some (r.move .tagOpened)
    else if isBlank c then some r
    else some (r.move (.line [c]))
  | .line read =>
    if c = '<' then some ⟨.tagOpened, r.inner.add [.text read], r.outer⟩
    else if c = '\n' then some ⟨.content, r.inner.add [.text read], r.outer⟩
    else some (r.move (.line (read ++ [c])))
  | .tagOpened =>
    if c = '/' then some (r.move (.endTag []))
    else if isMark c then none
    else some (r.move (.startTag [c]))
  | .startTag name =>
    if isMark c then r.afterPart name [] c else some (r.move (.startTag (name ++ [c])))
  | .endTag name =>
    if c = '>' then r.close? name
    else if isMark c then none
    else some (r.move (.endTag (name ++ [c])))
  | .tagPart name attrs => r.afterPart name attrs c
  | .attributeStart name attrs =>
    if isBlank c then some r
    else if c = '>' then some (r.openElement name attrs)
    else if isMark c then none
    else some (r.move (.attributeName name attrs [c]))
  | .attributeName name attrs key =>
    if c = '=' then some (r.move (.valueStart name attrs key))
    else if isMark c then none
    else some (r.move (.attributeName name attrs (key ++ [c])))
  | .valueStart name attrs key =>
    if c = '"' then some (r.move (.value name attrs key [])) else none
  | .value name attrs key raw =>
    if c = '"' then some (r.move (.tagPart name (attrs ++ [(key, unescape raw)])))
    else some (r.move (.value name attrs key (raw ++ [c])))

def feed : Reading → Text → Option Reading
  | r, [] => some r
  | r, c :: cs => (r.step c).bind (feed · cs)

theorem feed_append (r : Reading) (a b : Text) : r.feed (a ++ b) = (r.feed a).bind (feed · b) := by
  induction a generalizing r with
  | nil => rfl
  | cons c cs ih =>
    simp only [List.cons_append, feed]
    cases r.step c with
    | none => rfl
    | some next => exact ih next

theorem feed_append_of {r s : Reading} {a : Text} (h : r.feed a = some s) (b : Text) :
    r.feed (a ++ b) = s.feed b := by
  rw [feed_append, h, Option.bind_some]

theorem feed_cons_of {r s : Reading} {c : Char} (h : r.step c = some s) (cs : Text) :
    r.feed (c :: cs) = s.feed cs := by
  rw [feed, h, Option.bind_some]

theorem feed_gather {gather : Text → Place} {p : Char → Prop} {inner : Open} {outer : List Open}
    (hstep : ∀ read c, p c →
      step ⟨gather read, inner, outer⟩ c = some ⟨gather (read ++ [c]), inner, outer⟩)
    {t : Text} (ht : ∀ c ∈ t, p c) (read : Text) :
    feed ⟨gather read, inner, outer⟩ t = some ⟨gather (read ++ t), inner, outer⟩ := by
  induction t generalizing read with
  | nil => simp [feed]
  | cons c cs ih =>
    rw [feed_cons_of (hstep read c (ht c (by simp))), ih fun d hd => ht d (by simp [hd])]
    simp

variable {inner : Open} {outer : List Open}

theorem feed_startTag {name : Text} (h : isName name = true) :
    feed ⟨.tagOpened, inner, outer⟩ name = some ⟨.startTag name, inner, outer⟩ := by
  rw [isName_iff] at h
  cases name with
  | nil => exact absurd rfl h.1
  | cons c cs =>
    have hc : isMark c = false := h.2 c (by simp)
    have hslash : c ≠ '/' := by
      rintro rfl
      exact absurd hc (by decide)
    rw [feed_cons_of (s := ⟨.startTag [c], inner, outer⟩) (by simp [step, hslash, hc, move])]
    refine feed_gather (p := fun c => isMark c = false) (fun read d hd => ?_)
      (fun d hd => h.2 d (by simp [hd])) [c]
    simp [step, hd, move]

theorem feed_endTag {name : Text} (h : isName name = true) :
    feed ⟨.endTag [], inner, outer⟩ name = some ⟨.endTag name, inner, outer⟩ := by
  refine feed_gather (p := fun c => isMark c = false) (fun read d hd => ?_) (isName_iff.1 h).2 []
  have hgt : d ≠ '>' := by
    rintro rfl
    exact absurd hd (by decide)
  simp [step, hd, hgt, move]

theorem feed_attributeName {name key : Text} {attrs : Attributes} (h : isName key = true) :
    feed ⟨.attributeStart name attrs, inner, outer⟩ key =
      some ⟨.attributeName name attrs key, inner, outer⟩ := by
  rw [isName_iff] at h
  cases key with
  | nil => exact absurd rfl h.1
  | cons c cs =>
    have hmark : ∀ d, isMark d = false → d ≠ '>' ∧ d ≠ '=' ∧ isBlank d = false := by
      intro d hd
      refine ⟨?_, ?_, ?_⟩
      · rintro rfl
        exact absurd hd (by decide)
      · rintro rfl
        exact absurd hd (by decide)
      · simp only [isMark, Bool.or_eq_false_iff] at hd
        exact hd.1.1.1.1.1.1
    have hc := h.2 c (by simp)
    obtain ⟨hgt, -, hblank⟩ := hmark c hc
    rw [feed_cons_of (s := ⟨.attributeName name attrs [c], inner, outer⟩)
      (by simp [step, hgt, hblank, hc, move])]
    refine feed_gather (p := fun c => isMark c = false) (fun read d hd => ?_)
      (fun d hd => h.2 d (by simp [hd])) [c]
    simp [step, (hmark d hd).2.1, hd, move]

theorem feed_attributeText {name key value : Text} {attrs : Attributes} (hkey : isName key = true)
    (hvalue : isBraced value = false) :
    feed ⟨.attributeStart name attrs, inner, outer⟩ (attributeText key value) =
      some ⟨.tagPart name (attrs ++ [(key, value)]), inner, outer⟩ := by
  have hraw : feed ⟨.value name attrs key [], inner, outer⟩ (escapeValue value) =
      some ⟨.value name attrs key (escapeValue value), inner, outer⟩ := by
    refine feed_gather (p := (· ≠ '"')) (fun read d hd => by simp [step, hd, move]) ?_ []
    rintro d hd rfl
    exact quote_notMem_escapeValue value hd
  rw [attributeText, hvalue, if_neg (by simp), List.append_assoc, feed_append_of (feed_attributeName hkey),
    List.cons_append, feed_cons_of (s := ⟨.valueStart name attrs key, inner, outer⟩) (by simp [step, move]),
    List.cons_append, feed_cons_of (s := ⟨.value name attrs key [], inner, outer⟩) (by simp [step, move]),
    feed_append_of hraw]
  simp [feed, step, move, unescape_escapeValue]

theorem feed_attributeList {name : Text} {attrs pairs : Attributes}
    (h : ∀ p ∈ pairs, isName p.1 = true ∧ isBraced p.2 = false) :
    feed ⟨.tagPart name attrs, inner, outer⟩ (attributeList pairs) =
      some ⟨.tagPart name (attrs ++ pairs), inner, outer⟩ := by
  induction pairs generalizing attrs with
  | nil => simp [attributeList, feed]
  | cons p ps ih =>
    have hp := h p (by simp)
    rw [attributeList, List.flatMap_cons, ← attributeList, List.cons_append,
      feed_cons_of (s := ⟨.attributeStart name attrs, inner, outer⟩)
        (by simp [step, afterPart, move, (by decide : isBlank ' ' = true)]),
      feed_append_of (feed_attributeText hp.1 hp.2), ih fun q hq => h q (by simp [hq])]
    simp

/-- The end of the first name of a tag is the end of its first part. -/
theorem feed_startTag_of_isMark {name t : Text} (h : ∀ c, t.head? = some c → isMark c = true)
    (hne : t ≠ []) :
    feed ⟨.startTag name, inner, outer⟩ t = feed ⟨.tagPart name [], inner, outer⟩ t := by
  cases t with
  | nil => exact absurd rfl hne
  | cons c cs => simp [feed, step, h c rfl, afterPart, move, openElement]

theorem feed_opening {name : Text} {pairs : Attributes} (hname : isName name = true)
    (h : ∀ p ∈ pairs, isName p.1 = true ∧ isBraced p.2 = false) :
    feed ⟨.content, inner, outer⟩ ('<' :: (name ++ attributeList pairs ++ ['>'])) =
      some ⟨.content, ⟨name, pairs, []⟩, inner :: outer⟩ := by
  have hhead : ∀ c, (attributeList pairs ++ ['>']).head? = some c → isMark c = true := by
    intro c hc
    cases pairs with
    | nil =>
      obtain rfl : '>' = c := by simpa [attributeList] using hc
      decide
    | cons p ps =>
      obtain rfl : ' ' = c := by simpa [attributeList] using hc
      decide
  rw [feed_cons_of (s := ⟨.tagOpened, inner, outer⟩) (by simp [step, move]), List.append_assoc,
    feed_append_of (feed_startTag hname), feed_startTag_of_isMark hhead (by simp),
    feed_append_of (feed_attributeList h)]
  simp [feed, step, afterPart, openElement]

theorem feed_closing {name : Text} {o : Open} {pairs : Attributes} {ns : List Node}
    (hname : isName name = true) :
    feed ⟨.content, ⟨name, pairs, ns⟩, o :: outer⟩ ('<' :: '/' :: (name ++ ['>'])) =
      some ⟨.content, o.add [.element name pairs ns], outer⟩ := by
  rw [feed_cons_of (s := ⟨.tagOpened, ⟨name, pairs, ns⟩, o :: outer⟩) (by simp [step, move]),
    feed_cons_of (s := ⟨.endTag [], ⟨name, pairs, ns⟩, o :: outer⟩) (by simp [step, move]),
    feed_append_of (feed_endTag hname)]
  simp [feed, step, close?]

end Reading

open Reading

/-- Between tags the text adds just these nodes to the element that is open. -/
def Reads (t : Text) (ns : List Node) : Prop :=
  ∀ inner outer, feed ⟨.content, inner, outer⟩ t = some ⟨.content, inner.add ns, outer⟩

namespace Reads

theorem nil : Reads [] [] := fun inner outer => by simp [feed]

theorem append {a b : Text} {ms ns : List Node} (ha : Reads a ms) (hb : Reads b ns) :
    Reads (a ++ b) (ms ++ ns) := by
  intro inner outer
  rw [feed_append_of (ha inner outer), hb, Open.add_add]

theorem blanks {t : Text} (ht : t.all isBlank = true) : Reads t [] := by
  induction t with
  | nil => exact nil
  | cons c cs ih =>
    rw [List.all_cons, Bool.and_eq_true] at ht
    have hne : c ≠ '<' := by
      rintro rfl
      exact absurd ht.1 (by decide)
    intro inner outer
    rw [feed_cons_of (s := ⟨.content, inner, outer⟩) (by simp [Reading.step, ht.1, hne]), ih ht.2]

theorem textLine {l : Text} (hne : l ≠ []) (hhead : ∀ c, l.head? = some c → isBlank c = false)
    (h : ∀ c ∈ l, c ≠ '<' ∧ c ≠ '\n') : Reads (l ++ ['\n']) [.text l] := by
  intro inner outer
  cases l with
  | nil => exact absurd rfl hne
  | cons c cs =>
    have hc := h c (by simp)
    have hrun : feed ⟨.line [c], inner, outer⟩ cs = some ⟨.line (c :: cs), inner, outer⟩ :=
      feed_gather (p := fun c => c ≠ '<' ∧ c ≠ '\n')
        (fun read d hd => by simp [Reading.step, hd.1, hd.2, move]) (fun d hd => h d (by simp [hd])) [c]
    rw [List.cons_append, feed_cons_of (s := ⟨.line [c], inner, outer⟩)
      (by simp [Reading.step, hc.1, hhead c rfl, move]), feed_append_of hrun]
    simp [feed, Reading.step]

theorem emptyElement {indent name : Text} {pairs : Attributes} (hindent : indent.all isBlank = true)
    (hname : isName name = true) (h : ∀ p ∈ pairs, isName p.1 = true ∧ isBraced p.2 = false) :
    Reads (Template.emptyElement indent name (attributeList pairs)) [.element name pairs []] := by
  intro inner outer
  have heq : Template.emptyElement indent name (attributeList pairs) =
      indent ++ ('<' :: (name ++ attributeList pairs ++ ['>']) ++ '<' :: '/' :: (name ++ ['>'])) := by
    simp [Template.emptyElement]
  rw [heq, feed_append_of (blanks hindent inner outer), feed_append_of (feed_opening hname h),
    feed_closing hname, Open.add_nil]

theorem block {indent name body : Text} {pairs : Attributes} {ns : List Node}
    (hindent : indent.all isBlank = true) (hname : isName name = true)
    (h : ∀ p ∈ pairs, isName p.1 = true ∧ isBraced p.2 = false) (hbody : Reads body ns) :
    Reads (Template.block indent ('<' :: (name ++ attributeList pairs ++ ['>'])) body
      ('<' :: '/' :: (name ++ ['>']))) [.element name pairs ns] := by
  intro inner outer
  have hcontent : Reads ('\n' :: body ++ indent) ns := by
    simpa using ((blanks (t := ['\n']) (by decide)).append hbody).append (blanks hindent)
  rw [Template.block, List.append_assoc, List.append_assoc, List.append_assoc, ← List.append_assoc _ indent,
    feed_append_of (blanks hindent inner outer), Open.add_nil, feed_append_of (feed_opening hname h),
    feed_append_of (hcontent _ _), Open.add, List.nil_append, feed_closing hname]

end Reads

/-- The one element that the whole text is. -/
def read (t : Text) : Option Node :=
  match feed ⟨.content, ⟨[], [], []⟩, []⟩ t with
  | some ⟨.content, ⟨_, _, [n]⟩, []⟩ => some n
  | _ => none

theorem document_eq_block (body : Text) :
    document body = Template.block [] ('<' :: ("template".toList ++ attributeList [] ++ ['>'])) body
      ('<' :: '/' :: ("template".toList ++ ['>'])) := by
  have hsplit : document body = '<' :: ("template".toList ++ ['>', '\n']) ++ body
      ++ '<' :: '/' :: ("template".toList ++ ['>']) := rfl
  rw [hsplit]
  generalize "template".toList = name
  simp [Template.block, attributeList]

theorem read_document {body : Text} {ns : List Node} (h : Reads body ns) :
    read (document body) = some (.element "template".toList [] ns) := by
  have hname : isName "template".toList = true := by decide +kernel
  rw [document_eq_block, read, Reads.block rfl hname (by simp) h]
  rfl

end LightningTemplate.Template
