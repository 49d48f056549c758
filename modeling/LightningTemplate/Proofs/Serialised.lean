import LightningTemplate.Component
import LightningTemplate.Proofs.PathToken

/-! Serialised bodies: what a forest of plain nodes looks like as markup.  There is a choice
in writing it, of quotes, references and empty elements, so `Serialised` is a relation, and
`serialise` one way through it.  `Piecewise` says what such markup is joined from. -/
namespace LightningTemplate.Markup
open Text

def isPlainNameChar (c : Char) : Bool := isLatinStart c || c.isDigit || c == '.' || c == '-'

def isPrintable (c : Char) : Bool := 32 ≤ c.toNat && c.toNat ≤ 126

def isTextChar (c : Char) : Bool := isPrintable c || c == '\t' || c == '\n'

def isSimpleName (name : Text) : Bool := name.head?.any isLatinStart && name.all isPlainNameChar

inductive MarkupName : Text → Prop
  | simple {part : Text} : isSimpleName part = true → MarkupName part
  | aliased {alias_ part : Text} : isSimpleName alias_ = true → isSimpleName part = true →
    MarkupName (alias_ ++ ':' :: part)

/-- A name neither part of which has a meaning of its own. -/
inductive PlainName : Text → Prop
  | simple {part : Text} : isSimpleName part = true → part ≠ "xmlns".toList → PlainName part
  | aliased {alias_ part : Text} : isSimpleName alias_ = true → alias_ ≠ "xml".toList →
    alias_ ≠ "xmlns".toList → isSimpleName part = true → part ≠ "xmlns".toList →
    PlainName (alias_ ++ ':' :: part)

def TextsApart (ns : List Node) : Prop := ns.IsChain fun a b => a.isElement = true ∨ b.isElement = true

/-- Texts and values in ASCII, plain names, and no attribute twice, all the way down. -/
inductive PlainNode : Node → Prop
  | text {content : Text} : content ≠ [] → (∀ c ∈ content, isTextChar c = true) →
    PlainNode (.text content)
  | element {tag : Text} {attrs : Attributes} {nodes : List Node} : PlainName tag →
    (∀ a ∈ attrs, PlainName a.1 ∧ ∀ c ∈ a.2, isPrintable c = true) → (attrs.map (·.1)).Nodup →
    TextsApart nodes → (∀ n ∈ nodes, PlainNode n) → PlainNode (.element tag attrs nodes)

def partTags : List Text :=
  ["aura:attribute".toList, "aura:handler".toList, "aura:registerevent".toList,
    "aura:method".toList, "aura:set".toList]

/-- A body that can be told from the declarations around it. -/
structure PlainBody (ns : List Node) : Prop where
  plain : ∀ n ∈ ns, PlainNode n
  apart : TextsApart ns
  solid : ∀ n ∈ ns, n.isSolid = true
  content : ∀ n ∈ ns, ∀ tag, n.tag? = some tag → lower tag ∉ partTags

/-- Characters by what may stand for them between an ampersand and a semicolon. -/
def escapes : List (Char × Text) :=
  [('&', "amp".toList), ('<', "lt".toList), ('>', "gt".toList), ('"', "quot".toList),
    ('"', "#34".toList), ('\'', "apos".toList), ('\'', "#39".toList), ('\'', "#x27".toList)]

/-- A character is itself, unless it marks up or ends the value it stands in, or a reference. -/
inductive SpelledChar (quote : Option Char) : Char → Text → Prop
  | bare {c : Char} : c ∉ ['&', '<', '>'] → quote ≠ some c → SpelledChar quote c [c]
  | escaped {c : Char} {name : Text} : (c, name) ∈ escapes →
    SpelledChar quote c ('&' :: (name ++ [';']))

inductive Spelled (quote : Option Char) : Text → Text → Prop
  | nil : Spelled quote [] []
  | cons {c : Char} {s t rest : Text} : SpelledChar quote c s → Spelled quote t rest →
    Spelled quote (c :: t) (s ++ rest)

inductive SerialisedAttributes : Attributes → Text → Prop
  | nil : SerialisedAttributes [] []
  | cons {name value s rest : Text} {quote : Char} {attrs : Attributes} : quote = '"' ∨ quote = '\'' →
    Spelled (some quote) value s → SerialisedAttributes attrs rest →
    SerialisedAttributes ((name, value) :: attrs)
      (' ' :: (name ++ '=' :: quote :: (s ++ quote :: rest)))

/-- Markup of a forest.  An element without content may have one tag or two. -/
inductive Serialised : List Node → Text → Prop
  | nil : Serialised [] []
  | text {content s rest : Text} {ns : List Node} : Spelled none content s → Serialised ns rest →
    Serialised (.text content :: ns) (s ++ rest)
  | empty {tag s gap rest : Text} {attrs : Attributes} {ns : List Node} :
    SerialisedAttributes attrs s → gap = [] ∨ gap = [' '] → Serialised ns rest →
    Serialised (.element tag attrs [] :: ns) ('<' :: (tag ++ s) ++ gap ++ '/' :: '>' :: rest)
  | element {tag s body rest : Text} {attrs : Attributes} {nodes ns : List Node} :
    SerialisedAttributes attrs s → Serialised nodes body → Serialised ns rest →
    Serialised (.element tag attrs nodes :: ns)
      ('<' :: (tag ++ s) ++ '>' :: (body ++ '<' :: '/' :: (tag ++ '>' :: rest)))

/-- Markup inside a component element. -/
def inComponent (s : Text) : Text := "<aura:component>".toList ++ s ++ "</aura:component>".toList

def spellChar (c : Char) : Text :=
  match escapes.lookup c with
  | some name => '&' :: (name ++ [';'])
  | none => [c]

def serialiseAttribute (a : Text × Text) : Text :=
  ' ' :: (a.1 ++ '=' :: '"' :: (a.2.flatMap spellChar ++ ['"']))

mutual

def serialiseNode : Node → Text
  | .text content => content.flatMap spellChar
  | .element tag attrs nodes =>
    '<' :: (tag ++ attrs.flatMap serialiseAttribute) ++ '>' ::
      (serialise nodes ++ '<' :: '/' :: (tag ++ ['>']))

/-- Every character that has a reference is written by its first one. -/
def serialise : List Node → Text
  | [] => []
  | n :: ns => serialiseNode n ++ serialise ns

end

theorem spelledChar_spellChar {quote : Option Char} (hquote : ∀ q, quote = some q → q = '"') (c : Char) :
    SpelledChar quote c (spellChar c) := by
  rw [spellChar]
  cases h : escapes.lookup c with
  | some name =>
    obtain ⟨before, after, hescapes, -⟩ := List.lookup_eq_some_iff.1 h
    exact .escaped (by simp [hescapes])
  | none =>
    have hne : ∀ e ∈ escapes, c ≠ e.1 := by simpa using List.lookup_eq_none_iff.1 h
    refine .bare ?_ fun hc => hne ('"', "quot".toList) (by simp [escapes]) (hquote c hc)
    simp only [List.mem_cons, List.not_mem_nil, or_false, not_or]
    exact ⟨hne _ (List.mem_cons_self ..), hne ('<', "lt".toList) (by simp [escapes]),
      hne ('>', "gt".toList) (by simp [escapes])⟩

theorem spelled_flatMap {quote : Option Char} (hquote : ∀ q, quote = some q → q = '"') (t : Text) :
    Spelled quote t (t.flatMap spellChar) := by
  induction t with
  | nil => exact .nil
  | cons c t ih => exact .cons (spelledChar_spellChar hquote c) ih

theorem serialisedAttributes_flatMap (attrs : Attributes) :
    SerialisedAttributes attrs (attrs.flatMap serialiseAttribute) := by
  induction attrs with
  | nil => exact .nil
  | cons a attrs ih =>
    have hvalue : Spelled (some '"') a.2 (a.2.flatMap spellChar) :=
      spelled_flatMap (fun q hq => (Option.some.inj hq).symm) a.2
    have hcons : SerialisedAttributes ((a.1, a.2) :: attrs) _ := .cons (.inl rfl) hvalue ih
    simpa [serialiseAttribute] using hcons

mutual

theorem serialised_cons_serialiseNode {ns : List Node} {rest : Text} (h : Serialised ns rest) :
    ∀ n, Serialised (n :: ns) (serialiseNode n ++ rest)
  | .text content => .text (spelled_flatMap (by simp) content) h
  | .element tag attrs nodes => by
    have hcons : Serialised (.element tag attrs nodes :: ns) _ :=
      .element (serialisedAttributes_flatMap attrs) (serialised_serialise nodes) h
    simpa [serialiseNode] using hcons

theorem serialised_serialise : ∀ ns, Serialised ns (serialise ns)
  | [] => .nil
  | n :: ns => serialised_cons_serialiseNode (serialised_serialise ns) n

end

theorem toNat_lt_of_isLatinStart {c : Char} (h : isLatinStart c = true) : c.toNat < 128 := by
  rcases Bool.or_eq_true_iff.1 h with h | h
  · exact Expression.toNat_lt_of_isAlpha h
  · rw [beq_iff_eq.1 h]
    decide

theorem toNat_lt_of_isPlainNameChar {c : Char} (h : isPlainNameChar c = true) : c.toNat < 128 := by
  simp only [isPlainNameChar, Bool.or_eq_true, beq_iff_eq] at h
  rcases h with ((h | h) | rfl) | rfl
  · exact toNat_lt_of_isLatinStart h
  · have hle : c.val ≤ '9'.val := of_decide_eq_true (Bool.and_eq_true_iff.1 h).2
    exact Nat.lt_of_le_of_lt (UInt32.le_iff_toNat_le.1 hle) (by decide)
  · decide
  · decide

theorem toNat_lt_of_isTextChar {c : Char} (h : isTextChar c = true) : c.toNat < 128 := by
  simp only [isTextChar, isPrintable, Bool.or_eq_true, Bool.and_eq_true, decide_eq_true_eq,
    beq_iff_eq] at h
  rcases h with (h | rfl) | rfl
  · omega
  · decide
  · decide

theorem isTextChar_of_isPrintable {c : Char} (h : isPrintable c = true) : isTextChar c = true := by
  simp [isTextChar, h]

theorem plainNameChar_cases {c : Char} (h : isPlainNameChar c = true) :
    isAliasChar c = true ∧ isNameChar c = true ∧ isPrintable c = true ∧
      c ∉ ['&', '<', '>', '"', '\'', ':', '=', '/', ' ', '}'] :=
  forall_ascii (P := fun c => isPlainNameChar c = true → isAliasChar c = true ∧ isNameChar c = true ∧
    isPrintable c = true ∧ c ∉ ['&', '<', '>', '"', '\'', ':', '=', '/', ' ', '}'])
    (by decide +kernel) c (toNat_lt_of_isPlainNameChar h) h

theorem isPlainNameChar_of_isSimpleName {name : Text} (h : isSimpleName name = true) {c : Char}
    (hc : c ∈ name) : isPlainNameChar c = true :=
  List.all_eq_true.1 (Bool.and_eq_true_iff.1 h).2 c hc

theorem exists_cons_of_isSimpleName {name : Text} (h : isSimpleName name = true) :
    ∃ c cs, name = c :: cs ∧ isLatinStart c = true := by
  have hhead := (Bool.and_eq_true_iff.1 h).1
  cases name with
  | nil => cases hhead
  | cons c cs => exact ⟨c, cs, rfl, hhead⟩

theorem PlainName.markupName {name : Text} (h : PlainName name) : MarkupName name := by
  cases h with
  | simple hpart _ => exact .simple hpart
  | aliased halias _ _ hpart _ => exact .aliased halias hpart

theorem MarkupName.chars {name : Text} (h : MarkupName name) {c : Char} (hc : c ∈ name) :
    isPlainNameChar c = true ∨ c = ':' := by
  cases h with
  | simple hpart => exact .inl (isPlainNameChar_of_isSimpleName hpart hc)
  | aliased halias hpart =>
    rcases List.mem_append.1 hc with hc | hc
    · exact .inl (isPlainNameChar_of_isSimpleName halias hc)
    · rcases List.mem_cons.1 hc with rfl | hc
      · exact .inr rfl
      · exact .inl (isPlainNameChar_of_isSimpleName hpart hc)

theorem MarkupName.isTextChar {name : Text} (h : MarkupName name) {c : Char} (hc : c ∈ name) :
    isTextChar c = true := by
  rcases h.chars hc with hc | rfl
  · exact isTextChar_of_isPrintable (plainNameChar_cases hc).2.2.1
  · decide

theorem MarkupName.amp_notMem {name : Text} (h : MarkupName name) : '&' ∉ name := by
  intro hc
  rcases h.chars hc with hc | hc
  · exact absurd hc (by decide)
  · exact absurd hc (by decide)

/-- A property of texts that holds of plain characters and of references, and of what is joined
of texts that it holds of.  So it holds of all serialised markup. -/
structure Piecewise (P : Text → Prop) : Prop where
  append : ∀ {s t : Text}, P s → P t → P (s ++ t)
  chars : ∀ {s : Text}, (∀ c ∈ s, isTextChar c = true) → '&' ∉ s → P s
  escape : ∀ e ∈ escapes, P ('&' :: (e.2 ++ [';']))

namespace Piecewise
variable {P : Text → Prop}

theorem nil (hP : Piecewise P) : P [] := hP.chars (by simp) (by simp)

theorem cons (hP : Piecewise P) {c : Char} {t : Text} (hc : isTextChar c = true) (hamp : c ≠ '&')
    (ht : P t) : P (c :: t) :=
  hP.append (s := [c]) (hP.chars (by simpa using hc) (by simpa using Ne.symm hamp)) ht

theorem name (hP : Piecewise P) {name : Text} (h : MarkupName name) : P name :=
  hP.chars (fun _ => h.isTextChar) h.amp_notMem

theorem spelled (hP : Piecewise P) {quote : Option Char} {t s : Text} (h : Spelled quote t s)
    (ht : ∀ c ∈ t, isTextChar c = true) : P s := by
  induction h with
  | nil => exact hP.nil
  | cons hchar _ ih =>
    refine hP.append ?_ (ih fun c hc => ht c (List.mem_cons_of_mem _ hc))
    cases hchar with
    | bare hbare _ =>
      simp only [List.mem_cons, List.not_mem_nil, or_false, not_or] at hbare
      exact hP.cons (ht _ (List.mem_cons_self ..)) hbare.1 hP.nil
    | escaped hescape => exact hP.escape _ hescape

theorem attributes (hP : Piecewise P) {attrs : Attributes} {s : Text} (h : SerialisedAttributes attrs s)
    (hattrs : ∀ a ∈ attrs, MarkupName a.1 ∧ ∀ c ∈ a.2, isPrintable c = true) : P s := by
  induction h with
  | nil => exact hP.nil
  | @cons name value s rest quote attrs hquote hvalue _ ih =>
    obtain ⟨hname, hchars⟩ := hattrs _ (List.mem_cons_self ..)
    have hrest := ih fun a ha => hattrs a (List.mem_cons_of_mem _ ha)
    have hs : P s := hP.spelled hvalue fun c hc => isTextChar_of_isPrintable (hchars c hc)
    have hmark : isTextChar quote = true ∧ quote ≠ '&' := by rcases hquote with rfl | rfl <;> decide
    refine hP.cons (by decide) (by decide) (hP.append (hP.name hname) (hP.cons (by decide) (by decide) ?_))
    exact hP.cons hmark.1 hmark.2 (hP.append hs (hP.cons hmark.1 hmark.2 hrest))

theorem plainAttributes (hP : Piecewise P) {attrs : Attributes} {s : Text}
    (h : SerialisedAttributes attrs s)
    (hattrs : ∀ a ∈ attrs, PlainName a.1 ∧ ∀ c ∈ a.2, isPrintable c = true) : P s :=
  hP.attributes h fun a ha => ⟨(hattrs a ha).1.markupName, (hattrs a ha).2⟩

theorem serialised (hP : Piecewise P) {ns : List Node} {s : Text} (h : Serialised ns s)
    (hns : ∀ n ∈ ns, PlainNode n) : P s := by
  induction h with
  | nil => exact hP.nil
  | text hcontent _ ih =>
    cases hns _ (List.mem_cons_self ..) with
    | text _ hchars =>
      exact hP.append (hP.spelled hcontent hchars) (ih fun n hn => hns n (List.mem_cons_of_mem _ hn))
  | @empty tag s gap rest attrs ns hs hgap _ ih =>
    cases hns _ (List.mem_cons_self ..) with
    | element htag hattrs _ _ _ =>
      have hrest := ih fun n hn => hns n (List.mem_cons_of_mem _ hn)
      have hopen : P (tag ++ s) := hP.append (hP.name htag.markupName) (hP.plainAttributes hs hattrs)
      have hgap : P gap := by
        rcases hgap with rfl | rfl
        · exact hP.nil
        · exact hP.cons (by decide) (by decide) hP.nil
      refine hP.append (hP.append (hP.cons (by decide) (by decide) hopen) hgap) ?_
      exact hP.cons (by decide) (by decide) (hP.cons (by decide) (by decide) hrest)
  | @element tag s body rest attrs nodes ns hs _ _ ihbody ih =>
    cases hns _ (List.mem_cons_self ..) with
    | element htag hattrs _ _ hnodes =>
      have hrest := ih fun n hn => hns n (List.mem_cons_of_mem _ hn)
      have hopen : P (tag ++ s) := hP.append (hP.name htag.markupName) (hP.plainAttributes hs hattrs)
      have hclose : P ('<' :: '/' :: (tag ++ '>' :: rest)) :=
        hP.cons (by decide) (by decide) (hP.cons (by decide) (by decide)
          (hP.append (hP.name htag.markupName) (hP.cons (by decide) (by decide) hrest)))
      exact hP.append (hP.cons (by decide) (by decide) hopen)
        (hP.cons (by decide) (by decide) (hP.append (ihbody hnodes) hclose))

end Piecewise

theorem piecewise_isTextChar : Piecewise fun s => ∀ c ∈ s, isTextChar c = true where
  append := fun hs ht c hc => (List.mem_append.1 hc).elim (hs c) (ht c)
  chars := fun hs _ => hs
  escape := fun e he => List.all_eq_true.1 <| List.all_eq_true.1
    (by decide : escapes.all (fun e => ('&' :: (e.2 ++ [';'])).all isTextChar) = true) e he

end LightningTemplate.Markup
