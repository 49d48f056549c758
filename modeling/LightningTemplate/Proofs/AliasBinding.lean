import LightningTemplate.Proofs.MarkupRun
import LightningTemplate.Proofs.PartPlace
import LightningTemplate.Proofs.Prepared

/-! Names under bound aliases.  When an alias stands for its address and the address for it,
a plain name comes back from its full name, so a start tag opens the frame of the element as
it was written (`openFrame_plain`).  The element around the markup binds all aliases so. -/
namespace LightningTemplate.Markup
open Text Machine

/-- The alias stands for its address, and the address for the alias. -/
def Bound (naming : Naming) (scope : Scope) (alias_ : Text) : Prop :=
  scope.address? alias_ = some (addressOf alias_) ∧ naming (addressOf alias_) = some alias_

def NameBound (naming : Naming) (scope : Scope) (name : Text) : Prop :=
  ∀ a, (splitName name).1 = some a → Bound naming scope a

def plainFullName (name : Text) : FullName := ⟨(splitName name).1.map addressOf, (splitName name).2⟩

variable {naming : Naming} {scope : Scope} {name : Text} {attrs : Attributes} {offset : Nat}

theorem fullName_plain (h : NameBound naming scope name) (hdefault : scope.address? [] = none)
    (offset : Nat) (useDefault : Bool) :
    fullName scope offset useDefault name = .ok (plainFullName name) := by
  rw [fullName, plainFullName]
  rw [NameBound] at h
  cases hsplit : splitName name with
  | mk alias? part =>
    rw [hsplit] at h
    cases alias? with
    | none => cases useDefault <;> simp [hdefault]
    | some a => simp [(h a rfl).1]

theorem display_plainFullName (hname : PlainName name) (h : NameBound naming scope name) :
    (plainFullName name).display naming = name := by
  obtain ⟨hsplit, -⟩ | ⟨alias_, part, rfl, hsplit, -⟩ := hname.splitName_cases
  · simp [plainFullName, hsplit, FullName.display]
  · have hbound := h alias_ (by rw [hsplit])
    simp [plainFullName, hsplit, FullName.display, hbound.2]

theorem declaredAlias?_plain (h : PlainName name) : declaredAlias? name = none := by
  obtain ⟨hsplit, hxmlns⟩ | ⟨alias_, part, rfl, hsplit, -, -, -, hxmlns⟩ := h.splitName_cases
  · rw [declaredAlias?, hsplit]
    exact if_neg hxmlns
  · rw [declaredAlias?, hsplit]
    exact if_neg hxmlns

theorem readAttributes_plain {raws : List RawAttribute} (h : List.Forall₂ Stands raws attrs)
    (hnames : ∀ a ∈ attrs, PlainName a.1) (hdistinct : (attrs.map (·.1)).Nodup) {seen : List Text}
    (hseen : ∀ a ∈ attrs, a.1 ∉ seen) :
    readAttributes offset seen scope raws = .ok (scope, attrs) := by
  induction h generalizing seen with
  | nil => rfl
  | @cons raw a raws attrs hraw _ ih =>
    rw [List.map_cons, List.nodup_cons] at hdistinct
    have hnew : seen.contains raw.name = false := by
      rw [hraw.1]
      simpa using hseen a (List.mem_cons_self ..)
    have hundeclared : declaredAlias? raw.name = none :=
      hraw.1 ▸ declaredAlias?_plain (hnames a (List.mem_cons_self ..))
    have hrest : readAttributes offset (raw.name :: seen) scope raws = .ok (scope, attrs) :=
      ih (fun b hb => hnames b (List.mem_cons_of_mem _ hb)) hdistinct.2 (fun b hb hmem => by
        rcases List.mem_cons.1 hmem with hb' | hb'
        · exact hdistinct.1 (hraw.1 ▸ hb' ▸ List.mem_map_of_mem hb)
        · exact hseen b (List.mem_cons_of_mem _ hb) hb')
    simp only [readAttributes, hnew, hraw.2 offset, hundeclared, hrest]
    rw [hraw.1]
    rfl

theorem fullNames_plain (hnames : ∀ a ∈ attrs, PlainName a.1 ∧ NameBound naming scope a.1)
    (hdefault : scope.address? [] = none) (hdistinct : (attrs.map (·.1)).Nodup)
    {seen : List FullName} (hseen : ∀ a ∈ attrs, plainFullName a.1 ∉ seen) :
    fullNames scope offset seen attrs = .ok (attrs.map fun a => (plainFullName a.1, a.2)) := by
  induction attrs generalizing seen with
  | nil => rfl
  | cons a attrs ih =>
    obtain ⟨hplain, hbound⟩ := hnames a (List.mem_cons_self ..)
    rw [List.map_cons, List.nodup_cons] at hdistinct
    have hnew : seen.contains (plainFullName a.1) = false := by
      simpa using hseen a (List.mem_cons_self ..)
    have hrest : fullNames scope offset (plainFullName a.1 :: seen) attrs =
        .ok (attrs.map fun a => (plainFullName a.1, a.2)) :=
      ih (fun b hb => hnames b (List.mem_cons_of_mem _ hb)) hdistinct.2 (fun b hb hmem => by
        rcases List.mem_cons.1 hmem with hsame | hmem
        · -- two names with one full name are displayed alike
          obtain ⟨hplain', hbound'⟩ := hnames b (List.mem_cons_of_mem _ hb)
          have hname : b.1 = a.1 := by
            rw [← display_plainFullName hplain' hbound', hsame, display_plainFullName hplain hbound]
          exact hdistinct.1 (hname ▸ List.mem_map_of_mem hb)
        · exact hseen b (List.mem_cons_of_mem _ hb) hmem)
    simp only [fullNames, fullName_plain hbound hdefault]
    show (if (plainFullName a.1).address.isSome && seen.contains (plainFullName a.1) then _ else _) = _
    rw [hnew, Bool.and_false, if_neg Bool.false_ne_true, hrest]
    rfl

theorem openFrame_of {inner : Scope} {tag : Text} {raws : List RawAttribute}
    {plain : List (Text × Text)} {named : List (FullName × Text)} {full : FullName}
    (hread : readAttributes offset [] scope raws = .ok (inner, plain))
    (hnamed : fullNames inner offset [] plain = .ok named)
    (htag : fullName inner offset true tag = .ok full) :
    Builder.openFrame naming scope offset tag raws =
      .ok ⟨tag, full.display naming, .ofPairs (named.map fun a => (a.1.display naming, a.2)), [], [],
        inner⟩ := by
  simp only [Builder.openFrame, hread]
  show (fullNames inner offset [] plain >>= fun named => fullName inner offset true tag >>= _) = _
  rw [hnamed, htag]
  rfl

def plainFrame (tag : Text) (attrs : Attributes) (scope : Scope) : Frame :=
  ⟨tag, tag, attrs, [], [], scope⟩

/-- A start tag all names of which can be read. -/
structure PlainTag (naming : Naming) (scope : Scope) (tag : Text) (attrs : Attributes) : Prop where
  tag : PlainName tag ∧ NameBound naming scope tag
  names : ∀ a ∈ attrs, PlainName a.1 ∧ NameBound naming scope a.1
  values : ∀ a ∈ attrs, ∀ c ∈ a.2, isPrintable c = true
  distinct : (attrs.map (·.1)).Nodup

theorem PlainTag.markup {tag : Text} (h : PlainTag naming scope tag attrs) :
    ∀ a ∈ attrs, MarkupName a.1 ∧ ∀ c ∈ a.2, isPrintable c = true :=
  fun a ha => ⟨(h.names a ha).1.markupName, h.values a ha⟩

theorem openFrame_plain {tag : Text} (h : PlainTag naming scope tag attrs)
    (hdefault : scope.address? [] = none) {raws : List RawAttribute}
    (hraws : List.Forall₂ Stands raws attrs) :
    Builder.openFrame naming scope offset tag raws = .ok (plainFrame tag attrs scope) := by
  have hread : readAttributes offset [] scope raws = .ok (scope, attrs) :=
    readAttributes_plain hraws (fun a ha => (h.names a ha).1) h.distinct (by simp)
  have hfull : fullNames scope offset [] attrs = .ok (attrs.map fun a => (plainFullName a.1, a.2)) :=
    fullNames_plain h.names hdefault h.distinct (by simp)
  have hshown : (attrs.map fun a => (plainFullName a.1, a.2)).map
      (fun a => (a.1.display naming, a.2)) = attrs := by
    rw [List.map_map]
    refine (List.map_congr_left fun a ha => ?_).trans (List.map_id _)
    obtain ⟨hplain, hbound⟩ := h.names a ha
    simp [display_plainFullName hplain hbound]
  have hpairs : Attributes.ofPairs attrs = attrs := Keyed.insertAll_of_nodup [] h.distinct
  rw [openFrame_of hread hfull (fullName_plain h.tag.2 hdefault offset true), hshown, hpairs,
    display_plainFullName h.tag.1 h.tag.2]
  rfl

/-- Every alias that is seen in the text, and is free, is bound. -/
def BindsIn (naming : Naming) (scope : Scope) (t : Text) : Prop :=
  ∀ a ∈ aliasesIn t, a ≠ "xmlns".toList ∧ a ≠ "xml".toList → Bound naming scope a

theorem BindsIn.suffix {s t : Text} (h : BindsIn naming scope (s ++ t)) : BindsIn naming scope t :=
  fun a ha => h a (mem_aliasesIn_append ha s)

theorem BindsIn.plainTag {tag s rest : Text} (h : BindsIn naming scope ('<' :: (tag ++ s) ++ rest))
    (htag : PlainName tag) (hs : SerialisedAttributes attrs s)
    (hattrs : ∀ a ∈ attrs, PlainName a.1 ∧ ∀ c ∈ a.2, isPrintable c = true)
    (hdistinct : (attrs.map (·.1)).Nodup) : PlainTag naming scope tag attrs := by
  have hfree : ∀ {name a : Text}, PlainName name → (splitName name).1 = some a →
      a ≠ "xmlns".toList ∧ a ≠ "xml".toList := by
    intro name a hname ha
    obtain ⟨hsplit, -⟩ | ⟨alias_, part, -, hsplit, -, -, hxml, hxmlns⟩ := hname.splitName_cases
    · rw [hsplit] at ha
      cases ha
    · rw [hsplit] at ha
      exact Option.some.inj ha ▸ ⟨hxmlns, hxml⟩
  have hsuffix : BindsIn naming scope (s ++ rest) :=
    BindsIn.suffix (s := '<' :: tag) (by simpa using h)
  refine ⟨⟨htag, fun a ha => h a ?_ (hfree htag ha)⟩, fun attr hattr => ?_,
    fun attr hattr => (hattrs attr hattr).2, hdistinct⟩
  · simpa using mem_aliasesIn_startTag htag ha (s ++ rest)
  · have hname := (hattrs attr hattr).1
    exact ⟨hname, fun a ha => hsuffix a
      (mem_aliasesIn_attributes hs (fun b hb => (hattrs b hb).1) hattr ha rest) (hfree hname ha)⟩

/-- Aliases that can be bound on one element. -/
structure Bindable (aliases : List Text) : Prop where
  simple : ∀ a ∈ aliases, isSimpleName a = true
  free : ∀ a ∈ aliases, a ≠ "xmlns".toList ∧ a ≠ "xml".toList
  distinct : aliases.Nodup

def bindings (aliases : List Text) : Attributes :=
  aliases.map fun a => ("xmlns:".toList ++ a, addressOf a)

/-- What the aliases stand for inside the element that binds them. -/
def boundScope (aliases : List Text) (scope : Scope) : Scope :=
  (aliases.map fun a => (a, addressOf a)).reverse ++ scope

theorem mem_boundAliases {t a : Text} :
    a ∈ boundAliases t ↔ a ∈ aliasesIn t ∧ a ≠ "xmlns".toList ∧ a ≠ "xml".toList := by
  rw [boundAliases, List.mem_mergeSort, List.mem_eraseDups, List.mem_filter, decide_eq_true_eq]

theorem bindable_boundAliases {t : Text} (h : ∀ c ∈ t, c.toNat < 128) : Bindable (boundAliases t) where
  simple := fun _ ha => isSimpleName_of_mem_aliasesIn h (mem_boundAliases.1 ha).1
  free := fun _ ha => (mem_boundAliases.1 ha).2
  distinct := ((List.mergeSort_perm _ _).nodup_iff).2 (Keyed.nodup_eraseDups _)

theorem addressOf_injective {a b : Text} (h : addressOf a = addressOf b) : a = b :=
  List.append_cancel_left h

theorem addressOf_chars {a : Text} (h : isSimpleName a = true) {c : Char} (hc : c ∈ addressOf a) :
    isPrintable c = true ∧ c ∉ ['&', '<', '>', '"', '}'] := by
  have hstart : addressStart.all (fun c => isPrintable c && decide (c ∉ ['&', '<', '>', '"', '}'])) =
      true := by decide
  rcases List.mem_append.1 hc with hc | hc
  · simpa using List.all_eq_true.1 hstart c hc
  · have hchar := plainNameChar_cases (isPlainNameChar_of_isSimpleName h hc)
    refine ⟨hchar.2.2.1, fun hmem => hchar.2.2.2 ?_⟩
    simp only [List.mem_cons, List.not_mem_nil, or_false] at hmem
    rcases hmem with rfl | rfl | rfl | rfl | rfl <;> simp

theorem bindingFault?_addressOf {a : Text} (h : isSimpleName a = true)
    (hfree : a ≠ "xmlns".toList ∧ a ≠ "xml".toList) : bindingFault? a (addressOf a) = none := by
  have hhead : (addressOf a).head? = some 'u' := rfl
  have hempty : ¬ ((addressOf a).isEmpty = true ∧ (!a.isEmpty) = true) := fun he => by
    rw [List.isEmpty_iff.1 he.1] at hhead
    cases hhead
  have hbrace : ¬ (addressOf a).contains '}' = true := fun hc =>
    absurd (addressOf_chars h (List.contains_iff_mem.1 hc)).2 (by simp)
  have hreserved : ¬ (addressOf a = xmlAddress ∨ addressOf a = xmlnsAddress) := by
    rintro (ha | ha) <;>
    · rw [ha] at hhead
      exact absurd hhead (by decide)
  rw [bindingFault?, if_neg hempty, if_neg hfree.1, if_neg hbrace, if_neg hfree.2, if_neg hreserved]

theorem spelled_self {quote : Option Char} {t : Text}
    (h : ∀ c ∈ t, c ∉ ['&', '<', '>'] ∧ quote ≠ some c) : Spelled quote t t := by
  induction t with
  | nil => exact .nil
  | cons c t ih =>
    have hc := h c (List.mem_cons_self ..)
    exact .cons (.bare hc.1 hc.2) (ih fun d hd => h d (List.mem_cons_of_mem _ hd))

theorem bindingText_eq (a : Text) :
    bindingText a = ' ' :: (("xmlns:".toList ++ a) ++ '=' :: '"' :: (addressOf a ++ ['"'])) := by
  have hparts : ∀ start middle : Text, start = ' ' :: "xmlns:".toList → middle = ['=', '"'] →
      start ++ a ++ middle ++ addressOf a ++ ['"'] =
        ' ' :: (("xmlns:".toList ++ a) ++ '=' :: '"' :: (addressOf a ++ ['"'])) := by
    rintro _ _ rfl rfl
    simp only [List.append_assoc, List.cons_append, List.nil_append]
  exact hparts _ _ (by decide +kernel) (by decide +kernel)

theorem serialisedAttributes_bindings {aliases : List Text} (h : ∀ a ∈ aliases, isSimpleName a = true) :
    SerialisedAttributes (bindings aliases) (aliases.flatMap bindingText) := by
  induction aliases with
  | nil => exact .nil
  | cons a aliases ih =>
    have haddress : Spelled (some '"') (addressOf a) (addressOf a) := spelled_self fun c hc => by
      have hchar := (addressOf_chars (h a (List.mem_cons_self ..)) hc).2
      simp only [List.mem_cons, List.not_mem_nil, or_false, not_or] at hchar ⊢
      exact ⟨⟨hchar.1, hchar.2.1, hchar.2.2.1⟩, fun hq => hchar.2.2.2.1 (Option.some.inj hq).symm⟩
    have hrest := ih fun b hb => h b (List.mem_cons_of_mem _ hb)
    rw [List.flatMap_cons, bindingText_eq]
    have hcons : SerialisedAttributes (("xmlns:".toList ++ a, addressOf a) :: bindings aliases) _ :=
      .cons (.inl rfl) haddress hrest
    simpa only [bindings, List.map_cons, List.append_assoc, List.cons_append, List.nil_append] using
      hcons

theorem bindings_markup {aliases : List Text} (h : ∀ a ∈ aliases, isSimpleName a = true) :
    ∀ a ∈ bindings aliases, MarkupName a.1 ∧ ∀ c ∈ a.2, isPrintable c = true := by
  intro attr hattr
  obtain ⟨a, ha, rfl⟩ := List.mem_map.1 hattr
  have hname : MarkupName ("xmlns".toList ++ ':' :: a) := .aliased (by decide) (h a ha)
  exact ⟨hname, fun c hc => (addressOf_chars (h a ha) hc).1⟩

/-- An attribute that binds an alias goes into the scope, and is none of the element's own. -/
theorem readAttributes_binding {raw : RawAttribute} {raws : List RawAttribute} {seen : List Text}
    {a address : Text} (hnew : seen.contains raw.name = false)
    (hvalue : valueText offset raw.value = .ok address) (hdeclared : declaredAlias? raw.name = some a)
    (hbinding : bindingFault? a address = none) :
    readAttributes offset seen scope (raw :: raws) =
      readAttributes offset (raw.name :: seen) ((a, address) :: scope) raws := by
  rw [readAttributes, hnew, if_neg Bool.false_ne_true]
  simp only [Bind.bind, Except.bind, hvalue, hdeclared, hbinding]

theorem readAttributes_bindings {aliases : List Text} (h : Bindable aliases) {raws : List RawAttribute}
    (hraws : List.Forall₂ Stands raws (bindings aliases)) {seen : List Text}
    (hseen : ∀ a ∈ aliases, "xmlns:".toList ++ a ∉ seen) :
    readAttributes offset seen scope raws = .ok (boundScope aliases scope, []) := by
  induction aliases generalizing raws seen scope with
  | nil =>
    cases hraws
    rfl
  | cons a aliases ih =>
    obtain ⟨raw, raws, hraw, hrest, rfl⟩ : ∃ raw rest, Stands raw ("xmlns:".toList ++ a, addressOf a) ∧
        List.Forall₂ Stands rest (bindings aliases) ∧ raws = raw :: rest := by
      cases hraws with
      | cons hraw hrest => exact ⟨_, _, hraw, hrest, rfl⟩
    have hmem : a ∈ a :: aliases := List.mem_cons_self ..
    have hdistinct := List.nodup_cons.1 h.distinct
    have hnew : seen.contains raw.name = false := by
      rw [hraw.1]
      simpa using hseen a hmem
    have hdeclared : declaredAlias? raw.name = some a := by
      have hcolon : ':' ∉ "xmlns".toList := by decide
      have hsplit : splitName ("xmlns:".toList ++ a) = (some "xmlns".toList, a) :=
        splitName_aliased hcolon a
      rw [hraw.1, declaredAlias?, hsplit]
      rfl
    have hothers : Bindable aliases := ⟨fun b hb => h.simple b (List.mem_cons_of_mem _ hb),
      fun b hb => h.free b (List.mem_cons_of_mem _ hb), hdistinct.2⟩
    have htail : readAttributes offset (raw.name :: seen) ((a, addressOf a) :: scope) raws =
        .ok (boundScope aliases ((a, addressOf a) :: scope), []) :=
      ih hothers hrest (fun b hb hmem => by
        rcases List.mem_cons.1 hmem with hb' | hb'
        · rw [hraw.1] at hb'
          exact hdistinct.1 (List.append_cancel_left hb' ▸ hb)
        · exact hseen b (List.mem_cons_of_mem _ hb) hb')
    have hbinding := bindingFault?_addressOf (h.simple a hmem) (h.free a hmem)
    rw [readAttributes_binding hnew (hraw.2 offset) hdeclared hbinding, htail]
    simp [boundScope]

theorem lookup_addresses {aliases : List Text} {a : Text} (h : a ∈ aliases) (scope : Scope) :
    ((aliases.map fun b => (b, addressOf b)) ++ scope).lookup a = some (addressOf a) := by
  induction aliases with
  | nil => cases h
  | cons b aliases ih =>
    rw [List.map_cons, List.cons_append, List.lookup_cons]
    by_cases hab : a = b
    · rw [hab, beq_self_eq_true]
    · rw [beq_eq_false_iff_ne.2 hab]
      exact ih ((List.mem_cons.1 h).resolve_left hab)

theorem bound_of_mem {aliases : List Text} {a : Text} (h : a ∈ aliases) (text : Text) (scope : Scope) :
    Bound (Prepared.naming ⟨text, aliases⟩) (boundScope aliases scope) a := by
  refine ⟨?_, ?_⟩
  · rw [Scope.address?, boundScope, ← List.map_reverse, lookup_addresses (List.mem_reverse.2 h)]
    rfl
  · have hfound : ∃ b, aliases.find? (fun b => decide (addressOf b = addressOf a)) = some b :=
      Option.isSome_iff_exists.1 (List.find?_isSome.2 ⟨a, h, by simp⟩)
    obtain ⟨b, hb⟩ := hfound
    have hsame : addressOf b = addressOf a := by simpa using List.find?_some hb
    rw [Prepared.naming, hb, addressOf_injective hsame]

/-- No alias is empty, so the names without one stay without a namespace. -/
theorem address?_boundScope_nil {aliases : List Text} (h : ∀ a ∈ aliases, isSimpleName a = true) :
    (boundScope aliases .initial).address? [] = none := by
  have hlookup : (boundScope aliases .initial).lookup [] = none := by
    rw [List.lookup_eq_none_iff]
    intro e he
    rcases List.mem_append.1 he with he | he
    · obtain ⟨a, ha, rfl⟩ := List.mem_map.1 (List.mem_reverse.1 he)
      obtain ⟨c, cs, rfl, -⟩ := exists_cons_of_isSimpleName (h a ha)
      rfl
    · rw [List.mem_singleton.1 he]
      rfl
  rw [Scope.address?, hlookup]

theorem markupName_outerTag : MarkupName outerTag := .simple (by decide +kernel)

def outerFrame (aliases : List Text) : Frame := plainFrame outerTag [] (boundScope aliases .initial)

theorem openFrame_outer {aliases : List Text} (h : Bindable aliases) (naming : Naming) (offset : Nat)
    {raws : List RawAttribute} (hraws : List.Forall₂ Stands raws (bindings aliases)) :
    Builder.openFrame naming .initial offset outerTag raws = .ok (outerFrame aliases) := by
  have hread : readAttributes offset [] .initial raws = .ok (boundScope aliases .initial, []) :=
    readAttributes_bindings h hraws (by simp)
  have hsplit : splitName outerTag = (none, outerTag) := by decide +kernel
  have hbound : NameBound naming (boundScope aliases .initial) outerTag := by
    intro a ha
    rw [hsplit] at ha
    cases ha
  have hfull := fullName_plain hbound (address?_boundScope_nil h.simple) offset true
  rw [openFrame_of hread rfl hfull, plainFullName, hsplit]
  rfl

end LightningTemplate.Markup
