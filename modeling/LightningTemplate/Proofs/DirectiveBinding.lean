import Mathlib.Data.List.Basic
import LightningTemplate.Proofs.Branches
import LightningTemplate.Proofs.Rewriting
import LightningTemplate.Proofs.SiteText

/-! What stands in the braces of a directive.  The condition of a conditional and the items of an
iteration are converted and lose one pair of braces.  What is left is one binding just when the
value is one expression that has a reference or a getter, or holds no expression and is one name
to begin with (`isBinding_unbrace_iff`); of everything else, only missing items are warned of
(`bindings_sound_iff`). -/
namespace LightningTemplate
open Text Walk Node

namespace Expression
open Template

variable {t r a b : Text}

/-- More than signs, and no brace. -/
def IsBinding (g : Text) : Prop := (∃ c ∈ g, c ≠ '!') ∧ ∀ c ∈ g, isBrace c = false

instance (g : Text) : Decidable (IsBinding g) := inferInstanceAs (Decidable (_ ∧ _))

theorem isBinding_cons_sign (g : Text) : IsBinding ('!' :: g) ↔ IsBinding g := by
  have hsign : isBrace '!' = false := by decide
  simp [IsBinding, hsign]

theorem isBinding_signed (negated : Bool) (g : Text) :
    IsBinding (signed negated g) ↔ IsBinding g := by
  cases negated with
  | false => rfl
  | true => exact isBinding_cons_sign g

theorem isBinding_of_bare (hne : t ≠ []) (h : ∀ c ∈ t, isBare c = true) : IsBinding t := by
  obtain ⟨c, cs, rfl⟩ := List.exists_cons_of_ne_nil hne
  refine ⟨⟨c, List.mem_cons_self, ?_⟩, fun d hd => isBrace_of_bare (h d hd)⟩
  rintro rfl
  exact absurd (h '!' List.mem_cons_self) (by decide)

theorem isBinding_of_word {w : Text} (h : IsPathName w) : IsBinding w :=
  isBinding_of_bare h.1 fun c hc => isBare_of_isWord (h.2 c hc)

theorem isBinding_of_path {p : Text} (h : IsPath p) : IsBinding p := by
  have htokens := tokens_path h
  have htoken : ⟨.path, p⟩ ∈ tokens p := by rw [htokens]; exact List.mem_singleton_self _
  have hchars := isPathChar_of_mem_tokens htoken
  have hne : p ≠ [] := by
    rintro rfl
    cases htokens
  exact isBinding_of_bare hne fun c hc => isBare_of_isPathChar (hchars c hc)

theorem isBinding_getterName (n : Nat) : IsBinding (getterName n) :=
  isBinding_of_bare (List.append_ne_nil_of_left_ne_nil (by decide) _) (bare_getterName n)

theorem uncapitalize_ne_nil (h : t ≠ []) : uncapitalize t ≠ [] := by
  obtain ⟨c, cs, rfl⟩ := List.exists_cons_of_ne_nil h
  have hlower : lower [c] ≠ [] := lower_ne_nil (List.cons_ne_nil c [])
  simp [uncapitalize, hlower]

theorem fieldGetter_ne_nil (h : t ≠ []) : fieldGetter t ≠ [] := by
  unfold fieldGetter
  split
  · rename_i suffix hfound
    have hshorter : suffix.length < t.length := by
      have hfits := List.find?_some hfound
      rw [Bool.and_eq_true, decide_eq_true_eq] at hfits
      exact hfits.2
    refine uncapitalize_ne_nil fun hnil => ?_
    have hlength := congrArg List.length hnil
    rw [List.length_take, List.length_nil] at hlength
    omega
  · exact uncapitalize_ne_nil h

theorem Known.isBinding {p ref : Text} {kind : Kind} (h : Known p kind ref) : IsBinding ref := by
  cases h with
  | value name => exact isBinding_of_word name
  | handler name => exact isBinding_of_word name
  | @label v w space name =>
    have hlabel : ∀ c ∈ "label".toList, isBare c = true :=
      List.all_eq_true.1 (by decide +kernel)
    refine isBinding_of_bare (by simp) fun c hc => ?_
    rw [List.mem_append, List.mem_append] at hc
    rcases hc with (hc | hc) | hc
    · exact hlabel c hc
    · exact isBare_of_isWord (space.2 c hc)
    · exact isBare_of_isWord (name.2 c hc)
  | globalId => exact isBinding_of_bare (by simp) (List.all_eq_true.1 (by decide +kernel))
  | field nested names name =>
    exact isBinding_of_bare (fieldGetter_ne_nil name.1)
      (isBare_fieldGetter fun c hc => isBare_of_isWord (name.2 c hc))

def replaced (count : Nat) (inner : Text) : Text :=
  if (classify inner).needsGetter then getterName (count + 1) else (classify inner).reference

theorem isBinding_replaced (count : Nat) (inner : Text) : IsBinding (replaced count inner) ↔
    (classify inner).kind ≠ .passthrough ∨ IsBinding (strip inner) := by
  unfold replaced Classification.needsGetter
  cases hkind : (classify inner).kind with
  | complex => exact iff_of_true (isBinding_getterName _) (.inl (by decide))
  | simpleFlat =>
    obtain ⟨p, ref, negated, hknown, hsigned⟩ := (classify_kind_iff (.inl rfl)).1 hkind
    rw [classify_known hknown hsigned]
    exact iff_of_true ((isBinding_signed negated ref).2 hknown.isBinding) (.inl (by decide))
  | simpleDotted =>
    obtain ⟨p, ref, negated, hknown, hsigned⟩ := (classify_kind_iff (.inr rfl)).1 hkind
    rw [classify_known hknown hsigned]
    exact iff_of_true ((isBinding_signed negated ref).2 hknown.isBinding) (.inl (by decide))
  | passthrough =>
    rw [or_iff_right (fun h => h rfl)]
    rcases classify_passthrough hkind with ⟨p, hp, hsigned, -, href⟩ | ⟨-, -, href⟩
    · obtain ⟨gap, hgap, hinner⟩ := signed_negated_iff.1 hsigned
      have hpath := isBinding_of_path hp
      rw [href, hinner]
      refine iff_of_true ((isBinding_cons_sign p).2 hpath) ((isBinding_cons_sign _).2 ?_)
      obtain ⟨⟨c, hc, hsign⟩, hbraces⟩ := hpath
      refine ⟨⟨c, List.mem_append_right _ hc, hsign⟩, List.forall_mem_append.2 ⟨?_, hbraces⟩⟩
      exact fun d hd => isBrace_of_blank (List.all_eq_true.1 hgap d hd)
    · rw [href]
      rfl

theorem text_substitutePieces_append (a : Text) (count : Nat) (ps : List Piece) :
    (substitutePieces count (a.map .char ++ ps)).text = a ++ (substitutePieces count ps).text := by
  induction a with
  | nil => rfl
  | cons c a ih => exact congrArg (c :: ·) ih

theorem text_substitute_expression (count : Nat) (sign : Char) (inner : Text) :
    ((Piece.expression sign inner).substitute count).text = inBraces (replaced count inner) := by
  unfold Piece.substitute replaced
  dsimp only
  split <;> rfl

theorem strip_inBraces (ha : isAllBlank a = true) (hb : isAllBlank b = true) (r : Text) :
    strip (a ++ (inBraces r ++ b)) = inBraces r := by
  have hleft : stripLeft isBlank (a ++ (inBraces r ++ b)) = inBraces r ++ b := by
    rw [stripLeft, List.dropWhile_append_of_pos (List.all_eq_true.1 ha)]
    exact List.dropWhile_cons_of_neg (by decide)
  have hblank : ∀ c ∈ b.reverse, isBlank c = true := fun c hc =>
    List.all_eq_true.1 hb c (List.mem_reverse.1 hc)
  have hreverse : (inBraces r).reverse = '}' :: ('{' :: r).reverse := by simp [inBraces]
  rw [strip, stripBoth, hleft, stripRight, List.reverse_append,
    List.dropWhile_append_of_pos hblank, hreverse, List.dropWhile_cons_of_neg (by decide),
    ← hreverse, List.reverse_reverse]

theorem unbrace_of_strip (h : strip t = inBraces r) : unbrace t = r := by
  unfold unbrace
  rw [h]
  cases r with
  | nil => rfl
  | cons c cs =>
    have hlast : (c :: (cs ++ ['}'])).getLast? = some '}' := by
      rw [← List.cons_append, List.getLast?_concat]
    simp only [inBraces, List.cons_append, if_pos hlast]
    rw [← List.cons_append, List.dropLast_concat]

/-- In a value that is one expression, only the blanks around it stay. -/
theorem text_substitute_single {inner : Text} (h : single? t = some inner) (count : Nat) :
    ∃ before after, isAllBlank before = true ∧ isAllBlank after = true ∧
      t = before ++ (strip t ++ after) ∧
      (substitute count t).text = before ++ (inBraces (replaced count inner) ++ after) := by
  obtain ⟨sign, before, after, hbefore, hafter, ht, -, hpieces⟩ := pieces_single h
  refine ⟨before, after, hbefore, hafter, ht, ?_⟩
  have hlast (later : Nat) : (substitutePieces later (after.map .char)).text = after := by
    have hend := text_substitutePieces_append after later []
    rwa [List.append_nil, substitutePieces, List.append_nil] at hend
  rw [substitute, hpieces, text_substitutePieces_append, substitutePieces, hlast,
    text_substitute_expression]

/-- A value that is one expression leaves what that is replaced by. -/
theorem unbrace_substitute_single {inner : Text} (h : single? t = some inner) (count : Nat) :
    unbrace (substitute count t).text = replaced count inner := by
  obtain ⟨before, after, hbefore, hafter, -, hwhole⟩ := text_substitute_single h count
  rw [hwhole]
  exact unbrace_of_strip (strip_inBraces hbefore hafter _)

/-- Every expression is rewritten to braces with something in them. -/
theorem Rewritten.cons {getters getters' : List Getter} {f : Found} {found : List Found}
    {out : Text} (h : Rewritten getters (f :: found) out getters') :
    ∃ r more, (∃ getters, Rewritten getters found more getters') ∧
      out = inBraces r ++ (f.after ++ more) := by
  cases h with
  | hoisted computes more => exact ⟨_, _, ⟨_, more⟩, rfl⟩
  | referred plain more => exact ⟨_, _, ⟨_, more⟩, rfl⟩

theorem Rewritten.eq_nil {getters getters' : List Getter} {found : List Found} {out : Text}
    (h : Rewritten getters found out getters') (hout : '{' ∉ out) : found = [] ∧ out = [] := by
  cases found with
  | nil =>
    cases h
    exact ⟨rfl, rfl⟩
  | cons f found =>
    obtain ⟨r, more, -, rfl⟩ := h.cons
    exact absurd (List.mem_append_left _ List.mem_cons_self) hout

/-- Where there is no brace left in the braces, the value was one expression. -/
theorem single_of_unbrace {count : Nat} (hoccurs : occurs t = true)
    (h : ∀ c ∈ unbrace (substitute count t).text, isBrace c = false) :
    (single? t).isSome = true := by
  have hleft := leftmost_stretches t
  have hne := (any_isExpression_stretches (pieces t)).1 hoccurs
  obtain ⟨out, htext, hrewritten⟩ := rewritten_stretches (pieces t) (List.replicate count ⟨[], []⟩)
  rw [List.length_replicate] at htext hrewritten
  generalize stretches (pieces t) = cut at hleft hne htext hrewritten
  obtain ⟨first, found⟩ := cut
  dsimp only at hleft hne htext hrewritten
  obtain ⟨f, later, rfl⟩ := List.exists_cons_of_ne_nil hne
  obtain ⟨r, more, ⟨_, hmore⟩, rfl⟩ := hrewritten.cons
  have hopen : '{' ∉ unbrace (substitute count t).text := fun hmem => absurd (h _ hmem) (by decide)
  have hclose : '}' ∉ unbrace (substitute count t).text := fun hmem => absurd (h _ hmem) (by decide)
  obtain ⟨before, after, hbefore, hafter, hends⟩ := exists_strip (substitute count t).text
  have hb := braces_notMem_of_blank hbefore
  have ha := braces_notMem_of_blank hafter
  change (substitute count t).text = _ at htext
  rcases unbrace_cases (substitute count t).text with hbraced | hbare
  · -- the only braces are those around the expression, so all else is blank
    rw [← hbraced] at hends
    generalize unbrace (substitute count t).text = x at hends hopen hclose
    have hsame : before ++ '{' :: (x ++ '}' :: after) =
        first ++ '{' :: (r ++ '}' :: (f.after ++ more)) := by
      simpa [inBraces] using hends.symm.trans htext
    have hnone : '{' ∉ x ++ '}' :: after := by simp [hopen, ha.1]
    obtain ⟨rfl, -, hinner⟩ := (List.append_cons_inj_of_notMem hb.1 hnone).1 hsame
    obtain ⟨rfl, -, hrest⟩ := (List.append_cons_inj_of_notMem hclose ha.2).1 hinner
    rw [hrest, List.mem_append, not_or] at ha
    obtain ⟨rfl, rfl⟩ := hmore.eq_nil ha.1.2
    rw [List.append_nil] at hrest
    rw [single?_isSome_iff, hleft.whole]
    refine ⟨f.sign, f.inner, hleft.expressions f List.mem_cons_self, ?_⟩
    rw [hrest] at hafter
    have hwhole : before ++ rejoined [f] = before ++ (inBraces (f.sign :: f.inner) ++ f.after) := by
      rw [rejoined, List.flatMap_singleton]
      rfl
    rw [hwhole, strip_inBraces hbefore hafter]
    rfl
  · rw [hbare] at hopen
    have hnone : '{' ∉ (substitute count t).text := by
      rw [hends, List.mem_append, List.mem_append, not_or, not_or]
      exact ⟨hb.1, hopen, ha.1⟩
    rw [htext] at hnone
    exact absurd (List.mem_append_right _ (List.mem_append_left _ List.mem_cons_self)) hnone

/-- The values of which one binding is left: one expression that does not pass as it is or, as it
is, is one; and a value without expressions that is one, an outer pair of braces aside. -/
def BindsOnce (t : Text) : Prop :=
  match single? t with
  | some inner => (classify inner).kind ≠ .passthrough ∨ IsBinding (strip inner)
  | none => occurs t = false ∧ IsBinding (unbrace t)

theorem isBinding_unbrace_iff (count : Nat) (t : Text) :
    IsBinding (unbrace (substitute count t).text) ↔ BindsOnce t := by
  unfold BindsOnce
  cases hsingle : single? t with
  | some inner =>
    rw [unbrace_substitute_single hsingle]
    exact isBinding_replaced count inner
  | none =>
    cases hoccurs : occurs t with
    | false =>
      rw [substitute_of_not_occurs hoccurs]
      exact (and_iff_right rfl).symm
    | true =>
      refine iff_of_false (fun h => ?_) fun h => Bool.noConfusion h.1
      have hsome := single_of_unbrace hoccurs h.2
      rw [hsingle] at hsome
      cases hsome

end Expression

namespace Node
open Expression

/-- What is converted for the directive of a node, and whether it is negated: the condition of a
conditional that has one, or the items of an iteration. -/
def bindingSource? : Node → Option (Bool × Text)
  | .text _ => none
  | .element tag attrs _ =>
    match Directive.ofTag tag with
    | .conditional => Render.condition? attrs
    | .iteration => some (false, attrs.get "items".toList)
    | _ => none

/-- The text that is left of it for the braces, after so many getters. -/
def boundText (count : Nat) (source : Bool × Text) : Text :=
  signed source.1 (unbrace (substitute count source.2).text)

def directiveText (e : Node) (bound : Text) : Text :=
  (if e.directive = .conditional then "lwc:if=".toList else "for:each=".toList) ++ inBraces bound

theorem directive_of_bindingSource? {e : Node} {source : Bool × Text}
    (h : e.bindingSource? = some source) :
    e.directive = .conditional ∨ e.directive = .iteration := by
  unfold bindingSource? at h
  split at h
  · cases h
  · split at h
    · exact .inl ‹_›
    · exact .inr ‹_›
    · cases h

theorem getLast?_directiveText (e : Node) (bound : Text) :
    (e.directiveText bound).getLast? = some '}' := by
  rw [directiveText, inBraces, ← List.cons_append, ← List.append_assoc, List.getLast?_concat]

end Node

namespace Render
open Expression Template

variable {s : Surroundings} {attrs : Attributes} {source : Bool × Text} {c : Node}

theorem conditionalFrame_opens (hd : c.directive = .conditional)
    (hsource : condition? attrs = some source) (hasElse : Bool) (otherwise main : Walk Text) :
    (conditionalFrame s attrs hasElse otherwise main).Always (Contains fun w =>
      ∃ count, w = directiveText c (boundText count source)) := by
  have hguard : (guardOf attrs).Always fun guard => ∃ count, guard = some (boundText count source) :=
    fun n => ⟨n, by rw [guardOf_eq hsource]; rfl⟩
  refine .bind hguard fun guard hguard => .bind_any fun elseText => .bind_any fun mainText => ?_
  obtain ⟨count, rfl⟩ := hguard
  have hopening : directiveText c (boundText count source) <:+:
      block s.indent ("<template lwc:if=".toList ++ inBraces (boundText count source) ++ ['>'])
        mainText templateClose := by
    refine .trans ?_ (opening_infix_block _ _ _ _)
    rw [directiveText, if_pos hd]
    exact ⟨"<template ".toList, ['>'], by rw [← List.append_assoc]; rfl⟩
  refine .bind_any fun _ => ?_
  cases hasElse with
  | true =>
    exact .bind_any fun _ =>
      .pure ⟨_, ⟨count, rfl⟩, hopening.trans (List.prefix_append _ _).isInfix⟩
  | false => exact .pure ⟨_, ⟨count, rfl⟩, hopening⟩

theorem iterationFrame_opens (hd : c.directive = .iteration) (content : Walk Text) :
    (iterationFrame s attrs content).Always (Contains fun w =>
      ∃ count, w = directiveText c (boundText count (false, attrs.get "items".toList))) := by
  have hitems : (convert (attrs.get "items".toList)).Always fun u =>
      ∃ count, unbrace u = boundText count (false, attrs.get "items".toList) :=
    fun n => ⟨n, rfl⟩
  have hopening (g more : Text) :
      directiveText c g <:+: "<template for:each=".toList ++ inBraces g ++ more := by
    rw [directiveText, if_neg (by rw [hd]; decide)]
    exact ⟨"<template ".toList, more, by rw [← List.append_assoc]; rfl⟩
  unfold iterationFrame
  refine .ite (.bind_any fun _ => ?_) ?_
  all_goals
    refine .bind hitems fun u hu => .bind_any fun _ => .bind_any fun body => .pure ?_
    obtain ⟨count, hcount⟩ := hu
    refine ⟨_, ⟨count, rfl⟩, .trans ?_ (opening_infix_block _ _ _ _)⟩
    rw [← hcount]
    simpa only [List.append_assoc] using hopening (unbrace u) _

theorem writtenWith_directive {m : Mapping} {p : Site} (h : p.node.bindingSource? = some source) :
    WrittenWith (fun w => ∃ count, w = directiveText p.node (boundText count source)) m p := by
  intro s hs
  obtain ⟨above, handed, node⟩ := p
  cases node with
  | text content => cases h
  | element tag attrs nodes =>
    rcases directive_of_bindingSource? h with hd | hd
    · have htag : Directive.ofTag tag = .conditional := hd
      rw [bindingSource?, htag] at h
      simp only [renderNode, htag]
      exact conditionalFrame_opens hd h _ _ _
    · have htag : Directive.ofTag tag = .iteration := hd
      rw [bindingSource?, htag] at h
      obtain rfl := Option.some.inj h
      simp only [renderNode, htag]
      exact iterationFrame_opens hd _

end Render
open Expression

/-- The template holds the directive of the element, with this text in its braces. -/
def Emits (m : Mapping) (nodes : List Node) (e : Node) (bound : Text) : Prop :=
  e ∈ renderedElementsIn nodes ∧ ∃ source count, e.bindingSource? = some source ∧
    bound = boundText count source ∧ e.directiveText bound <:+: (Conversion.ofNodes m nodes).template

/-- A warning of the element says that its condition or its items are missing. -/
def Reported (m : Mapping) (nodes : List Node) (e : Node) : Prop :=
  ∃ p ∈ sitesIn [] [] nodes, p.node = e ∧
    ∃ w ∈ Site.warnings m p, w = .conditionMissing ∨ w = .itemsMissing

variable {m : Mapping} {nodes : List Node} {e : Node} {source : Bool × Text}

theorem exists_emits (he : e ∈ renderedElementsIn nodes) (hs : e.bindingSource? = some source) :
    ∃ count, Emits m nodes e (boundText count source) := by
  have hmem := he
  rw [← map_node_sitesIn, List.mem_map] at hmem
  obtain ⟨p, hp, rfl⟩ := hmem
  have hbranch : p.isBranch = false := by
    rw [Site.isBranch, isOtherBranch]
    rcases directive_of_bindingSource? hs with hd | hd <;> rw [hd] <;> rfl
  have hends : ∀ w, (∃ count, w = p.node.directiveText (boundText count source)) →
      w.getLast? ≠ some '\n' := by
    rintro w ⟨count, rfl⟩
    rw [getLast?_directiveText]
    decide
  obtain ⟨w, ⟨count, rfl⟩, hshown⟩ :=
    template_contains hends hp hbranch (Render.writtenWith_directive (m := m) hs)
  exact ⟨count, he, source, count, hs, rfl, hshown⟩

theorem hasCondition_of_condition? {attrs : Attributes}
    (h : Render.condition? attrs = some source) :
    hasCondition attrs = true := by
  unfold Render.condition? at h
  unfold hasCondition
  split at h
  · rename_i htrue
    rw [htrue, Bool.true_or]
  · split at h
    · rename_i hfalse
      rw [hfalse, Bool.or_true]
    · cases h

theorem reported_iff (he : e ∈ renderedElementsIn nodes) (hs : e.bindingSource? = some source) :
    Reported m nodes e ↔ e.directive = .iteration ∧ source.2 = [] := by
  cases e with
  | text content => cases hs
  | element tag attrs ns =>
    have hitems : Directive.ofTag tag = .iteration → source = (false, attrs.get "items".toList) := by
      intro hd
      rw [bindingSource?, hd] at hs
      exact (Option.some.inj hs).symm
    constructor
    · rintro ⟨⟨above, handed, node⟩, -, rfl, w, hw, hmissing⟩
      rcases directive_of_bindingSource? hs with hd | hd
      · have htag : Directive.ofTag tag = .conditional := hd
        rw [bindingSource?, htag] at hs
        rw [Site.warnings_conditional htag, Site.conditionWarnings,
          if_pos (hasCondition_of_condition? hs)] at hw
        cases hw
      · have htag : Directive.ofTag tag = .iteration := hd
        have hkeys : w ∉ (Render.keyWarnings (Render.itemVariable attrs) ns).filterMap
            Finding.warning? := by
          unfold Render.keyWarnings
          split
          · rcases hmissing with rfl | rfl <;> simp
          · split <;> rcases hmissing with rfl | rfl <;> simp
        rw [Site.warnings_iteration htag, Site.iterationWarnings, List.mem_append,
          or_iff_left hkeys] at hw
        refine ⟨hd, ?_⟩
        rw [hitems htag]
        by_contra hne
        rw [if_neg (by simpa using hne)] at hw
        cases hw
    · rintro ⟨hd, hempty⟩
      have htag : Directive.ofTag tag = .iteration := hd
      rw [← map_node_sitesIn, List.mem_map] at he
      obtain ⟨⟨above, handed, node⟩, hp, rfl⟩ := he
      rw [hitems htag] at hempty
      refine ⟨_, hp, rfl, .itemsMissing, ?_, .inr rfl⟩
      rw [Site.warnings_iteration htag, Site.iterationWarnings, if_pos (by simpa using hempty)]
      exact List.mem_append_left _ (List.mem_singleton_self _)

/-- The warnings of a conversion are those of its elements, every conditional with a condition and
every iteration emits its directive, and all that is emitted is one binding or reported just
when every condition and every value of items binds once or is an iteration's missing value. -/
theorem bindings_sound_iff (m : Mapping) (nodes : List Node) :
    (Conversion.ofNodes m nodes).findings.warnings.Perm
      ((sitesIn [] [] nodes).flatMap (Site.warnings m)) ∧
    (∀ e ∈ renderedElementsIn nodes, ∀ source, e.bindingSource? = some source →
      ∃ count, Emits m nodes e (boundText count source)) ∧
    ((∀ e bound, Emits m nodes e bound → IsBinding bound ∨ Reported m nodes e) ↔
      ∀ e ∈ renderedElementsIn nodes, ∀ source, e.bindingSource? = some source →
        BindsOnce source.2 ∨ e.directive = .iteration ∧ source.2 = []) := by
  have hbinds (count : Nat) (source : Bool × Text) :
      IsBinding (boundText count source) ↔ BindsOnce source.2 :=
    (isBinding_signed _ _).trans (isBinding_unbrace_iff count source.2)
  refine ⟨Conversion.warnings_perm m nodes, fun e he source hs => exists_emits he hs, ?_⟩
  constructor
  · intro h e he source hs
    obtain ⟨count, hemits⟩ := exists_emits (m := m) he hs
    exact (h e _ hemits).imp (hbinds count source).1 (reported_iff he hs).1
  · rintro h e bound ⟨he, source, count, hs, rfl, -⟩
    exact (h e he source hs).imp (hbinds count source).2 (reported_iff he hs).2

/-- Items of a blank alone, which are not taken for missing. -/
def blankItems : List Node :=
  [.element "aura:iteration".toList [("items".toList, " ".toList)] []]

/-- Two expressions with a word between them. -/
def mixedCondition : List Node :=
  [.element "aura:if".toList [("isTrue".toList, "{!v.a} and {!v.b}".toList)] []]

/-- Neither directive is a binding, and nothing is said of it. -/
theorem bindingSamples_unsound :
    ((Conversion.ofNodes .builtIn blankItems).findings.warnings = [] ∧
      Emits .builtIn blankItems (blankItems[0]) [] ∧
      ¬ ∀ e bound, Emits .builtIn blankItems e bound →
        IsBinding bound ∨ Reported .builtIn blankItems e) ∧
    (Conversion.ofNodes .builtIn mixedCondition).findings.warnings = [] ∧
      Emits .builtIn mixedCondition (mixedCondition[0]) "a\x7d and \x7bb".toList ∧
      ¬ ∀ e bound, Emits .builtIn mixedCondition e bound →
        IsBinding bound ∨ Reported .builtIn mixedCondition e := by
  have hunreported {nodes : List Node} (e : Node)
      (hnone : (Conversion.ofNodes .builtIn nodes).findings.warnings = []) :
      ¬ Reported .builtIn nodes e := by
    rintro ⟨p, hp, -, w, hw, -⟩
    have hmem :=
      (Conversion.warnings_perm .builtIn nodes).mem_iff.2 (List.mem_flatMap.2 ⟨p, hp, hw⟩)
    rw [hnone] at hmem
    cases hmem
  have hblank : (Conversion.ofNodes .builtIn blankItems).findings.warnings = [] := by decide +kernel
  have hmixed : (Conversion.ofNodes .builtIn mixedCondition).findings.warnings = [] := by
    decide +kernel
  have hempty : Emits .builtIn blankItems (blankItems[0]) [] :=
    ⟨List.mem_singleton_self _, (false, " ".toList), 0, by decide, by decide, by decide +kernel⟩
  have htwo : Emits .builtIn mixedCondition (mixedCondition[0]) "a\x7d and \x7bb".toList :=
    ⟨List.mem_singleton_self _, (false, "\x7b!v.a\x7d and \x7b!v.b\x7d".toList), 0, by decide,
      by decide +kernel, by decide +kernel⟩
  refine ⟨⟨hblank, hempty, fun h => ?_⟩, hmixed, htwo, fun h => ?_⟩
  · rcases h _ _ hempty with ⟨⟨c, hc, -⟩, -⟩ | hreported
    · cases hc
    · exact hunreported _ hblank hreported
  · rcases h _ _ htwo with ⟨-, hbraces⟩ | hreported
    · exact Bool.noConfusion (hbraces '}' (by simp))
    · exact hunreported _ hmixed hreported

end LightningTemplate
