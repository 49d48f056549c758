import LightningTemplate.Proofs.DirectiveBinding

/-! Which values are said to mix text with expressions.  A converted value stands bare when it is
one pair of braces and nothing else.  That is what becomes of a value with an expression just when
it is one expression without blanks around it, and what replaces that holds no brace
(`isBraced_substitute_eq`); every other value with an expression is reported. -/
namespace LightningTemplate
open Text Walk Node

namespace Expression
open Template

variable {t inner : Text}

/-- What replaces an expression holds no brace, unless that passes as it is and has one. -/
theorem braceless_replaced (count : Nat) (inner : Text) :
    (∀ c ∈ replaced count inner, isBrace c = false) ↔
      (classify inner).kind ≠ .passthrough ∨ ∀ c ∈ strip inner, isBrace c = false := by
  by_cases hkind : (classify inner).kind = .passthrough
  · have hnone : (classify inner).needsGetter = false := by
      rw [Classification.needsGetter, hkind]
      rfl
    rw [or_iff_right (not_not_intro hkind), replaced, hnone, if_neg Bool.false_ne_true]
    rcases classify_passthrough hkind with ⟨p, hp, hsigned, -, href⟩ | ⟨-, -, href⟩
    · obtain ⟨gap, hgap, hinner⟩ := signed_negated_iff.1 hsigned
      have hsign : isBrace '!' = false := by decide
      have hpath := (isBinding_of_path hp).2
      rw [href, hinner]
      refine iff_of_true (List.forall_mem_cons.2 ⟨hsign, hpath⟩) ?_
      refine List.forall_mem_cons.2 ⟨hsign, List.forall_mem_append.2 ⟨fun c hc => ?_, hpath⟩⟩
      exact isBrace_of_blank (List.all_eq_true.1 hgap c hc)
    · rw [href]
  · exact iff_of_true ((isBinding_replaced count inner).2 (.inl hkind)).2 (.inl hkind)

/-- The value is one expression without blanks around it, and it does not pass with a brace. -/
def standsBare (t : Text) : Bool :=
  match single? t with
  | some inner =>
    strip t == t && ((classify inner).kind != .passthrough || (strip inner).all (!isBrace ·))
  | none => false

theorem standsBare_of_single (h : single? t = some inner) : standsBare t = true ↔
    strip t = t ∧ ((classify inner).kind ≠ .passthrough ∨ ∀ c ∈ strip inner, isBrace c = false) := by
  rw [standsBare, h]
  simp only [Bool.and_eq_true, Bool.or_eq_true, beq_iff_eq, bne_iff_ne, List.all_eq_true,
    Bool.not_eq_true']

theorem isSome_of_standsBare (h : standsBare t = true) : (single? t).isSome = true := by
  unfold standsBare at h
  split at h
  · rename_i inner hsingle
    rw [hsingle]
    rfl
  · cases h

theorem eq_nil_of_blank_append {before rest u : Text} {c : Char} (hb : isAllBlank before = true)
    (hc : isBlank c = false) (h : before ++ rest = c :: u) : before = [] := by
  cases before with
  | nil => rfl
  | cons d before =>
    obtain rfl : d = c := (List.cons.inj h).1
    have hd := List.all_eq_true.1 hb d List.mem_cons_self
    rw [hc] at hd
    cases hd

theorem isBraced_substitute_eq (hoccurs : occurs t = true) (count : Nat) :
    isBraced (substitute count t).text = standsBare t := by
  rw [Bool.eq_iff_iff]
  cases hsingle : single? t with
  | none =>
    refine iff_of_false (fun h => ?_) fun h => ?_
    · obtain ⟨r, htext, hr⟩ := isBraced_iff_inBraces.1 h
      have hunbrace : unbrace (substitute count t).text = r := by
        rw [htext]
        have hblank : isAllBlank ([] : Text) = true := rfl
        have hstrip := strip_inBraces hblank hblank r
        rw [List.nil_append, List.append_nil] at hstrip
        exact unbrace_of_strip hstrip
      have hsome := single_of_unbrace hoccurs (hunbrace.symm ▸ hr)
      rw [hsingle] at hsome
      cases hsome
    · have hsome := isSome_of_standsBare h
      rw [hsingle] at hsome
      cases hsome
  | some inner =>
    obtain ⟨before, after, hbefore, hafter, ht, htext⟩ := text_substitute_single hsingle count
    rw [standsBare_of_single hsingle, ← braceless_replaced count, isBraced_iff_inBraces, htext]
    constructor
    · rintro ⟨r, hr, hbraceless⟩
      obtain rfl := eq_nil_of_blank_append hbefore (by decide) hr
      have hreversed : after.reverse ++ (inBraces (replaced count inner)).reverse =
          '}' :: ('{' :: r).reverse := by
        rw [← List.reverse_append, ← List.nil_append (inBraces _ ++ after), hr]
        simp [inBraces]
      have hblank : isAllBlank after.reverse = true := by
        rw [isAllBlank, List.all_reverse]
        exact hafter
      obtain rfl := List.reverse_eq_nil_iff.1
        (eq_nil_of_blank_append hblank (by decide) hreversed)
      rw [List.nil_append, List.append_nil] at hr ht
      obtain rfl : replaced count inner = r := List.append_cancel_right (List.cons.inj hr).2
      exact ⟨ht.symm, hbraceless⟩
    · rintro ⟨hstrip, hbraceless⟩
      have hlength := congrArg List.length ht
      rw [hstrip, List.length_append, List.length_append] at hlength
      obtain rfl : before = [] := List.eq_nil_of_length_eq_zero (by omega)
      obtain rfl : after = [] := List.eq_nil_of_length_eq_zero (by omega)
      exact ⟨_, by rw [List.nil_append, List.append_nil], hbraceless⟩

end Expression
open Expression Template

def Warning.isMixedValue : Warning → Bool
  | .mixedValue _ _ => true
  | _ => false

/-- An attribute that is converted, holds an expression and does not stand bare. -/
def isMixed (a : Text × Text) : Bool := a.1 != auraId && (occurs a.2 && !standsBare a.2)

namespace Site

def given (p : Site) : Attributes := p.node.attributes ++ p.handed

theorem mixedWarning?_eq (tag : Text) (a : Text × Text) :
    mixedWarning? tag a = if isMixed a then some (.mixedValue tag a.1) else none := by
  unfold mixedWarning? isMixed
  by_cases hid : a.1 = auraId
  · simp [hid]
  · by_cases hoccurs : occurs a.2 = true
    · simp [hid, hoccurs, isBraced_substitute_eq hoccurs]
    · simp [hid, hoccurs]

theorem filterMap_mixedWarning? (tag : Text) (attrs : Attributes) :
    attrs.filterMap (mixedWarning? tag) =
      (attrs.filter isMixed).map fun a => .mixedValue tag a.1 := by
  induction attrs with
  | nil => rfl
  | cons a attrs ih =>
    rw [List.filterMap_cons, mixedWarning?_eq, List.filter_cons]
    by_cases h : isMixed a = true
    · simp [h, ih]
    · simp [h, ih]

/-- The mixed values of a plain element, as they are reported. -/
def mixedWarnings (p : Site) : List Warning :=
  if p.node.isPlain then (p.given.filter isMixed).map fun a => .mixedValue p.tag a.1 else []

theorem filter_isMixedValue (m : Mapping) (p : Site) :
    (warnings m p).filter Warning.isMixedValue = p.mixedWarnings := by
  obtain ⟨above, handed, node⟩ := p
  cases node with
  | text content => rfl
  | element tag attrs nodes =>
    have hother {d : Directive} (hd : Directive.ofTag tag = d) (hne : d ≠ .element) :
        mixedWarnings ⟨above, handed, .element tag attrs nodes⟩ = [] := by
      rw [mixedWarnings, isPlain_eq_false hd hne, if_neg Bool.false_ne_true]
    cases hd : Directive.ofTag tag with
    | element =>
      have hplain : (element tag attrs nodes).isPlain = true := by simp [isPlain, directive, hd]
      have hall : ∀ w ∈ ((attrs ++ handed).filter isMixed).map fun a =>
          Warning.mixedValue tag a.1, w.isMixedValue = true := by
        intro w hw
        obtain ⟨a, -, rfl⟩ := List.mem_map.1 hw
        rfl
      simp only [warnings, hd, mixedWarnings, hplain, if_true, filterMap_mixedWarning?]
      exact List.filter_eq_self.2 hall
    | text => exact absurd hd (Directive.ofTag_ne_text tag)
    | slot =>
      simp only [warnings, hd, hother hd (by decide), slotWarnings]
      split
      · rfl
      · split
        · rfl
        · split <;> rfl
    | conditional =>
      simp only [warnings, hd, hother hd (by decide), conditionWarnings]
      split <;> rfl
    | iteration =>
      simp only [warnings, hd, hother hd (by decide), iterationWarnings, List.filter_append,
        filter_keyWarnings Warning.isMixedValue (fun _ => rfl) (fun _ => rfl)]
      split <;> rfl
    | rawHtml =>
      simp only [warnings, hd, hother hd (by decide), rawWarnings]
      split <;> rfl
    | messageChannel | recordData | metadata =>
      simp only [warnings, hd, hother hd (by decide)]
      rfl

end Site

theorem warning_mem_iff {w : Warning} {log : List Finding} :
    Finding.warning w ∈ log ↔ w ∈ log.filterMap Finding.warning? := by
  rw [List.mem_filterMap]
  constructor
  · exact fun h => ⟨_, h, rfl⟩
  · rintro ⟨f, hf, hw⟩
    cases f <;> cases hw
    exact hf

/-- An attribute that is written without quotes, as a name and one pair of braces. -/
def StandsUnquoted (w : Text × Text) : Prop :=
  ∃ r, (∀ c ∈ r, isBrace c = false) ∧ attributeText w.1 w.2 = w.1 ++ '=' :: inBraces r

theorem standsUnquoted_iff {w : Text × Text} : StandsUnquoted w ↔ isBraced w.2 = true := by
  constructor
  · rintro ⟨r, -, htext⟩
    by_contra hquoted
    rw [attributeText, if_neg hquoted, List.append_assoc, List.append_cancel_left_eq] at htext
    have hhead := (List.cons.inj (List.cons.inj htext).2).1
    exact absurd hhead (by decide)
  · intro h
    obtain ⟨r, hvalue, hr⟩ := isBraced_iff_inBraces.1 h
    exact ⟨r, hr, by rw [attributeText, if_pos h, hvalue]⟩

theorem standsUnquoted_written {entry : Option ComponentEntry} {a : Text × Text}
    (hid : a.1 ≠ auraId) (hoccurs : occurs a.2 = true) (count : Nat) :
    StandsUnquoted (Render.writtenAttribute entry count a) ↔ standsBare a.2 = true := by
  rw [standsUnquoted_iff, Render.writtenAttribute, if_neg hid, isBraced_substitute_eq hoccurs]

theorem reported_mixed_iff (tag : Text) (entry : Option ComponentEntry) (a : Text × Text)
    (count : Nat) : Finding.warning (.mixedValue tag a.1) ∈
      ((Render.bindAttribute tag entry a).run count).2 ↔ isMixed a = true := by
  rw [warning_mem_iff, Render.bindAttribute_warnings tag entry a count, Site.mixedWarning?_eq]
  split <;> simp [*]

namespace Site

variable {m : Mapping} {nodes : List Node} {p : Site} {own injected : List (Text × Text)}

theorem StandsAs.given (h : p.StandsAs m nodes own injected) :
    Render.WrittenAs (m.component? p.tag) p.given (own ++ injected) :=
  List.rel_append h.attributes h.handed

/-- Of the attributes of a plain element, the identifier aside, those are reported that hold an
expression and are not a single one; and those that are a single one stand without quotes. -/
structure JudgedExactly (m : Mapping) (nodes : List Node) (p : Site) : Prop where
  reported : ∀ a ∈ p.given, a.1 ≠ auraId → ∀ count,
    (Finding.warning (.mixedValue p.tag a.1) ∈
      ((Render.bindAttribute p.tag (m.component? p.tag) a).run count).2 ↔
        occurs a.2 = true ∧ single? a.2 = none)
  bound : ∀ own injected, p.StandsAs m nodes own injected →
    ∀ a w, (a, w) ∈ p.given.zip (own ++ injected) → a.1 ≠ auraId →
      (single? a.2).isSome = true → StandsUnquoted w

/-- Values are judged exactly where every single expression stands bare. -/
theorem judgedExactly_iff (hp : p ∈ sitesIn [] [] nodes) (hplain : p.node.isPlain = true) :
    p.JudgedExactly m nodes ↔
      ∀ a ∈ p.given, a.1 ≠ auraId → (single? a.2).isSome = true → standsBare a.2 = true := by
  constructor
  · intro h a ha hid hsingle
    obtain ⟨own, injected, hstands⟩ := exists_standsAs (m := m) hp hplain
    obtain ⟨count, hwritten⟩ := hstands.given.exists_zip ha
    have hunquoted := h.bound own injected hstands _ _ hwritten hid hsingle
    exact (standsUnquoted_written hid (occurs_of_single hsingle) count).1 hunquoted
  · intro h
    refine ⟨fun a ha hid count => ?_, fun own injected hstands a w hwritten hid hsingle => ?_⟩
    · rw [reported_mixed_iff, isMixed, Bool.and_eq_true, and_iff_right (bne_iff_ne.2 hid),
        Bool.and_eq_true]
      refine and_congr_right fun _ => ?_
      rw [Bool.not_eq_true', ← Bool.not_eq_true, ← Option.not_isSome_iff_eq_none]
      exact not_congr ⟨isSome_of_standsBare, h a ha hid⟩
    · obtain ⟨count, rfl⟩ := List.forall₂_zip hstands.given hwritten
      have hbare := h a (List.of_mem_zip hwritten).1 hid hsingle
      exact (standsUnquoted_written hid (occurs_of_single hsingle) count).2 hbare

end Site

/-- The reported values are those of the plain elements, attribute by attribute, and every plain
element that is rendered stands in the template with its attributes.  All of them are judged
exactly just when each value that is a single expression has no blanks around it and holds no
brace within it, where it passes as it is. -/
theorem mixed_values_reported_iff (m : Mapping) (nodes : List Node) :
    ((Conversion.ofNodes m nodes).findings.warnings.filter Warning.isMixedValue).Perm
        ((sitesIn [] [] nodes).flatMap Site.mixedWarnings) ∧
      (∀ p ∈ sitesIn [] [] nodes, p.node.isPlain = true →
        ∃ own injected, p.StandsAs m nodes own injected) ∧
      ((∀ p ∈ sitesIn [] [] nodes, p.node.isPlain = true → p.JudgedExactly m nodes) ↔
        ∀ p ∈ sitesIn [] [] nodes, p.node.isPlain = true → ∀ a ∈ p.given, a.1 ≠ auraId →
          ∀ inner, single? a.2 = some inner → strip a.2 = a.2 ∧
            ((classify inner).kind ≠ .passthrough ∨ ∀ c ∈ strip inner, isBrace c = false)) := by
  have hbare (a : Text × Text) : ((single? a.2).isSome = true → standsBare a.2 = true) ↔
      ∀ inner, single? a.2 = some inner → strip a.2 = a.2 ∧
        ((classify inner).kind ≠ .passthrough ∨ ∀ c ∈ strip inner, isBrace c = false) := by
    constructor
    · exact fun h inner hsingle => (standsBare_of_single hsingle).1 (h (by rw [hsingle]; rfl))
    · intro h hsome
      obtain ⟨inner, hsingle⟩ := Option.isSome_iff_exists.1 hsome
      exact (standsBare_of_single hsingle).2 (h inner hsingle)
  refine ⟨?_, fun p => exists_standsAs, forall₃_congr fun p hp hplain => ?_⟩
  · have hperm := (Conversion.warnings_perm m nodes).filter Warning.isMixedValue
    rwa [List.filter_flatMap, funext (Site.filter_isMixedValue m)] at hperm
  · rw [Site.judgedExactly_iff hp hplain]
    exact forall₃_congr fun a _ _ => hbare a

/-- A binding with blanks around it. -/
def paddedTitle : List Node :=
  [.element "p".toList [("title".toList, " {!v.x} ".toList)] []]

def braceLiteral : List Node :=
  [.element "p".toList [("title".toList, "\x7b!'\x7d'\x7d".toList)] []]

/-- Each is a single expression, but is put in quotes and reported as a mixture. -/
theorem paddedTitle_misjudged :
    (single? " {!v.x} ".toList = some "v.x".toList ∧
      (Conversion.ofNodes .builtIn paddedTitle).template =
        "<template>\n    <p title=\" {x} \"></p>\n</template>".toList ∧
      (Conversion.ofNodes .builtIn paddedTitle).findings.warnings =
        [.mixedValue "p".toList "title".toList] ∧
      ¬ ∀ p ∈ sitesIn [] [] paddedTitle, p.node.isPlain = true →
        p.JudgedExactly .builtIn paddedTitle) ∧
    single? "\x7b!'\x7d'\x7d".toList = some "'\x7d'".toList ∧
      (Conversion.ofNodes .builtIn braceLiteral).template =
        "<template>\n    <p title=\"\x7b'\x7d'\x7d\"></p>\n</template>".toList ∧
      (Conversion.ofNodes .builtIn braceLiteral).findings.warnings =
        [.mixedValue "p".toList "title".toList] ∧
      ¬ ∀ p ∈ sitesIn [] [] braceLiteral, p.node.isPlain = true →
        p.JudgedExactly .builtIn braceLiteral := by
  have hnot (nodes : List Node) (n : Node) (hn : ⟨[], [], n⟩ ∈ sitesIn [] [] nodes)
      (hplain : n.isPlain = true) (a : Text × Text) (ha : a ∈ n.attributes) (hid : a.1 ≠ auraId)
      (hsingle : (single? a.2).isSome = true) (hbare : standsBare a.2 = false) :
      ¬ ∀ p ∈ sitesIn [] [] nodes, p.node.isPlain = true → p.JudgedExactly .builtIn nodes :=
    fun h => Bool.eq_false_iff.1 hbare ((Site.judgedExactly_iff hn hplain).1 (h _ hn hplain) a
      (List.mem_append_left _ ha) hid hsingle)
  refine ⟨⟨by decide +kernel, by decide +kernel, by decide +kernel, ?_⟩, by decide +kernel,
    by decide +kernel, by decide +kernel, ?_⟩
  · exact hnot paddedTitle _ (mem_sitesIn_singleton _ _ _) (by decide) _ List.mem_cons_self (by decide)
      (by decide +kernel) (by decide +kernel)
  · exact hnot braceLiteral _ (mem_sitesIn_singleton _ _ _) (by decide) _ List.mem_cons_self (by decide)
      (by decide +kernel) (by decide +kernel)

end LightningTemplate
