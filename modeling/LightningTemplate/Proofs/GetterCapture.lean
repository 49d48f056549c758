import LightningTemplate.Proofs.Classification
import LightningTemplate.Proofs.GetterAccount
import LightningTemplate.Proofs.Substituted

/-! References that mean something else than the getter of their name.  Getters are numbered
without a look at the names that the source uses, so a path to an attribute of the name of a
getter is captured by it.  Here are the paths that lead to a name (`PathTo`), and the references
of a template are free of capture just when no expression is such a path
(`getters_uncaptured_iff`). -/
namespace LightningTemplate
open Text

namespace Text

theorem lowerRuns_avoid_c : lowerRuns.all (fun r =>
    99 < r.first + r.shift || r.last + r.shift < 99) = true := by
  decide +kernel

theorem shiftBy_lowerRuns_ne {d : Char} (hd : 128 ≤ d.toNat) : shiftBy lowerRuns d ≠ 'c' := by
  intro h
  unfold shiftBy at h
  split at h
  · rename_i r hr
    have hcovers := List.find?_some hr
    have havoid := List.all_eq_true.1 lowerRuns_avoid_c r (List.mem_of_find?_eq_some hr)
    simp only [CaseRun.covers, Bool.and_eq_true, Bool.or_eq_true, decide_eq_true_eq] at hcovers havoid
    have hcode : ((d.toNat : Int) + r.shift).toNat = 99 := by
      rw [CaseRun.apply] at h
      by_cases hvalid : ((d.toNat : Int) + r.shift).toNat.isValidChar
      · rw [← toNat_ofNat_of_isValidChar hvalid, h]
        rfl
      · rw [Char.ofNat, dif_neg hvalid] at h
        exact absurd h (by decide)
    omega
  · rw [h] at hd
    exact absurd hd (by decide)

/-- Two letters have small forms that start with this one. -/
theorem lower_singleton_of_head {d : Char} (h : (lower [d]).head? = some 'c') :
    lower [d] = ['c'] ∧ (d = 'c' ∨ d = 'C') := by
  by_cases hd : d.toNat < 128
  · exact forall_ascii (P := fun d => (lower [d]).head? = some 'c' →
      lower [d] = ['c'] ∧ (d = 'c' ∨ d = 'C')) (by decide +kernel) d hd h
  · have hwide : 128 ≤ d.toNat := Nat.le_of_not_lt hd
    rw [lower, lowerAfter, lowerAfter, List.append_nil] at h
    split at h
    · exact absurd h (by decide)
    · rw [lowerChar, if_neg hd] at h
      split at h
      · exact absurd h (by decide)
      · exact absurd (Option.some.inj h) (shiftBy_lowerRuns_ne hwide)

end Text

namespace Expression

def capitalized : Text → Text
  | [] => []
  | c :: cs => c.toUpper :: cs

def fieldSpellings (name : Text) : List Text :=
  [name, capitalized name].flatMap fun n => n :: customSuffixes.map (n ++ ·)

theorem mem_fieldSpellings {name f : Text} : f ∈ fieldSpellings name ↔
    ∃ n, (n = name ∨ n = capitalized name) ∧ (f = n ∨ ∃ s ∈ customSuffixes, f = n ++ s) := by
  simp only [fieldSpellings, List.mem_flatMap, List.mem_cons, List.not_mem_nil, or_false,
    List.mem_map, eq_comm]

theorem getterName_eq_cons (k : Nat) : getterName k = 'c' :: ("omputedValue".toList ++ ofNat k) := rfl

theorem uncapitalize_eq_getterName_iff {k : Nat} {n : Text} :
    uncapitalize n = getterName k ↔ n = getterName k ∨ n = capitalized (getterName k) := by
  have hsmall : lower ['c'] = ['c'] := by decide
  have hcapital : lower ['C'] = ['c'] := by decide
  rw [getterName_eq_cons]
  constructor
  · intro h
    cases n with
    | nil => exact absurd h (by simp [uncapitalize])
    | cons d ds =>
      rw [uncapitalize] at h
      have hhead : (lower [d]).head? = some 'c' := by
        have hne : lower [d] ≠ [] := lower_ne_nil (by simp)
        obtain ⟨e, es, he⟩ := List.exists_cons_of_ne_nil hne
        rw [he, List.cons_append, List.cons.injEq] at h
        rw [he, h.1]
        rfl
      obtain ⟨hlower, hd⟩ := lower_singleton_of_head hhead
      rw [hlower, List.singleton_append, List.cons_inj_right] at h
      rcases hd with rfl | rfl
      · exact .inl (by rw [h])
      · exact .inr (by rw [h]; rfl)
  · rintro (rfl | rfl)
    · rw [uncapitalize, hsmall]
      rfl
    · show uncapitalize ('C' :: _) = _
      rw [uncapitalize, hcapital]
      rfl

/-- The name of a getter ends with a digit, and so it does with a capital letter. -/
theorem getLast?_of_spelling {k : Nat} {n : Text} (h : n = getterName k ∨ n = capitalized (getterName k)) :
    ∃ d, n.getLast? = some d ∧ d.isDigit = true := by
  cases hd : (ofNat k).getLast? with
  | none => exact absurd (List.getLast?_eq_none_iff.1 hd) Nat.toDigits_ne_nil
  | some d =>
    have hmem : d ∈ ofNat k := List.mem_of_getLast? hd
    have hlast (word : Text) : (word ++ ofNat k).getLast? = some d := by
      rw [List.getLast?_append, hd, Option.some_or]
    refine ⟨d, ?_, Nat.isDigit_of_mem_toDigits (by decide) (by decide) hmem⟩
    rcases h with rfl | rfl
    · exact hlast "computedValue".toList
    · exact hlast "ComputedValue".toList

theorem fieldGetter_append {n s : Text} (hn : n ≠ []) (hs : s ∈ customSuffixes) :
    fieldGetter (n ++ s) = uncapitalize n := by
  have hlength : 0 < n.length := List.length_pos_of_ne_nil hn
  have hthree : ∀ s ∈ customSuffixes, s.length = 3 := by decide
  unfold fieldGetter
  split
  · rename_i found hfound
    have hsuffix := List.find?_some hfound
    rw [Bool.and_eq_true, List.isSuffixOf_iff_suffix] at hsuffix
    -- all endings are equally long, so the text has one of them at most
    have hle : found.length ≤ s.length := by
      rw [hthree _ (List.mem_of_find?_eq_some hfound), hthree s hs]
    have hsame : found = s := (List.suffix_of_suffix_length_le hsuffix.1 (List.suffix_append n s)
      hle).eq_of_length (by rw [hthree _ (List.mem_of_find?_eq_some hfound), hthree s hs])
    rw [hsame, List.length_append, Nat.add_sub_cancel, List.take_left]
  · rename_i hnone
    have hs' := List.find?_eq_none.1 hnone s hs
    rw [Bool.and_eq_true, List.isSuffixOf_iff_suffix, decide_eq_true_eq, List.length_append] at hs'
    exact absurd ⟨List.suffix_append n s, by omega⟩ hs'

theorem fieldGetter_of_digit {n : Text} {d : Char} (hlast : n.getLast? = some d)
    (hd : d.isDigit = true) : fieldGetter n = uncapitalize n := by
  have hends : ∀ s ∈ customSuffixes, s.getLast?.any Char.isDigit = false ∧ s ≠ [] := by decide
  unfold fieldGetter
  split
  · rename_i s hfound
    have hs := hends s (List.mem_of_find?_eq_some hfound)
    have hsuffix := List.find?_some hfound
    rw [Bool.and_eq_true, List.isSuffixOf_iff_suffix] at hsuffix
    obtain ⟨before, rfl⟩ := hsuffix.1
    rw [List.getLast?_append_of_ne_nil _ hs.2] at hlast
    rw [hlast, Option.any_some, hd] at hs
    exact absurd hs.1 (by decide)
  · rfl

theorem fieldGetter_eq_getterName_iff {k : Nat} {f : Text} :
    fieldGetter f = getterName k ↔ f ∈ fieldSpellings (getterName k) := by
  rw [mem_fieldSpellings]
  constructor
  · intro h
    unfold fieldGetter at h
    split at h
    · rename_i s hs
      have hsuffix := List.find?_some hs
      rw [Bool.and_eq_true, List.isSuffixOf_iff_suffix] at hsuffix
      obtain ⟨n, rfl⟩ := hsuffix.1
      rw [List.length_append, Nat.add_sub_cancel, List.take_left] at h
      exact ⟨n, uncapitalize_eq_getterName_iff.1 h, .inr ⟨s, List.mem_of_find?_eq_some hs, rfl⟩⟩
    · exact ⟨f, uncapitalize_eq_getterName_iff.1 h, .inl rfl⟩
  · rintro ⟨n, hn, hf⟩
    have hname := uncapitalize_eq_getterName_iff.2 hn
    obtain ⟨d, hlast, hd⟩ := getLast?_of_spelling hn
    rcases hf with rfl | ⟨s, hs, rfl⟩
    · rw [fieldGetter_of_digit hlast hd, hname]
    · have hne : n ≠ [] := by
        rintro rfl
        exact absurd hlast (by simp)
      rw [fieldGetter_append hne hs, hname]

/-- The paths for which a template has this name: the name alone, an attribute or a handler of the
name, and a record field below an attribute that a getter of the name stands for. -/
inductive PathTo (name : Text) : Text → Prop
  | bare : PathTo name name
  | attributeValue : PathTo name (dotted ['v'] [name])
  | handler : PathTo name (dotted ['c'] [name])
  | field {inner : List Text} {f : Text} (nested : inner ≠ []) (names : ∀ w ∈ inner, IsPathName w)
      (spelled : f ∈ fieldSpellings name) : PathTo name (dotted ['v'] (inner ++ [f]))

theorem isPathName_getterName (k : Nat) : IsPathName (getterName k) :=
  ⟨by simp [getterName_eq_cons], isWord_getterName k⟩

theorem isPathName_of_mem_fieldSpellings {k : Nat} {f : Text} (h : f ∈ fieldSpellings (getterName k)) :
    IsPathName f := by
  have hsuffix : customSuffixes.all (·.all isWord) = true := by decide +kernel
  obtain ⟨n, hn, hf⟩ := mem_fieldSpellings.1 h
  have hword : IsPathName n := by
    rcases hn with rfl | rfl
    · exact isPathName_getterName k
    · have hcapital : isWord 'C' = true := by decide +kernel
      have hall := (isPathName_getterName k).2
      rw [getterName_eq_cons, List.forall_mem_cons] at hall
      exact ⟨by simp [getterName_eq_cons, capitalized], List.forall_mem_cons.2 ⟨hcapital, hall.2⟩⟩
  rcases hf with rfl | ⟨s, hs, rfl⟩
  · exact hword
  · have hs := List.all_eq_true.1 (List.all_eq_true.1 hsuffix s hs)
    exact ⟨by simp [hword.1], List.forall_mem_append.2 ⟨hword.2, hs⟩⟩

theorem PathTo.isPath {k : Nat} {p : Text} (h : PathTo (getterName k) p) : IsPath p := by
  have hname := isPathName_getterName k
  cases h with
  | bare =>
    have hroot : IsRoot (getterName k) := by
      refine ⟨'c', _, by decide, fun d hd => hname.2 d ?_, .inl (getterName_eq_cons k)⟩
      rw [getterName_eq_cons]
      exact List.mem_cons_of_mem _ hd
    refine ⟨getterName k, [], hroot, by simp, by simp [dotted], ?_⟩
    rw [getterName_eq_cons]
    exact not_operator (by decide)
  | attributeValue => exact (Known.value hname).isPath
  | handler => exact (Known.handler hname).isPath
  | field nested names spelled =>
    exact (Known.field nested names (isPathName_of_mem_fieldSpellings spelled)).isPath

theorem PathTo.reference {k : Nat} {p : Text} (h : PathTo (getterName k) p) :
    (ofPath p).2 = getterName k := by
  have hname := isPathName_getterName k
  cases h with
  | bare => rw [ofPath_single (splitOn_of_notMem (point_notMem_name hname.2))]
  | attributeValue => rw [(Known.value hname).ofPath_eq]
  | handler => rw [(Known.handler hname).ofPath_eq]
  | field nested names spelled =>
    rw [(Known.field nested names (isPathName_of_mem_fieldSpellings spelled)).ofPath_eq]
    exact fieldGetter_eq_getterName_iff.2 spelled

theorem pathTo_iff {k : Nat} {p : Text} :
    PathTo (getterName k) p ↔ IsPath p ∧ (ofPath p).2 = getterName k := by
  refine ⟨fun h => ⟨h.isPath, h.reference⟩, ?_⟩
  rintro ⟨hp, href⟩
  by_cases hpass : (ofPath p).1 = .passthrough
  · rw [ofPath_passthrough hpass] at href
    rw [href]
    exact .bare
  · have hknown := known_of_ofPath hp hpass
    rw [href] at hknown
    generalize (ofPath p).1 = kind at hknown
    generalize hname : getterName k = name at hknown ⊢
    have hfirst : name.head? = some 'c' := by rw [← hname, getterName_eq_cons]; rfl
    cases hknown with
    | value => exact .attributeValue
    | handler => exact .handler
    | label => exact absurd (Option.some.inj hfirst) (by decide)
    | globalId => exact absurd (Option.some.inj hfirst) (by decide)
    | field nested names =>
      rw [← hname]
      exact .field nested names (fieldGetter_eq_getterName_iff.1 hname.symm)

/-- The expression, stripped, is a path to the name, or a negation and then such a path. -/
def Refers (name e : Text) : Prop :=
  ∃ p, PathTo name p ∧
    (strip e = p ∨ ∃ gap, isAllBlank gap = true ∧ strip e = '!' :: (gap ++ p))

/-- An expression that needs no getter has the name for its reference, negated or not, just when
it refers to the name. -/
theorem refers_iff {k : Nat} {e : Text} : Refers (getterName k) e ↔
    (classify e).needsGetter = false ∧ ((classify e).reference = getterName k ∨
      (classify e).reference = '!' :: getterName k) := by
  constructor
  · rintro ⟨p, hp, ht⟩
    obtain ⟨hpath, href⟩ := pathTo_iff.1 hp
    obtain ⟨negated, hsigned⟩ : ∃ negated, Signed p negated (strip e) := by
      rcases ht with ht | ht
      · exact ⟨false, signed_plain_iff.2 ht⟩
      · exact ⟨true, signed_negated_iff.2 ht⟩
    rw [classify_signed hpath hsigned]
    cases negated <;> simp [Classification.needsGetter, ofPath_ne_complex, signed, href]
  · rintro ⟨hgetter, href⟩
    have hname : IsPath (getterName k) := PathTo.bare.isPath
    have hsign : ∀ t, '!' :: t ≠ getterName k := fun t heq => by
      rw [getterName_eq_cons] at heq
      exact absurd (List.cons.inj heq).1 (by decide)
    rcases signed_or_not e with ⟨p, negated, hp, hsigned⟩ | hnone
    · rw [classify_signed hp hsigned] at href
      cases negated with
      | false =>
        rcases href with href | href
        · exact ⟨p, pathTo_iff.2 ⟨hp, href⟩, .inl (signed_plain_iff.1 hsigned)⟩
        · have hmem : ⟨.path, p⟩ ∈ tokens p := by
            rw [tokens_path hp]
            exact List.mem_singleton_self _
          have hbare : ∀ d ∈ (ofPath p).2, isBare d = true :=
            isBare_ofPath fun d hd => isBare_of_isPathChar (isPathChar_of_mem_tokens hmem d hd)
          have hstart : '!' ∈ (ofPath p).2 := by
            rw [show (ofPath p).2 = '!' :: getterName k from href]
            exact List.mem_cons_self
          exact absurd (hbare '!' hstart) (by decide)
      | true =>
        rcases href with href | href
        · exact absurd href (hsign _)
        · exact ⟨p, pathTo_iff.2 ⟨hp, (List.cons.inj href).2⟩, .inr (signed_negated_iff.1 hsigned)⟩
    · -- the name itself, negated or not, is read as a path and is not passed through
      rw [classify_unsigned hnone] at hgetter href
      split at href
      · rename_i hany
        rw [if_pos hany] at hgetter
        exact absurd (show true = false from hgetter) (by decide)
      · rcases href with href | href
        · exact absurd (signed_plain_iff.2 href) (hnone _ false hname)
        · exact absurd (signed_negated_iff.2 ⟨[], rfl, href⟩) (hnone _ true hname)

theorem inBraces_inj {a b : Text} : inBraces a = inBraces b ↔ a = b := by
  rw [inBraces, inBraces, List.cons_inj_right, List.append_cancel_right_eq]

theorem computing?_eq_none {sign : Char} {e : Text} :
    (Piece.expression sign e).computing? = none ↔ (classify e).needsGetter = false := by
  simp [Piece.computing?, Classification.needsGetter]

/-- A piece that needs no getter is written as a binding of the name just when it is an
expression that refers to the name. -/
theorem writes_name_iff {k count : Nat} {p : Piece} (hp : p.computing? = none) :
    ((p.substitute count).text = inBraces (getterName k) ∨
      (p.substitute count).text = inBraces ('!' :: getterName k)) ↔
    ∃ sign e, p = .expression sign e ∧ Refers (getterName k) e := by
  cases p with
  | char c => simp [Piece.substitute, inBraces]
  | expression sign e =>
    have hgetter := computing?_eq_none.1 hp
    have htext : ((Piece.expression sign e).substitute count).text = inBraces (classify e).reference := by
      simp [Piece.substitute, hgetter]
    rw [htext, inBraces_inj, inBraces_inj]
    constructor
    · intro href
      exact ⟨sign, e, rfl, refers_iff.2 ⟨hgetter, href⟩⟩
    · rintro ⟨sign', e', heq, hrefers⟩
      obtain ⟨-, rfl⟩ := Piece.expression.inj heq
      exact (refers_iff.1 hrefers).2

end Expression

open Expression

theorem Findings.mem_names {es : List Text} {x : Text} :
    (∃ g ∈ named 0 es, g.name = x) ↔ ∃ k < es.length, getterName (k + 1) = x := by
  have hnames := name_named 0 es
  rw [← List.mem_map, hnames]
  simp

namespace Node

/-- No expression of the rendered strings that needs no getter is written as a binding of the
name of a getter, negated or not, however many getters there are already. -/
def Uncaptured (nodes : List Node) (getters : List Getter) : Prop :=
  ∀ t ∈ stringsIn [] nodes, ∀ p ∈ pieces t, p.computing? = none → ∀ g ∈ getters, ∀ count,
    (p.substitute count).text ≠ inBraces g.name ∧
      (p.substitute count).text ≠ inBraces ('!' :: g.name)

/-- An expression of the rendered strings. -/
def Renders (nodes : List Node) (e : Text) : Prop :=
  ∃ t ∈ stringsIn [] nodes, ∃ sign, .expression sign e ∈ pieces t

end Node

/-- References mean what they meant in the source just when no rendered expression refers to
the name of a getter. -/
theorem getters_uncaptured_iff {m : Mapping} {nodes : List Node} {c : Conversion}
    (h : (Conversion.convert m nodes).outcome = .ok c) :
    Node.Uncaptured nodes c.findings.getters ↔
      ∀ e, Node.Renders nodes e → ∀ k < c.findings.getters.length, ¬ Refers (getterName (k + 1)) e := by
  obtain rfl := Conversion.eq_ofNodes_of_convert h
  rw [Conversion.getters_ofNodes, Findings.length_named]
  constructor
  · rintro hfree e ⟨t, ht, sign, hp⟩ k hk hrefers
    obtain ⟨g, hg, hname⟩ := Findings.mem_names.2 ⟨k, hk, rfl⟩
    have hnone : (Piece.expression sign e).computing? = none :=
      computing?_eq_none.2 (refers_iff.1 hrefers).1
    obtain ⟨hplain, hnegated⟩ := hfree t ht _ hp hnone g hg 0
    rw [hname] at hplain hnegated
    rcases (writes_name_iff hnone).2 ⟨sign, e, rfl, hrefers⟩ with heq | heq
    · exact hplain heq
    · exact hnegated heq
  · intro hnone t ht p hp hcomputing g hg count
    obtain ⟨k, hk, hname⟩ := Findings.mem_names.1 ⟨g, hg, rfl⟩
    rw [← hname, ← not_or]
    intro hwritten
    obtain ⟨sign, e, rfl, hrefers⟩ := (writes_name_iff hcomputing).1 hwritten
    exact hnone e ⟨t, ht, sign, hp⟩ k hk hrefers

/-- An attribute with the name of a getter that is not there, and a field of that name. -/
def neighbourSample : List Node :=
  [.element "p".toList [("title".toList, "{!v.card.ComputedValue3__c}".toList)]
    [.text "{!v.computedValue2}, {!v.a + 1}".toList]]

theorem getters_uncaptured_iff_neighbour :
    ∃ c, (Conversion.convert .builtIn neighbourSample).outcome = .ok c ∧
      c.findings.getters = [⟨"computedValue1".toList, "v.a + 1".toList⟩] ∧
      (Node.Uncaptured neighbourSample c.findings.getters ↔
        ∀ e, Node.Renders neighbourSample e →
          ∀ k < c.findings.getters.length, ¬ Refers (getterName (k + 1)) e) := by
  have h : (Conversion.convert .builtIn neighbourSample).outcome =
      .ok (.ofNodes .builtIn neighbourSample) := Conversion.convert_ok (by decide +kernel)
  exact ⟨_, h, by decide +kernel, getters_uncaptured_iff h⟩

/-- An attribute with the name of the getter that is hoisted after it. -/
def captureSample : List Node := [.text "{!v.computedValue1} {!v.a + 1}".toList]

theorem captureSample_captures : ∃ c, (Conversion.convert .builtIn captureSample).outcome = .ok c ∧
    c.template = "<template>\n    {computedValue1} {computedValue1}\n</template>".toList ∧
    c.findings.getters = [⟨"computedValue1".toList, "v.a + 1".toList⟩] ∧
    ¬ Node.Uncaptured captureSample c.findings.getters := by
  have h : (Conversion.convert .builtIn captureSample).outcome = .ok (.ofNodes .builtIn captureSample) :=
    Conversion.convert_ok (by decide +kernel)
  have hgetters : (Conversion.ofNodes .builtIn captureSample).findings.getters =
      [⟨"computedValue1".toList, "v.a + 1".toList⟩] := by decide +kernel
  refine ⟨_, h, by decide +kernel, hgetters, fun hfree => ?_⟩
  rw [hgetters] at hfree
  have hrendered : "{!v.computedValue1} {!v.a + 1}".toList ∈ Node.stringsIn [] captureSample := by
    decide +kernel
  have hpiece : Piece.expression '!' "v.computedValue1".toList ∈
      pieces "{!v.computedValue1} {!v.a + 1}".toList := by decide +kernel
  have hnone : (Piece.expression '!' "v.computedValue1".toList).computing? = none := by decide +kernel
  have hbinding : ((Piece.expression '!' "v.computedValue1".toList).substitute 0).text =
      inBraces "computedValue1".toList := by decide +kernel
  exact (hfree _ hrendered _ hpiece hnone _ (List.mem_singleton_self _) 0).1 hbinding

end LightningTemplate
