import LightningTemplate.Conversion
import LightningTemplate.Mapping.BuiltIn
import LightningTemplate.Proofs.Rewriting

/-! Readers of expressions that look at beginnings only.  A binding loses `v.` or `c.`, and a
mention what tells its target, whatever follows; the classifier looks at the tokens.  On paths they
tell the same (`ReadersAgree`).  Of any other expression they take it for a path by its beginning,
and cut that off, just where it has one (`prefix_readers_agree_iff`). -/
namespace LightningTemplate
open Text

namespace Expression

variable {value inner markup s : Text} {sign : Char} {e : Mention}

/-- The text has one path for its only token. -/
def LexesToPath (s : Text) : Prop := ∃ p, tokens s = [⟨.path, p⟩]

theorem lexesToPath_strip_iff : LexesToPath (strip s) ↔ IsPath (strip s) := by
  constructor
  · rintro ⟨p, hp⟩
    obtain ⟨hs, hpath⟩ := tokens_eq_path_iff.1 hp
    rwa [hs]
  · exact fun h => ⟨strip s, tokens_path h⟩

def sigils : List Text := ["v.".toList, "c.".toList]

/-- A binding is the text after a sigil, or all of a text without one. -/
theorem bindingPath_single (h : single? value = some inner) :
    (∃ sigil ∈ sigils, strip inner = sigil ++ bindingPath value) ∨
      (∀ sigil ∈ sigils, ¬sigil <+: strip inner) ∧ bindingPath value = strip inner := by
  have hsingle : single? (strip value) = some inner := by rwa [single?, strip_strip]
  simp only [bindingPath, hsingle]
  split
  · rename_i path hs
    exact .inl ⟨"v.".toList, by decide, hs⟩
  · rename_i path hs
    exact .inl ⟨"c.".toList, by decide, hs⟩
  · rename_i hv hc
    refine .inr ⟨?_, rfl⟩
    simp only [sigils, List.forall_mem_cons]
    exact ⟨fun ⟨path, hs⟩ => hv path hs.symm, fun ⟨path, hs⟩ => hc path hs.symm, by simp⟩

theorem targetOf_append {b : Text × Target} (hb : b ∈ beginnings) (rest : Text) :
    targetOf (b.1 ++ rest) = (b.2, rest) := by
  simp only [beginnings, List.mem_cons, List.not_mem_nil, or_false] at hb
  rcases hb with rfl | rfl | rfl | rfl <;> rfl

theorem targetOf_of_none (h : ∀ b ∈ beginnings, ¬b.1 <+: s) :
    targetOf s = (if s = "globalId".toList then .globalId else .other, s) := by
  have hfind : beginnings.find? (fun b => b.1.isPrefixOf s) = none :=
    List.find?_eq_none.2 fun b hb hprefix => h b hb (List.isPrefixOf_iff_prefix.1 hprefix)
  rw [targetOf, hfind]

theorem targetOf_cases (s : Text) :
    (∃ sigil, (sigil, (targetOf s).1) ∈ beginnings ∧ s = sigil ++ (targetOf s).2) ∨
      (∀ b ∈ beginnings, ¬b.1 <+: s) ∧
        targetOf s = (if s = "globalId".toList then .globalId else .other, s) := by
  by_cases h : ∃ b ∈ beginnings, b.1 <+: s
  · obtain ⟨b, hb, rest, rfl⟩ := h
    rw [targetOf_append hb]
    exact .inl ⟨b.1, hb, rfl⟩
  · have hnone : ∀ b ∈ beginnings, ¬b.1 <+: s := fun b hb hprefix => h ⟨b, hb, hprefix⟩
    exact .inr ⟨hnone, targetOf_of_none hnone⟩

theorem mention_of_written (he : e ∈ mentions markup)
    (hwritten : e.written = (Piece.expression sign inner).source) :
    e.target = (targetOf (strip inner)).1 ∧ e.reference = (targetOf (strip inner)).2 := by
  obtain ⟨p, -, hp⟩ := List.mem_filterMap.1 he
  cases p with
  | char c => cases hp
  | expression sign' inner' =>
    obtain rfl := Option.some.inj hp
    have hinner := (List.cons.inj (List.cons.inj hwritten).2).2
    rw [List.append_cancel_right hinner]
    exact ⟨rfl, rfl⟩

theorem mentions_single (h : single? value = some inner) : mentions value =
    [⟨strip value, (targetOf (strip inner)).1, (targetOf (strip inner)).2⟩] := by
  obtain ⟨sign, before, after, -, -, -, hstrip, hpieces⟩ := pieces_single h
  have hchars (a : Text) : (a.map Piece.char).filterMap Piece.mention? = [] := by
    rw [List.filterMap_map]
    exact List.filterMap_eq_nil_iff.2 fun _ _ => rfl
  rw [mentions, hpieces, List.filterMap_append, List.filterMap_cons, hchars, hchars, hstrip]
  rfl

theorem mention_of_single (h : single? value = some inner) (he : e ∈ mentions markup)
    (hwritten : e.written = strip value) :
    e.target = (targetOf (strip inner)).1 ∧ e.reference = (targetOf (strip inner)).2 := by
  obtain ⟨sign, before, after, -, -, -, hstrip, -⟩ := pieces_single h
  exact mention_of_written he (hwritten.trans hstrip)

theorem Known.reference_flat {sigil rest p ref : Text} {kind : Kind} (h : Known p kind ref)
    (hkind : kind = .simpleFlat) (hsigil : sigil ∈ sigils) (hp : p = sigil ++ rest) : ref = rest := by
  simp only [sigils, List.mem_cons, List.not_mem_nil, or_false] at hsigil
  cases h with
  | value name => rcases hsigil with rfl | rfl <;> simp_all [dotted]
  | handler name => rcases hsigil with rfl | rfl <;> simp_all [dotted]
  | label space name => rcases hsigil with rfl | rfl <;> simp [dotted] at hp
  | globalId => rcases hsigil with rfl | rfl <;> simp at hp
  | field => cases hkind

theorem reference_flat {sigil rest : Text} (hpath : IsPath (strip inner))
    (hkind : (classify inner).kind = .simpleFlat) (hsigil : sigil ∈ sigils)
    (hs : strip inner = sigil ++ rest) : (classify inner).reference = rest := by
  have hclassify := classify_signed hpath (signed_plain_iff.2 rfl)
  rw [hclassify] at hkind ⊢
  have hflat : (ofPath (strip inner)).1 = .simpleFlat := hkind
  exact (known_of_ofPath hpath (by rw [hflat]; decide)).reference_flat hflat hsigil hs

/-- The readers of beginnings and the classifier agree on the expression, wherever it is mentioned:
only a path is shortened or told to refer to something; what is cut off is the beginning for that,
and what is left is the reference of the classifier; any other text stays whole. -/
structure ReadersAgree (value inner : Text) : Prop where
  shortened : (bindingPath value).length < (strip inner).length → LexesToPath (strip inner)
  told : ∀ markup, ∀ e ∈ mentions markup, e.written = strip value →
    e.target ∈ [.attributeValue, .controller, .label] → LexesToPath (strip inner)
  binding : (bindingPath value).length < (strip inner).length →
    ∃ sigil ∈ sigils, strip inner = sigil ++ bindingPath value
  reference : ∀ markup, ∀ e ∈ mentions markup, e.written = strip value →
    e.target ∈ [.attributeValue, .controller, .label] →
      ∃ sigil, (sigil, e.target) ∈ beginnings ∧ strip inner = sigil ++ e.reference
  flat : LexesToPath (strip inner) → (classify inner).kind = .simpleFlat →
    (∃ sigil ∈ sigils, sigil <+: strip inner) →
      bindingPath value = (classify inner).reference ∧
        ∀ markup, ∀ e ∈ mentions markup, e.written = strip value →
          e.reference = (classify inner).reference
  whole : ¬LexesToPath (strip inner) → bindingPath value = strip inner ∧
    ∀ markup, ∀ e ∈ mentions markup, e.written = strip value →
      e.target = .other ∧ e.reference = strip inner

theorem beginning_of_sigil {sigil : Text} (h : sigil ∈ sigils) :
    ∃ target, (sigil, target) ∈ beginnings := by
  simp only [sigils, List.mem_cons, List.not_mem_nil, or_false] at h
  rcases h with rfl | rfl
  · exact ⟨.attributeValue, by decide⟩
  · exact ⟨.controller, by decide⟩

theorem binding_of_shorter (h : single? value = some inner)
    (hlt : (bindingPath value).length < (strip inner).length) :
    ∃ sigil ∈ sigils, strip inner = sigil ++ bindingPath value := by
  refine (bindingPath_single h).resolve_right fun hwhole => ?_
  rw [hwhole.2] at hlt
  exact Nat.lt_irrefl _ hlt

/-- No other target than the identifier is told of a text without a beginning. -/
theorem beginning_of_told (h : (targetOf s).1 ∈ [.attributeValue, .controller, .label]) :
    ∃ sigil, (sigil, (targetOf s).1) ∈ beginnings ∧ s = sigil ++ (targetOf s).2 := by
  refine (targetOf_cases s).resolve_right fun hwhole => ?_
  rw [hwhole.2] at h
  split at h <;> simp at h

theorem flat_agrees (h : single? value = some inner) (hpath : IsPath (strip inner))
    (hkind : (classify inner).kind = .simpleFlat) (hsigil : ∃ sigil ∈ sigils, sigil <+: strip inner) :
    bindingPath value = (classify inner).reference ∧
      (targetOf (strip inner)).2 = (classify inner).reference := by
  obtain ⟨sigil, hmem, rest, hs⟩ := hsigil
  rw [reference_flat hpath hkind hmem hs.symm]
  constructor
  · rcases bindingPath_single h with ⟨sigil', hmem', hs'⟩ | ⟨hnone, -⟩
    · rw [← reference_flat hpath hkind hmem' hs', reference_flat hpath hkind hmem hs.symm]
    · exact absurd ⟨rest, hs⟩ (hnone sigil hmem)
  · obtain ⟨target, hb⟩ := beginning_of_sigil hmem
    rw [← hs, targetOf_append hb]

theorem readersAgree_of_path (h : single? value = some inner) (hpath : LexesToPath (strip inner)) :
    ReadersAgree value inner where
  shortened _ := hpath
  told _ _ _ _ _ := hpath
  binding := binding_of_shorter h
  reference markup e he hwritten htold := by
    obtain ⟨htarget, href⟩ := mention_of_single h he hwritten
    rw [htarget] at htold ⊢
    rw [href]
    exact beginning_of_told htold
  flat _ hkind hsigil := by
    have hflat := flat_agrees h (lexesToPath_strip_iff.1 hpath) hkind hsigil
    refine ⟨hflat.1, fun markup e he hwritten => ?_⟩
    rw [(mention_of_single h he hwritten).2, hflat.2]
  whole hnone := absurd hpath hnone

theorem readersAgree_of_whole (h : single? value = some inner)
    (hpath : ¬LexesToPath (strip inner)) (hnone : ∀ b ∈ beginnings, ¬b.1 <+: strip inner) :
    ReadersAgree value inner := by
  have hbinding : bindingPath value = strip inner := by
    rcases bindingPath_single h with ⟨sigil, hmem, hs⟩ | ⟨-, hwhole⟩
    · obtain ⟨target, hb⟩ := beginning_of_sigil hmem
      exact absurd ⟨_, hs.symm⟩ (hnone _ hb)
    · exact hwhole
  have htarget : targetOf (strip inner) = (.other, strip inner) := by
    rw [targetOf_of_none hnone, if_neg]
    intro hid
    exact hpath (lexesToPath_strip_iff.2 (hid ▸ Known.globalId.isPath))
  have hmention (markup : Text) (e : Mention) (he : e ∈ mentions markup)
      (hwritten : e.written = strip value) : e.target = .other ∧ e.reference = strip inner := by
    have hread := mention_of_single h he hwritten
    rwa [htarget] at hread
  have hshort : ¬(bindingPath value).length < (strip inner).length := by
    rw [hbinding]
    exact Nat.lt_irrefl _
  have htold (markup : Text) (e : Mention) (he : e ∈ mentions markup)
      (hwritten : e.written = strip value) : e.target ∉ [.attributeValue, .controller, .label] := by
    rw [(hmention markup e he hwritten).1]
    decide
  exact {
    shortened := fun hlt => absurd hlt hshort
    told := fun markup e he hwritten hmem => absurd hmem (htold markup e he hwritten)
    binding := fun hlt => absurd hlt hshort
    reference := fun markup e he hwritten hmem => absurd hmem (htold markup e he hwritten)
    flat := fun hlexes => absurd hlexes hpath
    whole := fun _ => ⟨hbinding, hmention⟩ }

/-- An expression has one mention in its value, and the readers of beginnings agree with the
classifier on it just when it is a path or does not begin like one. -/
theorem prefix_readers_agree_iff (h : single? value = some inner) :
    (∃ e, mentions value = [e] ∧ e.written = strip value) ∧
      (ReadersAgree value inner ↔
        LexesToPath (strip inner) ∨ ∀ b ∈ beginnings, ¬b.1 <+: strip inner) := by
  refine ⟨⟨_, mentions_single h, rfl⟩, fun hagree => ?_, ?_⟩
  · refine or_iff_not_imp_left.2 fun hpath b hb hprefix => ?_
    obtain ⟨rest, hs⟩ := hprefix
    have hmem := List.mem_singleton_self (⟨strip value, (targetOf (strip inner)).1,
      (targetOf (strip inner)).2⟩ : Mention)
    rw [← mentions_single h] at hmem
    have hother := ((hagree.whole hpath).2 value _ hmem rfl).1
    dsimp only at hother
    rw [← hs, targetOf_append hb] at hother
    have hnever : ∀ b ∈ beginnings, b.2 ≠ .other := by decide
    exact hnever b hb hother
  · rintro (hpath | hnone)
    · exact readersAgree_of_path h hpath
    · by_cases hpath : LexesToPath (strip inner)
      · exact readersAgree_of_path h hpath
      · exact readersAgree_of_whole h hpath hnone

/-- A field of an attribute. -/
theorem prefix_readers_agree_iff_field : single? " {!v.contact.Name } ".toList =
    some "v.contact.Name ".toList ∧
      (∃ e, mentions " {!v.contact.Name } ".toList = [e] ∧
        e.written = strip " {!v.contact.Name } ".toList) ∧
      (ReadersAgree " {!v.contact.Name } ".toList "v.contact.Name ".toList ↔
        LexesToPath (strip "v.contact.Name ".toList) ∨
          ∀ b ∈ beginnings, ¬b.1 <+: strip "v.contact.Name ".toList) :=
  ⟨by decide +kernel, prefix_readers_agree_iff (by decide +kernel)⟩

/-- A record whose identifier is computed. -/
def recordOfSum : List Node :=
  [.element "force:recordData".toList [("recordId".toList, "{!v.a + v.b}".toList)] []]

/-- The classifier hoists a sum; the other readers take it for a path and cut it. -/
theorem recordOfSum_cut :
    single? "{!v.a + v.b}".toList = some "v.a + v.b".toList ∧
      (classify "v.a + v.b".toList).kind = .complex ∧
      (Conversion.ofNodes .builtIn recordOfSum).findings.recordData.map (·.recordId) =
        ["a + v.b".toList] ∧
      mentions "{!v.a + v.b}".toList =
        [⟨"{!v.a + v.b}".toList, .attributeValue, "a + v.b".toList⟩] ∧
      ¬ReadersAgree "{!v.a + v.b}".toList "v.a + v.b".toList := by
  refine ⟨by decide +kernel, by decide +kernel, by decide +kernel, by decide +kernel, fun h => ?_⟩
  have hnone : ¬LexesToPath (strip "v.a + v.b".toList) := by
    rintro ⟨p, hp⟩
    have hlength : (tokens (strip "v.a + v.b".toList)).length = 3 := by decide +kernel
    rw [hp] at hlength
    cases hlength
  have hbinding : bindingPath "{!v.a + v.b}".toList = "a + v.b".toList := by decide +kernel
  exact absurd (hbinding.symm.trans (h.whole hnone).1) (by decide)

end Expression
end LightningTemplate
