import LightningTemplate.Proofs.Reference
import LightningTemplate.Template

/-! Where expressions open in template text.  In a `Clear` text every opening is that of
an accepted binding.  Texts put side by side stay clear as long as no brace comes to
stand in front of a sign; what is stripped, cut at line ends or escaped stays clear as
long as no binding is torn. -/
namespace LightningTemplate.Expression
open Text

variable {accepted : Text → Prop} {a b t : Text}

def opens : Text → Bool
  | '{' :: s :: _ => isSign s
  | _ => false

def StartsBinding (accepted : Text → Prop) (t : Text) : Prop := ∃ r, accepted r ∧ inBraces r <+: t

/-- Wherever an expression opens in the text, an accepted binding stands. -/
def Clear (accepted : Text → Prop) : Text → Prop
  | [] => True
  | c :: cs => (opens (c :: cs) = true → StartsBinding accepted (c :: cs)) ∧ Clear accepted cs

theorem opens_of_ne {c : Char} (h : c ≠ '{') (cs : Text) : opens (c :: cs) = false := by
  unfold opens
  split
  · simp_all
  · rfl

theorem opens_brace (t : Text) : opens ('{' :: t) = true ↔ ∃ s, t.head? = some s ∧ isSign s = true := by
  cases t <;> simp [opens]

theorem unsigned_head {c : Char} (hb : b.head? = some c) (hc : isSign c = false) :
    ∀ s, b.head? = some s → isSign s = false := by
  intro s hs
  rw [hb] at hs
  rwa [← Option.some.inj hs]

theorem StartsBinding.append (h : StartsBinding accepted a) (b : Text) :
    StartsBinding accepted (a ++ b) := by
  obtain ⟨r, hr, hp⟩ := h
  exact ⟨r, hr, hp.trans (List.prefix_append a b)⟩

/-- A binding at the start ends within the first part or takes something of the second. -/
theorem prefix_or_reaches {r u : Text} (h : inBraces r <+: u ++ b) :
    inBraces r <+: u ∨ ∃ v, v ≠ [] ∧ inBraces r = u ++ v ∧ v <+: b := by
  rcases List.prefix_or_prefix_of_prefix h (List.prefix_append u b) with h' | ⟨v, hv⟩
  · exact .inl h'
  · cases v with
    | nil => exact .inl ⟨[], by simpa using hv.symm⟩
    | cons c cs =>
      rw [← hv, List.prefix_append_right_inj] at h
      exact .inr ⟨c :: cs, by simp, hv.symm, h⟩

namespace Clear

theorem nil : Clear accepted [] := trivial

theorem cons_of_ne {c : Char} (h : c ≠ '{') : Clear accepted (c :: t) ↔ Clear accepted t := by
  simp [Clear, opens_of_ne h]

theorem literal_append (h : '{' ∉ a) : Clear accepted (a ++ b) ↔ Clear accepted b := by
  induction a with
  | nil => rfl
  | cons c cs ih =>
    rw [List.mem_cons, not_or] at h
    rw [List.cons_append, cons_of_ne (Ne.symm h.1), ih h.2]

theorem literal (h : '{' ∉ t) : Clear accepted t := by
  rw [← List.append_nil t]
  exact (literal_append h).2 nil

theorem tail {c : Char} (h : Clear accepted (c :: t)) : Clear accepted t := h.2

theorem right (h : Clear accepted (a ++ b)) : Clear accepted b := by
  induction a with
  | nil => exact h
  | cons c cs ih => exact ih h.tail

/-- No sign stands where the second text begins. -/
theorem append (ha : Clear accepted a) (hb : Clear accepted b)
    (hhead : ∀ s, b.head? = some s → isSign s = false) : Clear accepted (a ++ b) := by
  induction a with
  | nil => exact hb
  | cons c cs ih =>
    rw [List.cons_append]
    refine ⟨fun hopen => ?_, ih ha.tail⟩
    refine StartsBinding.append (a := c :: cs) (ha.1 ?_) b
    by_cases hc : c = '{'
    · subst hc
      rw [opens_brace] at hopen
      obtain ⟨s, hs, hsign⟩ := hopen
      rw [opens_brace]
      cases cs with
      | cons d ds => exact ⟨s, hs, hsign⟩
      | nil => exact absurd hsign (by simp [hhead s hs])
    · rw [opens_of_ne hc] at hopen
      simp at hopen

theorem append_cons {c : Char} (ha : Clear accepted a) (hc : isSign c = false)
    (hb : Clear accepted (c :: b)) : Clear accepted (a ++ c :: b) :=
  ha.append hb (unsigned_head rfl hc)

theorem mono {wider : Text → Prop} (hw : ∀ r, accepted r → wider r) (h : Clear accepted t) :
    Clear wider t := by
  induction t with
  | nil => exact nil
  | cons c cs ih =>
    refine ⟨fun hopen => ?_, ih h.tail⟩
    obtain ⟨r, hr, hp⟩ := h.1 hopen
    exact ⟨r, hw r hr, hp⟩

/-- What follows the text has a part in none of the bindings in it. -/
theorem left (h : Clear accepted (a ++ b))
    (hcut : ∀ r u, accepted r → inBraces r <+: u ++ b → inBraces r <+: u) : Clear accepted a := by
  induction a with
  | nil => exact nil
  | cons c cs ih =>
    refine ⟨fun hopen => ?_, ih h.tail⟩
    have hopen' : opens (c :: cs ++ b) = true := by
      unfold opens at hopen
      split at hopen
      · rename_i s ds heq
        rw [heq]
        exact hopen
      · simp at hopen
    obtain ⟨r, hr, hp⟩ := h.1 hopen'
    exact ⟨r, hr, hcut r (c :: cs) hr hp⟩

/-- A binding ends with its brace, so none reaches into a text without braces. -/
theorem left_of_notMem (h : Clear accepted (a ++ b)) (hb : '}' ∉ b) : Clear accepted a := by
  refine h.left fun r u _ hp => (prefix_or_reaches hp).resolve_right ?_
  rintro ⟨v, hne, heq, hv⟩
  have hlast : v.getLast? = some '}' := by
    have : (u ++ v).getLast? = some '}' := by simp [← heq, inBraces, List.getLast?_cons]
    rwa [List.getLast?_append, List.getLast?_eq_some_getLast hne, Option.some_or,
      ← List.getLast?_eq_some_getLast hne] at this
  exact hb (hv.subset (List.mem_of_getLast? hlast))

/-- No binding holds the character at which the text is cut. -/
theorem left_of_head (h : Clear accepted (a ++ b))
    (hcut : ∀ r c, accepted r → b.head? = some c → c ∉ inBraces r) : Clear accepted a := by
  refine h.left fun r u hr hp => (prefix_or_reaches hp).resolve_right ?_
  rintro ⟨v, hne, heq, hv⟩
  cases v with
  | nil => exact hne rfl
  | cons c cs =>
    obtain ⟨rest, rfl⟩ := hv
    exact hcut r c hr rfl (by simp [heq])

theorem strip (h : Clear accepted t) : Clear accepted (strip t) := by
  obtain ⟨before, after, ht, hblank⟩ := exists_stripBoth isBlank t
  rw [ht] at h
  refine h.right.left_of_notMem fun hmem => ?_
  exact absurd (List.all_eq_true.1 hblank _ hmem) (by decide)

/-- A binding between two texts opens an expression just when its reference starts with a sign. -/
theorem braces_append {r : Text} (hr : Clear accepted r) (hb : Clear accepted b)
    (hsign : ∀ s, r.head? = some s → isSign s = true → accepted r) :
    Clear accepted (inBraces r ++ b) := by
  have htail : Clear accepted (r ++ '}' :: b) :=
    hr.append_cons rfl ((cons_of_ne (by decide)).2 hb)
  have heq : inBraces r ++ b = '{' :: (r ++ '}' :: b) := by simp [inBraces]
  rw [heq]
  refine ⟨fun hopen => ⟨r, ?_, b, heq⟩, htail⟩
  rw [opens_brace, List.head?_append] at hopen
  obtain ⟨s, hs, hsign'⟩ := hopen
  cases hhead : r.head? with
  | some c =>
    obtain rfl : c = s := by simpa [hhead] using hs
    exact hsign c hhead hsign'
  | none =>
    obtain rfl : '}' = s := by simpa [hhead] using hs
    exact absurd hsign' (by decide)

end Clear

/-- A sign of negation and a name that holds nothing that could end it. -/
def IsNegation (r : Text) : Prop := ∃ name : Text, r = '!' :: name ∧ ∀ c ∈ name, isBare c = true

theorem plain_of_mem_negation {r : Text} (hr : IsNegation r) {c : Char} (hc : c ∈ inBraces r) :
    isBlank c = false ∧ Template.escapeChar c = [c] := by
  obtain ⟨name, rfl, hname⟩ := hr
  simp only [inBraces, List.cons_append, List.mem_cons, List.mem_append, List.not_mem_nil,
    or_false] at hc
  rcases hc with rfl | rfl | hc | rfl
  · decide
  · decide
  · have hbare := hname c hc
    simp only [isBare, isMark, Bool.and_eq_true, Bool.not_eq_true', Bool.or_eq_false_iff,
      beq_eq_false_iff_ne, bne_iff_ne, ne_eq] at hbare
    obtain ⟨⟨⟨⟨⟨⟨⟨⟨⟨⟨hblank, hquote⟩, -⟩, hlt⟩, -⟩, -⟩, -⟩, -⟩, -⟩, -⟩, hamp⟩ := hbare
    exact ⟨hblank, by simp [Template.escapeChar, hamp, hquote, hlt]⟩
  · decide

theorem isBlank_of_isLineBreak {c : Char} (h : isLineBreak c = true) : isBlank c = true := by
  simp only [isLineBreak, isBlank, Bool.or_eq_true, Bool.and_eq_true, decide_eq_true_eq,
    beq_iff_eq] at h ⊢
  omega

namespace Clear

theorem line (hneg : ∀ r, accepted r → IsNegation r) (h : Clear accepted t) {l : Text}
    (hl : l ∈ lines t) : Clear accepted l := by
  obtain ⟨before, after, rfl, -, hafter⟩ := exists_of_mem_lines hl
  refine h.right.left_of_head fun r c hr hc hmem => ?_
  have hblank := (plain_of_mem_negation (hneg r hr) hmem).1
  rw [isBlank_of_isLineBreak (hafter c hc)] at hblank
  simp at hblank

theorem join_lines {ls : List Text} (h : ∀ l ∈ ls, Clear accepted l) :
    Clear accepted (join ['\n'] ls) := by
  induction ls with
  | nil => exact nil
  | cons l ls ih =>
    cases ls with
    | nil => simpa [join, List.intercalate] using h l (by simp)
    | cons m ms =>
      have hrest := ih fun k hk => h k (by simp [hk])
      have heq : join ['\n'] (l :: m :: ms) = l ++ '\n' :: join ['\n'] (m :: ms) := by
        simp [join, List.intercalate]
      rw [heq]
      exact (h l (by simp)).append_cons rfl ((cons_of_ne (by decide)).2 hrest)

theorem textLines (hneg : ∀ r, accepted r → IsNegation r) {indent : Text} (hi : '{' ∉ indent)
    (h : Clear accepted t) : Clear accepted (Template.textLines t indent) := by
  refine join_lines fun l hl => ?_
  obtain ⟨solid, hsolid, rfl⟩ := List.mem_map.1 hl
  obtain ⟨-, raw, hraw, rfl⟩ := Template.mem_solidLines hsolid
  exact (literal_append hi).2 (h.line hneg hraw).strip

theorem escapeValue_negation {r : Text} (h : IsNegation r) :
    Template.escapeValue (inBraces r) = inBraces r := by
  have hchars := fun c hc => (plain_of_mem_negation (c := c) h hc).2
  generalize inBraces r = t at hchars
  induction t with
  | nil => rfl
  | cons c cs ih =>
    rw [Template.escapeValue, List.flatMap_cons, hchars c (by simp), ← Template.escapeValue,
      ih fun d hd => hchars d (by simp [hd])]
    rfl

/-- An escaped text starts with a sign only if the text does. -/
theorem head_escapeValue {s : Char} (h : (Template.escapeValue t).head? = some s)
    (hs : isSign s = true) : t.head? = some s := by
  cases t with
  | nil => simp [Template.escapeValue] at h
  | cons c cs =>
    rw [Template.escapeValue, List.flatMap_cons, Template.escapeChar] at h
    repeat' split at h
    · obtain rfl : '&' = s := by simpa using h
      exact absurd hs (by decide)
    · obtain rfl : '&' = s := by simpa using h
      exact absurd hs (by decide)
    · obtain rfl : '&' = s := by simpa using h
      exact absurd hs (by decide)
    · simpa using h

theorem brace_notMem_escapeChar {c : Char} (h : c ≠ '{') : '{' ∉ Template.escapeChar c := by
  intro hmem
  rcases Template.mem_escapeChar hmem with heq | hentity
  · exact h heq.symm
  · exact absurd hentity (by decide)

theorem escapeValue (hneg : ∀ r, accepted r → IsNegation r) (h : Clear accepted t) :
    Clear accepted (Template.escapeValue t) := by
  induction t with
  | nil => exact nil
  | cons c cs ih =>
    by_cases hc : c = '{'
    · subst hc
      refine ⟨fun hopen => ?_, ih h.tail⟩
      obtain ⟨s, hs, hsign⟩ := (opens_brace _).1 hopen
      obtain ⟨r, hr, rest, hrest⟩ :=
        h.1 ((opens_brace _).2 ⟨s, head_escapeValue hs hsign, hsign⟩)
      refine ⟨r, hr, Template.escapeValue rest, ?_⟩
      have happ : Template.escapeValue (inBraces r ++ rest) =
          Template.escapeValue (inBraces r) ++ Template.escapeValue rest := by
        simp [Template.escapeValue]
      rw [← escapeValue_negation (hneg r hr), ← happ, hrest]
      rfl
    · exact (literal_append (brace_notMem_escapeChar hc)).2 (ih h.tail)

/-- A value stays clear between its quotes or its own braces. -/
theorem attributeText (hneg : ∀ r, accepted r → IsNegation r) {name : Text} (hname : '{' ∉ name)
    (h : Clear accepted t) : Clear accepted (Template.attributeText name t) := by
  unfold Template.attributeText
  split
  · exact (literal_append hname).2 ((cons_of_ne (by decide)).2 h)
  · rw [List.append_assoc]
    refine (literal_append hname).2 ?_
    rw [List.cons_append, cons_of_ne (by decide), List.cons_append, cons_of_ne (by decide)]
    exact (h.escapeValue hneg).append_cons rfl (literal (by decide))

end Clear

end LightningTemplate.Expression
