import LightningTemplate.Proofs.MixedValue
import LightningTemplate.Proofs.RoundTrip

/-! Whether a value stands in quotes is read off its converted text.  A value without an expression
is converted to itself, so it stands in quotes and is read back (`standsQuoted_static_iff`), unless
it is one pair of braces already: it cannot be told from a binding then
(`static_values_quoted_iff`). -/
namespace LightningTemplate
open Text Walk Node Expression Template

/-- An attribute that is written in quotes, of which reading gives the value. -/
def StandsQuoted (w : Text × Text) (value : Text) : Prop :=
  ∃ raw, '"' ∉ raw ∧ attributeText w.1 w.2 = w.1 ++ '=' :: '"' :: (raw ++ ['"']) ∧
    unescape raw = value

variable {m : Mapping} {nodes : List Node} {p : Site} {entry : Option ComponentEntry}
  {a w : Text × Text} {value : Text}

theorem standsQuoted_of_not_isBraced (h : isBraced w.2 = false) : StandsQuoted w w.2 := by
  refine ⟨escapeValue w.2, quote_notMem_escapeValue w.2, ?_, unescape_escapeValue w.2⟩
  rw [attributeText, h, if_neg Bool.false_ne_true, List.append_assoc]
  rfl

theorem StandsQuoted.not_unquoted (h : StandsQuoted w value) : ¬StandsUnquoted w := by
  rintro ⟨r, -, htext⟩
  obtain ⟨raw, -, hquoted, -⟩ := h
  rw [hquoted, List.append_cancel_left_eq] at htext
  exact absurd (List.cons.inj (List.cons.inj htext).2).1 (by decide)

/-- Neither the identifier nor any other value without an expression is changed. -/
theorem writtenAttribute_static (h : occurs a.2 = false) (count : Nat) :
    (Render.writtenAttribute entry count a).2 = a.2 := by
  rw [Render.writtenAttribute, substitute_of_not_occurs h, ite_self]

theorem standsQuoted_static_iff (h : occurs a.2 = false) (count : Nat) :
    StandsQuoted (Render.writtenAttribute entry count a) a.2 ↔ isBraced a.2 = false := by
  have hsame : (Render.writtenAttribute entry count a).2 = a.2 := writtenAttribute_static h count
  constructor
  · intro hquoted
    have hnot := hquoted.not_unquoted
    rw [standsUnquoted_iff, hsame] at hnot
    exact Bool.eq_false_of_not_eq_true hnot
  · intro hbraced
    have hquoted := standsQuoted_of_not_isBraced (hsame.symm ▸ hbraced)
    rwa [hsame] at hquoted

namespace Site

/-- The attributes of a plain element without an expression stand in quotes and are read back, and
only what holds an expression stands without. -/
structure KeepsStatics (m : Mapping) (nodes : List Node) (p : Site) : Prop where
  quoted : ∀ own injected, p.StandsAs m nodes own injected →
    ∀ a w, (a, w) ∈ p.node.attributes.zip own → occurs a.2 = false → StandsQuoted w a.2
  unquoted : ∀ own injected, p.StandsAs m nodes own injected →
    ∀ a w, (a, w) ∈ p.node.attributes.zip own → StandsUnquoted w → occurs a.2 = true

theorem keepsStatics_iff (hp : p ∈ sitesIn [] [] nodes) (hplain : p.node.isPlain = true) :
    p.KeepsStatics m nodes ↔
      ∀ a ∈ p.node.attributes, occurs a.2 = false → isBraced a.2 = false := by
  constructor
  · intro h a ha hstatic
    obtain ⟨own, injected, hstands⟩ := exists_standsAs (m := m) hp hplain
    obtain ⟨count, hwritten⟩ := hstands.attributes.exists_zip ha
    exact (standsQuoted_static_iff hstatic count).1 (h.quoted own injected hstands _ _ hwritten hstatic)
  · intro h
    have hquoted : ∀ own injected, p.StandsAs m nodes own injected →
        ∀ a w, (a, w) ∈ p.node.attributes.zip own → occurs a.2 = false → StandsQuoted w a.2 := by
      intro own injected hstands a w hwritten hstatic
      obtain ⟨count, rfl⟩ := List.forall₂_zip hstands.attributes hwritten
      exact (standsQuoted_static_iff hstatic count).2 (h a (List.of_mem_zip hwritten).1 hstatic)
    refine ⟨hquoted, fun own injected hstands a w hwritten hunquoted => ?_⟩
    by_contra hstatic
    have hquotes := hquoted own injected hstands a w hwritten (Bool.eq_false_of_not_eq_true hstatic)
    exact hquotes.not_unquoted hunquoted

end Site

/-- Every plain element that is rendered stands in the template with its attributes.  Those without
an expression stand in quotes and are read back, and no other ones stand without, just when none of
them is one pair of braces around a text without any. -/
theorem static_values_quoted_iff (m : Mapping) (nodes : List Node) :
    (∀ p ∈ sitesIn [] [] nodes, p.node.isPlain = true →
        ∃ own injected, p.StandsAs m nodes own injected) ∧
      ((∀ p ∈ sitesIn [] [] nodes, p.node.isPlain = true → p.KeepsStatics m nodes) ↔
        ∀ p ∈ sitesIn [] [] nodes, p.node.isPlain = true → ∀ a ∈ p.node.attributes,
          occurs a.2 = false → ∀ r, a.2 = inBraces r → ∃ c ∈ r, isBrace c = true) := by
  refine ⟨fun p => exists_standsAs, forall₃_congr fun p hp hplain => ?_⟩
  rw [Site.keepsStatics_iff hp hplain]
  refine forall₃_congr fun a _ _ => ?_
  rw [← Bool.not_eq_true, isBraced_iff_inBraces]
  constructor
  · intro h r hr
    by_contra hnone
    exact h ⟨r, hr, fun c hc => Bool.eq_false_of_not_eq_true fun hbrace => hnone ⟨c, hc, hbrace⟩⟩
  · rintro h ⟨r, hr, hnone⟩
    obtain ⟨c, hc, hbrace⟩ := h r hr
    rw [hnone c hc] at hbrace
    cases hbrace

def bracedTitle : List Node := [.element "p".toList [("title".toList, "{x}".toList)] []]

/-- It holds no expression, but comes out as a binding. -/
theorem bracedTitle_bound :
    occurs "{x}".toList = false ∧
      (Conversion.ofNodes .builtIn bracedTitle).template =
        "<template>\n    <p title={x}></p>\n</template>".toList ∧
      (Conversion.ofNodes .builtIn bracedTitle).findings.warnings = [] ∧
      ¬ ∀ p ∈ sitesIn [] [] bracedTitle, p.node.isPlain = true →
        p.KeepsStatics .builtIn bracedTitle := by
  refine ⟨by decide, by decide +kernel, by decide +kernel, fun h => ?_⟩
  have hplain : (Node.element "p".toList [("title".toList, "{x}".toList)] []).isPlain = true := by
    decide
  have hmem := mem_sitesIn_singleton "p".toList [("title".toList, "{x}".toList)] []
  have hkept := (Site.keepsStatics_iff hmem hplain).1 (h _ hmem hplain)
  exact absurd (hkept _ List.mem_cons_self (by decide)) (by decide)

end LightningTemplate
