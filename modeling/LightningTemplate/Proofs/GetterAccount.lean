import LightningTemplate.Mapping.BuiltIn
import LightningTemplate.Proofs.Hoisting

/-! The getters of a template account for its expressions: every expression of a
rendered string that needs a getter has one, and no getter is there without one. -/
namespace LightningTemplate
open Text Expression Node

theorem Conversion.visits_perm (nodes : List Node) :
    (visits nodes).Perm ((expressionsIn [] nodes).zipIdx 0) :=
  visitsIn_perm (fun n _ => Node.visits_perm n) 0 []

/-- No expression is lost and none is hoisted twice, and the names count up from one. -/
theorem getters_account (m : Mapping) (nodes : List Node) (c : Conversion)
    (h : (Conversion.convert m nodes).outcome = .ok c) :
    (c.findings.getters.map (·.expression)).Perm ((stringsIn [] nodes).flatMap computing) ∧
      c.findings.getters.map (·.name) =
        (List.range c.findings.getters.length).map fun i => getterName (i + 1) := by
  obtain rfl := Conversion.eq_ofNodes_of_convert h
  rw [Conversion.getters_ofNodes, Findings.expression_named, Findings.name_named,
    Findings.length_named, List.range_eq_range']
  refine ⟨?_, rfl⟩
  have hp := (Conversion.visits_perm nodes).map (·.1)
  rwa [List.zipIdx_map_fst] at hp

/-- A conditional with two branches around an iteration whose button takes a key. -/
def accountSample : List Node :=
  [.element "aura:if".toList [("isTrue".toList, "{!v.a and v.b}".toList)]
    [.element "aura:iteration".toList
      [("items".toList, "{!v.c + v.d}".toList), ("var".toList, "#row, 1".toList)]
      [.element "lightning:button".toList
        [("label".toList, "{!v.e} and \x7b!v.e ? 'x' : '\x7d'\x7d".toList),
          ("aura:id".toList, "{!v.f + 1}".toList)] [.text "\n".toList]],
    .element "aura:set".toList [("attribute".toList, "else".toList)] [.text "{#!(v.g)}".toList],
    .element "aura:attribute".toList [("name".toList, "x".toList)] [.text "{!v.h + 1}".toList]]]

theorem getters_account_branches :
    ∃ c, (Conversion.convert .builtIn accountSample).outcome = .ok c ∧
      c.findings.getters.map (fun g => (g.name, g.expression)) =
        [("computedValue1".toList, "v.a and v.b".toList),
          ("computedValue2".toList, "!(v.g)".toList), ("computedValue3".toList, "v.c + v.d".toList),
          ("computedValue4".toList, "v.e ? 'x' : '\x7d'".toList)] ∧
      (c.findings.getters.map (·.expression)).Perm
        ((stringsIn [] accountSample).flatMap computing) ∧
      c.findings.getters.map (·.name) =
        (List.range c.findings.getters.length).map fun i => getterName (i + 1) := by
  have h : (Conversion.convert .builtIn accountSample).outcome =
      .ok (.ofNodes .builtIn accountSample) := Conversion.convert_ok (by decide +kernel)
  exact ⟨_, h, by decide +kernel, getters_account _ _ _ h⟩

end LightningTemplate
