import LightningTemplate.Proofs.Classification
import LightningTemplate.Proofs.Siblings
import LightningTemplate.Proofs.Writer

/-! The branches of a conditional.  Its children fall into else facets and others, and all that a
template holds of it is made from these two lists (`renderMain_eq`, `renderElse_eq`): where the
else facets stand among the others makes no difference.  The else facets are written first, each
as its children, and no slot is made of them. -/
namespace LightningTemplate
open Text

namespace Render
open Walk

variable {attrs : Attributes} {a b nodes : List Node} {tag condition : Text} {negated : Bool}

def renderEach (s : Surroundings) (groups : List (List Node)) : Walk (List Text) :=
  groups.mapM (renderAll s)

theorem renderElse_eq (s : Surroundings) (nodes : List Node) : renderElse s nodes =
    List.flatten <$> renderEach s ((nodes.filter (·.isOtherBranch)).map (·.children)) := by
  rw [renderElse_eq_joined]
  induction nodes.filter (·.isOtherBranch) with
  | nil => simp [joined, renderEach]
  | cons n facets ih => simp [joined, renderEach, ih, List.mapM_cons]

/-- A conditional is written alike when its else facets stand elsewhere among its children. -/
theorem renderNode_conditional_congr (h : Directive.ofTag tag = .conditional)
    (hfacets : a.filter (·.isOtherBranch) = b.filter (·.isOtherBranch))
    (hmain : a.filter (!·.isOtherBranch) = b.filter (!·.isOtherBranch)) (s : Surroundings)
    (handed : Attributes) :
    renderNode s handed (.element tag attrs a) = renderNode s handed (.element tag attrs b) := by
  have hself (nodes : List Node) :
      nodes.any (·.isOtherBranch) = (nodes.filter (·.isOtherBranch)).any (·.isOtherBranch) := by
    simp [List.any_filter]
  have hany : a.any (·.isOtherBranch) = b.any (·.isOtherBranch) := by
    rw [hself a, hfacets, ← hself b]
  simp only [renderNode, h, renderMain_eq, renderElse_eq, hfacets, hmain, hany]

/-- The condition that counts, and whether it is negated; blank conditions count as missing. -/
def condition? (attrs : Attributes) : Option (Bool × Text) :=
  if !isAllBlank (attrs.get "isTrue".toList) then some (false, attrs.get "isTrue".toList)
  else if !isAllBlank (attrs.get "isFalse".toList) then some (true, attrs.get "isFalse".toList)
  else none

theorem guardOf_eq (h : condition? attrs = some (negated, condition)) : guardOf attrs = do
    return some (Expression.signed negated (Expression.unbrace (← convert condition))) := by
  unfold condition? at h
  unfold guardOf
  split at h
  · rename_i htrue
    obtain ⟨rfl, rfl⟩ := Prod.mk.inj (Option.some.inj h)
    rw [if_pos htrue]
    rfl
  · rename_i htrue
    rw [if_neg htrue]
    split at h
    · rename_i hfalse
      obtain ⟨rfl, rfl⟩ := Prod.mk.inj (Option.some.inj h)
      rw [if_pos hfalse]
      rfl
    · cases h

def ifBlock (indent guard content : Text) : Text :=
  Template.block indent ("<template lwc:if=".toList ++ Expression.inBraces guard ++ ['>']) content
    templateClose

def elseBlock (indent content : Text) : Text :=
  Template.block indent "<template lwc:else>".toList content templateClose

def branchDirectives (hasElse : Bool) : List Finding :=
  if hasElse then [.directive "lwc:if".toList, .directive "lwc:else".toList]
  else [.directive "lwc:if".toList]

/-- The blocks of a conditional, out of what its two branches are written as. -/
theorem run_conditionalFrame (h : condition? attrs = some (negated, condition)) (s : Surroundings)
    (hasElse : Bool) (otherwise main : Walk Text) (n : Nat) :
    let given := (convert condition).run n
    let second := otherwise.run (n + Finding.getterCount given.2)
    let first := main.run (n + Finding.getterCount (given.2 ++ second.2))
    (conditionalFrame s attrs hasElse otherwise main).run n =
      (ifBlock s.indent (Expression.signed negated (Expression.unbrace given.1)) first.1 ++
          (if hasElse then '\n' :: elseBlock s.indent second.1 else []),
        given.2 ++ second.2 ++ first.2 ++ branchDirectives hasElse) := by
  intro given second first
  have hgiven : (convert condition).run n = given := rfl
  have hsecond : otherwise.run (n + Finding.getterCount given.2) = second := rfl
  have hfirst : main.run (n + Finding.getterCount given.2 + Finding.getterCount second.2) =
      first := by
    rw [Nat.add_assoc, ← Finding.getterCount_append]
  clear_value first second given
  simp only [conditionalFrame, guardOf_eq h, bind_assoc, pure_bind, run_bind, hgiven, hsecond,
    hfirst]
  cases hasElse <;>
    simp only [ifBlock, elseBlock, branchDirectives, run_bind, run_note, run_pure, if_true,
      Bool.false_eq_true, if_false, List.append_nil, List.append_assoc, List.cons_append,
      List.nil_append]

end Render

namespace Session
open Render Walk

variable {s middle after : Session} {i : Nat} {as bs : List Action} {texts more : List Text}
  {log rest : List Finding}

/-- The actions in the context, each in what the one before it left, answer with the texts and
together write the log. -/
inductive WritesAll (i : Nat) : Session → List Action → List Text → List Finding → Session → Prop
  | nil {s : Session} : WritesAll i s [] [] [] s
  | cons {s middle after : Session} {a : Action} {as : List Action} {text : Text}
      {texts : List Text} {log rest : List Finding} (first : s.Writes i a text log middle)
      (others : WritesAll i middle as texts rest after) :
      WritesAll i s (a :: as) (text :: texts) (log ++ rest) after

theorem WritesAll.append (h : s.WritesAll i as texts log middle)
    (hbs : middle.WritesAll i bs more rest after) :
    s.WritesAll i (as ++ bs) (texts ++ more) (log ++ rest) after := by
  induction h with
  | nil => exact hbs
  | cons first _ ih =>
    rw [List.append_assoc]
    exact .cons first (ih hbs)

theorem WritesAll.state (h : s.WritesAll i as texts log after) :
    after.state i = (s.state i).extend log := by
  induction h with
  | nil => rw [Findings.extend_nil]
  | cons first _ ih => rw [ih, first.state, Findings.extend_append]

theorem writes_convert (h : s.Holds i) (t : Text) :
    let r := (convert t).run (s.state i).getters.length
    s.Writes i (.convert t) r.1 r.2 (s.written i r.2) :=
  writes_of_simulates h (simulates_convert _ t) rfl

theorem step_transform_congr (h : s.Holds i) {a b : Node}
    (hab : ∀ place, renderNode place [] a = renderNode place [] b) (indent : Text) :
    s.step i (.transform a indent) = s.step i (.transform b indent) := by
  let place : Surroundings := ⟨s.mapping, (s.context i).parent, indent⟩
  have ha := perform_eq h (Transformer.simulates_transform place _ rfl [] a)
  have hb := perform_eq h (Transformer.simulates_transform place _ rfl [] b)
  rw [hab] at ha
  simp only [step]
  rw [show s.perform (Transformer.transform s.mapping (s.context i) indent [] a) = _ from ha,
    show s.perform (Transformer.transform s.mapping (s.context i) indent [] b) = _ from hb]

theorem writesAll_children (h : s.Holds i) (groups : List (List Node)) (indent : Text) :
    let r := (renderEach ⟨s.mapping, (s.context i).parent, indent⟩ groups).run
      (s.state i).getters.length
    s.WritesAll i (groups.map (.children · indent)) r.1 r.2 (s.written i r.2) := by
  induction groups generalizing s with
  | nil =>
    rw [renderEach, List.mapM_nil, run_pure]
    dsimp only
    rw [written_nil]
    exact .nil
  | cons g groups ih =>
    have hfirst := writes_children h g indent
    generalize hr : (renderAll ⟨s.mapping, (s.context i).parent, indent⟩ g).run
      (s.state i).getters.length = r at hfirst
    have hmore := ih (holds_written h r.2)
    simp only [getters_written h] at hmore
    simp only [renderEach, List.mapM_cons, run_bind, run_pure, hr, List.append_nil]
    rw [← written_append]
    exact .cons hfirst hmore

/-- What is done for a conditional: its condition is converted, then each else facet and then all
the other children are written. -/
def branchActions (condition : Text) (nodes : List Node) (indent : Text) : List Action :=
  .convert condition :: ((nodes.filter (·.isOtherBranch)).map fun n =>
    .children n.children (Template.deeper indent)) ++
    [.children (nodes.filter (!·.isOtherBranch)) (Template.deeper indent)]

/-- The actions for a conditional, and the conditional itself: its text has their texts for its
contents, and its log adds no more to theirs than the directives. -/
theorem writes_conditional {attrs : Attributes} {negated : Bool} {tag condition : Text}
    (hs : s.Holds i) (h : Directive.ofTag tag = .conditional)
    (hcondition : condition? attrs = some (negated, condition)) (nodes : List Node)
    (indent : Text) : ∃ given facets main log middle after,
      s.WritesAll i (branchActions condition nodes indent) (given :: facets ++ [main]) log middle ∧
      s.Writes i (.transform (.element tag attrs nodes) indent)
        (ifBlock indent (Expression.signed negated (Expression.unbrace given)) main ++
          (if nodes.any (·.isOtherBranch) then '\n' :: elseBlock indent facets.flatten else []))
        (log ++ branchDirectives (nodes.any (·.isOtherBranch))) after := by
  have hconvert := writes_convert hs condition
  have hwrites := writes_transform hs (.element tag attrs nodes) indent
  simp only [renderNode, h, run_conditionalFrame hcondition, renderElse_eq, renderMain_eq, run_map]
    at hwrites
  generalize hplace : Surroundings.mk s.mapping (s.context i).parent indent = place at hwrites
  generalize (convert condition).run (s.state i).getters.length = given at hconvert hwrites
  generalize hsecond : (renderEach place.inner
    ((nodes.filter (·.isOtherBranch)).map (·.children))).run _ = second at hwrites
  generalize hfirst : (renderAll place.inner
    (nodes.filter (!·.isOtherBranch))).run _ = first at hwrites
  subst hplace
  have hheld := holds_written hs given.2
  have hfacets : (s.written i given.2).WritesAll i
      (((nodes.filter (·.isOtherBranch)).map (·.children)).map
        (.children · (Template.deeper indent))) second.1 second.2
      ((s.written i given.2).written i second.2) := by
    rw [← hsecond, ← getters_written hs]
    exact writesAll_children hheld _ _
  have hmain : ((s.written i given.2).written i second.2).Writes i
      (.children (nodes.filter (!·.isOtherBranch)) (Template.deeper indent)) first.1 first.2
      (((s.written i given.2).written i second.2).written i first.2) := by
    rw [← hfirst, Finding.getterCount_append, ← Nat.add_assoc, ← getters_written hs,
      ← getters_written hheld]
    exact writes_children (holds_written hheld second.2) _ _
  rw [List.map_map] at hfacets
  have hall := WritesAll.cons hconvert (hfacets.append (.cons hmain .nil))
  rw [List.append_nil, ← List.append_assoc] at hall
  exact ⟨given.1, second.1, first.1, _, _, _, hall, hwrites⟩

end Session

open Session Render

theorem Findings.extend_branchDirectives (fs : Findings) (hasElse : Bool) :
    (fs.extend (branchDirectives hasElse)).facets = fs.facets ∧
      (fs.extend (branchDirectives hasElse)).warnings = fs.warnings ∧
      (fs.extend (branchDirectives hasElse)).getters = fs.getters := by
  cases hasElse <;> simp [branchDirectives, extend, Finding.getter?, named]

/-- Else facets do not depend on their place and stay what they are.  A conditional leaves the same
answer and the same findings wherever its else facets stand among its other children.  Under a
condition its text is a block with all the other children and, just when there is an else
facet, a block with the children of the else facets in their order; what is found is found by
writing these, up to the directives, so an else facet makes no facet and no warning of its own. -/
theorem conditional_branches {s : Session} {i : Nat} {tag : Text} (hs : s.Holds i)
    (h : Directive.ofTag tag = .conditional) (attrs : Attributes) (nodes : List Node)
    (indent : Text) :
    (∀ others, others.filter (·.isOtherBranch) = nodes.filter (·.isOtherBranch) →
      others.filter (!·.isOtherBranch) = nodes.filter (!·.isOtherBranch) →
      s.step i (.transform (.element tag attrs others) indent) =
        s.step i (.transform (.element tag attrs nodes) indent)) ∧
    ∀ negated condition, condition? attrs = some (negated, condition) →
      ∃ given facets main log middle after,
        s.WritesAll i (branchActions condition nodes indent) (given :: facets ++ [main]) log
          middle ∧
        s.Writes i (.transform (.element tag attrs nodes) indent)
          (ifBlock indent (Expression.signed negated (Expression.unbrace given)) main ++
            (if nodes.any (·.isOtherBranch) then '\n' :: elseBlock indent facets.flatten else []))
          (log ++ branchDirectives (nodes.any (·.isOtherBranch))) after ∧
        (after.state i).facets = (middle.state i).facets ∧
        (after.state i).warnings = (middle.state i).warnings ∧
        (after.state i).getters = (middle.state i).getters := by
  refine ⟨fun others hfacets hmain => ?_, fun negated condition hcondition => ?_⟩
  · exact step_transform_congr hs
      (fun place => renderNode_conditional_congr h hfacets hmain place []) indent
  · obtain ⟨given, facets, main, log, middle, after, hall, hwrites⟩ :=
      writes_conditional hs h hcondition nodes indent
    refine ⟨given, facets, main, log, middle, after, hall, hwrites, ?_⟩
    rw [hwrites.state, Findings.extend_append, ← hall.state]
    exact Findings.extend_branchDirectives _ _

def elseFacet (t : Text) : Node :=
  .element "aura:set".toList [("attribute".toList, "else".toList)] [.text t]

theorem isOtherBranch_elseFacet (t : Text) : (elseFacet t).isOtherBranch = true := by
  have hslot : Directive.ofTag "aura:set".toList = .slot := by decide
  have hname : facetName (Attributes.trimmed [("attribute".toList, "else".toList)]) =
      "else".toList := by decide
  rw [Node.isOtherBranch, Bool.and_eq_true, beq_iff_eq, beq_iff_eq]
  exact ⟨hslot, hname⟩

def mainElement : Node := .element "p".toList [] [.text "\x7b!v.b + 1\x7d".toList]

/-- An else facet on either side of the element, which compute as well. -/
def elseSample : List Node :=
  [elseFacet "\x7b!v.a + 1\x7d".toList, mainElement, elseFacet "\x7b!v.c + 1\x7d".toList]

/-- The children of `elseSample` with the else facets behind the element. -/
def elseLastSample : List Node :=
  [mainElement, elseFacet "\x7b!v.a + 1\x7d".toList, elseFacet "\x7b!v.c + 1\x7d".toList]

def elseAttributes : Attributes := [("isTrue".toList, "\x7b!v.d\x7d".toList)]

theorem conditional_branches_else :
    (Session.start .builtIn).step 0
        (.transform (.element "aura:if".toList elseAttributes elseLastSample) []) =
      (Session.start .builtIn).step 0
        (.transform (.element "aura:if".toList elseAttributes elseSample) []) ∧
    ∃ given facets main log middle after,
      (Session.start .builtIn).WritesAll 0 (branchActions "\x7b!v.d\x7d".toList elseSample [])
        (given :: facets ++ [main]) log middle ∧
      (Session.start .builtIn).Writes 0
        (.transform (.element "aura:if".toList elseAttributes elseSample) [])
        (ifBlock [] (Expression.signed false (Expression.unbrace given)) main ++
          (if elseSample.any (·.isOtherBranch) then '\n' :: elseBlock [] facets.flatten else []))
        (log ++ branchDirectives (elseSample.any (·.isOtherBranch))) after ∧
      (after.state 0).facets = (middle.state 0).facets := by
  have hs : (Session.start .builtIn).Holds 0 := Store.holds_nextContext {}
  have htag : Directive.ofTag "aura:if".toList = .conditional := by decide
  have hcondition : condition? elseAttributes =
      some (false, "\x7b!v.d\x7d".toList) := by decide
  have hplain : mainElement.isOtherBranch = false := by decide
  have hfacets : elseLastSample.filter (·.isOtherBranch) = elseSample.filter (·.isOtherBranch) := by
    simp only [elseLastSample, elseSample, List.filter_cons, isOtherBranch_elseFacet, hplain,
      if_true, Bool.false_eq_true, if_false]
  have hmain : elseLastSample.filter (!·.isOtherBranch) = elseSample.filter (!·.isOtherBranch) := by
    simp only [elseLastSample, elseSample, List.filter_cons, isOtherBranch_elseFacet, hplain,
      Bool.not_true, Bool.not_false, if_true, Bool.false_eq_true, if_false]
  obtain ⟨hmoved, hwritten⟩ := conditional_branches hs htag elseAttributes elseSample []
  obtain ⟨given, facets, main, log, middle, after, hall, hwrites, hkept, -⟩ :=
    hwritten false _ hcondition
  exact ⟨hmoved elseLastSample hfacets hmain, given, facets, main, log, middle, after, hall,
    hwrites, hkept⟩

end LightningTemplate
