import LightningTemplate.Proofs.Invisible

/-! The key of an iteration.  The first plain element among the children takes over a key as if
it had one more attribute (`renderKeyed_eq`), and no sibling is touched.  So an iteration that
gives its items a key is written like one whose first element is given that key in the source;
the warning that says so stands in front of what the children find.  Where the first element
has a key, or there is none, the children are written as they are. -/
namespace LightningTemplate
open Text Walk

namespace Node

/-- The node with one more attribute behind its own. -/
def withAttribute (a : Text × Text) : Node → Node
  | .text content => .text content
  | .element tag attrs nodes => .element tag (attrs ++ [a]) nodes

variable {n child : Node} {a : Text × Text} {before after nodes : List Node}

theorem isPlain_withAttribute (a : Text × Text) (n : Node) :
    (n.withAttribute a).isPlain = n.isPlain := by
  cases n <;> rfl

theorem has_withAttribute (h : n.isPlain = true) :
    (n.withAttribute a).attributes.has a.1 = true := by
  cases n with
  | text content => simp [isPlain, directive] at h
  | element tag attrs nodes =>
    simp only [withAttribute, attributes, Attributes.has, Attributes.anyCase?, Option.isSome_map,
      List.find?_isSome]
    exact ⟨a, by simp, beq_self_eq_true _⟩

/-- The plain element in front of which there is none is the first one. -/
theorem find?_isPlain (hbefore : ∀ n ∈ before, n.isPlain = false)
    (hchild : child.isPlain = true) :
    (before ++ child :: after).find? isPlain = some child := by
  have hnone : before.find? isPlain = none :=
    List.find?_eq_none.2 fun n hn => by simp [hbefore n hn]
  rw [List.find?_append, hnone, Option.none_or, List.find?_cons_of_pos hchild]

end Node

namespace Render
open Node

variable {child : Node} {before after nodes : List Node} {tag : Text}

/-- The attribute that an iteration gives to the first plain element of its children. -/
def itemKey (attrs : Attributes) : Text × Text := (keyName, keyBinding (itemVariable attrs))

theorem renderNode_handed (h : child.isPlain = true) (s : Surroundings) (key : Text × Text) :
    renderNode s [key] child = renderNode s [] (child.withAttribute key) := by
  cases child with
  | text content => simp [isPlain, directive] at h
  | element tag attrs nodes =>
    have hd : Directive.ofTag tag = .element := by simpa [isPlain, directive] using h
    simp only [withAttribute, renderNode, hd, List.append_nil]

theorem renderKeyed_eq (s : Surroundings) (key : Text × Text)
    (hbefore : ∀ n ∈ before, n.isPlain = false) (hchild : child.isPlain = true) :
    renderKeyed s key (before ++ child :: after) =
      renderAll s (before ++ child.withAttribute key :: after) := by
  induction before with
  | nil => simp [renderKeyed, renderAll, hchild, renderNode_handed]
  | cons n before ih =>
    rw [List.forall_mem_cons] at hbefore
    simp [renderKeyed, renderAll, hbefore.1, ih hbefore.2]

theorem needsKey_withAttribute (attrs : Attributes) (after : List Node)
    (hbefore : ∀ n ∈ before, n.isPlain = false) (hchild : child.isPlain = true) :
    needsKey (before ++ child.withAttribute (itemKey attrs) :: after) = false := by
  have hplain := (isPlain_withAttribute (itemKey attrs) child).trans hchild
  have hgiven := has_withAttribute (a := itemKey attrs) hchild
  rw [needsKey, find?_isPlain hbefore hplain, Bool.not_eq_false']
  exact hgiven

theorem needsKey_iff : needsKey nodes = false ↔
    ∀ child, nodes.find? isPlain = some child → child.attributes.has keyName = true := by
  unfold needsKey
  cases nodes.find? isPlain with
  | none => simp
  | some child => simp

/-- What is said where no key is given: there may be no element to carry one. -/
def missingKey (itemVar : Text) (children : List Node) : List Finding :=
  if children.any isPlain = false ∧ children.any isSolid = true then
    [.warning (.keyMissing itemVar)]
  else []

theorem keyWarnings_of_not_needed (itemVar : Text) (h : needsKey nodes = false) :
    keyWarnings itemVar nodes = missingKey itemVar nodes := by
  simp [keyWarnings, missingKey, h]

theorem missingKey_of_plain (itemVar : Text) (h : nodes.any isPlain = true) :
    missingKey itemVar nodes = [] := by simp [missingKey, h]

/-- What an iteration finds in front of its children, after so many getters. -/
def iterationFindings (attrs : Attributes) (count : Nat) : List Finding :=
  (if (attrs.get "items".toList).isEmpty then [.warning .itemsMissing] else [])
    ++ ((convert (attrs.get "items".toList)).run count).2 ++ [.directive "for:each".toList]

/-- The line that opens an iteration over the collection. -/
def iterationOpening (attrs : Attributes) (collection : Text) : Text :=
  "<template for:each=".toList ++ Expression.inBraces collection ++ " for:item=\"".toList
    ++ itemVariable attrs ++ ['"'] ++ (if (attrs.get "indexVar".toList).isEmpty then []
      else " for:index=\"".toList ++ attrs.get "indexVar".toList ++ ['"']) ++ ['>']

def collectionAfter (attrs : Attributes) (count : Nat) : Text :=
  Expression.unbrace ((convert (attrs.get "items".toList)).run count).1

theorem run_iterationFrame (s : Surroundings) (attrs : Attributes) (content : Walk Text) (n : Nat) :
    let own := iterationFindings attrs n
    let body := content.run (n + Finding.getterCount own)
    (iterationFrame s attrs content).run n =
      (Template.block s.indent (iterationOpening attrs (collectionAfter attrs n)) body.1 templateClose,
        own ++ body.2) := by
  intro own body
  have hnone : Finding.getterCount [.directive "for:each".toList] = 0 := rfl
  have hmissing : Finding.getterCount [.warning .itemsMissing] = 0 := rfl
  have hown : own = iterationFindings attrs n := rfl
  have hbody : content.run (n + Finding.getterCount own) = body := rfl
  clear_value body own
  subst hown
  unfold iterationFrame iterationOpening collectionAfter
  unfold iterationFindings at hbody ⊢
  generalize hgiven : (convert (attrs.get "items".toList)).run n = given at hbody ⊢
  by_cases hitems : (attrs.get "items".toList).isEmpty = true
  · simp only [hitems, if_true, Finding.getterCount_append, hnone, hmissing, Nat.add_zero,
      Nat.zero_add] at hbody
    simp only [hitems, if_true, run_bind, warn, run_note, run_pure, hmissing, hnone, hgiven,
      Nat.add_zero, hbody, List.append_nil, List.append_assoc]
  · rw [if_neg hitems] at hbody
    simp only [List.nil_append, Finding.getterCount_append, hnone, Nat.add_zero] at hbody
    simp only [hitems, Bool.false_eq_true, if_false, run_bind, run_note, run_pure, hnone, hgiven,
      Nat.add_zero, hbody, List.append_nil, List.nil_append, List.append_assoc]

theorem run_noteAll (fs : List Finding) (n : Nat) : (noteAll fs).run n = ((), fs) := by
  induction fs generalizing n with
  | nil => rfl
  | cons f fs ih => simp [noteAll, ih]

theorem getterCount_keyWarnings (itemVar : Text) (nodes : List Node) :
    Finding.getterCount (keyWarnings itemVar nodes) = 0 := by
  unfold keyWarnings
  split
  · rfl
  · split <;> rfl

theorem run_iteration (h : Directive.ofTag tag = .iteration) (s : Surroundings)
    (handed attrs : Attributes) {nodes written : List Node}
    (hwritten : (if needsKey nodes then renderKeyed s.inner (itemKey attrs) nodes
      else renderAll s.inner nodes) = renderAll s.inner written) (n : Nat) :
    let own := iterationFindings attrs n
    let body := (renderAll s.inner written).run (n + Finding.getterCount own)
    (renderNode s handed (.element tag attrs nodes)).run n =
      (Template.block s.indent (iterationOpening attrs (collectionAfter attrs n)) body.1 templateClose,
        own ++ (keyWarnings (itemVariable attrs) nodes ++ body.2)) := by
  intro own body
  have hrender : renderNode s handed (.element tag attrs nodes) = iterationFrame s attrs
      (noteAll (keyWarnings (itemVariable attrs) nodes) >>= fun _ => renderAll s.inner written) := by
    rw [← hwritten]
    simp only [renderNode, h, itemKey]
  rw [hrender, run_iterationFrame, run_bind, run_noteAll]
  simp only [getterCount_keyWarnings, Nat.add_zero]
  rfl

end Render

namespace Session
open Render

variable {s : Session} {i : Nat} {tag : Text} {nodes written : List Node}

theorem writes_iteration_children (hs : s.Holds i) (attrs : Attributes) (written : List Node)
    (indent : Text) :
    let own := iterationFindings attrs (s.state i).getters.length
    let body := (renderAll ⟨s.mapping, (s.context i).parent, Template.deeper indent⟩ written).run
      ((s.state i).getters.length + Finding.getterCount own)
    (s.written i own).Writes i (.children written (Template.deeper indent)) body.1 body.2
      ((s.written i own).written i body.2) := by
  intro own
  have hchildren := writes_children (holds_written hs own) written (Template.deeper indent)
  rwa [getters_written hs] at hchildren

/-- The text of the iteration is a block around theirs, and its log is its own findings, what is
said of the key, and theirs. -/
theorem writes_iteration (hs : s.Holds i) (h : Directive.ofTag tag = .iteration)
    (attrs : Attributes) (nodes : List Node) (indent : Text)
    (hwritten : ∀ place, (if needsKey nodes then renderKeyed place (itemKey attrs) nodes
      else renderAll place nodes) = renderAll place written) :
    let count := (s.state i).getters.length
    let own := iterationFindings attrs count
    let body := (renderAll ⟨s.mapping, (s.context i).parent, Template.deeper indent⟩ written).run
      (count + Finding.getterCount own)
    let log := own ++ (keyWarnings (itemVariable attrs) nodes ++ body.2)
    s.Writes i (.transform (.element tag attrs nodes) indent)
      (Template.block indent (iterationOpening attrs (collectionAfter attrs count)) body.1
        Render.templateClose) log (s.written i log) := by
  intro count own body log
  have hwrites := writes_transform hs (.element tag attrs nodes) indent
  simp only [run_iteration h _ _ _ (hwritten _)] at hwrites
  exact hwrites

end Session

/-- A warning between two logs is one more warning at its place, and nothing else. -/
theorem Findings.extend_warning (old : Findings) (a b : List Finding) (w : Warning) :
    old.extend (a ++ .warning w :: b) =
      { old.extend (a ++ b) with
        warnings := old.warnings ++
          (a.filterMap Finding.warning? ++ w :: b.filterMap Finding.warning?) } := by
  simp [extend, List.filterMap_cons, Finding.getter?]

open Session Render Template

/-- An iteration whose first plain element has no key is written like the one in which that
element has a key behind its attributes, bound to the identifier of the item: the same block
around the same children, and the same findings but for one warning, which stands in front of
what the children find.  Where the first plain element has a key of its own, or none is there,
the children are written as they stand, and it is said when none could carry a key. -/
theorem injected_key_as_written {s : Session} {i : Nat} {tag : Text} (hs : s.Holds i)
    (h : Directive.ofTag tag = .iteration) (attrs : Attributes) (nodes : List Node)
    (indent : Text) :
    let own := iterationFindings attrs (s.state i).getters.length
    let opening := iterationOpening attrs (collectionAfter attrs (s.state i).getters.length)
    (∀ before child after, nodes = before ++ child :: after → (∀ n ∈ before, n.isPlain = false) →
      child.isPlain = true → child.attributes.has keyName = false →
      ∃ content rest inner given taken,
        (s.written i own).Writes i
          (.children (before ++ child.withAttribute (itemKey attrs) :: after) (deeper indent))
          content rest inner ∧
        s.Writes i
          (.transform (.element tag attrs (before ++ child.withAttribute (itemKey attrs) :: after))
            indent)
          (block indent opening content templateClose) (own ++ rest) given ∧
        s.Writes i (.transform (.element tag attrs nodes) indent)
          (block indent opening content templateClose)
          (own ++ .warning (.keyAdded (itemKey attrs).2) :: rest) taken ∧
        taken.state i =
          { given.state i with
            warnings := (s.state i).warnings ++ (own.filterMap Finding.warning? ++
              .keyAdded (itemKey attrs).2 :: rest.filterMap Finding.warning?) }) ∧
    ((∀ child, nodes.find? Node.isPlain = some child → child.attributes.has keyName = true) →
      ∃ content rest inner after,
        (s.written i own).Writes i (.children nodes (deeper indent)) content rest inner ∧
        s.Writes i (.transform (.element tag attrs nodes) indent)
          (block indent opening content templateClose)
          (own ++ (missingKey (itemVariable attrs) nodes ++ rest)) after) := by
  intro own opening
  constructor
  · rintro before child after rfl hbefore hchild hhas
    have hneeds : needsKey (before ++ child :: after) = true := by
      simp [needsKey, Node.find?_isPlain hbefore hchild, hhas]
    have hkeyless := needsKey_withAttribute attrs after hbefore hchild
    have hplain : (before ++ child.withAttribute (itemKey attrs) :: after).any Node.isPlain =
        true := by
      simp [Node.isPlain_withAttribute, hchild]
    have htaken := writes_iteration hs h attrs (before ++ child :: after) indent fun place => by
      rw [if_pos hneeds, renderKeyed_eq place (itemKey attrs) hbefore hchild]
    have hgiven := writes_iteration hs h attrs
      (before ++ child.withAttribute (itemKey attrs) :: after) indent fun place => by
        rw [hkeyless, if_neg Bool.false_ne_true]
    rw [keyWarnings_of_not_needed _ hkeyless, missingKey_of_plain _ hplain] at hgiven
    rw [keyWarnings, if_pos hneeds] at htaken
    refine ⟨_, _, _, _, _, writes_iteration_children hs attrs _ indent, hgiven, htaken, ?_⟩
    rw [htaken.state, hgiven.state]
    exact Findings.extend_warning _ _ _ _
  · intro hkey
    have hkeyless := needsKey_iff.2 hkey
    have hwrites := writes_iteration hs h attrs nodes indent fun place => by
      rw [hkeyless, if_neg Bool.false_ne_true]
    rw [keyWarnings_of_not_needed _ hkeyless] at hwrites
    exact ⟨_, _, _, _, writes_iteration_children hs attrs _ indent, hwrites⟩

def pricedRow : Node := .element "li".toList [] [.text "{!r.price * 2}".toList]

/-- A row with a key, whose name is written in another way. -/
def keyedRow : Node := .element "li".toList [("KEY".toList, "{!r.code}".toList)] []

/-- No plain element stands in front of the rows: text, and a conditional that computes. -/
def rowsHead : List Node :=
  [.text "Rows: ".toList,
    .element "aura:if".toList [("isTrue".toList, "{!v.a + 1}".toList)] [.element "b".toList [] []]]

def itemAttributes : Attributes :=
  [("items".toList, "{!v.rows}".toList), ("VAR".toList, "r".toList)]

/-- The findings of the iteration itself, in a context that has one getter. -/
def ownSample : List Finding := iterationFindings itemAttributes 1

def rowsText : Text :=
  join ['\n'] (["<template for:each=\x7brows\x7d for:item=\"r\">", "    Rows:",
    "    <template lwc:if=\x7bcomputedValue2\x7d>", "        <b></b>", "    </template>",
    "    <li key=\x7br.Id\x7d>", "        \x7bcomputedValue3\x7d", "    </li>",
    "    <li key=\x7br.code\x7d></li>", "</template>"].map String.toList)

def keyedText : Text :=
  join ['\n'] (["<template for:each=\x7brows\x7d for:item=\"r\">", "    Rows:",
    "    <template lwc:if=\x7bcomputedValue2\x7d>", "        <b></b>", "    </template>",
    "    <li key=\x7br.code\x7d></li>", "    <li>", "        \x7bcomputedValue3\x7d", "    </li>",
    "</template>"].map String.toList)

theorem injected_key_as_written_rows :
    (∃ rest given taken,
      earlySession.Writes 1 (.transform (.element "aura:iteration".toList itemAttributes
        (rowsHead ++ pricedRow.withAttribute ("key".toList, "{r.Id}".toList) :: [keyedRow])) [])
        rowsText (ownSample ++ rest) given ∧
      earlySession.Writes 1 (.transform (.element "aura:iteration".toList itemAttributes
        (rowsHead ++ pricedRow :: [keyedRow])) [])
        rowsText (ownSample ++ .warning (.keyAdded "{r.Id}".toList) :: rest) taken ∧
      (taken.state 1).getters = (given.state 1).getters) ∧
    ∃ content rest inner after,
      (earlySession.written 1 ownSample).Writes 1
        (.children (rowsHead ++ keyedRow :: [pricedRow]) (deeper [])) content rest inner ∧
      earlySession.Writes 1 (.transform (.element "aura:iteration".toList itemAttributes
        (rowsHead ++ keyedRow :: [pricedRow])) [])
        keyedText (ownSample ++ rest) after ∧
      keyedText = block [] (iterationOpening itemAttributes "rows".toList) content templateClose := by
  have htag : Directive.ofTag "aura:iteration".toList = .iteration := by decide
  have hhead : ∀ n ∈ rowsHead, n.isPlain = false := by decide
  have hpriced : pricedRow.attributes.has keyName = false := by decide
  have hkeyed : keyedRow.attributes.has keyName = true := by decide
  have hkey : itemKey itemAttributes = ("key".toList, "{r.Id}".toList) := by decide
  have hrows : collectionAfter itemAttributes 1 = "rows".toList := by decide
  obtain ⟨hinjected, -⟩ := injected_key_as_written holds_earlySession htag itemAttributes
    (rowsHead ++ pricedRow :: [keyedRow]) []
  obtain ⟨-, hwritten⟩ := injected_key_as_written holds_earlySession htag itemAttributes
    (rowsHead ++ keyedRow :: [pricedRow]) []
  obtain ⟨content, rest, inner, given, taken, -, hgiven, htaken, hstate⟩ :=
    hinjected rowsHead pricedRow [keyedRow] rfl hhead rfl hpriced
  have hfirst : (rowsHead ++ keyedRow :: [pricedRow]).find? Node.isPlain = some keyedRow :=
    Node.find?_isPlain hhead rfl
  obtain ⟨content', rest', inner', after, hinner, hafter⟩ := hwritten fun child hchild => by
    obtain rfl := Option.some.inj (hfirst.symm.trans hchild)
    exact hkeyed
  have hplain : (rowsHead ++ keyedRow :: [pricedRow]).any Node.isPlain = true := by decide
  rw [missingKey_of_plain _ hplain] at hafter
  rw [hkey] at hgiven htaken
  have hcount : (earlySession.state 1).getters.length = 1 := rfl
  rw [hcount, hrows] at hafter
  have hrowsText := (hgiven.told fun _ text => text).symm.trans
    (by decide +kernel : _ = some rowsText)
  have hkeyedText := (hafter.told fun _ text => text).symm.trans
    (by decide +kernel : _ = some keyedText)
  rw [Option.some.inj hrowsText] at hgiven htaken
  rw [Option.some.inj hkeyedText] at hafter
  exact ⟨⟨rest, given, taken, hgiven, htaken, by rw [hstate]⟩,
    content', rest', inner', after, hinner, hafter, (Option.some.inj hkeyedText).symm⟩

end LightningTemplate
