import Mathlib.Data.List.Basic
import LightningTemplate.Proofs.Render

/-! The strings of a forest that are rendered, the expressions in them that need a
getter, and the order in which a walk meets these.  Expressions are counted in
document order; `visits` pairs each with its number and lists them as the walk goes,
which leaves none out and meets none twice (`visits_perm`). -/
namespace LightningTemplate
open Text

namespace Expression

def Piece.computing? : Piece → Option Text
  | .char _ => none
  | .expression _ inner => if (classify inner).kind = .complex then some (strip inner) else none

/-- The expressions of a text that need a getter, from left to right. -/
def computing (t : Text) : List Text := (pieces t).filterMap Piece.computing?

theorem source_classify (e : Text) : (classify e).source = strip e := by
  simp only [classify]
  split
  · rfl
  · rfl
  · split <;> rfl

theorem hoisted_substitutePiece (count : Nat) (p : Piece) :
    (p.substitute count).hoisted = p.computing?.toList := by
  cases p with
  | char c => rfl
  | expression sign inner =>
    by_cases h : (classify inner).kind = .complex
    · simp [Piece.substitute, Piece.computing?, Classification.needsGetter, h, source_classify]
    · simp [Piece.substitute, Piece.computing?, Classification.needsGetter, h]

theorem hoisted_substitutePieces (count : Nat) (ps : List Piece) :
    (substitutePieces count ps).hoisted = ps.filterMap Piece.computing? := by
  induction ps generalizing count with
  | nil => rfl
  | cons p ps ih =>
    rw [substitutePieces, ih, hoisted_substitutePiece, List.filterMap_cons]
    cases p.computing? <;> rfl

theorem hoisted_substitute (count : Nat) (t : Text) : (substitute count t).hoisted = computing t :=
  hoisted_substitutePieces count _

end Expression

open Expression

/-- Nodes that stand for records or declarations; nothing below them is rendered. -/
def Directive.isSilent : Directive → Bool
  | .messageChannel | .recordData | .metadata => true
  | _ => false

namespace Node

mutual
/-- The elements of a tree that are not below a silent one, in document order. -/
def renderedElements : Node → List Node
  | .text _ => []
  | .element tag attrs nodes => .element tag attrs nodes ::
    if (Directive.ofTag tag).isSilent then [] else renderedElementsIn nodes

def renderedElementsIn : List Node → List Node
  | [] => []
  | n :: ns => renderedElements n ++ renderedElementsIn ns
end

theorem mem_renderedElementsIn {e : Node} {ns : List Node} :
    e ∈ renderedElementsIn ns ↔ ∃ n ∈ ns, e ∈ renderedElements n := by
  induction ns with
  | nil => simp [renderedElementsIn]
  | cons n ns ih => simp [renderedElementsIn, ih]

/-- The attributes that an iteration hands to the first plain element of its children. -/
def handedBy (d : Directive) (attrs : Attributes) (nodes : List Node) : Attributes :=
  if d = .iteration && Render.needsKey nodes then
    [(Render.keyName, Render.keyBinding (Render.itemVariable attrs))]
  else []

def ownStrings (d : Directive) (attrs handed : Attributes) : List Text :=
  match d with
  | .conditional =>
    if !isAllBlank (attrs.get "isTrue".toList) then [attrs.get "isTrue".toList]
    else if !isAllBlank (attrs.get "isFalse".toList) then [attrs.get "isFalse".toList]
    else []
  | .iteration => [attrs.get "items".toList]
  | .rawHtml => [attrs.get "body".toList]
  | .text | .element => ((attrs ++ handed).filter fun a => a.1 != auraId).map (·.2)
  | .messageChannel | .recordData | .metadata | .slot => []

mutual
/-- The rendered strings of a node in document order, with the attributes that an iteration
around it hands to it. -/
def strings (handed : Attributes) : Node → List Text
  | .text content => [content]
  | .element tag attrs nodes =>
    if (Directive.ofTag tag).isSilent then []
    else ownStrings (.ofTag tag) attrs handed
      ++ stringsIn (handedBy (.ofTag tag) attrs nodes) nodes

/-- The rendered strings of siblings; the first plain element takes what is handed down. -/
def stringsIn (handed : Attributes) : List Node → List Text
  | [] => []
  | n :: ns =>
    strings (if n.isPlain then handed else []) n ++ stringsIn (if n.isPlain then [] else handed) ns
end

def expressions (handed : Attributes) (n : Node) : List Text :=
  (strings handed n).flatMap computing

def expressionsIn (handed : Attributes) (ns : List Node) : List Text :=
  (stringsIn handed ns).flatMap computing

theorem expressionsIn_cons (handed : Attributes) (n : Node) (ns : List Node) :
    expressionsIn handed (n :: ns) = expressions (if n.isPlain then handed else []) n
      ++ expressionsIn (if n.isPlain then [] else handed) ns := by
  simp [expressionsIn, expressions, stringsIn]

def ownExpressions (d : Directive) (attrs handed : Attributes) : List Text :=
  (ownStrings d attrs handed).flatMap computing

theorem expressions_element (handed : Attributes) (tag : Text) (attrs : Attributes)
    (nodes : List Node) :
    expressions handed (.element tag attrs nodes) =
      if (Directive.ofTag tag).isSilent then []
      else ownExpressions (.ofTag tag) attrs handed
        ++ expressionsIn (handedBy (.ofTag tag) attrs nodes) nodes := by
  rw [expressions, strings]
  split <;> simp [ownExpressions, expressionsIn]

mutual
/-- The expressions of a node that need a getter, each with its number in document order
when the first one has the number `k`, as a walk meets them. -/
def visits (k : Nat) (handed : Attributes) : Node → List (Text × Nat)
  | .text content => (computing content).zipIdx k
  | .element tag attrs nodes =>
    let own := ownExpressions (.ofTag tag) attrs handed
    let below := handedBy (.ofTag tag) attrs nodes
    if (Directive.ofTag tag).isSilent then []
    else if Directive.ofTag tag = .conditional then
      own.zipIdx k ++ (visitsIn isOtherBranch (k + own.length) below nodes
        ++ visitsIn (!·.isOtherBranch) (k + own.length) below nodes)
    else own.zipIdx k ++ visitsIn (fun _ => true) (k + own.length) below nodes

/-- The visits of the siblings that are chosen; the others only count. -/
def visitsIn (chosen : Node → Bool) (k : Nat) (handed : Attributes) : List Node → List (Text × Nat)
  | [] => []
  | n :: ns =>
    let passed := if n.isPlain then handed else []
    (if chosen n then visits k passed n else [])
      ++ visitsIn chosen (k + (expressions passed n).length) (if n.isPlain then [] else handed) ns
end

/-- Two complementary choices among the siblings visit what all of them together visit. -/
theorem visitsIn_split (chosen : Node → Bool) (k : Nat) (handed : Attributes) (ns : List Node) :
    (visitsIn chosen k handed ns ++ visitsIn (!chosen ·) k handed ns).Perm
      (visitsIn (fun _ => true) k handed ns) := by
  induction ns generalizing k handed with
  | nil => simp [visitsIn]
  | cons n ns ih =>
    simp only [visitsIn]
    have hrest := ih (k + (expressions (if n.isPlain then handed else []) n).length)
      (if n.isPlain then [] else handed)
    by_cases h : chosen n
    · simpa [h] using hrest.append_left _
    · simp only [h, Bool.false_eq_true, ite_false, List.nil_append, Bool.not_false, ite_true]
      refine List.Perm.trans ?_ (hrest.append_left _)
      rw [← List.append_assoc, ← List.append_assoc]
      exact List.perm_append_comm.append_right _

theorem visitsIn_perm {ns : List Node}
    (ih : ∀ n ∈ ns, ∀ k handed, (visits k handed n).Perm ((expressions handed n).zipIdx k))
    (k : Nat) (handed : Attributes) :
    (visitsIn (fun _ => true) k handed ns).Perm ((expressionsIn handed ns).zipIdx k) := by
  induction ns generalizing k handed with
  | nil => simp [visitsIn, expressionsIn, stringsIn]
  | cons n ns hns =>
    rw [visitsIn, expressionsIn_cons, List.zipIdx_append]
    exact (ih n (by simp) k _).append (hns (fun m hm => ih m (by simp [hm])) _ _)

/-- A walk meets every expression of a node that needs a getter, and meets it once. -/
theorem visits_perm (n : Node) (k : Nat) (handed : Attributes) :
    (visits k handed n).Perm ((expressions handed n).zipIdx k) := by
  induction n using Node.induction generalizing k handed with
  | text content => simp [visits, expressions, strings]
  | element tag attrs nodes ih =>
    rw [expressions_element]
    simp only [visits]
    have hall := visitsIn_perm ih
    split
    · simp
    · rw [List.zipIdx_append]
      split
      · exact ((visitsIn_split isOtherBranch _ _ nodes).trans (hall _ _)).append_left _
      · exact (hall _ _).append_left _

end Node
end LightningTemplate
