import LightningTemplate.Text.Blank

/-! Where expressions stand in a text.  An expression opens with a brace and one of
two signs and ends at the first closing brace outside quotes; a backslash inside
quotes protects the character after it.  `pieces` cuts a text into expressions and
single characters of other text, and loses nothing (`source_pieces`). -/
namespace LightningTemplate.Expression

def isSign (c : Char) : Bool := c == '!' || c == '#'

def isQuote (c : Char) : Bool := c == '\'' || c == '"'

/-- The inner text up to the closing brace, and what follows the brace.  The first
argument is the quote that is open. -/
def body? : Option Char → Text → Option (Text × Text)
  | _, [] => none
  | none, c :: cs =>
    if c = '}' then some ([], cs)
    else (body? (if isQuote c then some c else none) cs).map fun r => (c :: r.1, r.2)
  | some q, c :: cs =>
    if c = q then (body? none cs).map fun r => (c :: r.1, r.2)
    else if c = '\\' then
      match cs with
      | [] => none
      | d :: ds =>
        if d = '\n' then none else (body? (some q) ds).map fun r => (c :: d :: r.1, r.2)
    else (body? (some q) cs).map fun r => (c :: r.1, r.2)

/-- A stretch of text: one character outside every expression, or an expression. -/
inductive Piece
  | char (c : Char)
  | expression (sign : Char) (inner : Text)
  deriving DecidableEq, Repr

def Piece.source : Piece → Text
  | .char c => [c]
  | .expression sign inner => '{' :: sign :: (inner ++ ['}'])

def Piece.isExpression : Piece → Bool
  | .char _ => false
  | .expression _ _ => true

def expressionAt? : Text → Option (Piece × Text)
  | '{' :: s :: cs =>
    if isSign s then (body? none cs).map fun r => (.expression s r.1, r.2) else none
  | _ => none

theorem body?_source {q : Option Char} {t inner rest : Text} (h : body? q t = some (inner, rest)) :
    inner ++ '}' :: rest = t := by
  fun_induction body? q t generalizing inner rest <;> simp_all
  all_goals
    obtain ⟨a, b, hab, rfl, rfl⟩ := h
    simp_all

theorem expressionAt?_source {t rest : Text} {p : Piece} (h : expressionAt? t = some (p, rest)) :
    p.source ++ rest = t := by
  unfold expressionAt? at h
  split at h
  · split at h
    · simp only [Option.map_eq_some_iff, Prod.mk.injEq] at h
      obtain ⟨⟨a, b⟩, hab, rfl, rfl⟩ := h
      simp [Piece.source, body?_source hab]
    · simp at h
  · simp at h

def piecesFrom : Nat → Text → List Piece
  | _, [] => []
  | k + 1, _ :: cs => piecesFrom k cs
  | 0, c :: cs =>
    match expressionAt? (c :: cs) with
    | some r => r.1 :: piecesFrom (r.1.source.length - 1) cs
    | none => .char c :: piecesFrom 0 cs

def pieces (t : Text) : List Piece := piecesFrom 0 t

theorem piecesFrom_eq (k : Nat) (t : Text) : piecesFrom k t = pieces (t.drop k) := by
  induction k generalizing t with
  | zero => rfl
  | succ k ih => cases t with
    | nil => rfl
    | cons c cs => simpa [piecesFrom] using ih cs

theorem pieces_nil : pieces [] = [] := rfl

theorem pieces_expression {t rest : Text} {p : Piece} (h : expressionAt? t = some (p, rest)) :
    pieces t = p :: pieces rest := by
  have hs := expressionAt?_source h
  cases t with
  | nil => simp [expressionAt?] at h
  | cons c cs =>
    have hp : 0 < p.source.length := by cases p <;> simp [Piece.source]
    have hd : cs.drop (p.source.length - 1) = rest := by
      have : (c :: cs).drop p.source.length = rest := by rw [← hs]; simp
      obtain ⟨n, hn⟩ := Nat.exists_eq_succ_of_ne_zero (Nat.ne_of_gt hp)
      rw [hn] at this ⊢
      simpa using this
    rw [pieces, piecesFrom, h]
    simp [piecesFrom_eq, hd]

theorem pieces_char {c : Char} {cs : Text} (h : expressionAt? (c :: cs) = none) :
    pieces (c :: cs) = .char c :: pieces cs := by
  rw [pieces, piecesFrom, h]; rfl

theorem source_pieces (t : Text) : (pieces t).flatMap Piece.source = t := by
  induction hn : t.length using Nat.strongRecOn generalizing t with
  | ind n ih =>
    cases t with
    | nil => rfl
    | cons c cs =>
      cases he : expressionAt? (c :: cs) with
      | none =>
        rw [pieces_char he]
        simp only [List.flatMap_cons, Piece.source, List.singleton_append, List.cons.injEq, true_and]
        exact ih _ (by simp [← hn]) cs rfl
      | some r =>
        have hs := expressionAt?_source he
        rw [pieces_expression he, List.flatMap_cons]
        rw [ih r.2.length ?_ r.2 rfl, hs]
        have : (r.1.source ++ r.2).length = n := by rw [hs, hn]
        have hp : 0 < r.1.source.length := by cases r.1 <;> simp [Piece.source]
        simp at this; omega

def occurs (t : Text) : Bool := (pieces t).any Piece.isExpression

/-- The whole text, blanks at its ends aside, is one expression; its inner text. -/
def single? (t : Text) : Option Text :=
  match expressionAt? (Text.strip t) with
  | some (.expression _ inner, []) => some inner
  | _ => none

end LightningTemplate.Expression
