import LightningTemplate.Text.Blank
import LightningTemplate.Text.Quoted
import LightningTemplate.Text.Word

/-! Tokens of the inner text of an expression.  At every character some token
starts: the longest lexeme of the first class that fits, a single character of no
class at the least.  Blanks separate tokens and belong to none. -/
namespace LightningTemplate.Expression
open Text

inductive TokenKind
  | string | number | path | wordOperator | and | or | comparison | not | question | colon
  | arithmetic | openParen | closeParen | openBracket | closeBracket | comma | unknown
  deriving DecidableEq, Repr

def TokenKind.label : TokenKind → Text
  | .string => "STRING".toList
  | .number => "NUMBER".toList
  | .path => "PATH".toList
  | .wordOperator => "OP_WORD".toList
  | .and => "OP_AND".toList
  | .or => "OP_OR".toList
  | .comparison => "OP_CMP".toList
  | .not => "OP_NOT".toList
  | .question => "OP_TERNARY".toList
  | .colon => "COLON".toList
  | .arithmetic => "OP_ARITH".toList
  | .openParen => "LPAREN".toList
  | .closeParen => "RPAREN".toList
  | .openBracket => "LBRACKET".toList
  | .closeBracket => "RBRACKET".toList
  | .comma => "COMMA".toList
  | .unknown => "UNKNOWN".toList

structure Token where
  kind : TokenKind
  value : Text
  deriving DecidableEq, Repr

def operatorWords : List Text :=
  ["eq", "ne", "lt", "gt", "le", "ge", "and", "or", "not"].map String.toList

/-- How far a quoted run reaches after its opening quote, the closing quote included. -/
def quotedLength? (quote : Char) : Text → Option Nat
  | [] => none
  | c :: cs =>
    if c = quote then some 1
    else if c = '\\' then
      match cs with
      | [] => none
      | d :: ds => if d = '\n' then none else (quotedLength? quote ds).map (· + 2)
    else (quotedLength? quote cs).map (· + 1)

def runLength (p : Char → Bool) (t : Text) : Nat := (t.takeWhile p).length

/-- What follows the first digit of a number: digits, and a fraction if a digit follows the point. -/
def numberTail (t : Text) : Nat :=
  let whole := runLength isDigit t
  match t.drop whole with
  | '.' :: cs => let fraction := runLength isDigit cs
    if fraction = 0 then whole else whole + 1 + fraction
  | _ => whole

/-- What follows the first letter of a path: word characters, and points that one of them follows. -/
def pathTail : Text → Nat
  | [] => 0
  | c :: cs =>
    if isWord c then 1 + pathTail cs
    else if c = '.' && (cs.head?.any isWord) then 1 + pathTail cs
    else 0

/-- A lexeme: its class, or none for blanks, and how far it reaches after its first character. -/
abbrev Lexeme := Option TokenKind × Nat

def markAt (c : Char) (cs : Text) : Lexeme :=
  let next := cs.head?
  if c = '&' ∧ next = some '&' then (some .and, 1)
  else if c = '|' ∧ next = some '|' then (some .or, 1)
  else if (c = '=' ∨ c = '!') ∧ next = some '=' then
    (some .comparison, if cs.tail.head? = some '=' then 2 else 1)
  else if c = '>' ∨ c = '<' then (some .comparison, if next = some '=' then 1 else 0)
  else if c = '!' then (some .not, 0)
  else if c = '?' then (some .question, 0)
  else if c = ':' then (some .colon, 0)
  else if c = '+' ∨ c = '-' ∨ c = '*' ∨ c = '/' ∨ c = '%' then (some .arithmetic, 0)
  else if c = '(' then (some .openParen, 0)
  else if c = ')' then (some .closeParen, 0)
  else if c = '[' then (some .openBracket, 0)
  else if c = ']' then (some .closeBracket, 0)
  else if c = ',' then (some .comma, 0)
  else (some .unknown, 0)

def lexemeAt (c : Char) (cs : Text) : Lexeme :=
  if isBlank c then (none, runLength isBlank cs)
  else if c = '\'' ∨ c = '"' then
    match quotedLength? c cs with
    | some n => (some .string, n)
    | none => (some .unknown, 0)
  else if isDigit c then (some .number, numberTail cs)
  else if isLatinStart c then (some .path, pathTail cs)
  else if c = '$' then
    match cs with
    | d :: ds => if isLatinStart d then (some .path, 1 + pathTail ds) else (some .unknown, 0)
    | [] => (some .unknown, 0)
  else markAt c cs

def Token.ofValue (kind : TokenKind) (value : Text) : Token :=
  if kind = .path ∧ operatorWords.contains value then ⟨.wordOperator, value⟩ else ⟨kind, value⟩

def tokenAt (c : Char) (cs : Text) : Option Token :=
  (lexemeAt c cs).1.map fun kind => .ofValue kind (c :: cs.take (lexemeAt c cs).2)

def tokensFrom : Nat → Text → List Token
  | _, [] => []
  | k + 1, _ :: cs => tokensFrom k cs
  | 0, c :: cs => (tokenAt c cs).toList ++ tokensFrom (lexemeAt c cs).2 cs

def tokens (t : Text) : List Token := tokensFrom 0 t

theorem tokensFrom_eq (k : Nat) (t : Text) : tokensFrom k t = tokens (t.drop k) := by
  induction k generalizing t with
  | zero => simp [tokens]
  | succ k ih => cases t with
    | nil => simp [tokens, tokensFrom]
    | cons c cs => simpa [tokensFrom] using ih cs

def Token.display (t : Token) : Text :=
  "Token(".toList ++ t.kind.label ++ ", ".toList ++ quoted t.value ++ ")".toList

def displayTokens (ts : List Token) : Text :=
  '[' :: (join ", ".toList (ts.map Token.display) ++ [']'])

end LightningTemplate.Expression
