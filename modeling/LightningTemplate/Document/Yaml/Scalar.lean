import LightningTemplate.Document.Value

/-! What the plain scalars of mapping files spell: nothing, truth values, numbers, dates, and
texts.  Times, numbers with an exponent or with more digits than are kept, and the marks of
entries from elsewhere are refused. -/
namespace LightningTemplate.Yaml
open Text

def spellings (words : List String) : List Text := words.map String.toList

def nullWords : List Text := spellings ["", "~", "null", "Null", "NULL"]

def trueWords : List Text :=
  spellings ["yes", "Yes", "YES", "true", "True", "TRUE", "on", "On", "ON"]

def falseWords : List Text :=
  spellings ["no", "No", "NO", "false", "False", "FALSE", "off", "Off", "OFF"]

/-- The number that digits of a base spell; underscores between them do not count. -/
def digits? (base : Nat) (t : Text) : Option Nat :=
  match t.filter (· != '_') with
  | [] => none
  | ds => ds.foldl
    (fun n c => do
      let d ← Text.hexDigit? c
      if d < base then return base * (← n) + d else none)
    (some 0)

/-- Numbers written in groups of sixty, the first of them without a leading zero. -/
def sexagesimal? (t : Text) : Option Nat :=
  match splitOn ':' t with
  | first :: group :: groups =>
    if (first.head?.any fun c => c.isDigit && c != '0') then
      (group :: groups).foldl
        (fun n g => do
          let d ← if g.contains '_' then none else digits? 10 g
          if g.length ≤ 2 ∧ d < 60 then return 60 * (← n) + d else none)
        (digits? 10 first)
    else none
  | _ => none

def natural? (t : Text) : Option Nat :=
  match t with
  | ['0'] => some 0
  | '0' :: 'b' :: ds => digits? 2 ds
  | '0' :: 'x' :: ds => digits? 16 ds
  | '0' :: ds => digits? 8 ('0' :: ds)
  | '_' :: _ => none
  | ds => (digits? 10 ds).or (sexagesimal? ds)

def integer? : Text → Option Int
  | '-' :: t => (natural? t).map fun n => -(n : Int)
  | '+' :: t => (natural? t).map Int.ofNat
  | t => (natural? t).map Int.ofNat

def isDigitMark (c : Char) : Bool := c.isDigit || c == '_'

def isNegative (t : Text) : Bool := t.head? == some '-'

def unsigned : Text → Text
  | '-' :: t | '+' :: t => t
  | t => t

def pointed? (t : Text) : Option (Text × Text × Text) :=
  let whole := (unsigned t).takeWhile isDigitMark
  match (unsigned t).dropWhile isDigitMark with
  | '.' :: cs =>
    let part := cs.takeWhile isDigitMark
    let isNumber := if whole.isEmpty then unsigned t = t && part.head?.any Char.isDigit
      else whole.head?.any Char.isDigit
    if isNumber then some (whole.filter Char.isDigit, part.filter Char.isDigit, cs.dropWhile isDigitMark)
    else none
  | _ => none

def digitLimit : Nat := 15

def decimal (negative : Bool) (whole part : Text) : Option Value :=
  let whole := whole.dropWhile (· == '0')
  let part := stripRight (· == '0') part
  let small := whole.isEmpty && 4 ≤ (part.takeWhile (· == '0')).length && part.any (· != '0')
  if digitLimit < whole.length + part.length || small then none
  else do
    let n ← digits? 10 ('0' :: (whole ++ part))
    let number := mkRat (if negative then Int.negOfNat n else Int.ofNat n) (Nat.pow 10 part.length)
    let text := (if negative then ['-'] else []) ++ (if whole.isEmpty then ['0'] else whole)
      ++ '.' :: (if part.isEmpty then ['0'] else part)
    return .atom ⟨"float".toList, text, text, n != 0, some number⟩

def isLeapYear (year : Nat) : Bool := year % 4 = 0 && (year % 100 != 0 || year % 400 = 0)

def daysOf (year month : Nat) : Nat :=
  if month = 2 then if isLeapYear year then 29 else 28
  else if [4, 6, 9, 11].contains month then 30 else 31

def date (t year month day : Text) : Option Value := do
  let (y, m, d) := (← digits? 10 year, ← digits? 10 month, ← digits? 10 day)
  if 1 ≤ y && 1 ≤ m && m ≤ 12 && 1 ≤ d && d ≤ daysOf y m then
    return .atom ⟨"date".toList, t,
      "datetime.date(".toList ++ join ", ".toList [ofNat y, ofNat m, ofNat d] ++ [')'], true, none⟩
  else none

def dateParts? (t : Text) : Option (List Text) :=
  let digits := fun s : Text => s.all Char.isDigit
  match splitOn '-' t with
  | [year, month, rest] =>
    let day := rest.takeWhile Char.isDigit
    if year.length = 4 && digits year && digits month && 1 ≤ month.length && month.length ≤ 2
        && 1 ≤ day.length && day.length ≤ 2 then
      some [year, month, day, rest.drop day.length]
    else none
  | _ => none

def isExponent : Text → Bool
  | e :: sign :: digits => (e == 'e' || e == 'E') && (sign == '-' || sign == '+')
      && !digits.isEmpty && digits.all Char.isDigit
  | _ => false

/-- Numbers without digits, and the marks that stand for entries from elsewhere. -/
def refusedWords : List Text :=
  spellings [".inf", ".Inf", ".INF", ".nan", ".NaN", ".NAN", "<<", "="]

def isPointedSixties (t : Text) : Bool :=
  t.contains ':' && t.contains '.' && t.head?.any Char.isDigit
    && t.all fun c => isDigitMark c || c == ':' || c == '.'

def isTimeMark (c : Char) : Bool := c == 'T' || c == 't' || c == ' ' || c == '\t'

/-- The value that a plain scalar spells; none when it is refused. -/
def ofPlain? (t : Text) : Option Value :=
  if nullWords.contains t then some .null
  else if trueWords.contains t then some (.bool true)
  else if falseWords.contains t then some (.bool false)
  else if refusedWords.contains t || refusedWords.contains (unsigned t) then none
  else if isPointedSixties (unsigned t) then none
  else match integer? t, pointed? t, dateParts? t with
    | some n, _, _ => some (.int n)
    | none, some (whole, part, []), _ => decimal (isNegative t) whole part
    | none, some (_, _, rest), _ => if isExponent rest then none else some (.text t)
    | none, none, some [year, month, day, []] =>
      if month.length = 2 && day.length = 2 then date t year month day else some (.text t)
    | none, none, some [_, _, _, c :: _] => if isTimeMark c then none else some (.text t)
    | none, none, _ => some (.text t)

example : ["lightning-card", "2", "-01.50", "1.2.3", "2024-02-29", "1.5e+3"].map
      (fun t => (ofPlain? t.toList).map fun v => (v.sort, v.shown)) =
    [("str", "'lightning-card'"), ("int", "2"), ("float", "-1.5"), ("str", "'1.2.3'"),
      ("date", "datetime.date(2024, 2, 29)")].map
        (fun e => some (e.1.toList, e.2.toList)) ++ [none] := by
  decide +kernel

end LightningTemplate.Yaml
