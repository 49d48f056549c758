import LightningTemplate.Document.Value

/-! Tokens of the part of YAML that mapping files use: block and flow collections
and plain or quoted scalars.  Indentation becomes opening and closing tokens, and
a scalar that turns out to be a key gets its mark put before it afterwards. -/
namespace LightningTemplate.Yaml

inductive Token
  | documentStart | documentEnd
  | openBlockList | openBlockMap | closeBlock
  | openList | closeList | openMap | closeMap | comma
  | item | key | value
  | scalar (plain : Bool) (t : Text)
  deriving DecidableEq, Repr

def isBreak (c : Char) : Bool := c == '\n' || c == '\x85' || c == '\u2028' || c == '\u2029'

def isGap (c : Char) : Bool := c == ' ' || c == '\t' || isBreak c

def gapNext (t : Text) : Bool := t.head?.all isGap

def isAllowed (c : Char) : Bool :=
  let n := c.toNat
  n == 9 || n == 10 || n == 13 || (0x20 ≤ n && n ≤ 0x7E) || n == 0x85
    || (0xA0 ≤ n && n ≤ 0xFFFD) || 0x10000 ≤ n

structure Cursor where
  rest : Text
  index : Nat
  line : Nat
  column : Nat

namespace Cursor

def advance (c : Cursor) : Cursor :=
  match c.rest with
  | [] => c
  | x :: xs =>
    if isBreak x then ⟨xs, c.index + 1, c.line + 1, 0⟩ else ⟨xs, c.index + 1, c.line, c.column + 1⟩

def advanceBy : Nat → Cursor → Cursor
  | 0, c => c
  | n + 1, c => advanceBy n c.advance

def skipWhile (p : Char → Bool) (c : Cursor) : Cursor :=
  c.advanceBy (c.rest.takeWhile p).length

def atSeparator (c : Cursor) : Bool :=
  c.column == 0 && (("---".toList.isPrefixOf c.rest || "...".toList.isPrefixOf c.rest)
    && gapNext (c.rest.drop 3))

end Cursor

def foldBreak (first : Char) (others : Text) : Text :=
  if first == '\n' || first == '\x85' then
    if others.isEmpty then [' '] else others
  else first :: others

def keptBreak (c : Char) : Char := if c == '\x85' then '\n' else c

/-- Empty lines inside a quoted scalar; a document may not end there. -/
def quotedBreaks : Nat → Cursor → Option (Text × Cursor)
  | 0, _ => none
  | fuel + 1, c =>
    if c.atSeparator then none
    else
      let c := c.skipWhile fun x => x == ' ' || x == '\t'
      match c.rest with
      | x :: _ =>
        if isBreak x then (quotedBreaks fuel c.advance).map fun r => (keptBreak x :: r.1, r.2)
        else some ([], c)
      | [] => some ([], c)

def simpleEscape? (c : Char) : Option Char :=
  match c with
  | '0' => some '\x00' | 'a' => some '\x07' | 'b' => some '\x08' | 't' => some '\t'
  | '\t' => some '\t' | 'n' => some '\n' | 'v' => some '\x0b' | 'f' => some '\x0c'
  | 'r' => some '\r' | 'e' => some '\x1b' | ' ' => some ' ' | '"' => some '"'
  | '\\' => some '\\' | '/' => some '/' | 'N' => some '\x85' | '_' => some '\u00a0'
  | 'L' => some '\u2028' | 'P' => some '\u2029' | _ => none

def codeLength? (c : Char) : Option Nat :=
  match c with
  | 'x' => some 2 | 'u' => some 4 | 'U' => some 8 | _ => none

def charOfCode? (n : Nat) : Option Char := if n.isValidChar then some (Char.ofNat n) else none

def hexCode? (digits : Text) : Option Nat :=
  digits.foldl (fun n c => do return 16 * (← n) + (← Text.hexDigit? c)) (some 0)

def quotedScalar (quote : Char) : Nat → Cursor → Option (Text × Cursor)
  | 0, _ => none
  | fuel + 1, c =>
    let put (t : Text) (next : Cursor) : Option (Text × Cursor) :=
      (quotedScalar quote fuel next).map fun r => (t ++ r.1, r.2)
    match c.rest with
    | [] => none
    | x :: xs =>
      if x == quote then
        if quote == '\'' && xs.head? == some '\'' then put ['\''] (c.advanceBy 2)
        else some ([], c.advance)
      else if x == '\\' && quote == '"' then
        match xs with
        | [] => none
        | e :: es =>
          match simpleEscape? e, codeLength? e with
          | some y, _ => put [y] (c.advanceBy 2)
          | none, some n =>
            if es.length < n then none
            else do
              let y ← charOfCode? (← hexCode? (es.take n))
              put [y] (c.advanceBy (2 + n))
          | none, none =>
            if isBreak e then do
              let r ← quotedBreaks (fuel + 1) (c.advanceBy 2)
              put r.1 r.2
            else none
      else if isGap x then
        let d := c.skipWhile fun y => y == ' ' || y == '\t'
        match d.rest with
        | [] => none
        | y :: _ =>
          if isBreak y then do
            let r ← quotedBreaks (fuel + 1) d.advance
            put (foldBreak y r.1) r.2
          else put (c.rest.takeWhile fun z => z == ' ' || z == '\t') d
      else put [x] c.advance

def isFlowMark (c : Char) : Bool := c == ',' || c == '[' || c == ']' || c == '{' || c == '}'

def plainRun (inFlow : Bool) : Text → Nat
  | [] => 0
  | c :: cs =>
    if isGap c then 0
    else if c == ':' && (gapNext cs || (inFlow && cs.head?.any isFlowMark)) then 0
    else if inFlow && (isFlowMark c || c == '?') then 0
    else 1 + plainRun inFlow cs

/-- Line breaks and spaces before the next run of a plain scalar; none when a
document separator comes first. -/
def plainBreaks : Nat → Cursor → Option (Text × Cursor)
  | 0, _ => none
  | fuel + 1, c =>
    if c.atSeparator then none
    else
      let c := c.skipWhile (· == ' ')
      match c.rest with
      | x :: _ =>
        if isBreak x then (plainBreaks fuel c.advance).map fun r => (keptBreak x :: r.1, r.2)
        else some ([], c)
      | [] => some ([], c)

/-- The gap after a run: the text it stands for, the place after it, and whether a line ended. -/
def plainGap (c : Cursor) : Text × Cursor × Bool :=
  let d := c.skipWhile (· == ' ')
  match d.rest with
  | x :: _ =>
    if isBreak x then
      match plainBreaks (d.rest.length + 1) d.advance with
      | some r => (foldBreak x r.1, r.2, true)
      | none => ([], d.advance, true)
    else (c.rest.takeWhile (· == ' '), d, false)
  | [] => (c.rest.takeWhile (· == ' '), d, false)

/-- A plain scalar: its text, the place after it, and whether a line ended at last. -/
def plainScalar (inFlow : Bool) (indent : Int) : Nat → Text → Cursor → Bool → Text × Cursor × Bool
  | 0, _, c, ended => ([], c, ended)
  | fuel + 1, gap, c, ended =>
    let n := plainRun inFlow c.rest
    if c.rest.head? == some '#' || n == 0 then ([], c, ended)
    else
      let run := gap ++ c.rest.take n
      let (space, d, lineEnded) := plainGap (c.advanceBy n)
      if space.isEmpty || d.rest.head? == some '#' || (!inFlow && (d.column : Int) < indent + 1) then
        (run, d, lineEnded)
      else
        let r := plainScalar inFlow indent fuel space d lineEnded
        (run ++ r.1, r.2)

/-- A place where a key may turn out to have started. -/
structure Candidate where
  position : Nat
  required : Bool
  index : Nat
  line : Nat
  column : Nat

structure Scanner where
  place : Cursor
  level : Nat
  indent : Int
  indents : List Int
  keyAllowed : Bool
  /-- Candidates by level of nesting in flow collections. -/
  candidates : List (Nat × Candidate)
  tokens : List Token

namespace Scanner

def add (s : Scanner) (t : Token) : Scanner := { s with tokens := s.tokens ++ [t] }

def unwind (column : Int) : List Int → Scanner → Scanner
  | [], s => s
  | i :: is, s =>
    if s.indent > column then unwind column is { s.add .closeBlock with indent := i, indents := is }
    else s

def unwindTo (column : Int) (s : Scanner) : Scanner :=
  if s.level = 0 then unwind column s.indents s else s

/-- Opens a block when the column is deeper than the indent; the token goes to the position. -/
def openBlock (column : Nat) (position : Nat) (t : Token) (s : Scanner) : Scanner :=
  if s.indent < column then
    { s with
      indents := s.indent :: s.indents
      indent := column
      tokens := s.tokens.insertIdx position t }
  else s

/-- Forgets candidates that can no longer be keys; a required one among them is a fault. -/
def dropStale (s : Scanner) : Option Scanner :=
  let stale (c : Candidate) : Bool := c.line != s.place.line || s.place.index - c.index > 1024
  if s.candidates.any fun e => stale e.2 && e.2.required then none
  else some { s with candidates := s.candidates.filter fun e => !stale e.2 }

def dropCandidate (s : Scanner) : Option Scanner :=
  if s.candidates.any fun e => e.1 == s.level && e.2.required then none
  else some { s with candidates := s.candidates.filter fun e => e.1 != s.level }

def saveCandidate (s : Scanner) : Option Scanner :=
  if s.keyAllowed then do
    let required := s.level == 0 && s.indent == (s.place.column : Int)
    let s' ← s.dropCandidate
    return { s' with candidates :=
      (s.level, ⟨s.tokens.length, required, s.place.index, s.place.line, s.place.column⟩) :: s'.candidates }
  else some s

/-- Spaces, comments and line ends before the next token. -/
def skipGap : Nat → Scanner → Scanner
  | 0, s => s
  | fuel + 1, s =>
    let c := s.place.skipWhile (· == ' ')
    let c := if c.rest.head? == some '#' then c.skipWhile (!isBreak ·) else c
    match c.rest with
    | x :: _ =>
      if isBreak x then
        skipGap fuel { s with place := c.advance, keyAllowed := s.keyAllowed || s.level == 0 }
      else { s with place := c }
    | [] => { s with place := c }

def separator (t : Token) (s : Scanner) : Option Scanner := do
  let s ← (s.unwindTo (-1)).dropCandidate
  return { s.add t with keyAllowed := false, place := s.place.advanceBy 3 }

def flowOpen (t : Token) (s : Scanner) : Option Scanner := do
  let s ← s.saveCandidate
  return { s.add t with level := s.level + 1, keyAllowed := true, place := s.place.advance }

def flowClose (t : Token) (s : Scanner) : Option Scanner := do
  if s.level = 0 then none
  else
    let s ← s.dropCandidate
    return { s.add t with level := s.level - 1, keyAllowed := false, place := s.place.advance }

def flowComma (s : Scanner) : Option Scanner := do
  let s ← s.dropCandidate
  return { s.add .comma with keyAllowed := true, place := s.place.advance }

def blockItem (s : Scanner) : Option Scanner := do
  if s.level = 0 ∧ !s.keyAllowed then none
  else
    let s := if s.level = 0 then s.openBlock s.place.column s.tokens.length .openBlockList else s
    let s ← s.dropCandidate
    return { s.add .item with keyAllowed := true, place := s.place.advance }

def explicitKey (s : Scanner) : Option Scanner := do
  if s.level = 0 ∧ !s.keyAllowed then none
  else
    let s := if s.level = 0 then s.openBlock s.place.column s.tokens.length .openBlockMap else s
    let s ← s.dropCandidate
    return { s.add .key with keyAllowed := s.level == 0, place := s.place.advance }

def mapValue (s : Scanner) : Option Scanner := do
  match s.candidates.find? (·.1 == s.level) with
  | some (_, k) =>
    let s := { s with
      candidates := s.candidates.filter (·.1 != s.level)
      tokens := s.tokens.insertIdx k.position .key }
    let s := if s.level = 0 then s.openBlock k.column k.position .openBlockMap else s
    return { s.add .value with keyAllowed := false, place := s.place.advance }
  | none =>
    if s.level = 0 ∧ !s.keyAllowed then none
    else
      let s := if s.level = 0 then s.openBlock s.place.column s.tokens.length .openBlockMap else s
      let s ← s.dropCandidate
      return { s.add .value with keyAllowed := s.level == 0, place := s.place.advance }

def quoted (quote : Char) (s : Scanner) : Option Scanner := do
  let s ← s.saveCandidate
  let r ← quotedScalar quote (s.place.rest.length + 1) s.place.advance
  return { s.add (.scalar false r.1) with keyAllowed := false, place := r.2 }

def plain (s : Scanner) : Option Scanner := do
  let s ← s.saveCandidate
  let r := plainScalar (s.level != 0) s.indent (s.place.rest.length + 1) [] s.place false
  return { s.add (.scalar true r.1) with keyAllowed := r.2.2, place := r.2.1 }

def isIndicator (c : Char) : Bool := "-?:,[]{}#&*!|>'\"%@`".toList.contains c

def startsPlain (inFlow : Bool) (c : Char) (cs : Text) : Bool :=
  !(isGap c || isIndicator c) || (!gapNext cs && (c == '-' || (!inFlow && (c == '?' || c == ':'))))

/-- Reads the next token; the second component says whether the text has ended. -/
def next (s : Scanner) : Option (Scanner × Bool) := do
  let s ← (skipGap (s.place.rest.length + 1) s).dropStale
  let s := s.unwindTo s.place.column
  let more (r : Option Scanner) : Option (Scanner × Bool) := r.map (·, false)
  match s.place.rest with
  | [] =>
    let s ← (s.unwindTo (-1)).dropCandidate
    return (s, true)
  | c :: cs =>
    if s.place.atSeparator then
      more (s.separator (if c == '-' then .documentStart else .documentEnd))
    else if c == '[' then more (s.flowOpen .openList)
    else if c == '{' then more (s.flowOpen .openMap)
    else if c == ']' then more (s.flowClose .closeList)
    else if c == '}' then more (s.flowClose .closeMap)
    else if c == ',' then more s.flowComma
    else if c == '-' && gapNext cs then more s.blockItem
    else if c == '?' && (s.level != 0 || gapNext cs) then more s.explicitKey
    else if c == ':' && (s.level != 0 || gapNext cs) then more s.mapValue
    else if c == '\'' || c == '"' then more (s.quoted c)
    else if startsPlain (s.level != 0) c cs then more s.plain
    else none

def run : Nat → Scanner → Option (List Token)
  | 0, _ => none
  | fuel + 1, s => do
    let (s, ended) ← s.next
    if ended then return s.tokens else run fuel s

end Scanner

def tokens? (t : Text) : Option (List Token) :=
  if t.all isAllowed then
    let t := Text.dropMark ['\uFEFF'] t
    Scanner.run (t.length + 2) ⟨⟨t, 0, 0, 0⟩, 0, -1, [], true, [], []⟩
  else none

end LightningTemplate.Yaml
