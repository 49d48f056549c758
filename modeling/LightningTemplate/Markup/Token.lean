import LightningTemplate.Markup.Fault
import LightningTemplate.Markup.NameChar

/-! Tokens of markup, read by a machine that looks at one character at a time.  The
machine knows how deep it stands, since other rules hold after the outermost
element, and stops at the first character that cannot continue what it reads. -/
namespace LightningTemplate.Markup

inductive Reference
  | entity (name : Text)
  | code (n : Nat)
  deriving DecidableEq, Repr

inductive ValuePiece
  | char (c : Char)
  | reference (offset : Nat) (r : Reference)
  deriving DecidableEq, Repr

structure RawAttribute where
  name : Text
  offset : Nat
  value : List ValuePiece
  deriving DecidableEq, Repr

inductive Token
  | char (c : Char)
  | reference (offset : Nat) (r : Reference)
  | startTag (offset : Nat) (name : Text) (attributes : List RawAttribute) (empty : Bool)
  | endTag (offset : Nat) (name : Text)
  | declaration (offset : Nat)
  deriving DecidableEq, Repr

/-- A name being read, newest character first; one colon may stand inside it. -/
structure NameRead where
  chars : List Char
  hasColon : Bool
  /-- A name start has to come next. -/
  pending : Bool
  deriving DecidableEq, Repr

def NameRead.start : NameRead := ⟨[], false, true⟩

def NameRead.name (n : NameRead) : Text := n.chars.reverse

/-- Takes a character into the name if it can stand there. -/
def NameRead.push? (n : NameRead) (c : Char) : Option NameRead :=
  if n.pending then
    if isNameStart c then some ⟨c :: n.chars, n.hasColon, false⟩ else none
  else if c = ':' then
    if n.hasColon then none else some ⟨c :: n.chars, true, true⟩
  else if isNameChar c then some { n with chars := c :: n.chars }
  else none

inductive ReferenceRead
  | start
  | name (chars : List Char)
  | hash
  | decimal (n : Nat)
  | hexStart
  | hex (n : Nat)
  deriving DecidableEq, Repr

/-- Takes a character into a reference; a semicolon ends it. -/
def ReferenceRead.push? (r : ReferenceRead) (c : Char) : Option (ReferenceRead ⊕ Reference) :=
  match r with
  | .start =>
    if isNameStart c then some (.inl (.name [c]))
    else if c = '#' then some (.inl .hash)
    else none
  | .name cs =>
    if isNameChar c then some (.inl (.name (c :: cs)))
    else if c = ';' then some (.inr (.entity cs.reverse))
    else none
  | .hash =>
    if c = 'x' then some (.inl .hexStart)
    else if c.isDigit then some (.inl (.decimal (c.toNat - 48)))
    else none
  | .decimal n =>
    if c.isDigit then some (.inl (.decimal (10 * n + (c.toNat - 48))))
    else if c = ';' then some (.inr (.code n))
    else none
  | .hexStart => (Text.hexDigit? c).map fun d => .inl (.hex d)
  | .hex n =>
    match Text.hexDigit? c with
    | some d => some (.inl (.hex (16 * n + d)))
    | none => if c = ';' then some (.inr (.code n)) else none

/-- A start tag being read; attributes newest first. -/
structure Draft where
  name : Text
  attributes : List RawAttribute
  deriving DecidableEq, Repr

/-- An attribute being read; pieces of its value newest first. -/
structure AttributeDraft where
  draft : Draft
  name : Text
  offset : Nat
  deriving DecidableEq, Repr

def AttributeDraft.finish (a : AttributeDraft) (pieces : List ValuePiece) : Draft :=
  { a.draft with attributes := ⟨a.name, a.offset, pieces.reverse⟩ :: a.draft.attributes }

inductive Mode
  /-- Content; the number counts closing brackets just read, up to two. -/
  | content (brackets : Nat)
  | reference (r : ReferenceRead)
  /-- After the opening angle bracket. -/
  | opened
  /-- After the exclamation mark. -/
  | marked
  /-- After the first hyphen of a comment. -/
  | commentOpening
  /-- In a comment; the number counts hyphens just read. -/
  | comment (hyphens : Nat)
  | sectionOpening (rest : Text)
  | charSection (brackets : Nat)
  | instructionOpening
  | instructionName (chars : List Char)
  /-- In a processing instruction, or a declaration; after a question mark or not. -/
  | instruction (isDeclaration question : Bool)
  /-- The question mark right after the name: the instruction has to end. -/
  | instructionEnd (isDeclaration : Bool)
  | endOpening
  | endName (chars : List Char)
  | endGap (name : Text)
  | tagName (n : NameRead)
  | tagGap (d : Draft)
  | tagSlash (d : Draft)
  | attributeName (d : Draft) (offset : Nat) (n : NameRead)
  | attributeEquals (a : AttributeDraft)
  | attributeOpening (a : AttributeDraft)
  | attributeValue (a : AttributeDraft) (quote : Char) (pieces : List ValuePiece)
  | attributeReference (a : AttributeDraft) (quote : Char) (pieces : List ValuePiece)
      (offset : Nat) (r : ReferenceRead)
  | attributeEnd (d : Draft)
  /-- After the outermost element. -/
  | epilog
  | epilogName
  | stopped (f : Fault)
  deriving DecidableEq, Repr

structure Machine where
  mode : Mode
  offset : Nat
  /-- Where the token that is being read began. -/
  start : Nat
  depth : Nat
  /-- Newest first. -/
  tokens : List Token
  deriving DecidableEq, Repr

def isTagBlank (c : Char) : Bool := c == ' ' || c == '\t' || c == '\n'

namespace Machine

def initial : Machine := ⟨.content 0, 0, 0, 0, []⟩

def goto (m : Machine) (mode : Mode) : Machine := { m with mode := mode }

def begin_ (m : Machine) (mode : Mode) : Machine := { m with mode := mode, start := m.offset }

def fail (m : Machine) (reason : Reason) (offset : Nat) : Machine := m.goto (.stopped ⟨reason, offset⟩)

def invalid (m : Machine) : Machine := m.fail .invalidToken m.offset

def put (m : Machine) (t : Token) (mode : Mode) : Machine :=
  { m with mode := mode, tokens := t :: m.tokens }

def between (depth : Nat) : Mode := if depth = 0 then .epilog else .content 0

def home (m : Machine) : Machine := m.goto (between m.depth)

def finishStart (m : Machine) (d : Draft) (empty : Bool) : Machine :=
  let depth := if empty then m.depth else m.depth + 1
  { m.put (.startTag m.start d.name d.attributes.reverse empty) (between depth) with depth := depth }

def finishEnd (m : Machine) (name : Text) : Machine :=
  { m.put (.endTag (m.start + 2) name) (between (m.depth - 1)) with depth := m.depth - 1 }

/-- The end of an instruction; a declaration has no place inside a document. -/
def finishInstruction (m : Machine) (isDeclaration : Bool) : Machine :=
  if !isDeclaration then m.home
  else if m.depth = 0 then m.fail .junkAfterRoot m.start
  else m.put (.declaration m.start) (.content 0)

def letters (c : Char) : Char := c.toLower

/-- What follows the name of an instruction; only the exact declaration name is allowed
of those that differ in letter case. -/
def afterInstructionName (m : Machine) (chars : List Char) (mode : Bool → Mode) : Machine :=
  let name := chars.reverse
  if name = "xml".toList then m.goto (mode true)
  else if name.map letters = "xml".toList then m.invalid
  else m.goto (mode false)

def insideTag (m : Machine) (d : Draft) (c : Char) : Machine :=
  if isTagBlank c then m.goto (.tagGap d)
  else if c = '>' then m.finishStart d false
  else if c = '/' then m.goto (.tagSlash d)
  else m.invalid

def react (m : Machine) (c : Char) : Machine :=
  match m.mode with
  | .stopped _ => m
  | .content brackets =>
    if c = '<' then m.begin_ .opened
    else if c = '&' then m.begin_ (.reference .start)
    else if isForbidden c then m.invalid
    else if c = '>' ∧ brackets = 2 then m.invalid
    else m.put (.char c) (.content (if c = ']' then min (brackets + 1) 2 else 0))
  | .reference r =>
    match r.push? c with
    | some (.inl r) => m.goto (.reference r)
    | some (.inr r) => m.put (.reference m.start r) (.content 0)
    | none => m.invalid
  | .opened =>
    if c = '!' then m.goto .marked
    else if c = '?' then m.goto .instructionOpening
    else if isNameStart c then
      if m.depth = 0 ∧ !m.tokens.isEmpty then m.fail .junkAfterRoot m.start
      else m.goto (.tagName ⟨[c], false, false⟩)
    else if c = '/' ∧ m.depth ≠ 0 then m.goto .endOpening
    else m.invalid
  | .marked =>
    if c = '-' then m.goto .commentOpening
    else if c = '[' then
      if m.depth = 0 then m.fail .junkAfterRoot m.start else m.goto (.sectionOpening "CDATA[".toList)
    else m.invalid
  | .commentOpening => if c = '-' then m.goto (.comment 0) else m.invalid
  | .comment hyphens =>
    if hyphens = 2 then if c = '>' then m.home else m.invalid
    else if c = '-' then m.goto (.comment (hyphens + 1))
    else if isForbidden c then m.invalid
    else m.goto (.comment 0)
  | .sectionOpening rest =>
    match rest with
    | d :: more =>
      if c = d then m.goto (if more.isEmpty then .charSection 0 else .sectionOpening more)
      else m.invalid
    | [] => m.invalid
  | .charSection brackets =>
    if c = '>' ∧ brackets = 2 then { m.home with tokens := m.tokens.drop 2 }
    else if isForbidden c then m.invalid
    else m.put (.char c) (.charSection (if c = ']' then min (brackets + 1) 2 else 0))
  | .instructionOpening =>
    if isNameStart c then m.goto (.instructionName [c]) else m.invalid
  | .instructionName chars =>
    if isNameChar c then m.goto (.instructionName (c :: chars))
    else if isTagBlank c then m.afterInstructionName chars (.instruction · false)
    else if c = '?' then m.afterInstructionName chars .instructionEnd
    else m.invalid
  | .instruction isDeclaration question =>
    if c = '>' ∧ question then m.finishInstruction isDeclaration
    else if isForbidden c then m.invalid
    else m.goto (.instruction isDeclaration (c == '?'))
  | .instructionEnd isDeclaration =>
    if c = '>' then m.finishInstruction isDeclaration else m.invalid
  | .endOpening => if isNameStart c then m.goto (.endName [c]) else m.invalid
  | .endName chars =>
    if isNameChar c ∨ c = ':' then m.goto (.endName (c :: chars))
    else if isTagBlank c then m.goto (.endGap chars.reverse)
    else if c = '>' then m.finishEnd chars.reverse
    else m.invalid
  | .endGap name =>
    if isTagBlank c then m else if c = '>' then m.finishEnd name else m.invalid
  | .tagName n =>
    match n.push? c with
    | some n => m.goto (.tagName n)
    | none => if n.pending then m.invalid else m.insideTag ⟨n.name, []⟩ c
  | .tagGap d =>
    if isNameStart c then m.goto (.attributeName d m.offset ⟨[c], false, false⟩)
    else m.insideTag d c
  | .tagSlash d => if c = '>' then m.finishStart d true else m.invalid
  | .attributeName d offset n =>
    match n.push? c with
    | some n => m.goto (.attributeName d offset n)
    | none =>
      if n.pending then m.invalid
      else if c = '=' then m.goto (.attributeOpening ⟨d, n.name, offset⟩)
      else if isTagBlank c then m.goto (.attributeEquals ⟨d, n.name, offset⟩)
      else m.invalid
  | .attributeEquals a =>
    if c = '=' then m.goto (.attributeOpening a) else if isTagBlank c then m else m.invalid
  | .attributeOpening a =>
    if c = '"' ∨ c = '\'' then m.goto (.attributeValue a c [])
    else if isTagBlank c then m
    else m.invalid
  | .attributeValue a quote pieces =>
    if c = quote then m.goto (.attributeEnd (a.finish pieces))
    else if c = '&' then m.goto (.attributeReference a quote pieces m.offset .start)
    else if c = '<' ∨ isForbidden c then m.invalid
    else m.goto (.attributeValue a quote (.char c :: pieces))
  | .attributeReference a quote pieces offset r =>
    match r.push? c with
    | some (.inl r) => m.goto (.attributeReference a quote pieces offset r)
    | some (.inr r) => m.goto (.attributeValue a quote (.reference offset r :: pieces))
    | none => m.invalid
  | .attributeEnd d => m.insideTag d c
  | .epilog =>
    if isTagBlank c then m
    else if c = '<' then m.begin_ .opened
    else if isNameChar c ∨ c = ':' then m.begin_ .epilogName
    else if c = ',' ∨ c = '[' ∨ c = ']' ∨ c = '(' ∨ c = '|' ∨ c = '>' then
      m.fail .junkAfterRoot m.offset
    else m.invalid
  | .epilogName =>
    if isNameChar c ∨ c = ':' then m
    else if isTagBlank c ∨ c = '>' ∨ c = ')' ∨ c = ',' ∨ c = '|' ∨ c = '[' ∨ c = '%' ∨ c = '?'
        ∨ c = '*' ∨ c = '+' then
      m.fail .junkAfterRoot m.start
    else m.invalid

def step (m : Machine) (c : Char) : Machine := { m.react c with offset := m.offset + 1 }

def run (m : Machine) (t : Text) : Machine := t.foldl step m

@[simp] theorem run_nil (m : Machine) : m.run [] = m := rfl

@[simp] theorem run_cons (m : Machine) (c : Char) (t : Text) : m.run (c :: t) = (m.step c).run t := rfl

theorem run_append (m : Machine) (a b : Text) : m.run (a ++ b) = (m.run a).run b := by
  simp [run, List.foldl_append]

def fault? (m : Machine) : Option Fault :=
  match m.mode with
  | .stopped f => some f
  | .content _ => some ⟨.noElement, m.offset⟩
  | .charSection _ => some ⟨.unclosedSection, m.offset⟩
  | .epilog => none
  | .epilogName => some ⟨.junkAfterRoot, m.start⟩
  | _ => some ⟨.unclosedToken, m.start⟩

end Machine

def tokenize (t : Text) : List Token × Option Fault :=
  let m := Machine.initial.run t
  (m.tokens.reverse, m.fault?)

end LightningTemplate.Markup
