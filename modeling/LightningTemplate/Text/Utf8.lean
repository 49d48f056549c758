import LightningTemplate.Text.Basic

/-! Texts as octets.  Reading stops at the first octets that begin no character, and
says where they stand and what is wrong with them. -/
namespace LightningTemplate.Utf8

def encode (t : Text) : List UInt8 := t.flatMap String.utf8EncodeChar

def size (t : Text) : Nat := t.foldl (fun n c => n + c.utf8Size) 0

inductive Reason
  | invalidStart | invalidContinuation | unexpectedEnd
  deriving DecidableEq, Repr

def Reason.text : Reason → Text
  | .invalidStart => "invalid start byte".toList
  | .invalidContinuation => "invalid continuation byte".toList
  | .unexpectedEnd => "unexpected end of data".toList

/-- Octets that begin no character: the first of them, where it stands and how many there are. -/
structure Fault where
  first : UInt8
  position : Nat
  count : Nat
  reason : Reason
  deriving DecidableEq, Repr

/-- How many octets the character that starts with an octet has after it. -/
def tailCount? (first : Nat) : Option Nat :=
  if first < 0x80 then some 0
  else if 0xC2 ≤ first ∧ first ≤ 0xDF then some 1
  else if 0xE0 ≤ first ∧ first ≤ 0xEF then some 2
  else if 0xF0 ≤ first ∧ first ≤ 0xF4 then some 3
  else none

/-- The least and the greatest second octet: no character is written longer than it has
to be, none is a half of a pair, and none lies above the last one. -/
def secondRange (first : Nat) : Nat × Nat :=
  if first = 0xE0 then (0xA0, 0xBF)
  else if first = 0xED then (0x80, 0x9F)
  else if first = 0xF0 then (0x90, 0xBF)
  else if first = 0xF4 then (0x80, 0x8F)
  else (0x80, 0xBF)

/-- What the first octet of a character with a tail of the length adds to its number. -/
def leadValue (count first : Nat) : Nat :=
  match count with
  | 0 => first
  | 1 => first - 0xC0
  | 2 => first - 0xE0
  | _ => first - 0xF0

/-- The number of a character from its tail, or how many octets were in order. -/
def readTail : Nat → Nat × Nat → Nat → Nat → List UInt8 → Except (Reason × Nat) Nat
  | 0, _, value, _, _ => .ok value
  | _ + 1, _, _, used, [] => .error (.unexpectedEnd, used)
  | n + 1, range, value, used, b :: bs =>
    if range.1 ≤ b.toNat ∧ b.toNat ≤ range.2 then
      readTail n (0x80, 0xBF) (64 * value + (b.toNat - 0x80)) (used + 1) bs
    else .error (.invalidContinuation, used)

def charAt (first : UInt8) (rest : List UInt8) : Except (Reason × Nat) (Char × Nat) :=
  match tailCount? first.toNat with
  | none => .error (.invalidStart, 1)
  | some n =>
    (readTail n (secondRange first.toNat) (leadValue n first.toNat) 1 rest).map
      fun value => (Char.ofNat value, n)

def decodeFrom : Nat → Nat → List UInt8 → Except Fault Text
  | _, _, [] => .ok []
  | k + 1, position, _ :: bs => decodeFrom k (position + 1) bs
  | 0, position, b :: bs =>
    match charAt b bs with
    | .ok r => (decodeFrom r.2 (position + 1) bs).map (r.1 :: ·)
    | .error e => .error ⟨b, position, e.2, e.1⟩

def decode (octets : List UInt8) : Except Fault Text := decodeFrom 0 0 octets

end LightningTemplate.Utf8
