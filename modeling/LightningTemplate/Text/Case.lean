import LightningTemplate.Text.Basic
import LightningTemplate.Text.CaseTable
import LightningTemplate.Text.Ranges

/-! Capital and small forms of whole texts.  A capital sigma at the end of a
word has a small form of its own, so the small form of a text is more than the
small forms of its characters. -/
namespace LightningTemplate.Text

def shiftBy (runs : List CaseRun) (c : Char) : Char :=
  match runs.find? (·.covers c.toNat) with
  | some r => r.apply c.toNat
  | none => c

def lowerChar (c : Char) : Text :=
  if c.toNat < 128 then [c.toLower]
  else if c = '\u0130' then ['i', '\u0307']
  else [shiftBy lowerRuns c]

def isCased (c : Char) : Bool := c.isAlpha || (128 ≤ c.toNat && inRanges casedRanges c.toNat)

def isCaseIgnorable (c : Char) : Bool :=
  inRanges caseIgnorableRanges c.toNat

def meetsLetter (t : Text) : Bool :=
  match t.dropWhile isCaseIgnorable with
  | [] => false
  | c :: _ => isCased c

/-- The small form of the second text when the first one, read backwards, stands before it. -/
def lowerAfter : Text → Text → Text
  | _, [] => []
  | before, c :: cs =>
    (if c = 'Σ' then [if meetsLetter before && !meetsLetter cs then 'ς' else 'σ'] else lowerChar c)
      ++ lowerAfter (c :: before) cs

def lower (t : Text) : Text := lowerAfter [] t

def upperChar (c : Char) : Text :=
  if c.toNat < 128 then [c.toUpper]
  else match upperExpansions.find? (·.1 == c.toNat) with
    | some e => e.2
    | none => [shiftBy upperRuns c]

def upper (t : Text) : Text := t.flatMap upperChar

def uncapitalize : Text → Text
  | [] => []
  | c :: cs => lower [c] ++ cs

end LightningTemplate.Text
