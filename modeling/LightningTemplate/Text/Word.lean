import LightningTemplate.Text.Basic
import LightningTemplate.Text.Ranges

/-! Word characters and decimal digits of every script. -/
namespace LightningTemplate.Text

def isWord (c : Char) : Bool :=
  c.isAlphanum || c == '_' || (128 ≤ c.toNat && inRanges wordRanges c.toNat)

theorem isWord_of_isAlphanum {c : Char} (h : c.isAlphanum = true) : isWord c = true := by
  simp [isWord, h]

def isDigit (c : Char) : Bool := c.isDigit || (128 ≤ c.toNat && inRanges digitRanges c.toNat)

def isLatinStart (c : Char) : Bool := c.isAlpha || c == '_'

theorem isWord_of_isLatinStart {c : Char} (h : isLatinStart c = true) : isWord c = true := by
  simp only [isLatinStart, Bool.or_eq_true] at h
  rcases h with h | h
  · simp [isWord, Char.isAlphanum, h]
  · simp [isWord, h]

end LightningTemplate.Text
