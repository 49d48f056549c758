import LightningTemplate.Text.Basic

/-! Blank characters: those that separate words in an expression and that are
stripped from the ends of attribute values. -/
namespace LightningTemplate.Text

def isBlank (c : Char) : Bool :=
  let n := c.toNat
  (9 ≤ n && n ≤ 13) || (28 ≤ n && n ≤ 32) || n == 0x85 || n == 0xA0 || n == 0x1680
    || (0x2000 ≤ n && n ≤ 0x200A) || n == 0x2028 || n == 0x2029 || n == 0x202F
    || n == 0x205F || n == 0x3000

def strip (t : Text) : Text := stripBoth isBlank t

theorem mem_strip {t : Text} {c : Char} (h : c ∈ strip t) : c ∈ t := by
  obtain ⟨before, after, ht, -⟩ := exists_stripBoth isBlank t
  rw [ht]
  simp only [strip] at h
  simp [h]

theorem head_strip {t : Text} {c : Char} (h : (strip t).head? = some c) :
    (t.dropWhile isBlank).head? = some c := by
  obtain ⟨after, ht, -⟩ := exists_stripRight isBlank (stripLeft isBlank t)
  simp only [strip, stripBoth] at h
  rw [← stripLeft, ht, List.head?_append, h]
  rfl

theorem isBlank_head_strip {t : Text} {c : Char} (h : (strip t).head? = some c) :
    isBlank c = false := by
  have hlead := List.head?_dropWhile_not isBlank t
  rw [head_strip h] at hlead
  exact hlead

def isAllBlank (t : Text) : Bool := t.all isBlank

end LightningTemplate.Text
