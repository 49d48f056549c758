import LightningTemplate.Text.Basic

/-! Lines of a text, and the removal of the margin that all lines share. -/
namespace LightningTemplate.Text

def isLineBreak (c : Char) : Bool :=
  let n := c.toNat
  (10 ≤ n && n ≤ 13) || (28 ≤ n && n ≤ 30) || n == 0x85 || n == 0x2028 || n == 0x2029

/-- The lines without their ends; a carriage return and the line feed after it are one end. -/
def lines : Text → List Text
  | [] => []
  | '\r' :: '\n' :: cs => [] :: lines cs
  | c :: cs =>
    if isLineBreak c then [] :: lines cs
    else match lines cs with
      | [] => [[c]]
      | l :: ls => (c :: l) :: ls

theorem lines_eq_nil {t : Text} : lines t = [] ↔ t = [] := by
  constructor
  · intro h
    unfold lines at h
    split at h
    · rfl
    · simp at h
    · split at h
      · simp at h
      · split at h <;> simp at h
  · rintro rfl
    rfl

/-- No line break stands in the line, and one does after it unless the text ends there. -/
def IsLine (l after : Text) : Prop :=
  (∀ c ∈ l, isLineBreak c = false) ∧ ∀ c, after.head? = some c → isLineBreak c = true

theorem start_of_lines {t l : Text} {ls : List Text} (h : lines t = l :: ls) :
    ∃ after, t = l ++ after ∧ IsLine l after := by
  induction t using lines.induct generalizing l ls with
  | case1 => simp [lines] at h
  | case2 cs ih =>
    rw [lines, List.cons.injEq] at h
    obtain ⟨rfl, -⟩ := h
    exact ⟨_, rfl, by simp, by simp; decide⟩
  | case3 d cs hne hb ih =>
    rw [lines, if_pos hb, List.cons.injEq] at h
    · obtain ⟨rfl, -⟩ := h
      exact ⟨_, rfl, by simp, by simpa using hb⟩
    · exact hne
  | case4 d cs hne hb hnil ih =>
    rw [lines, if_neg hb, hnil, List.cons.injEq] at h
    · obtain ⟨rfl, -⟩ := h
      have hcs : cs = [] := lines_eq_nil.1 hnil
      exact ⟨[], by simp [hcs], by simpa using hb, by simp⟩
    · exact hne
  | case5 d cs hne hb first others hcons ih =>
    rw [lines, if_neg hb, hcons, List.cons.injEq] at h
    · obtain ⟨rfl, -⟩ := h
      obtain ⟨after, rfl, hclear, hafter⟩ := ih hcons
      refine ⟨after, rfl, ?_, hafter⟩
      rw [List.forall_mem_cons]
      exact ⟨by simpa using hb, hclear⟩
    · exact hne

theorem exists_of_mem_lines {t l : Text} (hl : l ∈ lines t) :
    ∃ before after, t = before ++ (l ++ after) ∧ IsLine l after := by
  induction t using lines.induct generalizing l with
  | case1 => simp [lines] at hl
  | case2 cs ih =>
    rw [lines, List.mem_cons] at hl
    rcases hl with rfl | hl
    · exact ⟨[], _, rfl, by simp, by simp; decide⟩
    · obtain ⟨before, after, rfl, h⟩ := ih hl
      exact ⟨'\r' :: '\n' :: before, after, rfl, h⟩
  | case3 d cs hne hb ih =>
    rw [lines, if_pos hb, List.mem_cons] at hl
    · rcases hl with rfl | hl
      · exact ⟨[], _, rfl, by simp, by simpa using hb⟩
      · obtain ⟨before, after, rfl, h⟩ := ih hl
        exact ⟨d :: before, after, rfl, h⟩
    · exact hne
  | case4 d cs hne hb hnil ih =>
    have hlines : lines (d :: cs) = [[d]] := by
      rw [lines, if_neg hb, hnil]
      exact hne
    rw [hlines, List.mem_singleton] at hl
    subst hl
    obtain ⟨after, h⟩ := start_of_lines hlines
    exact ⟨[], after, h⟩
  | case5 d cs hne hb first others hcons ih =>
    have hlines : lines (d :: cs) = (d :: first) :: others := by
      rw [lines, if_neg hb, hcons]
      exact hne
    rw [hlines, List.mem_cons] at hl
    rcases hl with rfl | hl
    · obtain ⟨after, h⟩ := start_of_lines hlines
      exact ⟨[], after, h⟩
    · obtain ⟨before, after, rfl, h⟩ := ih (l := l) (by simp [hcons, hl])
      exact ⟨d :: before, after, rfl, h⟩

def unifyLineEnds : Text → Text
  | [] => []
  | '\r' :: '\n' :: cs => '\n' :: unifyLineEnds cs
  | c :: cs => (if c = '\r' then '\n' else c) :: unifyLineEnds cs

def isMarginChar (c : Char) : Bool := c == ' ' || c == '\t'

def marginOf? (line : Text) : Option Text :=
  if line.all isMarginChar then none else some (line.takeWhile isMarginChar)

def commonMargin (ls : List Text) : Text :=
  match ls.filterMap marginOf? with
  | [] => []
  | m :: ms => ms.foldl commonStart m

/-- Takes the common margin away from every line; lines of margin alone become empty. -/
def removeMargin (t : Text) : Text :=
  let ls := (splitOn '\n' t).map fun l => if l.all isMarginChar then [] else l
  join ['\n'] (ls.map (dropMark (commonMargin ls)))

end LightningTemplate.Text
