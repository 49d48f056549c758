import Mathlib.Data.List.Basic
import Mathlib.Data.List.TakeWhile
import Mathlib.Tactic.ByContra
import LightningTemplate.Proofs.Opening
import LightningTemplate.Proofs.RoundTrip

/-! Fragments as lines.  A fragment is a list of lines at an indent (`fragment`), and among its
siblings it is the same lines with a line feed after each (`rows`); none of the lines is blank.
What the emitter puts together of such lines is made of lines again, and these do not depend
on the indent.  So another text in front of the indent stands in front of every line
(`prefixed_fragment`). -/
namespace LightningTemplate
open Text

namespace Text

theorem all_blank_of_strip_eq_nil {t : Text} (h : strip t = []) : isAllBlank t = true := by
  obtain ⟨before, after, ht, hafter⟩ := exists_stripBoth isBlank t
  rw [strip] at h
  have hstart : (stripLeft isBlank t).all isBlank = true := by
    obtain ⟨rest, hrest, hblank⟩ := exists_stripRight isBlank (stripLeft isBlank t)
    rw [stripBoth] at h
    rw [h, List.nil_append] at hrest
    rw [hrest]
    exact hblank
  cases hleft : stripLeft isBlank t with
  | nil =>
    rw [stripLeft] at hleft
    exact List.all_eq_true.2 (List.dropWhile_eq_nil_iff.1 hleft)
  | cons c cs =>
    have hhead := List.head?_dropWhile_not isBlank t
    rw [stripLeft] at hleft
    rw [hleft] at hhead
    rw [stripLeft, hleft, List.all_cons, Bool.and_eq_true] at hstart
    simp [hstart.1] at hhead

theorem all_blank_of_lines {t : Text} (h : ∀ l ∈ lines t, isAllBlank l = true) :
    isAllBlank t = true := by
  induction t using lines.induct with
  | case1 => rfl
  | case2 cs ih =>
    rw [lines, List.forall_mem_cons] at h
    exact ih h.2
  | case3 c cs hpair hb ih =>
    rw [lines, if_pos hb, List.forall_mem_cons] at h
    · simpa [isAllBlank, Expression.isBlank_of_isLineBreak hb] using ih h.2
    · exact hpair
  | case4 c cs hpair hb hnil ih =>
    rw [lines, if_neg hb, hnil, List.forall_mem_cons] at h
    · rw [lines_eq_nil.1 hnil]
      exact h.1
    · exact hpair
  | case5 c cs hpair hb first others hcons ih =>
    rw [lines, if_neg hb, hcons, List.forall_mem_cons] at h
    · have hfirst := h.1
      rw [isAllBlank, List.all_cons, Bool.and_eq_true] at hfirst
      rw [hcons, List.forall_mem_cons] at ih
      rw [isAllBlank, List.all_cons, hfirst.1, Bool.true_and]
      exact ih ⟨hfirst.2, h.2⟩
    · exact hpair

end Text

namespace Template
open Render

variable {i j t u : Text} {ls ms : List Text}

/-- One line, and not a blank one. -/
def IsSolidLine (l : Text) : Prop := '\n' ∉ l ∧ isAllBlank l = false

instance (l : Text) : Decidable (IsSolidLine l) := inferInstanceAs (Decidable (_ ∧ _))

theorem IsSolidLine.ne_nil {l : Text} (h : IsSolidLine l) : l ≠ [] := by
  rintro rfl
  exact absurd h.2 (by decide)

/-- What holds a character that is no blank is no blank line, whatever stands around it. -/
theorem isSolidLine_of_mem {l : Text} {c : Char} (hl : '\n' ∉ l) (hc : c ∈ l)
    (hb : isBlank c = false) : IsSolidLine l := by
  refine ⟨hl, ?_⟩
  rw [isAllBlank, List.all_eq_false]
  exact ⟨c, hc, by simp [hb]⟩

theorem isSolidLine_solidLines (t : Text) : ∀ l ∈ solidLines t, IsSolidLine l := by
  intro l hl
  obtain ⟨hne, raw, hraw, rfl⟩ := mem_solidLines hl
  obtain ⟨before, after, -, hclear, -⟩ := exists_of_mem_lines hraw
  have hline : '\n' ∉ strip raw := fun hmem => absurd (hclear _ (mem_strip hmem)) (by decide)
  obtain ⟨c, cs, hcs⟩ := List.exists_cons_of_ne_nil hne
  refine isSolidLine_of_mem (c := c) hline (by simp [hcs]) (isBlank_head_strip (t := raw) ?_)
  rw [hcs]
  rfl

theorem solidLines_ne_nil (h : isAllBlank t = false) : solidLines t ≠ [] := by
  intro hnil
  have hblank : isAllBlank t = true := all_blank_of_lines fun l hl => by
    apply all_blank_of_strip_eq_nil
    by_contra hne
    have hmem : strip l ∈ solidLines t := by
      simp only [solidLines, List.mem_filter, List.mem_map]
      exact ⟨⟨l, hl, rfl⟩, by simpa using hne⟩
    rw [hnil] at hmem
    exact List.not_mem_nil hmem
  rw [h] at hblank
  exact absurd hblank (by decide)

theorem IsSolidLine.append {l rest : Text} (h : IsSolidLine l) (hrest : '\n' ∉ rest) :
    IsSolidLine (l ++ rest) := by
  refine ⟨by simp [h.1, hrest], ?_⟩
  rw [isAllBlank, List.all_append, Bool.and_eq_false_iff]
  exact .inl h.2

theorem IsSolidLine.step {l : Text} (h : IsSolidLine l) : IsSolidLine (step ++ l) := by
  have hstep : '\n' ∉ Template.step := by decide
  refine ⟨by simp [hstep, h.1], ?_⟩
  rw [isAllBlank, List.all_append, Bool.and_eq_false_iff]
  exact .inr h.2

theorem isSolidLine_steps (h : ∀ l ∈ ls, IsSolidLine l) :
    ∀ l ∈ ls.map (Template.step ++ ·), IsSolidLine l := by
  intro l hl
  obtain ⟨k, hk, rfl⟩ := List.mem_map.1 hl
  exact (h k hk).step

def fragment (indent : Text) (ls : List Text) : Text := join ['\n'] (ls.map (indent ++ ·))

/-- The lines as they stand among siblings, each with a line feed after it. -/
def rows (indent : Text) (ls : List Text) : Text := ls.flatMap fun l => indent ++ l ++ ['\n']

theorem rows_append (i : Text) (ls ms : List Text) : rows i (ls ++ ms) = rows i ls ++ rows i ms := by
  rw [rows, rows, rows, List.flatMap_append]

theorem rows_deeper (i : Text) (ls : List Text) :
    rows (deeper i) ls = rows i (ls.map (step ++ ·)) := by
  simp only [rows, deeper, List.flatMap_map, List.append_assoc]

theorem rows_eq_nil : rows i ls = [] ↔ ls = [] := by
  cases ls with
  | nil => simp [rows]
  | cons l ls => simp [rows]

theorem rows_eq_fragment (i : Text) (hne : ls ≠ []) : rows i ls = fragment i ls ++ ['\n'] := by
  rw [fragment, join_line_feed _ (by simpa using hne), List.flatMap_map, rows]

theorem fragment_concat (i : Text) (ls : List Text) (l : Text) :
    fragment i (ls ++ [l]) = rows i ls ++ (i ++ l) := by
  have h : rows i (ls ++ [l]) = fragment i (ls ++ [l]) ++ ['\n'] := rows_eq_fragment i (by simp)
  have hlast : rows i [l] = i ++ l ++ ['\n'] := by simp [rows]
  rw [rows_append, hlast, ← List.append_assoc] at h
  exact (List.append_cancel_right h).symm

theorem fragment_ne_nil (hne : ls ≠ []) (h : ∀ l ∈ ls, IsSolidLine l) : fragment i ls ≠ [] := by
  obtain ⟨init, l, rfl⟩ := (List.eq_nil_or_concat' ls).resolve_left hne
  rw [fragment_concat]
  simp [(h l (by simp)).ne_nil]

theorem getLast?_fragment (h : ∀ l ∈ ls, IsSolidLine l) : (fragment i ls).getLast? ≠ some '\n' := by
  rcases List.eq_nil_or_concat' ls with rfl | ⟨init, l, rfl⟩
  · simp [fragment, join, List.intercalate]
  · have hl := h l (by simp)
    have hline : (i ++ l).getLast? = l.getLast? := List.getLast?_append_of_ne_nil _ hl.ne_nil
    rw [fragment_concat, List.getLast?_append_of_ne_nil _ (by simp [hl.ne_nil]), hline]
    exact fun hlast => hl.1 (List.mem_of_getLast? hlast)

theorem line_fragment (h : ∀ l ∈ ls, IsSolidLine l) : line (fragment i ls) = rows i ls := by
  by_cases hne : ls = []
  · rw [hne]
    rfl
  · have hfull := fragment_ne_nil (i := i) hne h
    rw [line, if_neg (by simpa using hfull), rows_eq_fragment i hne]

theorem stripLineEnds_rows (h : ∀ l ∈ ls, IsSolidLine l) : stripLineEnds (rows i ls) = fragment i ls := by
  by_cases hne : ls = []
  · rw [hne]
    rfl
  · have hlast := getLast?_fragment (i := i) h
    rw [rows_eq_fragment i hne, stripLineEnds, stripRight]
    generalize fragment i ls = t at hlast
    rw [List.reverse_concat, List.dropWhile_cons_of_pos (by decide)]
    cases hr : t.reverse with
    | nil => rw [← List.reverse_reverse t, hr]; rfl
    | cons c cs =>
      have ht : t = cs.reverse ++ [c] := by rw [← List.reverse_reverse t, hr, List.reverse_cons]
      rw [ht, List.getLast?_concat] at hlast
      have hc : (c == '\n') = false := by simpa using hlast
      rw [List.dropWhile_cons, if_neg (by simp [hc]), ht, List.reverse_cons]

theorem fragment_append (i : Text) (ls : List Text) (hne : ms ≠ []) :
    rows i ls ++ fragment i ms = fragment i (ls ++ ms) := by
  obtain ⟨init, l, rfl⟩ := (List.eq_nil_or_concat' ms).resolve_left hne
  rw [fragment_concat, ← List.append_assoc ls, fragment_concat, rows_append, List.append_assoc]

theorem block_rows (i opening closing : Text) (ls : List Text) :
    block i opening (rows (deeper i) ls) closing =
      fragment i (opening :: ls.map (step ++ ·) ++ [closing]) := by
  have hopening : rows i (opening :: ls.map (step ++ ·)) =
      i ++ opening ++ '\n' :: rows i (ls.map (step ++ ·)) := by simp [rows]
  rw [fragment_concat, hopening, rows_deeper]
  simp [block]

/-- The text in front of every line; nothing stays nothing. -/
def prefixed (p t : Text) : Text :=
  if t.isEmpty then [] else join ['\n'] ((splitOn '\n' t).map (p ++ ·))

theorem splitOn_fragment (hi : '\n' ∉ i) (hne : ls ≠ []) (h : ∀ l ∈ ls, IsSolidLine l) :
    splitOn '\n' (fragment i ls) = ls.map (i ++ ·) := by
  refine splitOn_join (by simpa using hne) fun l hl => ?_
  obtain ⟨k, hk, rfl⟩ := List.mem_map.1 hl
  simp [hi, (h k hk).1]

theorem prefixed_fragment (p : Text) (hi : '\n' ∉ i) (h : ∀ l ∈ ls, IsSolidLine l) :
    prefixed p (fragment i ls) = fragment (p ++ i) ls := by
  by_cases hne : ls = []
  · rw [hne]
    rfl
  · have hfull := fragment_ne_nil (i := i) hne h
    rw [prefixed, if_neg (by simpa using hfull), splitOn_fragment hi hne h, List.map_map, fragment]
    simp [Function.comp_def]

/-- Nothing, or lines that all start with the indent and hold something else than blanks after
it; the last one is not ended. -/
def IsFragment (indent t : Text) : Prop :=
  t = [] ∨ (∀ l ∈ splitOn '\n' t, ∃ rest, l = indent ++ rest ∧ isAllBlank rest = false) ∧
    t.getLast? ≠ some '\n'

theorem isFragment_fragment (hi : '\n' ∉ i) (h : ∀ l ∈ ls, IsSolidLine l) :
    IsFragment i (fragment i ls) := by
  by_cases hne : ls = []
  · exact .inl (by rw [hne]; rfl)
  · refine .inr ⟨?_, getLast?_fragment h⟩
    rw [splitOn_fragment hi hne h]
    intro l hl
    obtain ⟨k, hk, rfl⟩ := List.mem_map.1 hl
    exact ⟨k, rfl, (h k hk).2⟩

end Template
end LightningTemplate
