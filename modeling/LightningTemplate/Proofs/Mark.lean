import Mathlib.Algebra.GroupWithZero.Nat
import Mathlib.Data.List.Forall2
import Mathlib.Data.List.Induction
import LightningTemplate.Proofs.RoundTrip
import LightningTemplate.Proofs.Substituted

/-! Where tags and comments start in a template.  A text bears a list of marks when its
characters that open tags are, one after the other, the starts of these marks.  Marks add
up as texts are joined (`Bears.append`), so what an emitted text bears is read off its parts. -/
namespace LightningTemplate
open Text Expression

namespace Template
variable {t a b indent : Text}

/-- The places of a text with the character that opens tags, each with all that follows. -/
def openings : Text → List Text
  | [] => []
  | c :: cs => if c = '<' then (c :: cs) :: openings cs else openings cs

theorem openings_append (a b : Text) : openings (a ++ b) = (openings a).map (· ++ b) ++ openings b := by
  induction a with
  | nil => rfl
  | cons c a ih =>
    simp only [List.cons_append, openings, ih]
    split <;> rfl

theorem openings_of_notMem (h : '<' ∉ t) : openings t = [] := by
  induction t with
  | nil => rfl
  | cons c t ih =>
    rw [List.mem_cons, not_or] at h
    rw [openings, if_neg (Ne.symm h.1), ih h.2]

/-- What the emitter writes with an opening character at its start. -/
inductive Mark
  /-- The start tag of an element, which has attributes or not. -/
  | startTag (name : Text) (attributed : Bool)
  | endTag (name : Text)
  | conditional
  | otherwise
  | iteration
  | slot
  | comment (text : Text)
  /-- A character in the body of a raw element, which is passed on as it stands. -/
  | passed
  deriving DecidableEq, Repr

/-- How a mark starts; a start tag up to the character after its name. -/
def Mark.start : Mark → Text
  | .startTag name attributed => '<' :: (name ++ [if attributed then ' ' else '>'])
  | .endTag name => '<' :: '/' :: (name ++ ['>'])
  | .conditional => "<template lwc:if=".toList
  | .otherwise => "<template lwc:else>".toList
  | .iteration => "<template for:each=".toList
  | .slot => "<div slot=\"".toList
  | .comment text => "<!-- ".toList ++ text ++ " -->".toList
  | .passed => ['<']

theorem Mark.getLast?_start (mark : Mark) : mark.start.getLast? ≠ some '\n' := by
  cases mark with
  | startTag name attributed =>
    show (('<' :: name) ++ [if attributed then ' ' else '>']).getLast? ≠ some '\n'
    rw [List.getLast?_concat]
    cases attributed <;> decide
  | endTag name =>
    show (('<' :: '/' :: name) ++ ['>']).getLast? ≠ some '\n'
    rw [List.getLast?_concat]
    decide
  | comment text =>
    have hend : " -->".toList.getLast? = some '>' := by decide
    show ("<!-- ".toList ++ text ++ " -->".toList).getLast? ≠ some '\n'
    rw [List.getLast?_append, hend, Option.some_or]
    decide
  | conditional => decide
  | otherwise => decide
  | iteration => decide
  | slot => decide
  | passed => decide

/-- The opening characters of the text are the starts of the marks. -/
def Bears (marks : List Mark) (t : Text) : Prop :=
  List.Forall₂ (fun mark rest => mark.start <+: rest) marks (openings t)

namespace Bears
variable {ms ns : List Mark}

theorem literal (h : '<' ∉ t) : Bears [] t := by
  rw [Bears, openings_of_notMem h]
  exact .nil

theorem append (ha : Bears ms a) (hb : Bears ns b) : Bears (ms ++ ns) (a ++ b) := by
  rw [Bears, openings_append]
  refine List.rel_append ?_ hb
  rw [List.forall₂_map_right_iff]
  exact ha.imp fun _ _ h => h.trans (List.prefix_append _ _)

theorem literal_append (ha : '<' ∉ a) (hb : Bears ms b) : Bears ms (a ++ b) :=
  (literal ha).append hb

theorem append_literal (ha : Bears ms a) (hb : '<' ∉ b) : Bears ms (a ++ b) := by
  simpa using ha.append (literal hb)

theorem eq_nil (h : Bears ms []) : ms = [] := by
  cases h
  rfl

theorem mark (k : Mark) {c : Text} (hstart : k.start = '<' :: c) (hc : '<' ∉ c) (ht : '<' ∉ t) :
    Bears [k] ('<' :: (c ++ t)) := by
  have hrest : '<' ∉ c ++ t := by simp [hc, ht]
  rw [Bears, openings, if_pos rfl, openings_of_notMem hrest]
  refine .cons ?_ .nil
  rw [hstart, ← List.cons_append]
  exact List.prefix_append _ _

theorem passed (t : Text) : Bears (List.replicate (t.count '<') .passed) t := by
  induction t with
  | nil => exact .nil
  | cons c t ih =>
    by_cases hc : c = '<'
    · rw [Bears, openings, if_pos hc, hc, List.count_cons_self, List.replicate_succ]
      exact .cons ⟨t, rfl⟩ ih
    · rw [Bears, openings, if_neg hc, List.count_cons_of_ne hc]
      exact ih

theorem line (h : Bears ms a) : Bears ms (Render.line a) := by
  unfold Render.line
  split
  · rename_i hempty
    obtain rfl := List.isEmpty_iff.1 hempty
    exact h
  · exact h.append_literal (by decide)

/-- A start that ends in no line feed does not reach into the line feeds at the end. -/
theorem start_prefix {start rest after : Text} (hlast : start.getLast? ≠ some '\n')
    (hafter : after.all (· == '\n') = true) (h : start <+: rest ++ after) : start <+: rest := by
  rcases List.prefix_or_prefix_of_prefix h (List.prefix_append rest after) with h' | ⟨reached, rfl⟩
  · exact h'
  · have hreached : reached <+: after := (List.prefix_append_right_inj rest).1 h
    cases hr : reached.getLast? with
    | none => simp [List.getLast?_eq_none_iff.1 hr]
    | some c =>
      have hc := List.all_eq_true.1 hafter c (hreached.subset (List.mem_of_getLast? hr))
      rw [List.getLast?_append, hr, eq_of_beq hc] at hlast
      exact absurd rfl hlast

theorem stripLineEnds (h : Bears ms a) : Bears ms (Render.stripLineEnds a) := by
  obtain ⟨after, heq, hafter⟩ := exists_stripRight (· == '\n') a
  have hnone : '<' ∉ after := fun hmem =>
    absurd (List.all_eq_true.1 hafter _ hmem) (by decide)
  rw [Bears, heq, openings_append, openings_of_notMem hnone, List.append_nil,
    List.forall₂_map_right_iff] at h
  exact h.imp fun mark rest hrest => start_prefix mark.getLast?_start hafter hrest

end Bears

theorem lt_notMem_of_blank (h : indent.all isBlank = true) : '<' ∉ indent := fun hmem =>
  absurd (List.all_eq_true.1 h _ hmem) (by decide)

theorem Bears.block {ms ns ks : List Mark} {opening content closing : Text}
    (hi : indent.all isBlank = true) (ho : Bears ms opening) (hb : Bears ns content)
    (hc : Bears ks closing) : Bears (ms ++ (ns ++ ks)) (block indent opening content closing) := by
  have hindent := lt_notMem_of_blank hi
  have hend : Bears (ns ++ ks) ('\n' :: (content ++ (indent ++ closing))) :=
    Bears.literal_append (a := ['\n']) (by decide) (hb.append (hc.literal_append hindent))
  simp only [Template.block, List.append_assoc, List.cons_append]
  exact (ho.append hend).literal_append hindent

theorem lt_notMem_escapeValue (value : Text) : '<' ∉ escapeValue value := by
  have hchar (c : Char) : '<' ∉ escapeChar c := by
    unfold escapeChar
    split
    · decide
    · split
      · decide
      · split
        · decide
        · rename_i hc
          simpa using Ne.symm hc
  rw [escapeValue, List.mem_flatMap, not_exists]
  exact fun c h => hchar c h.2

theorem lt_notMem_attributeText {name value : Text} (hname : '<' ∉ name)
    (hvalue : isBraced value = true → '<' ∉ value) : '<' ∉ attributeText name value := by
  unfold attributeText
  split
  · simp [hname, hvalue ‹_›]
  · simp [hname, lt_notMem_escapeValue]

theorem lt_notMem_attributeList {pairs : List (Text × Text)}
    (h : ∀ p ∈ pairs, '<' ∉ p.1 ∧ (isBraced p.2 = true → '<' ∉ p.2)) : '<' ∉ attributeList pairs := by
  rw [attributeList, List.mem_flatMap, not_exists]
  rintro p ⟨hp, hmem⟩
  rcases List.mem_cons.1 hmem with hspace | hmem
  · exact absurd hspace (by decide)
  · exact lt_notMem_attributeText (h p hp).1 (h p hp).2 hmem

theorem count_lt_dropWhile (t : Text) : (t.dropWhile isBlank).count '<' = t.count '<' := by
  have hblank : (t.takeWhile isBlank).count '<' = 0 :=
    List.count_eq_zero.2 (lt_notMem_of_blank List.all_takeWhile)
  conv_rhs => rw [← List.takeWhile_append_dropWhile (p := isBlank) (l := t), List.count_append, hblank]
  exact (Nat.zero_add _).symm

theorem count_lt_strip (t : Text) : (strip t).count '<' = t.count '<' := by
  rw [strip, stripBoth, stripRight, List.count_reverse, count_lt_dropWhile, List.count_reverse,
    stripLeft, count_lt_dropWhile]

theorem count_lt_lines (t : Text) : ((lines t).map (·.count '<')).sum = t.count '<' := by
  have hne {c : Char} (hb : isLineBreak c = true) : c ≠ '<' := by
    rintro rfl
    exact absurd hb (by decide)
  induction t using lines.induct with
  | case1 => rfl
  | case2 cs ih =>
    rw [lines, List.map_cons, List.sum_cons, ih]
    simp
  | case3 c cs hpair hb ih =>
    rw [lines, if_pos hb, List.map_cons, List.sum_cons, ih, List.count_cons_of_ne (hne hb)]
    · simp
    · exact hpair
  | case4 c cs hpair hb hnil ih =>
    have hcs : cs = [] := lines_eq_nil.1 hnil
    rw [lines, if_neg hb, hnil, hcs]
    · simp
    · exact hpair
  | case5 c cs hpair hb first others hcons ih =>
    rw [hcons, List.map_cons, List.sum_cons] at ih
    rw [lines, if_neg hb, hcons, List.map_cons, List.sum_cons, List.count_cons, List.count_cons, ← ih]
    · omega
    · exact hpair

theorem count_lt_line (t : Text) : (Render.line t).count '<' = t.count '<' := by
  unfold Render.line
  split
  · rename_i hempty
    rw [List.isEmpty_iff.1 hempty]
  · simp

theorem count_lt_textLines (hi : indent.all isBlank = true) (t : Text) :
    (textLines t indent).count '<' = t.count '<' := by
  have hindent : indent.count '<' = 0 := List.count_eq_zero.2 (lt_notMem_of_blank hi)
  have hsolid (ls : List Text) : ((ls.filter (!·.isEmpty)).map (·.count '<')).sum =
      (ls.map (·.count '<')).sum := by
    induction ls with
    | nil => rfl
    | cons l ls ih => cases l <;> simp [ih]
  have hstrip (ls : List Text) : ((ls.map strip).map (·.count '<')) = ls.map (·.count '<') := by
    rw [List.map_map]
    exact List.map_congr_left fun l _ => count_lt_strip l
  rw [← count_lt_line, line_textLines, List.count_flatMap]
  have hline : (List.count '<' ∘ fun l => indent ++ l ++ ['\n']) = fun l : Text => l.count '<' := by
    funext l
    simp [hindent]
  rw [hline, solidLines, hsolid, hstrip, count_lt_lines]

/-- What a text is converted to depends on the getters before it only in the numbers of
its own. -/
theorem rel_substitute {R : Text → Text → Prop} (hnil : R [] [])
    (hsame : ∀ x s t, R s t → R (x ++ s) (x ++ t))
    (hgetter : ∀ j k s t, R s t →
      R (inBraces (getterName j) ++ s) (inBraces (getterName k) ++ t))
    (m n : Nat) (t : Text) : R (substitute m t).text (substitute n t).text := by
  rw [substitute, substitute]
  induction pieces t generalizing m n with
  | nil => exact hnil
  | cons p ps ih =>
    simp only [substitutePieces]
    have hrest := ih (m + (p.substitute m).hoisted.length) (n + (p.substitute n).hoisted.length)
    cases p with
    | char c => exact hsame [c] _ _ hrest
    | expression sign inner =>
      simp only [Piece.substitute] at hrest ⊢
      split at hrest
      · rename_i hgets
        simp only [hgets, if_true] at hrest ⊢
        exact hgetter _ _ _ _ hrest
      · rename_i hgets
        simp only [hgets] at hrest ⊢
        exact hsame _ _ _ hrest

theorem lt_notMem_getterName (n : Nat) : '<' ∉ inBraces (getterName n) := by
  have hname : '<' ∉ getterName n := fun hmem => absurd (bare_getterName n _ hmem) (by decide)
  simp [inBraces, hname]

theorem count_lt_substitute (m n : Nat) (t : Text) :
    (substitute m t).text.count '<' = (substitute n t).text.count '<' := by
  have hgetter (k : Nat) : (inBraces (getterName k)).count '<' = 0 :=
    List.count_eq_zero.2 (lt_notMem_getterName k)
  refine rel_substitute (R := fun s t => s.count '<' = t.count '<') rfl ?_ ?_ m n t
  · intro x s t h
    rw [List.count_append, List.count_append, h]
  · intro j k s t h
    rw [List.count_append, List.count_append, hgetter, hgetter, h]

def isBrace (c : Char) : Bool := c == '{' || c == '}'

theorem isBrace_of_bare {c : Char} (h : isBare c = true) : isBrace c = false := by
  simp only [isBare, Bool.and_eq_true] at h
  simp_all [isBrace]

theorem isBrace_of_blank {c : Char} (h : isBlank c = true) : isBrace c = false := by
  rw [isBrace, Bool.or_eq_false_iff, beq_eq_false_iff_ne, beq_eq_false_iff_ne]
  constructor <;> rintro rfl <;> exact absurd h (by decide)

theorem filter_isBrace_eq_nil : t.filter isBrace = [] ↔ ∀ c ∈ t, isBrace c = false := by
  simp [List.filter_eq_nil_iff]

theorem isBraced_iff_inBraces :
    isBraced t = true ↔ ∃ r, t = inBraces r ∧ ∀ c ∈ r, isBrace c = false := by
  constructor
  · intro h
    unfold isBraced at h
    split at h
    · rename_i cs
      split at h
      · rename_i inner hinner
        obtain rfl : cs = inner.reverse ++ ['}'] := by
          rw [← List.reverse_reverse cs, hinner, List.reverse_cons]
        refine ⟨inner.reverse, rfl, fun c hc => ?_⟩
        have hplain := List.all_eq_true.1 h c (List.mem_reverse.1 hc)
        simpa [isBrace] using hplain
      · cases h
    · cases h
  · rintro ⟨r, rfl, hr⟩
    have hreverse : (r ++ ['}']).reverse = '}' :: r.reverse := by simp
    simp only [inBraces, isBraced, hreverse, List.all_reverse, List.all_eq_true]
    intro c hc
    simpa [isBrace] using hr c hc

theorem isBraced_iff : isBraced t = true ↔
    t.head? = some '{' ∧ t.getLast? = some '}' ∧ t.filter isBrace = ['{', '}'] := by
  rw [isBraced_iff_inBraces]
  constructor
  · rintro ⟨r, rfl, hr⟩
    refine ⟨rfl, ?_, ?_⟩
    · rw [inBraces, ← List.cons_append, List.getLast?_concat]
    · rw [inBraces, List.filter_cons_of_pos (by decide), List.filter_append,
        filter_isBrace_eq_nil.2 hr]
      decide
  · rintro ⟨hhead, hlast, hbraces⟩
    obtain ⟨cs, rfl⟩ := List.head?_eq_some_iff.1 hhead
    rw [List.filter_cons_of_pos (by decide), List.cons_inj_right] at hbraces
    cases cs using List.reverseRecOn with
    | nil => simp at hbraces
    | append_singleton r d =>
      rw [← List.cons_append, List.getLast?_concat, Option.some.injEq] at hlast
      subst hlast
      refine ⟨r, rfl, filter_isBrace_eq_nil.1 ?_⟩
      have hclosing : ['}'].filter isBrace = [] ++ ['}'] := by decide
      rw [List.filter_append, hclosing, ← List.append_assoc, List.append_nil] at hbraces
      exact List.append_cancel_right (hbraces.trans (List.nil_append ['}']).symm)

theorem isBraced_substitute (m n : Nat) (t : Text) :
    isBraced (substitute m t).text = isBraced (substitute n t).text := by
  have hgetter (k : Nat) : (inBraces (getterName k)).filter isBrace = ['{', '}'] := by
    have hname : (getterName k).filter isBrace = [] :=
      filter_isBrace_eq_nil.2 fun c hc => isBrace_of_bare (bare_getterName k c hc)
    rw [inBraces, List.filter_cons_of_pos (by decide), List.filter_append, hname]
    decide
  have hshape := rel_substitute (R := fun s t => s.head? = t.head? ∧ s.getLast? = t.getLast? ∧
    s.filter isBrace = t.filter isBrace) ⟨rfl, rfl, rfl⟩ ?_ ?_ m n t
  · rw [Bool.eq_iff_iff, isBraced_iff, isBraced_iff, hshape.1, hshape.2.1, hshape.2.2]
  · rintro x s t ⟨hhead, hlast, hfilter⟩
    simp only [List.head?_append, List.getLast?_append, List.filter_append, hhead, hlast, hfilter,
      and_self]
  · rintro j k s t ⟨hhead, hlast, hfilter⟩
    refine ⟨rfl, ?_, ?_⟩
    · simp only [inBraces, ← List.cons_append, List.getLast?_append, hlast]
      simp
    · rw [List.filter_append, List.filter_append, hgetter, hgetter, hfilter]

theorem mem_unbrace {c : Char} (h : c ∈ unbrace t) : c ∈ t := by
  rcases unbrace_cases t with heq | heq
  · exact mem_strip (heq ▸ (by simp [inBraces, h]))
  · exact mem_strip (heq ▸ h)

end Template
end LightningTemplate
