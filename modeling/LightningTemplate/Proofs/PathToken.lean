import Mathlib.Data.List.Basic
import Mathlib.Data.List.DropRight
import Mathlib.Data.List.TakeWhile
import LightningTemplate.Proofs.Reference

/-! How paths are written.  A path is names with points between them (`IsPath`), and a text has
one path for its only token just when, stripped, it is that path (`tokens_eq_path_iff`): no other
text is read as the path, and the path is read as nothing else. -/
namespace LightningTemplate
open Text

namespace Text

def dotted (first : Text) (others : List Text) : Text := first ++ others.flatMap ('.' :: ·)

theorem splitOn_dotted {first : Text} {others : List Text} (hfirst : '.' ∉ first)
    (h : ∀ w ∈ others, '.' ∉ w) : splitOn '.' (dotted first others) = first :: others := by
  induction others generalizing first with
  | nil => rw [dotted, List.flatMap_nil, List.append_nil, splitOn_of_notMem hfirst]
  | cons w others ih =>
    rw [List.forall_mem_cons] at h
    have hrest : dotted first (w :: others) = first ++ '.' :: dotted w others := by simp [dotted]
    rw [hrest, splitOn_append_cons hfirst, ih h.1 h.2]

theorem isBlank_getLast_strip {t : Text} {c : Char} (h : (strip t).getLast? = some c) :
    isBlank c = false := by
  have hlead := List.head?_dropWhile_not isBlank (stripLeft isBlank t).reverse
  rw [strip, stripBoth, stripRight, List.getLast?_reverse] at h
  rw [h] at hlead
  exact hlead

theorem strip_strip (t : Text) : strip (strip t) = strip t := by
  have hleft : stripLeft isBlank (strip t) = strip t := by
    cases h : strip t with
    | nil => rfl
    | cons c cs =>
      have hc : isBlank c = false := isBlank_head_strip (t := t) (by rw [h]; rfl)
      simp [stripLeft, hc]
  have hright : stripRight isBlank (strip t) = strip t := by
    simp [strip, stripBoth, stripRight, List.dropWhile_idempotent]
  conv_lhs => rw [strip, stripBoth, hleft, hright]

theorem exists_strip (t : Text) : ∃ before after, isAllBlank before = true ∧
    isAllBlank after = true ∧ t = before ++ (strip t ++ after) := by
  obtain ⟨after, h, hafter⟩ := exists_stripRight isBlank (stripLeft isBlank t)
  refine ⟨t.takeWhile isBlank, after, List.all_takeWhile, hafter, ?_⟩
  rw [strip, stripBoth, ← h, stripLeft, List.takeWhile_append_dropWhile]

theorem ends_of_strip {t before after m : Text} (h : strip t = before ++ (m ++ after))
    (hbefore : isAllBlank before = true) (hafter : isAllBlank after = true) : strip t = m := by
  have hnone : before = [] := by
    cases before with
    | nil => rfl
    | cons c cs =>
      have hb := isBlank_head_strip (t := t) (c := c) (by rw [h]; rfl)
      rw [isAllBlank, List.all_cons, hb] at hbefore
      exact absurd hbefore (by simp)
  have hnone' : after = [] := by
    rcases List.eq_nil_or_concat' after with hnil | ⟨init, c, rfl⟩
    · exact hnil
    · have hlast : (strip t).getLast? = some c := by
        rw [h, ← List.append_assoc, ← List.append_assoc, List.getLast?_concat]
      have hb := isBlank_getLast_strip hlast
      simp [isAllBlank, hb] at hafter
  rw [h, hnone, hnone', List.nil_append, List.append_nil]

end Text

namespace Expression
variable {t p gap : Text}

def IsPathName (w : Text) : Prop := w ≠ [] ∧ ∀ c ∈ w, isWord c = true

def IsRoot (root : Text) : Prop :=
  ∃ c w, isLatinStart c = true ∧ (∀ d ∈ w, isWord d = true) ∧ (root = c :: w ∨ root = '$' :: c :: w)

/-- Names with points between them, which together spell no operator. -/
def IsPath (p : Text) : Prop :=
  ∃ root others, IsRoot root ∧ (∀ w ∈ others, IsPathName w) ∧ p = dotted root others ∧
    operatorWords.contains p = false

theorem isWord_point : isWord '.' = false := by decide

theorem point_notMem_name {w : Text} (h : ∀ c ∈ w, isWord c = true) : '.' ∉ w := fun hmem =>
  absurd (h _ hmem) (Bool.eq_false_iff.1 isWord_point)

theorem isRoot_letter {c : Char} (hc : isLatinStart c = true) : IsRoot [c] :=
  ⟨c, [], hc, by simp, .inl rfl⟩

theorem not_operator {c : Char} {cs : Text} (hc : ∀ w ∈ operatorWords, w.head? ≠ some c) :
    operatorWords.contains (c :: cs) = false := by
  rw [← Bool.not_eq_true, List.contains_iff_mem]
  exact fun hmem => hc _ hmem rfl

theorem IsRoot.point_notMem {root : Text} (h : IsRoot root) : '.' ∉ root := by
  obtain ⟨c, w, hc, hw, hroot⟩ := h
  have hname : '.' ∉ c :: w :=
    point_notMem_name (List.forall_mem_cons.2 ⟨isWord_of_isLatinStart hc, hw⟩)
  rcases hroot with rfl | rfl
  · exact hname
  · rw [List.mem_cons, not_or]
    exact ⟨by decide, hname⟩

theorem IsPath.splitOn {root : Text} {others : List Text} (hroot : IsRoot root)
    (h : ∀ w ∈ others, IsPathName w) : Text.splitOn '.' (dotted root others) = root :: others :=
  splitOn_dotted hroot.point_notMem fun w hw => point_notMem_name (h w hw).2

theorem IsPath.head_ne (h : IsPath p) : p.head? ≠ some '=' := by
  obtain ⟨root, others, ⟨c, w, hc, -, hroot⟩, -, rfl, -⟩ := h
  rcases hroot with rfl | rfl
  · rintro ⟨⟩
    exact absurd hc (by decide)
  · intro hhead
    exact absurd (Option.some.inj hhead) (by decide)

theorem pathTail_append {w : Text} (hw : ∀ c ∈ w, isWord c = true) (rest : Text) :
    pathTail (w ++ rest) = w.length + pathTail rest := by
  induction w with
  | nil => exact (Nat.zero_add _).symm
  | cons c w ih =>
    rw [List.forall_mem_cons] at hw
    rw [List.cons_append, pathTail_word hw.1, ih hw.2, List.length_cons]
    omega

theorem pathTail_dotted {w : Text} {others : List Text} (hw : ∀ c ∈ w, isWord c = true)
    (h : ∀ v ∈ others, IsPathName v) : pathTail (dotted w others) = (dotted w others).length := by
  induction others generalizing w with
  | nil =>
    rw [dotted, pathTail_append hw, List.length_append]
    rfl
  | cons v others ih =>
    obtain ⟨⟨hne, hv⟩, hothers⟩ := List.forall_mem_cons.1 h
    obtain ⟨c, cs, rfl⟩ := List.exists_cons_of_ne_nil hne
    have hc : isWord c = true := hv c List.mem_cons_self
    have hrest : pathTail ('.' :: dotted (c :: cs) others) = 1 + pathTail (dotted (c :: cs) others) := by
      refine pathTail_point (by simp [isWord_point]) ?_
      simp [dotted, hc]
    have hsplit : dotted w ((c :: cs) :: others) = w ++ '.' :: dotted (c :: cs) others := by
      simp [dotted]
    rw [hsplit, pathTail_append hw, hrest, ih hv hothers, List.length_append, List.length_cons]
    omega

/-- What a path takes after its first letter is names with points between them. -/
theorem take_pathTail (t : Text) : ∃ w others, (∀ c ∈ w, isWord c = true) ∧
    (∀ v ∈ others, IsPathName v) ∧ t.take (pathTail t) = dotted w others := by
  induction t with
  | nil => exact ⟨[], [], by simp, by simp, rfl⟩
  | cons c cs ih =>
    obtain ⟨w, others, hw, hothers, htake⟩ := ih
    by_cases hword : isWord c = true
    · refine ⟨c :: w, others, List.forall_mem_cons.2 ⟨hword, hw⟩, hothers, ?_⟩
      rw [pathTail_word hword, Nat.add_comm, List.take_succ_cons, htake]
      rfl
    · by_cases hpoint : (c = '.' && cs.head?.any isWord) = true
      · rw [pathTail_point hword hpoint, Nat.add_comm, List.take_succ_cons, htake]
        simp only [Bool.and_eq_true, decide_eq_true_eq, Option.any_eq_true] at hpoint
        obtain ⟨rfl, d, hd, hdword⟩ := hpoint
        obtain ⟨ds, rfl⟩ := List.head?_eq_some_iff.1 hd
        -- the name after the point is not empty, since a word character follows it
        have hne : w ≠ [] := by
          rintro rfl
          rw [pathTail_word hdword, Nat.add_comm, List.take_succ_cons] at htake
          cases others with
          | nil => simp [dotted] at htake
          | cons v others =>
            obtain rfl : d = '.' := by simpa [dotted] using (List.cons.inj htake).1
            exact absurd hdword (Bool.eq_false_iff.1 isWord_point)
        refine ⟨[], w :: others, by simp, List.forall_mem_cons.2 ⟨⟨hne, hw⟩, hothers⟩, ?_⟩
        simp [dotted]
      · rw [pathTail_end hword hpoint]
        exact ⟨[], [], by simp, by simp, rfl⟩

theorem toNat_lt_of_isAlpha {c : Char} (h : c.isAlpha = true) : c.toNat < 128 := by
  rcases Bool.or_eq_true_iff.1 h with hupper | hlower
  · have hle : c.val ≤ 'Z'.val := (of_decide_eq_true hupper).2
    exact Nat.lt_of_le_of_lt (UInt32.le_iff_toNat_le.1 hle) (by decide)
  · have hle : c.val ≤ 'z'.val := of_decide_eq_true (Bool.and_eq_true_iff.1 hlower).2
    exact Nat.lt_of_le_of_lt (UInt32.le_iff_toNat_le.1 hle) (by decide)

theorem lexemeAt_letter {c : Char} (h : isLatinStart c = true) (cs : Text) :
    lexemeAt c cs = (some .path, pathTail cs) := by
  have hascii : c.toNat < 128 := by
    rcases Bool.or_eq_true_iff.1 h with halpha | hline
    · exact toNat_lt_of_isAlpha halpha
    · rw [eq_of_beq hline]
      decide
  have hclass : isBlank c = false ∧ ¬(c = '\'' ∨ c = '"') ∧ isDigit c = false :=
    forall_ascii (P := fun c => isLatinStart c = true →
      isBlank c = false ∧ ¬(c = '\'' ∨ c = '"') ∧ isDigit c = false) (by decide +kernel) c hascii h
  unfold lexemeAt
  rw [hclass.1, if_neg (by decide), if_neg hclass.2.1, hclass.2.2, if_neg (by decide), if_pos h]

theorem lexemeAt_fst_eq_none {c : Char} {cs : Text} : (lexemeAt c cs).1 = none ↔ isBlank c = true := by
  obtain ⟨kind, n, hmark, -⟩ := isMarkLexeme_markAt c cs
  unfold lexemeAt
  by_cases hb : isBlank c = true
  · simp [hb]
  · simp only [hb, Bool.false_eq_true, if_false, iff_false, hmark]
    repeat' split
    all_goals simp

theorem Token.value_ofValue (kind : TokenKind) (value : Text) : (ofValue kind value).value = value := by
  unfold ofValue
  split <;> rfl

theorem tokens_cons (c : Char) (cs : Text) :
    tokens (c :: cs) = (tokenAt c cs).toList ++ tokens (cs.drop (lexemeAt c cs).2) := by
  rw [tokens, tokensFrom, tokensFrom_eq]

theorem tokens_dropWhile (t : Text) : tokens (t.dropWhile isBlank) = tokens t := by
  cases t with
  | nil => rfl
  | cons c cs =>
    by_cases hc : isBlank c = true
    · have hlex : lexemeAt c cs = (none, runLength isBlank cs) := by
        unfold lexemeAt
        rw [if_pos hc]
      have hsplit := (List.takeWhile_append_dropWhile (p := isBlank) (l := cs)).symm
      have hdrop : cs.drop (cs.takeWhile isBlank).length = cs.dropWhile isBlank := by
        calc
          cs.drop (cs.takeWhile isBlank).length
              = (cs.takeWhile isBlank ++ cs.dropWhile isBlank).drop (cs.takeWhile isBlank).length := by
            rw [← hsplit]
          _ = cs.dropWhile isBlank := List.drop_left
      rw [List.dropWhile_cons, if_pos hc, tokens_cons, tokenAt, hlex, runLength, hdrop]
      rfl
    · rw [List.dropWhile_cons, if_neg hc]

theorem tokens_blank_append (h : isAllBlank gap = true) (t : Text) : tokens (gap ++ t) = tokens t := by
  rw [← tokens_dropWhile, List.dropWhile_append_of_pos (List.all_eq_true.1 h), tokens_dropWhile]

theorem isAllBlank_of_tokens (h : tokens t = []) : isAllBlank t = true := by
  rw [← tokens_dropWhile] at h
  have hhead := List.head?_dropWhile_not isBlank t
  cases hdrop : t.dropWhile isBlank with
  | nil => exact List.all_eq_true.2 (List.dropWhile_eq_nil_iff.1 hdrop)
  | cons c cs =>
    rw [hdrop] at h hhead
    rw [tokens_cons, List.append_eq_nil_iff, tokenAt, Option.toList_eq_nil_iff, Option.map_eq_none_iff,
      lexemeAt_fst_eq_none] at h
    simp [h.1] at hhead

/-- The first token stands after the blanks, and the others are those of what follows it. -/
theorem tokens_eq_cons {tok : Token} {rest : List Token} (h : tokens t = tok :: rest) :
    ∃ gap c cs, isAllBlank gap = true ∧ t = gap ++ c :: cs ∧ tokenAt c cs = some tok ∧
      tokens (cs.drop (lexemeAt c cs).2) = rest := by
  have hhead := List.head?_dropWhile_not isBlank t
  have hsplit := List.takeWhile_append_dropWhile (p := isBlank) (l := t)
  rw [← tokens_dropWhile] at h
  cases hdrop : t.dropWhile isBlank with
  | nil =>
    rw [hdrop] at h
    exact absurd h (by simp [tokens, tokensFrom])
  | cons c cs =>
    rw [hdrop] at h hhead hsplit
    have hc : isBlank c = false := by simpa using hhead
    cases htok : tokenAt c cs with
    | none =>
      rw [tokenAt, Option.map_eq_none_iff, lexemeAt_fst_eq_none, hc] at htok
      exact absurd htok (by decide)
    | some first =>
      rw [tokens_cons, htok, Option.toList_some, List.singleton_append, List.cons.injEq] at h
      exact ⟨_, c, cs, List.all_takeWhile, hsplit.symm, by rw [htok, h.1], h.2⟩

theorem isPath_of_tokenAt {c : Char} {cs : Text} (h : tokenAt c cs = some ⟨.path, p⟩) : IsPath p := by
  obtain ⟨hlex, rfl, hplain⟩ := tokenAt_eq_some h (by decide)
  have hword := hplain rfl
  rcases lexemeAt_path_cases hlex with ⟨hc, hletter⟩ | ⟨d, ds, rfl, rfl, hd, hdollar⟩
  · obtain ⟨w, others, hw, hothers, htake⟩ := take_pathTail cs
    refine ⟨c :: w, others, ⟨c, w, hc, hw, .inl rfl⟩, hothers, ?_, hword⟩
    rw [hletter, htake]
    rfl
  · obtain ⟨w, others, hw, hothers, htake⟩ := take_pathTail ds
    refine ⟨'$' :: d :: w, others, ⟨d, w, hd, hw, .inr rfl⟩, hothers, ?_, hword⟩
    rw [hdollar, Nat.add_comm, List.take_succ_cons, htake]
    rfl

theorem tokens_path (h : IsPath p) : tokens p = [⟨.path, p⟩] := by
  obtain ⟨root, others, ⟨c, w, hc, hw, hroot⟩, hothers, rfl, hword⟩ := h
  have htail := pathTail_dotted hw hothers
  have htoken : Token.ofValue .path (dotted root others) = ⟨.path, dotted root others⟩ := by
    rw [Token.ofValue, hword, if_neg (by simp)]
  -- the lexeme reaches to the end of the path
  have hreach (d : Char) (ds : Text) (hp : dotted root others = d :: ds)
      (hlex : lexemeAt d ds = (some .path, ds.length)) :
      tokens (dotted root others) = [⟨.path, dotted root others⟩] := by
    rw [hp] at htoken ⊢
    rw [tokens_cons, tokenAt, hlex, List.drop_length, List.take_length, Option.map_some, htoken]
    rfl
  rcases hroot with rfl | rfl
  · exact hreach c (dotted w others) rfl (by rw [lexemeAt_letter hc, htail])
  · refine hreach '$' (c :: dotted w others) rfl ?_
    rw [lexemeAt_dollar, if_pos hc, htail, List.length_cons, Nat.add_comm]

theorem tokens_eq_path_iff : tokens (strip t) = [⟨.path, p⟩] ↔ strip t = p ∧ IsPath p := by
  constructor
  · intro h
    obtain ⟨before, c, cs, hbefore, ht, htok, hrest⟩ := tokens_eq_cons h
    have hpath := isPath_of_tokenAt htok
    have hp := (tokenAt_eq_some htok (by decide)).2.1
    have hafter := isAllBlank_of_tokens hrest
    rw [← List.take_append_drop (lexemeAt c cs).2 cs, ← List.cons_append, ← hp] at ht
    exact ⟨ends_of_strip ht hbefore hafter, hpath⟩
  · rintro ⟨ht, hp⟩
    rw [ht, tokens_path hp]

theorem lexemeAt_not {c : Char} {cs : Text} (h : (lexemeAt c cs).1 = some .not) :
    c = '!' ∧ (lexemeAt c cs).2 = 0 := by
  obtain ⟨kind, n, hmark, -, hnot⟩ := isMarkLexeme_markAt c cs
  have hlex : lexemeAt c cs = markAt c cs := by
    unfold lexemeAt at h ⊢
    repeat' split
    all_goals simp_all
  rw [hlex, hmark, Option.some.injEq] at h
  rw [hlex, hmark]
  exact hnot h

theorem tokenAt_not {cs : Text} (h : cs.head? ≠ some '=') :
    tokenAt '!' cs = some ⟨.not, ['!']⟩ ∧ (lexemeAt '!' cs).2 = 0 := by
  have hlex : lexemeAt '!' cs = (some .not, 0) := by
    have hmark : lexemeAt '!' cs = markAt '!' cs := by
      unfold lexemeAt
      rw [if_neg (by decide), if_neg (by decide), if_neg (by decide), if_neg (by decide),
        if_neg (by decide)]
    rw [hmark]
    simp [markAt, h]
  rw [tokenAt, hlex]
  exact ⟨rfl, rfl⟩

/-- A stripped text of a negation and a path is that path after the sign, with blanks between
them or not. -/
theorem tokens_eq_not_path_iff : (∃ sign, tokens (strip t) = [⟨.not, sign⟩, ⟨.path, p⟩]) ↔
    ∃ gap, isAllBlank gap = true ∧ strip t = '!' :: (gap ++ p) ∧ IsPath p := by
  constructor
  · rintro ⟨sign, h⟩
    obtain ⟨before, c, cs, hbefore, ht, htok, hrest⟩ := tokens_eq_cons h
    obtain ⟨gap, d, ds, hgap, hcs, hpath, hend⟩ := tokens_eq_cons hrest
    obtain ⟨rfl, hnone⟩ := lexemeAt_not (tokenAt_eq_some htok (by decide)).1
    rw [hnone, List.drop_zero] at hcs
    have hp := (tokenAt_eq_some hpath (by decide)).2.1
    have hafter := isAllBlank_of_tokens hend
    have hsplit : d :: ds = p ++ ds.drop (lexemeAt d ds).2 := by
      rw [hp, List.cons_append, List.take_append_drop]
    have hwhole : strip t = before ++ (('!' :: (gap ++ p)) ++ ds.drop (lexemeAt d ds).2) := by
      rw [ht, hcs, hsplit]
      simp
    exact ⟨gap, hgap, ends_of_strip hwhole hbefore hafter, isPath_of_tokenAt hpath⟩
  · rintro ⟨gap, hgap, ht, hp⟩
    have hhead : (gap ++ p).head? ≠ some '=' := by
      rw [List.head?_append]
      cases gap with
      | nil => exact hp.head_ne
      | cons b bs =>
        rintro ⟨⟩
        exact absurd (List.all_eq_true.1 hgap '=' List.mem_cons_self) (by decide)
    obtain ⟨htok, hnone⟩ := tokenAt_not hhead
    refine ⟨['!'], ?_⟩
    rw [ht, tokens_cons, htok, hnone, List.drop_zero, tokens_blank_append hgap, tokens_path hp]
    rfl

end Expression
end LightningTemplate
