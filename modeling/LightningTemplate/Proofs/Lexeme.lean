import LightningTemplate.Proofs.ExpressionForm
import LightningTemplate.Proofs.PathToken

/-! How far lexemes reach.  A lexeme stands within the text (`lexemeAt_le`), and it is read again
where the text behind it is cut off or goes on with a blank (`lexemeAt_take_append`): no class of
lexemes has a blank in it where the next character decides how the lexeme goes on. -/
namespace LightningTemplate.Expression
open Text

variable {c q : Char} {t cs rest : Text} {k n : Nat} {p : Char → Bool}

def Breaks (rest : Text) : Prop := ∀ c, rest.head? = some c → isBlank c = true

theorem breaks_nil : Breaks [] := by simp [Breaks]

theorem breaks_of_isAllBlank (h : isAllBlank rest = true) : Breaks rest := fun c hc =>
  List.all_eq_true.1 h c (List.mem_of_head? hc)

def Solid (p : Char → Bool) : Prop := ∀ c, isBlank c = true → p c = false

theorem solid_of (hascii : ∀ n < 128, isBlank (Char.ofNat n) = true → p (Char.ofNat n) = false)
    (hwide : ∀ n ∈ wideBlanks, p (Char.ofNat n) = false) : Solid p := by
  intro c hc
  by_cases h : c.toNat < 128
  · exact forall_ascii (P := fun c => isBlank c = true → p c = false) hascii c h hc
  · have := hwide _ (mem_wideBlanks (Nat.le_of_not_lt h) hc)
    rwa [Char.ofNat_toNat] at this

theorem solid_isWord : Solid isWord := fun c hc => Bool.eq_false_iff.2 fun hword => by
  have hbare := isBare_of_isWord hword
  simp [isBare, isMark, hc] at hbare

theorem solid_isDigit : Solid isDigit := solid_of (by decide +kernel) (by decide +kernel)

theorem Breaks.ne (h : Breaks rest) {d : Char} (hd : isBlank d = false) : rest.head? ≠ some d := by
  intro hhead
  rw [h d hhead] at hd
  exact absurd hd (by decide)

theorem Breaks.any (h : Breaks rest) (hp : Solid p) : rest.head?.any p = false := by
  cases rest with
  | nil => rfl
  | cons c cs => exact hp c (h c rfl)

theorem runLength_break (h : Breaks rest) (hp : Solid p) : runLength p rest = 0 := by
  have hhead := h.any hp
  cases rest with
  | nil => rfl
  | cons c cs => simp_all [runLength]

theorem runLength_take_append (hp : Solid p) (hrest : Breaks rest) (hk : runLength p t ≤ k) :
    runLength p (t.take k ++ rest) = runLength p t := by
  induction t generalizing k with
  | nil =>
    rw [List.take_nil, List.nil_append, runLength_break hrest hp]
    rfl
  | cons c cs ih =>
    by_cases hc : p c = true
    · have hlength : runLength p (c :: cs) = runLength p cs + 1 := by simp [runLength, hc]
      obtain ⟨j, rfl⟩ := Nat.exists_eq_add_of_le' (by omega : 1 ≤ k)
      have hj := ih (k := j) (by omega)
      simp_all [runLength]
    · cases k with
      | zero => simpa [runLength, hc] using runLength_break hrest hp
      | succ j => simp [runLength, hc]

theorem pathTail_break (h : Breaks rest) : pathTail rest = 0 := by
  cases rest with
  | nil => rfl
  | cons c cs =>
    have hpoint : c ≠ '.' := fun hc => h.ne (d := '.') (by decide) (by rw [hc]; rfl)
    have hword : isWord c = false := h.any solid_isWord
    exact pathTail_end (by simp [hword]) (by simp [hpoint])

/-- What follows a cut is seen only where the text goes on. -/
theorem any_head_take_append (hrest : Breaks rest) (hp : Solid p)
    (h : (t.take k ++ rest).head?.any p = true) : t.head?.any p = true := by
  cases t with
  | nil => simp [hrest.any hp] at h
  | cons c cs =>
    cases k with
    | zero => simp [hrest.any hp] at h
    | succ j => exact h

theorem pathTail_take_append (hrest : Breaks rest) (hk : pathTail t ≤ k) :
    pathTail (t.take k ++ rest) = pathTail t := by
  induction t generalizing k with
  | nil =>
    rw [List.take_nil, List.nil_append, pathTail_break hrest]
    rfl
  | cons c cs ih =>
    by_cases hword : isWord c = true
    · have hlength : pathTail (c :: cs) = 1 + pathTail cs := pathTail_word hword
      obtain ⟨j, rfl⟩ := Nat.exists_eq_add_of_le' (by omega : 1 ≤ k)
      rw [List.take_succ_cons, List.cons_append, pathTail_word hword, ih (by omega), hlength]
    · by_cases hpoint : (c = '.' && cs.head?.any isWord) = true
      · have hlength := pathTail_point hword hpoint
        have hnext : 1 ≤ pathTail cs := by
          cases cs with
          | nil => simp at hpoint
          | cons d ds =>
            have hd : isWord d = true := (Bool.and_eq_true_iff.1 hpoint).2
            rw [pathTail_word hd]
            omega
        obtain ⟨j, rfl⟩ := Nat.exists_eq_add_of_le' (by omega : 2 ≤ k)
        have hhead : (cs.take (j + 1) ++ rest).head?.any isWord = cs.head?.any isWord := by
          cases cs <;> simp_all
        have hgoes : (c = '.' && (cs.take (j + 1) ++ rest).head?.any isWord) = true := by
          rw [hhead]
          exact hpoint
        rw [List.take_succ_cons, List.cons_append, pathTail_point hword hgoes, ih (by omega),
          hlength]
      · have hlength := pathTail_end hword hpoint
        cases k with
        | zero => rw [List.take_zero, List.nil_append, pathTail_break hrest, hlength]
        | succ j =>
          have hend : ¬(c = '.' && (cs.take j ++ rest).head?.any isWord) = true := by
            intro h
            obtain ⟨hc, hhead⟩ := Bool.and_eq_true_iff.1 h
            have hnext := any_head_take_append hrest solid_isWord hhead
            exact hpoint (Bool.and_eq_true_iff.2 ⟨hc, hnext⟩)
          rw [List.take_succ_cons, List.cons_append, pathTail_end hword hend, hlength]

/-- A point and digits after it; nothing without them. -/
def fractionLength : Text → Nat
  | '.' :: cs => if runLength isDigit cs = 0 then 0 else 1 + runLength isDigit cs
  | _ => 0

theorem fractionLength_of_ne (h : t.head? ≠ some '.') : fractionLength t = 0 := by
  unfold fractionLength
  split
  · exact absurd rfl h
  · rfl

theorem numberTail_eq (t : Text) :
    numberTail t = runLength isDigit t + fractionLength (t.drop (runLength isDigit t)) := by
  simp only [numberTail]
  generalize t.drop (runLength isDigit t) = u
  cases u with
  | nil => rfl
  | cons c cs =>
    by_cases hc : c = '.'
    · subst hc
      simp only [fractionLength]
      split <;> omega
    · rw [fractionLength_of_ne (by simpa using hc), Nat.add_zero]
      simp [hc]

theorem fractionLength_take_append (hrest : Breaks rest) (hk : fractionLength t ≤ k) :
    fractionLength (t.take k ++ rest) = fractionLength t := by
  have hbreak : fractionLength rest = 0 := fractionLength_of_ne (hrest.ne (by decide))
  cases t with
  | nil =>
    rw [List.take_nil, List.nil_append, hbreak]
    rfl
  | cons c cs =>
    by_cases hc : c = '.'
    · subst hc
      cases k with
      | zero => rw [List.take_zero, List.nil_append, hbreak, Nat.le_zero.1 hk]
      | succ j =>
        have hrun : runLength isDigit cs ≤ j := by
          rw [fractionLength] at hk
          split at hk <;> omega
        rw [List.take_succ_cons, List.cons_append, fractionLength,
          runLength_take_append solid_isDigit hrest hrun, fractionLength]
    · have hzero : fractionLength (c :: cs) = 0 := fractionLength_of_ne (by simpa using hc)
      cases k with
      | zero => rw [List.take_zero, List.nil_append, hbreak, hzero]
      | succ j =>
        rw [List.take_succ_cons, List.cons_append, hzero]
        exact fractionLength_of_ne (by simpa using hc)

theorem numberTail_take_append (hrest : Breaks rest) (hk : numberTail t ≤ k) :
    numberTail (t.take k ++ rest) = numberTail t := by
  have hlength : runLength isDigit t ≤ t.length := List.Sublist.length_le (List.takeWhile_sublist _)
  rw [numberTail_eq] at hk
  have hdrop : (t.take k ++ rest).drop (runLength isDigit t) =
      (t.drop (runLength isDigit t)).take (k - runLength isDigit t) ++ rest := by
    rw [List.drop_append_of_le_length (by rw [List.length_take]; omega), List.drop_take]
  rw [numberTail_eq, numberTail_eq, runLength_take_append solid_isDigit hrest (by omega), hdrop,
    fractionLength_take_append hrest (by omega)]

theorem quotedLength?_cons (q c : Char) (t : Text) : quotedLength? q (c :: t) =
    if c = q then some 1
    else if c = '\\' then
      match t with
      | [] => none
      | d :: ds => if d = '\n' then none else (quotedLength? q ds).map (· + 2)
    else (quotedLength? q t).map (· + 1) := by
  cases t <;> rfl

theorem quotedLength?_within (hq : c ≠ q) (hc : c ≠ '\\') (t : Text) :
    quotedLength? q (c :: t) = (quotedLength? q t).map (· + 1) := by
  rw [quotedLength?_cons, if_neg hq, if_neg hc]

theorem quotedLength?_escaped (hq : q ≠ '\\') (hc : c ≠ '\n') (t : Text) :
    quotedLength? q ('\\' :: c :: t) = (quotedLength? q t).map (· + 2) := by
  rw [quotedLength?_cons, if_neg (Ne.symm hq), if_pos rfl]
  exact if_neg hc

theorem quotedLength?_of_closing (hq : q ≠ '\\') {r : Text} (hr : Closing q r) (t : Text) :
    quotedLength? q (r ++ t) = some r.length := by
  induction hr with
  | quote => exact (quotedLength?_cons q q t).trans (if_pos rfl)
  | plain other unescaped _ ih =>
    rw [List.cons_append, quotedLength?_within other unescaped, ih]
    rfl
  | escaped sameLine _ ih =>
    rw [List.cons_append, List.cons_append, quotedLength?_escaped hq sameLine, ih]
    rfl

theorem closing_of_quotedLength? (h : quotedLength? q t = some n) :
    ∃ r, Closing q r ∧ r <+: t ∧ r.length = n := by
  fun_induction quotedLength? q t generalizing n with
  | case1 => simp at h
  | case2 cs => exact ⟨[q], .quote, by simp, by simpa using h⟩
  | case3 => simp at h
  | case4 => simp at h
  | case5 d ds hline hq ih =>
    obtain ⟨m, hm, rfl⟩ := Option.map_eq_some_iff.1 h
    obtain ⟨r, hr, hbegins, rfl⟩ := ih hm
    exact ⟨'\\' :: d :: r, .escaped hline hr, by simpa using hbegins, rfl⟩
  | case6 c cs hc hne ih =>
    obtain ⟨m, hm, rfl⟩ := Option.map_eq_some_iff.1 h
    obtain ⟨r, hr, hbegins, rfl⟩ := ih hm
    exact ⟨c :: r, .plain hc hne hr, by simpa using hbegins, rfl⟩

theorem quotedLength?_take_append (hq : q ≠ '\\') (h : quotedLength? q t = some n) (hk : n ≤ k) :
    quotedLength? q (t.take k ++ rest) = some n := by
  obtain ⟨r, hr, ⟨after, rfl⟩, rfl⟩ := closing_of_quotedLength? h
  rw [List.take_append, List.take_of_length_le hk, List.append_assoc,
    quotedLength?_of_closing hq hr]

theorem Closing.getLast? {r : Text} (h : Closing q r) : r.getLast? = some q := by
  induction h with
  | quote => rfl
  | plain _ _ _ ih => rw [List.getLast?_cons, ih]; rfl
  | escaped _ _ ih => rw [List.getLast?_cons, List.getLast?_cons, ih]; rfl

/-- A text without the quote does not close a run that is open. -/
theorem quotedLength?_take_append_eq_none (hq : q ≠ '\\') (h : quotedLength? q t = none)
    (hrest : q ∉ rest) : quotedLength? q (t.take k ++ rest) = none := by
  rw [Option.eq_none_iff_forall_ne_some]
  intro n hlength
  obtain ⟨r, hr, hbegins, -⟩ := closing_of_quotedLength? hlength
  have hwithin : r <+: t.take k := by
    rcases List.prefix_or_prefix_of_prefix hbegins (List.prefix_append _ _) with hcut | ⟨s, rfl⟩
    · exact hcut
    · rw [List.prefix_append_right_inj] at hbegins
      cases s with
      | nil => simp
      | cons d ds =>
        have hlast := hr.getLast?
        rw [List.getLast?_append_cons] at hlast
        exact absurd (hbegins.subset (List.mem_of_getLast? hlast)) hrest
  obtain ⟨after, rfl⟩ := hwithin.trans (List.take_prefix k t)
  rw [quotedLength?_of_closing hq hr] at h
  exact absurd h (by simp)

/-- The second character goes on with the mark that the first one starts. -/
def Joins (c d : Char) : Prop :=
  c = '&' ∧ d = '&' ∨ c = '|' ∧ d = '|' ∨ (c = '=' ∨ c = '!' ∨ c = '>' ∨ c = '<') ∧ d = '='

theorem markAt_single (h : ∀ d, cs.head? = some d → ¬Joins c d) : markAt c cs = markAt c [] := by
  have hand : ¬(c = '&' ∧ cs.head? = some '&') := fun ⟨hc, hd⟩ => h _ hd (.inl ⟨hc, rfl⟩)
  have hor : ¬(c = '|' ∧ cs.head? = some '|') := fun ⟨hc, hd⟩ => h _ hd (.inr (.inl ⟨hc, rfl⟩))
  have hequal : ¬((c = '=' ∨ c = '!') ∧ cs.head? = some '=') := fun ⟨hc, hd⟩ =>
    h _ hd (.inr (.inr ⟨hc.imp_right .inl, rfl⟩))
  have horder : (c = '>' ∨ c = '<') → cs.head? ≠ some '=' := fun hc hd =>
    h _ hd (.inr (.inr ⟨.inr (.inr hc), rfl⟩))
  simp only [markAt, if_neg hand, if_neg hor, if_neg hequal]
  by_cases hc : c = '>' ∨ c = '<'
  · simp [hc, horder hc]
  · simp [hc]

theorem markAt_joined {d : Char} {ds : Text} (h : Joins c d) : 1 ≤ (markAt c (d :: ds)).2 := by
  rcases h with ⟨rfl, rfl⟩ | ⟨rfl, rfl⟩ | ⟨rfl | rfl | rfl | rfl, rfl⟩
  case inr.inr.inl | inr.inr.inr.inl =>
    simp only [markAt]
    rw [if_neg (by simp), if_neg (by simp), if_pos (by simp)]
    dsimp only
    split <;> decide
  all_goals exact Nat.le_refl 1

/-- Only a mark that an equals sign goes on with looks at a third character. -/
theorem markAt_congr {ds : Text} (hhead : cs.head? = ds.head?)
    (hnext : (c = '=' ∨ c = '!') ∧ ds.head? = some '=' →
      (cs.tail.head? = some '=' ↔ ds.tail.head? = some '=')) : markAt c cs = markAt c ds := by
  simp only [markAt, hhead]
  by_cases hequal : (c = '=' ∨ c = '!') ∧ ds.head? = some '='
  · simp only [hnext hequal]
  · simp only [if_neg hequal]

theorem markAt_two {ds : Text} (hc : c = '=' ∨ c = '!') (h : ds.head? = some '=') :
    (markAt c ('=' :: ds)).2 = 2 := by
  rcases hc with rfl | rfl <;> simp [markAt, h]

theorem markAt_take_append (hrest : Breaks rest) (hk : (markAt c cs).2 ≤ k) :
    markAt c (cs.take k ++ rest) = markAt c cs := by
  have hbreak : markAt c rest = markAt c [] := markAt_single fun d hd hjoins => by
    have hblank := hrest d hd
    rcases hjoins with ⟨-, rfl⟩ | ⟨-, rfl⟩ | ⟨-, rfl⟩ <;> exact absurd hblank (by decide)
  cases cs with
  | nil => rw [List.take_nil, List.nil_append, hbreak]
  | cons d ds =>
    by_cases hjoins : Joins c d
    · obtain ⟨j, rfl⟩ := Nat.exists_eq_add_of_le' (Nat.le_trans (markAt_joined hjoins) hk)
      refine markAt_congr rfl fun ⟨hc, hd⟩ => ?_
      obtain rfl : d = '=' := Option.some.inj hd
      -- a third equals sign belongs to the mark, so the cut is behind it
      have hlong (h : ds.head? = some '=') : 1 ≤ j := by
        rw [markAt_two hc h] at hk
        omega
      rw [List.take_succ_cons, List.cons_append, List.tail_cons, List.tail_cons]
      cases ds with
      | nil => simp [hrest.ne (d := '=') (by decide)]
      | cons e es =>
        cases j with
        | zero =>
          rw [List.take_zero, List.nil_append]
          exact iff_of_false (hrest.ne (by decide)) fun h => absurd (hlong h) (by decide)
        | succ i => rfl
    · have hsingle : markAt c (d :: ds) = markAt c [] :=
        markAt_single (by rintro _ ⟨⟩; exact hjoins)
      rw [hsingle]
      cases k with
      | zero => exact hbreak
      | succ j => exact markAt_single (by rintro _ ⟨⟩; exact hjoins)

theorem solid_isLatinStart : Solid isLatinStart := fun c hc => Bool.eq_false_iff.2 fun hstart => by
  have hword := solid_isWord c hc
  rw [isWord_of_isLatinStart hstart] at hword
  exact absurd hword (by decide)

theorem lexemeAt_dollar_eq (cs : Text) : lexemeAt '$' cs =
    if cs.head?.any isLatinStart then (some .path, 1 + pathTail cs.tail)
    else (some .unknown, 0) := by
  cases cs with
  | nil => rfl
  | cons d ds => exact lexemeAt_dollar d ds

theorem lexemeAt_dollar_take_append (hk : (lexemeAt '$' cs).2 ≤ k) (hrest : Breaks rest) :
    lexemeAt '$' (cs.take k ++ rest) = lexemeAt '$' cs := by
  rw [lexemeAt_dollar_eq cs] at hk ⊢
  rw [lexemeAt_dollar_eq]
  by_cases hstart : cs.head?.any isLatinStart = true
  · obtain ⟨d, hd, hletter⟩ := (Option.any_eq_true _ _).1 hstart
    obtain ⟨ds, rfl⟩ := List.head?_eq_some_iff.1 hd
    rw [if_pos hstart] at hk ⊢
    obtain ⟨j, rfl⟩ := Nat.exists_eq_add_of_le' (Nat.le_trans (Nat.le_add_right 1 _) hk)
    rw [List.take_succ_cons, List.cons_append, List.head?_cons, Option.any_some, if_pos hletter,
      List.tail_cons, List.tail_cons, pathTail_take_append hrest]
    rw [List.tail_cons] at hk
    dsimp only at hk
    omega
  · rw [if_neg hstart, if_neg fun h => hstart (any_head_take_append hrest solid_isLatinStart h)]

/-- A lexeme is read again where the text is cut off behind it, or goes on with a blank; after a
quote that nothing closes, nothing may close it behind the cut either. -/
theorem lexemeAt_take_append (hc : isBlank c = false) (hquote : isQuote c = true →
    (lexemeAt c cs).1 = some .string ∨ c ∉ rest) (hk : (lexemeAt c cs).2 ≤ k)
    (hrest : Breaks rest) : lexemeAt c (cs.take k ++ rest) = lexemeAt c cs := by
  by_cases hdollar : c = '$'
  · subst hdollar
    exact lexemeAt_dollar_take_append hk hrest
  unfold lexemeAt at hquote hk ⊢
  simp only [hc, Bool.false_eq_true, if_false] at hquote hk ⊢
  by_cases hopens : c = '\'' ∨ c = '"'
  · simp only [if_pos hopens] at hquote hk ⊢
    have hopen : isQuote c = true := by simpa [isQuote] using hopens
    have hbackslash := ne_backslash_of_isQuote hopen
    cases hlength : quotedLength? c cs with
    | none =>
      have hrest : c ∉ rest := by simpa [hlength] using hquote hopen
      rw [quotedLength?_take_append_eq_none hbackslash hlength hrest]
    | some n =>
      rw [hlength] at hk
      rw [quotedLength?_take_append hbackslash hlength hk]
  · simp only [if_neg hopens] at hk ⊢
    by_cases hdigit : isDigit c = true
    · simp only [hdigit, if_true] at hk ⊢
      rw [numberTail_take_append hrest hk]
    · by_cases hletter : isLatinStart c = true
      · simp only [hdigit, hletter, Bool.false_eq_true, if_false, if_true] at hk ⊢
        rw [pathTail_take_append hrest hk]
      · simp only [hdigit, hletter, Bool.false_eq_true, if_false] at hk ⊢
        simp only [if_neg hdollar] at hk ⊢
        exact markAt_take_append hrest hk

theorem pathTail_le (t : Text) : pathTail t ≤ t.length := by
  fun_induction pathTail t with
  | case1 => exact Nat.le_refl 0
  | case2 c cs _ ih => rw [List.length_cons]; omega
  | case3 c cs _ _ ih => rw [List.length_cons]; omega
  | case4 c cs => exact Nat.zero_le _

theorem runLength_le (p : Char → Bool) (t : Text) : runLength p t ≤ t.length :=
  List.Sublist.length_le (List.takeWhile_sublist _)

theorem fractionLength_le (t : Text) : fractionLength t ≤ t.length := by
  unfold fractionLength
  split
  · rename_i cs
    have := runLength_le isDigit cs
    rw [List.length_cons]
    split <;> omega
  · exact Nat.zero_le _

theorem numberTail_le (t : Text) : numberTail t ≤ t.length := by
  have hwhole := runLength_le isDigit t
  have hfraction := fractionLength_le (t.drop (runLength isDigit t))
  rw [List.length_drop] at hfraction
  rw [numberTail_eq]
  omega

theorem quotedLength?_le (h : quotedLength? q t = some n) : n ≤ t.length := by
  obtain ⟨r, -, hbegins, rfl⟩ := closing_of_quotedLength? h
  exact hbegins.length_le

def Within (cs : Text) (l : Lexeme) : Prop := l.2 ≤ cs.length

theorem within_markAt (c : Char) (cs : Text) : Within cs (markAt c cs) := by
  have hnext {d : Char} (h : cs.head? = some d) : 1 ≤ cs.length := by
    obtain ⟨ds, rfl⟩ := List.head?_eq_some_iff.1 h
    exact Nat.le_add_left 1 _
  unfold markAt
  refine iteInduction (motive := Within cs) (fun h => hnext h.2) fun _ => ?_
  refine iteInduction (motive := Within cs) (fun h => hnext h.2) fun _ => ?_
  refine iteInduction (motive := Within cs) (fun h => ?_) fun _ => ?_
  · have hone := hnext h.2
    rw [Within]
    split
    · rename_i hthird
      obtain ⟨es, hes⟩ := List.head?_eq_some_iff.1 hthird
      have := congrArg List.length hes
      rw [List.length_tail, List.length_cons] at this
      omega
    · exact hone
  refine iteInduction (motive := Within cs) (fun _ => ?_) fun _ => ?_
  · rw [Within]
    split
    · exact hnext ‹_›
    · exact Nat.zero_le _
  repeat' refine iteInduction (motive := Within cs) (fun _ => Nat.zero_le _) fun _ => ?_
  exact Nat.zero_le _

theorem lexemeAt_le (c : Char) (cs : Text) : (lexemeAt c cs).2 ≤ cs.length := by
  by_cases hdollar : c = '$'
  · rw [hdollar, lexemeAt_dollar_eq]
    split
    · rename_i hstart
      obtain ⟨d, hd, -⟩ := (Option.any_eq_true _ _).1 hstart
      obtain ⟨ds, rfl⟩ := List.head?_eq_some_iff.1 hd
      have := pathTail_le ds
      simp only [List.tail_cons, List.length_cons]
      omega
    · exact Nat.zero_le _
  · unfold lexemeAt
    simp only [if_neg hdollar]
    split
    · exact runLength_le _ _
    · split
      · split
        · rename_i hlength
          exact quotedLength?_le hlength
        · exact Nat.zero_le _
      · split
        · exact numberTail_le cs
        · split
          · exact pathTail_le cs
          · exact within_markAt c cs

end LightningTemplate.Expression
