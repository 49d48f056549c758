import LightningTemplate.Expression.Scan

/-! How expressions are written, said without a scan.  Between the sign and the closing brace
stand quoted runs and other characters, of which none is a quote or a closing brace
(`InnerText`).  The scan finds an expression at the start of a text just when one is written
there (`expressionAt?_eq_some_iff`), so one text never starts with two expressions. -/
namespace LightningTemplate.Expression

variable {q sign : Char} {t rest inner : Text} {runs : List Text}

/-- What follows an opening quote, the closing one included: a backslash protects the character
after it, which may be anything but a line feed. -/
inductive Closing (q : Char) : Text → Prop
  | quote : Closing q [q]
  | plain {c : Char} {t : Text} (other : c ≠ q) (unescaped : c ≠ '\\') (more : Closing q t) :
      Closing q (c :: t)
  | escaped {c : Char} {t : Text} (sameLine : c ≠ '\n') (more : Closing q t) :
      Closing q ('\\' :: c :: t)

/-- The inner text of an expression, with its quoted runs from left to right. -/
inductive InnerText : Text → List Text → Prop
  | nil : InnerText [] []
  | plain {c : Char} {t : Text} {runs : List Text} (inside : c ≠ '}') (unquoted : isQuote c = false)
      (more : InnerText t runs) : InnerText (c :: t) runs
  | quoted {q : Char} {r t : Text} {runs : List Text} (opening : isQuote q = true)
      (run : Closing q r) (more : InnerText t runs) :
      InnerText (q :: (r ++ t)) ((q :: r) :: runs)

def Forms (sign : Char) (inner : Text) : Prop := isSign sign = true ∧ ∃ runs, InnerText inner runs

def IsExpression (t : Text) : Prop :=
  ∃ sign inner, Forms sign inner ∧ t = (Piece.expression sign inner).source

theorem ne_backslash_of_isQuote (h : isQuote q = true) : q ≠ '\\' := by
  rintro rfl
  exact absurd h (by decide)

theorem ne_brace_of_isQuote (h : isQuote q = true) : q ≠ '}' := by
  rintro rfl
  exact absurd h (by decide)

theorem body?_quote (q : Char) (t : Text) :
    body? (some q) (q :: t) = (body? none t).map fun r => (q :: r.1, r.2) := by
  cases t <;> simp [body?]

theorem body?_within {c : Char} (hq : c ≠ q) (hc : c ≠ '\\') (t : Text) :
    body? (some q) (c :: t) = (body? (some q) t).map fun r => (c :: r.1, r.2) := by
  cases t <;> simp [body?, hq, hc]

theorem body?_closing (hq : q ≠ '\\') {r : Text} (hr : Closing q r)
    (ht : body? none t = some (inner, rest)) :
    body? (some q) (r ++ t) = some (r ++ inner, rest) := by
  induction hr with
  | quote => simp [body?_quote, ht]
  | plain other unescaped _ ih => simp [body?_within other unescaped, ih]
  | escaped sameLine _ ih => simp [body?, Ne.symm hq, sameLine, ih]

theorem body?_of_innerText (h : InnerText inner runs) (rest : Text) :
    body? none (inner ++ '}' :: rest) = some (inner, rest) := by
  induction h with
  | nil => simp [body?]
  | plain inside unquoted _ ih => simp [body?, inside, unquoted, ih]
  | quoted opening run _ ih =>
    have hrun := body?_closing (ne_backslash_of_isQuote opening) run ih
    simp [body?, ne_brace_of_isQuote opening, opening, hrun]

/-- What a scan has still to read, where a quote is open or none is. -/
def Remainder : Option Char → Text → Prop
  | none, inner => ∃ runs, InnerText inner runs
  | some q, inner => ∃ r t runs, inner = r ++ t ∧ Closing q r ∧ InnerText t runs

theorem remainder_of_body? {o : Option Char} (ho : ∀ q, o = some q → isQuote q = true)
    (h : body? o t = some (inner, rest)) : Remainder o inner := by
  fun_induction body? o t generalizing inner rest with
  | case1 => simp at h
  | case2 cs =>
    obtain ⟨rfl, -⟩ := Prod.mk.inj (Option.some.inj h)
    exact ⟨[], .nil⟩
  | case3 c cs hbrace ih =>
    obtain ⟨⟨more, after⟩, hbody, heq⟩ := Option.map_eq_some_iff.1 h
    obtain ⟨rfl, -⟩ := Prod.mk.inj heq
    by_cases hc : isQuote c = true
    · simp only [hc, if_true] at ih hbody
      obtain ⟨r, t, runs, rfl, hr, ht⟩ := ih (by rintro q ⟨⟩; exact hc) hbody
      exact ⟨_, .quoted hc hr ht⟩
    · simp only [hc, Bool.false_eq_true, if_false] at ih hbody
      obtain ⟨runs, ht⟩ := ih (by rintro q ⟨⟩) hbody
      exact ⟨_, .plain hbrace (Bool.eq_false_iff.2 hc) ht⟩
  | case4 q cs ih =>
    obtain ⟨⟨more, after⟩, hbody, heq⟩ := Option.map_eq_some_iff.1 h
    obtain ⟨rfl, -⟩ := Prod.mk.inj heq
    obtain ⟨runs, ht⟩ := ih (by rintro q ⟨⟩) hbody
    exact ⟨[q], more, runs, rfl, .quote, ht⟩
  | case5 => simp at h
  | case6 => simp at h
  | case7 q d ds hline hq ih =>
    obtain ⟨⟨more, after⟩, hbody, heq⟩ := Option.map_eq_some_iff.1 h
    obtain ⟨rfl, -⟩ := Prod.mk.inj heq
    obtain ⟨r, t, runs, rfl, hr, ht⟩ := ih ho hbody
    exact ⟨_, t, runs, rfl, .escaped hline hr, ht⟩
  | case8 q c cs hq hc ih =>
    obtain ⟨⟨more, after⟩, hbody, heq⟩ := Option.map_eq_some_iff.1 h
    obtain ⟨rfl, -⟩ := Prod.mk.inj heq
    obtain ⟨r, t, runs, rfl, hr, ht⟩ := ih ho hbody
    exact ⟨_, t, runs, rfl, .plain hq hc hr, ht⟩

theorem expressionAt?_eq_some_iff : expressionAt? t = some (.expression sign inner, rest) ↔
    Forms sign inner ∧ t = (Piece.expression sign inner).source ++ rest := by
  constructor
  · intro h
    have hsource := expressionAt?_source h
    unfold expressionAt? at h
    split at h
    · split at h
      · rename_i hsign
        obtain ⟨⟨more, after⟩, hbody, heq⟩ := Option.map_eq_some_iff.1 h
        obtain ⟨hpiece, -⟩ := Prod.mk.inj heq
        obtain ⟨rfl, rfl⟩ := Piece.expression.inj hpiece
        exact ⟨⟨hsign, remainder_of_body? (by rintro q ⟨⟩) hbody⟩, hsource.symm⟩
      · simp at h
    · simp at h
  · rintro ⟨⟨hsign, runs, hinner⟩, rfl⟩
    simp [Piece.source, expressionAt?, hsign, body?_of_innerText hinner]

theorem exists_expression_of_expressionAt? {p : Piece} (h : expressionAt? t = some (p, rest)) :
    ∃ sign inner, p = .expression sign inner := by
  unfold expressionAt? at h
  split at h
  · split at h
    · obtain ⟨r, -, heq⟩ := Option.map_eq_some_iff.1 h
      exact ⟨_, _, (Prod.mk.inj heq).1.symm⟩
    · simp at h
  · simp at h

theorem expressionAt?_eq_none_iff : expressionAt? t = none ↔ ∀ e, IsExpression e → ¬e <+: t := by
  constructor
  · rintro h e ⟨sign, inner, hforms, rfl⟩ ⟨rest, rfl⟩
    rw [expressionAt?_eq_some_iff.2 ⟨hforms, rfl⟩] at h
    exact absurd h (by simp)
  · intro h
    rw [Option.eq_none_iff_forall_ne_some]
    rintro ⟨p, rest⟩ hp
    obtain ⟨sign, inner, rfl⟩ := exists_expression_of_expressionAt? hp
    obtain ⟨hforms, rfl⟩ := expressionAt?_eq_some_iff.1 hp
    exact h _ ⟨sign, inner, hforms, rfl⟩ (List.prefix_append _ _)

end LightningTemplate.Expression
