import LightningTemplate.Proofs.TokenForm

/-! Tokens do not depend on the blanks around and between them, and nothing else stands between them:
a text is the values of its tokens with blanks in the gaps.  In the inner text of an expression the
tokens that are strings are the quoted runs, and all others are free of quotes and braces; so the
values of its tokens, with blanks between them, have the same tokens once more, and the text is taken
for the same. -/
namespace LightningTemplate.Expression
open Text

variable {c q sign : Char} {t cs rest gap inner : Text} {runs : List Text} {k : Nat} {tok : Token}

theorem isBlank_of_tokenAt (h : tokenAt c cs = some tok) : isBlank c = false := by
  rw [← Bool.not_eq_true]
  intro hblank
  rw [tokenAt, lexemeAt_fst_eq_none.2 hblank] at h
  exact absurd h (by simp)

theorem value_of_tokenAt (h : tokenAt c cs = some tok) :
    tok.value = c :: cs.take (lexemeAt c cs).2 := by
  obtain ⟨kind, -, rfl⟩ := Option.map_eq_some_iff.1 h
  exact Token.value_ofValue _ _

/-- The first token stays where the text is cut behind it and goes on otherwise. -/
theorem tokens_take_append (htok : tokenAt c cs = some tok)
    (hquote : isQuote c = true → (lexemeAt c cs).1 = some .string ∨ c ∉ rest)
    (hk : (lexemeAt c cs).2 ≤ k) (hrest : Breaks rest) :
    tokens (c :: (cs.take k ++ rest)) =
      tok :: tokens ((cs.take k).drop (lexemeAt c cs).2 ++ rest) := by
  have hlexeme := lexemeAt_take_append (isBlank_of_tokenAt htok) hquote hk hrest
  have hlength : (lexemeAt c cs).2 ≤ (cs.take k).length := by
    rw [List.length_take]
    exact Nat.le_min.2 ⟨hk, lexemeAt_le c cs⟩
  rw [tokens_cons, tokenAt, hlexeme, List.take_append_of_le_length hlength, List.take_take,
    Nat.min_eq_left hk, ← tokenAt, htok, List.drop_append_of_le_length hlength]
  rfl

theorem not_mem_blanks (hq : isQuote q = true) (hgap : isAllBlank gap = true) : q ∉ gap := by
  intro hmem
  have hblank := List.all_eq_true.1 hgap q hmem
  have : q = '\'' ∨ q = '"' := by simpa [isQuote] using hq
  rcases this with rfl | rfl <;> exact absurd hblank (by decide)

theorem tokens_append_blank (hgap : isAllBlank gap = true) (t : Text) :
    tokens (t ++ gap) = tokens t := by
  induction hn : t.length using Nat.strong_induction_on generalizing t with
  | _ n ih =>
    subst hn
    cases t with
    | nil => rw [List.nil_append, ← List.append_nil gap, tokens_blank_append hgap]
    | cons c cs =>
      cases htok : tokenAt c cs with
      | none =>
        have hc : isAllBlank [c] = true := by
          rw [tokenAt, Option.map_eq_none_iff, lexemeAt_fst_eq_none] at htok
          simp [isAllBlank, htok]
        calc
          tokens (c :: cs ++ gap) = tokens ([c] ++ (cs ++ gap)) := rfl
          _ = tokens cs := by
            rw [tokens_blank_append hc, ih cs.length (by simp) cs rfl]
          _ = tokens (c :: cs) := (tokens_blank_append hc cs).symm
      | some tok =>
        have hcut := tokens_take_append htok (fun hq => .inr (not_mem_blanks hq hgap))
          (lexemeAt_le c cs) (breaks_of_isAllBlank hgap)
        have hshort : (cs.drop (lexemeAt c cs).2).length < (c :: cs).length := by
          rw [List.length_drop, List.length_cons]
          omega
        rw [List.take_length] at hcut
        rw [List.cons_append, hcut, ih _ hshort _ rfl, tokens_cons, htok]
        rfl

theorem tokens_strip (t : Text) : tokens (strip t) = tokens t := by
  obtain ⟨before, after, hbefore, hafter, ht⟩ := exists_strip t
  conv_rhs => rw [ht]
  rw [tokens_blank_append hbefore, tokens_append_blank hafter]

/-- The token is read somewhere, and if a quote opens it, the quote is closed. -/
def Closed (tok : Token) : Prop :=
  ∃ c cs, tokenAt c cs = some tok ∧ (isQuote c = true → (lexemeAt c cs).1 = some .string)

/-- A token is read again where a blank or nothing follows its value; a quote that nothing closed
must not be closed by what follows it either. -/
theorem tokens_value_append_of (htok : tokenAt c cs = some tok)
    (hquote : isQuote c = true → (lexemeAt c cs).1 = some .string ∨ c ∉ rest) (hrest : Breaks rest) :
    tokens (tok.value ++ rest) = tok :: tokens rest := by
  have hcut := tokens_take_append htok hquote (Nat.le_refl _) hrest
  rw [value_of_tokenAt htok, List.cons_append, hcut, List.drop_eq_nil_of_le (List.length_take_le _ _),
    List.nil_append]

theorem tokens_value_append (h : Closed tok) (hrest : Breaks rest) :
    tokens (tok.value ++ rest) = tok :: tokens rest := by
  obtain ⟨c, cs, htok, hquote⟩ := h
  exact tokens_value_append_of htok (fun hq => .inl (hquote hq)) hrest

theorem breaks_append (hne : gap ≠ []) (hgap : isAllBlank gap = true) : Breaks (gap ++ rest) := by
  obtain ⟨c, cs, rfl⟩ := List.exists_cons_of_ne_nil hne
  intro d hd
  obtain rfl : c = d := Option.some.inj hd
  exact List.all_eq_true.1 hgap c List.mem_cons_self

theorem tokens_join (hne : gap ≠ []) (hgap : isAllBlank gap = true) {toks : List Token}
    (h : ∀ tok ∈ toks, Closed tok) : tokens (join gap (toks.map (·.value))) = toks := by
  induction toks with
  | nil => rfl
  | cons tok toks ih =>
    obtain ⟨htok, htoks⟩ := List.forall_mem_cons.1 h
    cases toks with
    | nil =>
      have hlast : tokens (tok.value ++ []) = [tok] := tokens_value_append htok breaks_nil
      simpa [join, List.intercalate] using hlast
    | cons next toks =>
      rw [List.map_cons, List.map_cons, join_cons_cons,
        tokens_value_append htok (breaks_append hne hgap), tokens_blank_append hgap]
      exact congrArg (tok :: ·) (ih htoks)

/-- The values in order, with blanks or nothing before, between and after them, are the text. -/
inductive LaidOut : List Text → Text → Prop
  | nil {gap : Text} (blank : isAllBlank gap = true) : LaidOut [] gap
  | cons {gap value rest : Text} {values : List Text} (blank : isAllBlank gap = true)
      (others : LaidOut values rest) : LaidOut (value :: values) (gap ++ (value ++ rest))

theorem laidOut_of_tokens {toks : List Token} (h : tokens t = toks) :
    LaidOut (toks.map (·.value)) t := by
  induction toks generalizing t with
  | nil => exact .nil (isAllBlank_of_tokens h)
  | cons tok toks ih =>
    obtain ⟨gap, c, cs, hgap, rfl, htok, hothers⟩ := tokens_eq_cons h
    have hsplit : c :: cs = tok.value ++ cs.drop (lexemeAt c cs).2 := by
      rw [value_of_tokenAt htok, List.cons_append, List.take_append_drop]
    rw [hsplit]
    exact .cons hgap (ih hothers)

/-- The lexer loses nothing but blanks: its tokens, none of them empty, make up the text with blanks
between them, and the value of each is read as that token once more. -/
theorem tokens_lose_nothing (t : Text) : LaidOut ((tokens t).map (·.value)) t ∧
    ∀ tok ∈ tokens t, tok.value ≠ [] ∧ tokens tok.value = [tok] := by
  refine ⟨laidOut_of_tokens rfl, fun tok hmem => ?_⟩
  obtain ⟨c, cs, htok⟩ := exists_tokenAt hmem
  have hread := tokens_value_append_of htok (fun _ => .inr List.not_mem_nil) breaks_nil
  rw [List.append_nil] at hread
  exact ⟨by simp [value_of_tokenAt htok], hread⟩

def stringValues (toks : List Token) : List Text := (toks.filter (·.kind == .string)).map (·.value)

/-- Only a string, or a quote alone, starts with a quote; no other token has one. -/
theorem IsToken.unquoted (h : IsToken tok) (hhead : tok.value.head?.any isQuote = false) :
    tok.kind ≠ .string ∧ ∀ d ∈ tok.value, isQuote d = false := by
  have hclass {p : Char → Bool} (hsingle : p '\'' = false) (hdouble : p '"' = false) {d : Char}
      (hd : p d = true) : isQuote d = false := by
    rw [isQuote, Bool.or_eq_false_iff, beq_eq_false_iff_ne, beq_eq_false_iff_ne]
    constructor <;> rintro rfl
    · exact absurd (hd.symm.trans hsingle) (by decide)
    · exact absurd (hd.symm.trans hdouble) (by decide)
  cases h with
  | quoted opening => exact absurd (hhead.symm.trans opening) (by decide)
  | number digits =>
    refine ⟨by simp, fun d hd => ?_⟩
    rcases digits d hd with hdigit | rfl
    · exact hclass (p := isDigit) (by decide) (by decide) hdigit
    · decide
  | word spelled =>
    have hwords : ∀ w ∈ operatorWords, w.all (!isQuote ·) := by decide
    refine ⟨by simp, fun d hd => ?_⟩
    simpa using List.all_eq_true.1 (hwords _ (List.contains_iff_mem.1 spelled)) d hd
  | path chars =>
    exact ⟨by simp, fun d hd => hclass (by decide) (by decide) (chars d hd)⟩
  | mark listed =>
    have hmarks : ∀ m ∈ markTable, m.2 ≠ .string ∧ m.1.all (!isQuote ·) := by decide
    obtain ⟨hkind, hvalue⟩ := hmarks _ listed
    exact ⟨hkind, fun d hd => by simpa using List.all_eq_true.1 hvalue d hd⟩
  | other unlisted => exact ⟨by simp, List.forall_mem_singleton.2 hhead⟩

/-- What has no quotes is passed over character by character. -/
theorem InnerText.drop {a b : Text} (h : InnerText (a ++ b) runs)
    (ha : ∀ d ∈ a, isQuote d = false) : InnerText b runs ∧ '}' ∉ a := by
  induction a with
  | nil => exact ⟨h, List.not_mem_nil⟩
  | cons d ds ih =>
    obtain ⟨hd, hds⟩ := List.forall_mem_cons.1 ha
    rw [List.cons_append] at h
    generalize hu : ds ++ b = u at h
    cases h with
    | plain inside unquoted more =>
      obtain ⟨hb, hbrace⟩ := ih (hu ▸ more) hds
      exact ⟨hb, by simp [Ne.symm inside, hbrace]⟩
    | quoted opening => exact absurd (hd.symm.trans opening) (by decide)

/-- What the tokens of an inner text are: those that are strings, and what the others hold. -/
def Agrees (runs : List Text) (toks : List Token) : Prop :=
  stringValues toks = runs ∧ ∀ tok ∈ toks, Closed tok ∧
    (tok.kind ≠ .string → ∀ d ∈ tok.value, isQuote d = false ∧ d ≠ '}')

theorem Agrees.string {toks : List Token} {r : Text} (h : Agrees runs toks)
    (hr : Closed ⟨.string, r⟩) : Agrees (r :: runs) (⟨.string, r⟩ :: toks) := by
  obtain ⟨rfl, htoks⟩ := h
  exact ⟨rfl, List.forall_mem_cons.2 ⟨⟨hr, fun hne => absurd rfl hne⟩, htoks⟩⟩

theorem Agrees.cons {toks : List Token} (h : Agrees runs toks) (hclosed : Closed tok)
    (hkind : tok.kind ≠ .string) (hvalue : ∀ d ∈ tok.value, isQuote d = false ∧ d ≠ '}') :
    Agrees runs (tok :: toks) := by
  obtain ⟨hruns, htoks⟩ := h
  refine ⟨?_, List.forall_mem_cons.2 ⟨⟨hclosed, fun _ => hvalue⟩, htoks⟩⟩
  rw [stringValues, List.filter_cons_of_neg (by simpa using hkind)]
  exact hruns

theorem lexemeAt_quoted {r : Text} (hq : isQuote q = true) (hr : Closing q r) (t : Text) :
    lexemeAt q (r ++ t) = (some .string, r.length) := by
  have hopens : q = '\'' ∨ q = '"' := by simpa [isQuote] using hq
  have hblank : isBlank q = false := by rcases hopens with rfl | rfl <;> decide
  unfold lexemeAt
  rw [hblank, if_neg (by decide), if_pos hopens,
    quotedLength?_of_closing (ne_backslash_of_isQuote hq) hr]

theorem agrees_of_innerText (h : InnerText inner runs) : Agrees runs (tokens inner) := by
  induction hn : inner.length using Nat.strong_induction_on generalizing inner runs with
  | _ n ih =>
    subst hn
    cases h with
    | nil => exact ⟨rfl, by simp [tokens, tokensFrom]⟩
    | @plain c t _ inside unquoted more =>
      cases htok : tokenAt c t with
      | none =>
        have hc : isAllBlank [c] = true := by
          rw [tokenAt, Option.map_eq_none_iff, lexemeAt_fst_eq_none] at htok
          simp [isAllBlank, htok]
        rw [← List.singleton_append, tokens_blank_append hc]
        exact ih t.length (by simp) more rfl
      | some tok =>
        have hvalue := value_of_tokenAt htok
        obtain ⟨hkind, hfree⟩ := (isToken_of_tokenAt htok).unquoted (by rw [hvalue]; exact unquoted)
        have hread := hfree
        rw [hvalue, List.forall_mem_cons] at hread
        rw [← List.take_append_drop (lexemeAt c t).2 t] at more
        obtain ⟨hrest, hbrace⟩ := more.drop hread.2
        have hshort : (t.drop (lexemeAt c t).2).length < (c :: t).length := by
          rw [List.length_drop, List.length_cons]
          omega
        rw [tokens_cons, htok]
        refine (ih _ hshort hrest rfl).cons ⟨c, t, htok, fun hq => ?_⟩ hkind
          fun d hd => ⟨hfree d hd, ?_⟩
        · exact absurd (unquoted.symm.trans hq) (by decide)
        · rintro rfl
          rw [hvalue, List.mem_cons] at hd
          rcases hd with hd | hd
          · exact inside hd.symm
          · exact hbrace hd
    | @quoted q r t runs opening run more =>
      have hlex := lexemeAt_quoted opening run t
      have htok : tokenAt q (r ++ t) = some ⟨.string, q :: r⟩ := by
        rw [tokenAt, hlex, List.take_left, Option.map_some]
        rfl
      have hshort : t.length < (q :: (r ++ t)).length := by
        rw [List.length_cons, List.length_append]
        omega
      rw [tokens_cons, htok, hlex, List.drop_left]
      exact (ih _ hshort more rfl).string ⟨q, r ++ t, htok, fun _ => by rw [hlex]⟩

theorem classify_congr {a b : Text} (h : tokens a = tokens b) :
    (classify a).kind = (classify b).kind ∧ (classify a).negated = (classify b).negated := by
  simp only [classify, tokens_strip, h]
  generalize tokens b = toks
  split
  · exact ⟨rfl, rfl⟩
  · exact ⟨rfl, rfl⟩
  · split <;> exact ⟨rfl, rfl⟩

/-- The scan and the lexer agree on the inner text of an expression: its strings are the quoted
runs, no other token has a quote or a closing brace, and new blanks between the tokens change
neither them nor what the text is taken for. -/
theorem tokens_of_scanned (h : expressionAt? t = some (.expression sign inner, rest)) :
    (∀ runs, InnerText inner runs ↔ stringValues (tokens inner) = runs) ∧
      (∀ tok ∈ tokens inner, tok.kind ≠ .string → ∀ d ∈ tok.value, isQuote d = false ∧ d ≠ '}') ∧
      ∀ gap, gap ≠ [] → isAllBlank gap = true →
        let spaced := join gap ((tokens inner).map (·.value))
        tokens spaced = tokens inner ∧ (classify spaced).kind = (classify inner).kind ∧
          (classify spaced).negated = (classify inner).negated := by
  obtain ⟨⟨-, runs, hinner⟩, -⟩ := expressionAt?_eq_some_iff.1 h
  obtain ⟨hruns, htoks⟩ := agrees_of_innerText hinner
  refine ⟨fun runs' => ⟨fun h' => (agrees_of_innerText h').1, ?_⟩,
    fun tok htok => (htoks tok htok).2, fun gap hne hgap => ?_⟩
  · rintro rfl
    rwa [hruns]
  · have hjoin := tokens_join hne hgap fun tok htok => (htoks tok htok).1
    exact ⟨hjoin, classify_congr hjoin⟩

/-- A brace in one string and an escaped quote in another. -/
def quotedSample : Text := "!v.a == '\x7d' ? \"x\\\"y\" : v.b".toList

theorem tokens_of_scanned_quoted :
    InnerText quotedSample ["'\x7d'".toList, "\"x\\\"y\"".toList] ∧
      tokens (join [' '] ((tokens quotedSample).map (·.value))) = tokens quotedSample := by
  have h : expressionAt? (Piece.expression '!' quotedSample).source =
      some (.expression '!' quotedSample, []) := by decide +kernel
  obtain ⟨hstrings, -, hspacing⟩ := tokens_of_scanned h
  exact ⟨(hstrings _).2 (by decide +kernel), (hspacing [' '] (by decide) (by decide +kernel)).1⟩

end LightningTemplate.Expression
