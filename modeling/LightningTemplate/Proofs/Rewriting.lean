import LightningTemplate.Expression.Mention
import LightningTemplate.Proofs.Classification
import LightningTemplate.Proofs.Hoisting
import LightningTemplate.Proofs.Substituted

/-! What becomes of a text whose expressions are rewritten.  The text is cut at its expressions,
each the first one that can be read after the one before (`Leftmost`); they are replaced one by
one, and what stands between them stays (`Rewritten`).  A replacement never is what it replaces,
so only a text without expressions comes out as it went in. -/
namespace LightningTemplate
open Text

namespace Expression

variable {t : Text}

/-- An expression of a text, with what stands between it and the next one. -/
structure Found where
  sign : Char
  inner : Text
  after : Text

def Found.written (f : Found) : Text := (Piece.expression f.sign f.inner).source

def rejoined (found : List Found) : Text := found.flatMap fun f => f.written ++ f.after

/-- No expression starts within the first text, whose continuation is the second. -/
def NoneStarts (stretch rest : Text) : Prop :=
  ∀ a b, stretch = a ++ b → b ≠ [] → ∀ e, IsExpression e → ¬e <+: b ++ rest

/-- The text, cut into what stands before all expressions and the expressions from left to
right, of which none starts in between. -/
structure Leftmost (t first : Text) (found : List Found) : Prop where
  whole : t = first ++ rejoined found
  expressions : ∀ f ∈ found, Forms f.sign f.inner
  before : NoneStarts first (rejoined found)
  between : ∀ earlier f later, found = earlier ++ f :: later → NoneStarts f.after (rejoined later)

/-- A text is empty, or starts with a character at which no expression starts, or with an
expression. -/
theorem scan_induction {P : Text → Prop} (nil : P [])
    (char : ∀ c cs, expressionAt? (c :: cs) = none → P cs → P (c :: cs))
    (expression : ∀ t sign inner rest,
      expressionAt? t = some (.expression sign inner, rest) → P rest → P t) (t : Text) : P t := by
  induction hn : t.length using Nat.strongRecOn generalizing t with
  | ind n ih =>
    cases t with
    | nil => exact nil
    | cons c cs =>
      cases he : expressionAt? (c :: cs) with
      | none => exact char c cs he (ih cs.length (by simp [← hn]) cs rfl)
      | some r =>
        obtain ⟨p, rest⟩ := r
        obtain ⟨sign, inner, rfl⟩ := exists_expression_of_expressionAt? he
        have hlength := congrArg List.length (expressionAt?_source he)
        refine expression _ sign inner rest he (ih rest.length ?_ rest rfl)
        rw [List.length_append, hn] at hlength
        simp only [Piece.source, List.length_cons] at hlength
        omega

/-- Pieces as expressions, with the characters between these put together. -/
def stretches : List Piece → Text × List Found
  | [] => ([], [])
  | .char c :: ps => (c :: (stretches ps).1, (stretches ps).2)
  | .expression sign inner :: ps => ([], ⟨sign, inner, (stretches ps).1⟩ :: (stretches ps).2)

theorem leftmost_stretches (t : Text) :
    Leftmost t (stretches (pieces t)).1 (stretches (pieces t)).2 := by
  induction t using scan_induction with
  | nil =>
    refine ⟨rfl, ?_, ?_, ?_⟩
    · simp [pieces_nil, stretches]
    · intro a b h hb
      simp [pieces_nil, stretches] at h
      exact absurd h.2 hb
    · simp [pieces_nil, stretches]
  | char c cs he ih =>
    rw [pieces_char he, stretches]
    refine ⟨congrArg (c :: ·) ih.whole, ih.expressions, ?_, ih.between⟩
    intro a b h hb
    cases a with
    | nil =>
      rw [List.nil_append] at h
      rw [← h, List.cons_append, ← ih.whole]
      exact expressionAt?_eq_none_iff.1 he
    | cons d a => exact ih.before a b (List.cons.inj h).2 hb
  | expression t sign inner rest he ih =>
    obtain ⟨hforms, ht⟩ := expressionAt?_eq_some_iff.1 he
    rw [pieces_expression he, stretches]
    generalize stretches (pieces rest) = cut at ih ⊢
    refine ⟨?_, ?_, ?_, ?_⟩
    · calc
        t = (Piece.expression sign inner).source ++ rest := ht
        _ = (Piece.expression sign inner).source ++ (cut.1 ++ rejoined cut.2) := by rw [← ih.whole]
        _ = [] ++ rejoined (⟨sign, inner, cut.1⟩ :: cut.2) := by simp [rejoined, Found.written]
    · exact List.forall_mem_cons.2 ⟨hforms, ih.expressions⟩
    · intro a b h hb
      exact absurd (List.append_eq_nil_iff.1 h.symm).2 hb
    · intro earlier f later h
      cases earlier with
      | nil =>
        obtain ⟨rfl, rfl⟩ := List.cons.inj h
        exact ih.before
      | cons _ earlier => exact ih.between earlier f later (List.cons.inj h).2

theorem Leftmost.tail {f : Found} {found : List Found} (h : Leftmost t [] (f :: found)) :
    Leftmost (f.after ++ rejoined found) f.after found where
  whole := rfl
  expressions g hg := h.expressions g (List.mem_cons_of_mem _ hg)
  before := h.between [] f found rfl
  between earlier g later hg := h.between (f :: earlier) g later (congrArg (f :: ·) hg)

theorem Leftmost.eq_stretches {first : Text} {found : List Found} (h : Leftmost t first found) :
    (first, found) = stretches (pieces t) := by
  induction t using scan_induction generalizing first found with
  | nil =>
    obtain ⟨rfl, hrest⟩ := List.append_eq_nil_iff.1 h.whole.symm
    cases found with
    | nil => rfl
    | cons f found => simp [rejoined, Found.written, Piece.source] at hrest
  | char c cs he ih =>
    cases first with
    | nil =>
      -- an expression would start at the character
      cases found with
      | nil => exact absurd h.whole (by simp [rejoined])
      | cons f found =>
        have hf : IsExpression f.written :=
          ⟨f.sign, f.inner, h.expressions f List.mem_cons_self, rfl⟩
        refine absurd ?_ (expressionAt?_eq_none_iff.1 he _ hf)
        rw [h.whole]
        exact ⟨f.after ++ rejoined found, by simp [rejoined]⟩
    | cons d first =>
      obtain ⟨rfl, hcs⟩ := List.cons.inj h.whole
      have hrest : Leftmost cs first found :=
        ⟨hcs, h.expressions, fun a b hab => h.before (c :: a) b (congrArg (c :: ·) hab), h.between⟩
      rw [pieces_char he, stretches, ← ih hrest]
  | expression t sign inner rest he ih =>
    obtain ⟨hforms, ht⟩ := expressionAt?_eq_some_iff.1 he
    cases first with
    | cons d first =>
      -- the expression would start before the first one
      refine absurd ?_ (h.before [] (d :: first) rfl (by simp) _ ⟨sign, inner, hforms, rfl⟩)
      rw [← h.whole, ht]
      exact List.prefix_append _ _
    | nil =>
      cases found with
      | nil => exact absurd (ht.symm.trans h.whole) (by simp [rejoined, Piece.source])
      | cons f found =>
        have hf : expressionAt? t = some (.expression f.sign f.inner, f.after ++ rejoined found) :=
          expressionAt?_eq_some_iff.2
            ⟨h.expressions f List.mem_cons_self, by rw [h.whole]; simp [rejoined, Found.written]⟩
        obtain ⟨hpiece, hrest⟩ := Prod.mk.inj (Option.some.inj (he.symm.trans hf))
        obtain ⟨rfl, rfl⟩ := Piece.expression.inj hpiece
        have htail := h.tail
        rw [← hrest] at htail
        rw [pieces_expression he, stretches, ← ih htail]

/-- Getters and expressions to the replaced text and the getters after it: an expression that
computes is hoisted under the next number, any other one is written as its reference. -/
inductive Rewritten : List Getter → List Found → Text → List Getter → Prop
  | done {getters : List Getter} : Rewritten getters [] [] getters
  | hoisted {getters getters' : List Getter} {f : Found} {found : List Found} {out : Text}
      (computes : (classify f.inner).kind = .complex)
      (more : Rewritten (getters ++ [⟨getterName (getters.length + 1), strip f.inner⟩]) found out
        getters') :
      Rewritten getters (f :: found)
        (inBraces (getterName (getters.length + 1)) ++ (f.after ++ out)) getters'
  | referred {getters getters' : List Getter} {f : Found} {found : List Found} {out : Text}
      (plain : (classify f.inner).kind ≠ .complex) (more : Rewritten getters found out getters') :
      Rewritten getters (f :: found) (inBraces (classify f.inner).reference ++ (f.after ++ out))
        getters'

theorem rewritten_stretches (ps : List Piece) (getters : List Getter) :
    ∃ out, (substitutePieces getters.length ps).text = (stretches ps).1 ++ out ∧
      Rewritten getters (stretches ps).2 out (getters ++
        Findings.named getters.length (substitutePieces getters.length ps).hoisted) := by
  induction ps generalizing getters with
  | nil =>
    refine ⟨[], rfl, ?_⟩
    simpa [substitutePieces, Findings.named, stretches] using Rewritten.done
  | cons p ps ih =>
    cases p with
    | char c =>
      obtain ⟨out, htext, hrest⟩ := ih getters
      exact ⟨out, congrArg (c :: ·) htext, hrest⟩
    | expression sign inner =>
      by_cases hc : (classify inner).kind = .complex
      · obtain ⟨out, htext, hrest⟩ :=
          ih (getters ++ [⟨getterName (getters.length + 1), strip inner⟩])
        rw [List.length_append, List.length_singleton] at htext hrest
        have hpiece : (Piece.expression sign inner).substitute getters.length =
            ⟨inBraces (getterName (getters.length + 1)), [strip inner]⟩ := by
          simp [Piece.substitute, Classification.needsGetter, hc, source_classify]
        refine ⟨inBraces (getterName (getters.length + 1)) ++ ((stretches ps).1 ++ out), ?_,
          .hoisted hc ?_⟩
        · rw [substitutePieces, hpiece, List.length_singleton, htext]
          rfl
        · rw [substitutePieces, hpiece, Findings.named_append, ← List.append_assoc]
          exact hrest
      · obtain ⟨out, htext, hrest⟩ := ih getters
        have hpiece : (Piece.expression sign inner).substitute getters.length =
            ⟨inBraces (classify inner).reference, []⟩ := by
          simp [Piece.substitute, Classification.needsGetter, hc]
        refine ⟨inBraces (classify inner).reference ++ ((stretches ps).1 ++ out), ?_,
          .referred hc ?_⟩
        · rw [substitutePieces, hpiece, List.length_nil, Nat.add_zero, htext]
          rfl
        · rw [substitutePieces, hpiece]
          exact hrest

/-- A text that stands in front of a brace, and once more behind something else, has come to the
brace in what was put before it. -/
theorem brace_mem_of_shifted {s p x y : Text} (hp : p ≠ []) (h : s ++ '}' :: x = p ++ (s ++ y)) :
    '}' ∈ p := by
  induction hn : s.length using Nat.strongRecOn generalizing s with
  | ind n ih =>
    rcases List.append_eq_append_iff.1 h with ⟨more, rfl, hmore⟩ | ⟨more, rfl, hmore⟩
    · cases more with
      | nil =>
        obtain ⟨d, ds, hd⟩ := List.exists_cons_of_ne_nil hp
        rw [List.append_nil] at hd
        rw [hd] at hmore ⊢
        rw [(List.cons.inj hmore).1]
        exact List.mem_append_left _ List.mem_cons_self
      | cons d ds =>
        rw [(List.cons.inj hmore).1]
        exact List.mem_append_right _ List.mem_cons_self
    · rw [List.append_assoc] at hmore
      have hlength : 0 < p.length := List.length_pos_of_ne_nil hp
      exact ih more.length (by rw [← hn, List.length_append]; omega) hmore.symm rfl

theorem head_of_bare {name : Text} (h : ∀ c ∈ name, isBare c = true) (x : Text) :
    ∃ d ds, name ++ '}' :: x = d :: ds ∧ isSign d = false ∧ isBlank d = false := by
  cases name with
  | nil => exact ⟨'}', x, rfl, by decide, by decide⟩
  | cons d name =>
    have hd := h d List.mem_cons_self
    refine ⟨d, name ++ '}' :: x, rfl, ?_, ?_⟩ <;> simp_all [isBare, isMark]

theorem head_of_negated {e : Text} (h : (classify e).negated = true) (y : Text) :
    ∃ d ds, e ++ '}' :: y = d :: ds ∧ (isSign d = true ∨ isBlank d = true) := by
  have hstrip : ∃ rest, strip e = '!' :: rest := by
    rcases signed_or_not e with ⟨p, negated, hp, hsigned⟩ | hnone
    · rw [classify_signed hp hsigned] at h
      obtain rfl : negated = true := h
      obtain ⟨gap, -, hs⟩ := signed_negated_iff.1 hsigned
      exact ⟨_, hs⟩
    · rw [classify_unsigned hnone] at h
      split at h <;> cases h
  obtain ⟨rest, hrest⟩ := hstrip
  obtain ⟨before, after, hbefore, -, he⟩ := exists_strip e
  cases before with
  | nil => exact ⟨'!', rest ++ after ++ '}' :: y, by rw [he, hrest]; simp, .inl (by decide)⟩
  | cons d before =>
    refine ⟨d, before ++ (strip e ++ after) ++ '}' :: y, ?_, .inr ?_⟩
    · rw [← List.cons_append, ← List.cons_append, ← he]
    · exact List.all_eq_true.1 hbefore d List.mem_cons_self

/-- What an expression is replaced by never starts the text that the expression starts. -/
theorem replaced_ne {f : Found} {r : Text} (hf : Forms f.sign f.inner)
    (hr : (∃ k, r = getterName k) ∨
      (classify f.inner).kind ≠ .complex ∧ r = (classify f.inner).reference) (x y : Text) :
    inBraces r ++ x ≠ f.written ++ y := by
  obtain ⟨sign, inner, after⟩ := f
  have hsign : isSign sign = true := hf.1
  intro h
  replace h : r ++ '}' :: x = sign :: (inner ++ '}' :: y) := by
    simpa [inBraces, Found.written, Piece.source] using h
  have hbare (name : Text) (hname : ∀ c ∈ name, isBare c = true) :
      name ++ '}' :: x ≠ sign :: (inner ++ '}' :: y) := by
    intro heq
    obtain ⟨d, ds, hd, hfree, -⟩ := head_of_bare hname x
    rw [hd] at heq
    rw [(List.cons.inj heq).1, hsign] at hfree
    exact absurd hfree (by decide)
  rcases hr with ⟨k, rfl⟩ | ⟨hkind, rfl⟩
  · exact hbare _ (bare_getterName k) h
  · rcases classify_cases inner with ⟨hc, -⟩ | ⟨name, hname, href⟩ | ⟨-, -, href⟩
    · exact hkind hc
    · by_cases hn : (classify inner).negated = true
      · rw [href, if_pos hn, List.cons_append] at h
        obtain ⟨d, ds, hd, hfree, hsolid⟩ := head_of_bare hname x
        obtain ⟨e, es, he, hlead⟩ := head_of_negated hn y
        rw [hd, he] at h
        obtain rfl := (List.cons.inj (List.cons.inj h).2).1
        simp [hfree, hsolid] at hlead
      · rw [href, if_neg hn] at h
        exact hbare name hname h
    · obtain ⟨before, after, hbefore, -, he⟩ := exists_strip inner
      have hshift : strip inner ++ '}' :: x =
          (sign :: before) ++ (strip inner ++ (after ++ '}' :: y)) := by
        rw [href] at h
        rw [h]
        conv_lhs => rw [he]
        simp
      rcases List.mem_cons.1 (brace_mem_of_shifted (by simp) hshift) with hbrace | hbrace
      · rw [← hbrace] at hsign
        exact absurd hsign (by decide)
      · exact absurd (List.all_eq_true.1 hbefore _ hbrace) (by decide)

theorem Leftmost.append_ne_iff {first out : Text} {found : List Found}
    (h : Leftmost t first found) : first ++ out ≠ t ↔ out ≠ rejoined found := by
  conv_lhs => rw [h.whole]
  rw [ne_eq, List.append_cancel_left_eq]

/-- A text comes out as it went in only if nothing was replaced. -/
theorem Rewritten.changes {getters getters' : List Getter} {found : List Found} {out : Text}
    (h : Rewritten getters found out getters') (hf : ∀ f ∈ found, Forms f.sign f.inner) :
    found ≠ [] ↔ out ≠ rejoined found := by
  cases h with
  | done => simp [rejoined]
  | @hoisted _ _ f found out computes _ =>
    have hne := replaced_ne (hf f List.mem_cons_self) (.inl ⟨getters.length + 1, rfl⟩)
      (f.after ++ out) (f.after ++ rejoined found)
    simpa [rejoined] using hne
  | @referred _ _ f found out plain _ =>
    have hne := replaced_ne (hf f List.mem_cons_self) (.inr ⟨plain, rfl⟩) (f.after ++ out)
      (f.after ++ rejoined found)
    simpa [rejoined] using hne

theorem written_stretches (ps : List Piece) :
    (ps.filterMap Piece.mention?).map (·.written) = (stretches ps).2.map Found.written := by
  induction ps with
  | nil => rfl
  | cons p ps ih =>
    cases p with
    | char c => exact ih
    | expression sign inner => simpa [Piece.mention?, stretches, Found.written] using ih

theorem any_isExpression_stretches (ps : List Piece) :
    ps.any Piece.isExpression = true ↔ (stretches ps).2 ≠ [] := by
  induction ps with
  | nil => simp [stretches]
  | cons p ps ih => cases p <;> simp_all [Piece.isExpression, stretches]

theorem single?_isSome_iff : (single? t).isSome = true ↔ IsExpression (strip t) := by
  unfold single?
  constructor
  · intro h
    split at h
    · rename_i sign inner he
      obtain ⟨hforms, ht⟩ := expressionAt?_eq_some_iff.1 he
      exact ⟨sign, inner, hforms, by rw [ht, List.append_nil]⟩
    · simp at h
  · rintro ⟨sign, inner, hforms, ht⟩
    have he : expressionAt? (strip t) = some (.expression sign inner, []) :=
      expressionAt?_eq_some_iff.2 ⟨hforms, by rw [ht, List.append_nil]⟩
    rw [he]
    rfl

/-- Text in front of all braces is cut into its characters. -/
theorem pieces_append {a : Text} (ha : '{' ∉ a) (b : Text) :
    pieces (a ++ b) = a.map .char ++ pieces b := by
  induction a with
  | nil => rfl
  | cons c a ih =>
    rw [List.mem_cons, not_or] at ha
    have hnone : expressionAt? (c :: (a ++ b)) = none := by
      unfold expressionAt?
      split
      · rename_i heq
        exact absurd (List.cons.inj heq).1.symm ha.1
      · rfl
    rw [List.cons_append, pieces_char hnone, ih ha.2]
    rfl

theorem braces_notMem_of_blank {a : Text} (h : isAllBlank a = true) : '{' ∉ a ∧ '}' ∉ a :=
  ⟨fun hmem => absurd (List.all_eq_true.1 h _ hmem) (by decide),
    fun hmem => absurd (List.all_eq_true.1 h _ hmem) (by decide)⟩

theorem pieces_single {inner : Text} (h : single? t = some inner) : ∃ sign before after,
    isAllBlank before = true ∧ isAllBlank after = true ∧ t = before ++ (strip t ++ after) ∧
      strip t = (Piece.expression sign inner).source ∧
      pieces t = before.map .char ++ .expression sign inner :: after.map .char := by
  obtain ⟨before, after, hbefore, hafter, ht⟩ := exists_strip t
  obtain ⟨sign, hfound⟩ : ∃ sign, expressionAt? (strip t) = some (.expression sign inner, []) := by
    unfold single? at h
    split at h
    · rename_i sign inner' he
      obtain rfl := Option.some.inj h
      exact ⟨sign, he⟩
    · cases h
  obtain ⟨hforms, hstrip⟩ := expressionAt?_eq_some_iff.1 hfound
  have hexpression : expressionAt? (strip t ++ after) = some (.expression sign inner, after) :=
    expressionAt?_eq_some_iff.2 ⟨hforms, by rw [hstrip, List.append_nil]⟩
  have hblanks : pieces after = after.map .char := by
    have hend := pieces_append (braces_notMem_of_blank hafter).1 []
    rwa [pieces_nil, List.append_nil, List.append_nil] at hend
  refine ⟨sign, before, after, hbefore, hafter, ht, by rw [hstrip, List.append_nil], ?_⟩
  calc
    pieces t = pieces (before ++ (strip t ++ after)) := congrArg pieces ht
    _ = before.map .char ++ pieces (strip t ++ after) :=
      pieces_append (braces_notMem_of_blank hbefore).1 _
    _ = before.map .char ++ .expression sign inner :: after.map .char := by
      rw [pieces_expression hexpression, hblanks]

theorem occurs_of_single (h : (single? t).isSome = true) : occurs t = true := by
  obtain ⟨inner, hinner⟩ := Option.isSome_iff_exists.1 h
  obtain ⟨sign, before, after, -, -, -, -, hpieces⟩ := pieces_single hinner
  rw [occurs, hpieces, List.any_append, List.any_cons]
  simp [Piece.isExpression]

end Expression

theorem Findings.extend_map_getter (old : Findings) (es : List Text) :
    old.extend (es.map Finding.getter) =
      { old with getters := old.getters ++ named old.getters.length es } := by
  simp [extend, List.filterMap_map, Function.comp_def]

open Expression

/-- A text has one cut at its expressions, and is converted to what stands before them and what
they are rewritten to, with what stands in between.  The getters are those that were there and
those that were hoisted, and no other finding of the context changes.  The expressions of the
cut are those that are mentioned; there is one just when the text contains one, and just when
the text changes.  A text is a single expression just when, stripped, one is written there. -/
theorem convert_rewrites (t : Text) {c : Context} {st : Store} (h : st.Holds c) :
    let old := c.findings st
    let converted := (c.convert t).run st
    ∃ first found out getters,
      (∀ first' found', Leftmost t first' found' ↔ first' = first ∧ found' = found) ∧
      Rewritten old.getters found out getters ∧ converted.1 = first ++ out ∧
      c.findings converted.2 = { old with getters := getters } ∧
      Store.SameElsewhere c st converted.2 ∧
      (mentions t).map (·.written) = found.map Found.written ∧
      (occurs t = true ↔ found ≠ []) ∧ (found ≠ [] ↔ converted.1 ≠ t) ∧
      ((single? t).isSome = true ↔ IsExpression (strip t)) := by
  intro old converted
  have hleft := leftmost_stretches t
  obtain ⟨out, htext, hrewritten⟩ := rewritten_stretches (pieces t) old.getters
  have hrun := simulates_convert c t st h
  have hconverted : converted.1 = (stretches (pieces t)).1 ++ out :=
    (congrArg Prod.fst hrun).trans htext
  have hstore : converted.2 = st.write c ((substitute old.getters.length t).hoisted.map .getter) :=
    congrArg Prod.snd hrun
  refine ⟨_, _, out, _, fun first' found' => ⟨fun h => Prod.mk.inj h.eq_stretches, ?_⟩,
    hrewritten, hconverted, ?_, ?_, written_stretches _, any_isExpression_stretches _, ?_,
    single?_isSome_iff⟩
  · rintro ⟨rfl, rfl⟩
    exact hleft
  · rw [hstore, Store.findings_write h, Findings.extend_map_getter]
    rfl
  · rw [hstore]
    exact Store.sameElsewhere_write st c _
  · rw [hrewritten.changes hleft.expressions, hconverted, hleft.append_ne_iff]

/-- The lists of one context, which has registered a getter. -/
def countedStore : Store :=
  ⟨[[]], [[]], [[]], [[]], [[]], [[]], [[⟨getterName 1, "v.a + 1".toList⟩]], []⟩

theorem convert_rewrites_counted :
    ∃ first found out getters, countedStore.Holds default ∧
      Leftmost "a{!v.x + 1}b{#v.y}".toList first found ∧
      found.map Found.written = ["{!v.x + 1}".toList, "{#v.y}".toList] ∧
      first ++ out = "a{computedValue2}b{y}".toList ∧
      Rewritten [⟨getterName 1, "v.a + 1".toList⟩] found out getters ∧
      getters.map (·.expression) = ["v.a + 1".toList, "v.x + 1".toList] := by
  have h : countedStore.Holds default := by constructor <;> decide
  obtain ⟨first, found, out, getters, hcut, hrewritten, htext, hfindings, -, hwritten, -⟩ :=
    convert_rewrites "a{!v.x + 1}b{#v.y}".toList h
  have hgetters := congrArg (fun fs : Findings => fs.getters.map (·.expression)) hfindings
  exact ⟨first, found, out, getters, h, (hcut _ _).2 ⟨rfl, rfl⟩, hwritten.symm.trans (by decide +kernel),
    htext.symm.trans (by decide +kernel), hrewritten, hgetters.symm.trans (by decide +kernel)⟩

end LightningTemplate
