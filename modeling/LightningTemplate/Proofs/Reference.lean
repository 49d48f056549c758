import LightningTemplate.Expression.Substitution
import LightningTemplate.Proofs.Naming

/-! References in templates.  A path is made of word characters, points and dollar signs,
so the reference that stands for it holds no blank, quote, brace or sign, and nothing
that is escaped in a value. -/
namespace LightningTemplate
open Text

namespace Text

/-- Neither a mark of a template nor a brace, a sign or the start of an entity. -/
def isBare (c : Char) : Bool :=
  !isMark c && !Expression.isSign c && c != '{' && c != '}' && c != '&'

theorem isBare_wide {c : Char} (h : 128 ≤ c.toNat) (hb : isBlank c = false) : isBare c = true := by
  have hne : ∀ d : Char, d.toNat < 128 → c ≠ d := by
    rintro d hd rfl
    omega
  simp [isBare, isMark_wide h, hb, Expression.isSign, hne '!' (by decide), hne '#' (by decide),
    hne '{' (by decide), hne '}' (by decide), hne '&' (by decide)]

theorem isBare_of_isTame {c : Char} (h : isTame c = true) : isBare c = true := by
  by_cases hc : c.toNat < 128
  · exact forall_ascii (P := fun c => isTame c = true → isBare c = true) (by decide +kernel) c hc h
  · have hm := isMark_of_isTame h
    rw [isMark_wide (Nat.le_of_not_lt hc)] at hm
    exact isBare_wide (Nat.le_of_not_lt hc) hm

theorem isBare_of_isWord {c : Char} (h : isWord c = true) : isBare c = true := by
  by_cases hc : c.toNat < 128
  · exact forall_ascii (P := fun c => isWord c = true → isBare c = true) (by decide +kernel) c hc h
  · refine isBare_wide (Nat.le_of_not_lt hc) (Bool.eq_false_iff.2 fun hb => ?_)
    have hnone : ∀ n ∈ wideBlanks, isWord (Char.ofNat n) = false := by decide +kernel
    have := hnone _ (mem_wideBlanks (Nat.le_of_not_lt hc) hb)
    rw [Char.ofNat_toNat, h] at this
    simp at this

end Text

namespace Expression

def isPathChar (c : Char) : Bool := isWord c || c == '.' || c == '$'

theorem isBare_of_isPathChar {c : Char} (h : isPathChar c = true) : isBare c = true := by
  simp only [isPathChar, Bool.or_eq_true, beq_iff_eq] at h
  rcases h with (h | rfl) | rfl
  · exact isBare_of_isWord h
  · decide
  · decide

theorem exists_tokenAt {k : Nat} {t : Text} {tok : Token} (h : tok ∈ tokensFrom k t) :
    ∃ c cs, tokenAt c cs = some tok := by
  induction t generalizing k with
  | nil => cases k <;> simp [tokensFrom] at h
  | cons c cs ih =>
    cases k with
    | succ k => exact ih h
    | zero =>
      rw [tokensFrom, List.mem_append] at h
      rcases h with h | h
      · exact ⟨c, cs, by simpa using h⟩
      · exact ih h

theorem tokenAt_eq_some {kind : TokenKind} {c : Char} {cs value : Text}
    (h : tokenAt c cs = some ⟨kind, value⟩) (hword : kind ≠ .wordOperator) :
    (lexemeAt c cs).1 = some kind ∧ value = c :: cs.take (lexemeAt c cs).2 ∧
      (kind = .path → operatorWords.contains value = false) := by
  rw [tokenAt, Option.map_eq_some_iff] at h
  obtain ⟨lexeme, hlexeme, htoken⟩ := h
  unfold Token.ofValue at htoken
  split at htoken
  · exact absurd (Token.mk.inj htoken).1.symm hword
  · rename_i hplain
    obtain ⟨rfl, rfl⟩ := Token.mk.inj htoken
    exact ⟨hlexeme, rfl, fun hpath => by simpa [hpath] using hplain⟩

theorem pathTail_word {c : Char} {cs : Text} (hword : isWord c = true) :
    pathTail (c :: cs) = 1 + pathTail cs := if_pos hword

theorem pathTail_point {c : Char} {cs : Text} (hword : ¬isWord c = true)
    (hpoint : (c = '.' && cs.head?.any isWord) = true) : pathTail (c :: cs) = 1 + pathTail cs :=
  (if_neg hword).trans (if_pos hpoint)

theorem pathTail_end {c : Char} {cs : Text} (hword : ¬isWord c = true)
    (hpoint : ¬(c = '.' && cs.head?.any isWord) = true) : pathTail (c :: cs) = 0 :=
  (if_neg hword).trans (if_neg hpoint)

theorem isPathChar_pathTail {t : Text} {c : Char} (h : c ∈ t.take (pathTail t)) :
    isPathChar c = true := by
  induction t with
  | nil => simp at h
  | cons d ds ih =>
    by_cases hword : isWord d = true
    · rw [pathTail_word hword, Nat.add_comm, List.take_succ_cons, List.mem_cons] at h
      rcases h with rfl | h
      · simp [isPathChar, hword]
      · exact ih h
    · by_cases hpoint : (d = '.' && ds.head?.any isWord) = true
      · rw [pathTail_point hword hpoint, Nat.add_comm, List.take_succ_cons, List.mem_cons] at h
        rcases h with rfl | h
        · simp only [Bool.and_eq_true, decide_eq_true_eq] at hpoint
          simp [isPathChar, hpoint.1]
        · exact ih h
      · simp [pathTail_end hword hpoint] at h

/-- A class that is no path; the mark of a negation stands for itself alone. -/
def IsMarkLexeme (c : Char) (l : Lexeme) : Prop :=
  ∃ kind n, l = (some kind, n) ∧ kind ≠ .path ∧ (kind = .not → c = '!' ∧ n = 0)

theorem isMarkLexeme_markAt (c : Char) (cs : Text) : IsMarkLexeme c (markAt c cs) := by
  have hstep (p : Prop) [Decidable p] (k : TokenKind) (n : Nat) (l : Lexeme)
      (hp : p → IsMarkLexeme c (some k, n)) (hl : IsMarkLexeme c l) :
      IsMarkLexeme c (if p then (some k, n) else l) := by
    split
    · exact hp ‹_›
    · exact hl
  unfold markAt
  repeat' refine hstep _ _ _ _ (fun h => ⟨_, _, rfl, by decide, by simp [h]⟩) ?_
  exact ⟨_, _, rfl, by decide, by simp⟩

theorem markAt_ne_path (c : Char) (cs : Text) : (markAt c cs).1 ≠ some .path := by
  obtain ⟨kind, n, hmark, hpath, -⟩ := isMarkLexeme_markAt c cs
  rw [hmark]
  simpa using hpath

theorem lexemeAt_dollar (d : Char) (ds : Text) : lexemeAt '$' (d :: ds) =
    if isLatinStart d then (some .path, 1 + pathTail ds) else (some .unknown, 0) := by
  unfold lexemeAt
  rw [if_neg (by decide), if_neg (by decide), if_neg (by decide), if_neg (by decide), if_pos rfl]

theorem lexemeAt_path_cases {c : Char} {cs : Text} (h : (lexemeAt c cs).1 = some .path) :
    isLatinStart c = true ∧ lexemeAt c cs = (some .path, pathTail cs) ∨
      ∃ d ds, c = '$' ∧ cs = d :: ds ∧ isLatinStart d = true ∧
        lexemeAt c cs = (some .path, 1 + pathTail ds) := by
  by_cases hdollar : c = '$'
  · subst hdollar
    cases cs with
    | nil => exact absurd h (by decide)
    | cons d ds =>
      rw [lexemeAt_dollar] at h
      by_cases hd : isLatinStart d = true
      · exact .inr ⟨d, ds, rfl, rfl, hd, by rw [lexemeAt_dollar, if_pos hd]⟩
      · rw [if_neg hd] at h
        exact absurd h (by decide)
  · left
    unfold lexemeAt at h ⊢
    split at h
    · simp at h
    · split at h
      · split at h <;> simp at h
      · split at h
        · simp at h
        · split at h
          · simp_all
          · exact absurd h (by simpa [hdollar] using markAt_ne_path c cs)

theorem isPathChar_lexemeAt {c : Char} {cs : Text} (h : (lexemeAt c cs).1 = some .path) :
    ∀ d ∈ c :: cs.take (lexemeAt c cs).2, isPathChar d = true := by
  have hstart : ∀ d, isLatinStart d = true → isPathChar d = true := fun d hd => by
    simp [isPathChar, isWord_of_isLatinStart hd]
  rcases lexemeAt_path_cases h with ⟨hc, hlex⟩ | ⟨d, ds, rfl, rfl, hd, hlex⟩
  · rw [hlex, List.forall_mem_cons]
    exact ⟨hstart c hc, fun e he => isPathChar_pathTail he⟩
  · rw [hlex, Nat.add_comm, List.take_succ_cons, List.forall_mem_cons, List.forall_mem_cons]
    exact ⟨by decide, hstart d hd, fun e he => isPathChar_pathTail he⟩

theorem isPathChar_of_mem_tokens {t p : Text} (h : ⟨.path, p⟩ ∈ tokens t) :
    ∀ c ∈ p, isPathChar c = true := by
  obtain ⟨c, cs, hc⟩ := exists_tokenAt h
  obtain ⟨hkind, rfl, -⟩ := tokenAt_eq_some hc (by decide)
  exact isPathChar_lexemeAt hkind

theorem isBare_uncapitalize {t : Text} (h : ∀ c ∈ t, isBare c = true) :
    ∀ c ∈ uncapitalize t, isBare c = true := by
  cases t with
  | nil => simp [uncapitalize]
  | cons d ds =>
    intro c hc
    rw [uncapitalize, List.mem_append] at hc
    rcases hc with hc | hc
    · rcases mem_lower hc with hc | hc
      · rw [List.mem_singleton.1 hc]
        exact h d (by simp)
      · exact isBare_of_isTame (by simp [isTame, hc])
    · exact h c (by simp [hc])

theorem isBare_fieldGetter {t : Text} (h : ∀ c ∈ t, isBare c = true) :
    ∀ c ∈ fieldGetter t, isBare c = true := by
  unfold fieldGetter
  split
  · exact isBare_uncapitalize fun c hc => h c (List.mem_of_mem_take hc)
  · exact isBare_uncapitalize h

theorem isBare_ofPath {p : Text} (h : ∀ c ∈ p, isBare c = true) :
    ∀ c ∈ (ofPath p).2, isBare c = true := by
  have hsplit : ∀ w ∈ splitOn '.' p, ∀ c ∈ w, isBare c = true := fun w hw c hc =>
    h c (mem_of_mem_splitOn hw hc)
  unfold ofPath
  split
  · exact h
  · rename_i root name heq
    split
    · exact hsplit name (by simp [heq])
    · exact h
  · rename_i root middle last more heq
    split
    · refine isBare_fieldGetter (hsplit _ ?_)
      rw [heq]
      exact List.mem_cons_of_mem _ (List.mem_cons_of_mem _ (List.getLast_mem _))
    · split
      · have hlabel : "label".toList.all isBare = true := by decide +kernel
        intro c hc
        simp only [List.mem_append] at hc
        rcases hc with (hc | hc) | hc
        · exact List.all_eq_true.1 hlabel c hc
        · exact hsplit middle (by simp [heq]) c hc
        · exact hsplit last (by simp [heq]) c hc
      · exact h
  · exact h

/-- The reference of a path is bare, also after a negation; what passes as it stands is
the expression itself. -/
theorem classify_cases (e : Text) :
    (classify e).kind = .complex ∧ (classify e).negated = false ∨
      (∃ name : Text, (∀ c ∈ name, isBare c = true) ∧
        (classify e).reference = (if (classify e).negated then '!' :: name else name)) ∨
      (classify e).kind = .passthrough ∧ (classify e).negated = false ∧
        (classify e).reference = strip e := by
  have hpath : ∀ p, ⟨.path, p⟩ ∈ tokens (strip e) → ∀ c ∈ (ofPath p).2, isBare c = true :=
    fun p hp => isBare_ofPath fun c hc => isBare_of_isPathChar (isPathChar_of_mem_tokens hp c hc)
  generalize hc : classify e = c
  simp only [classify] at hc
  split at hc
  · rename_i p heq
    subst hc
    exact .inr (.inl ⟨_, hpath p (by simp [heq]), rfl⟩)
  · rename_i w p heq
    subst hc
    exact .inr (.inl ⟨_, hpath p (by simp [heq]), rfl⟩)
  · split at hc <;> subst hc
    · exact .inl ⟨rfl, rfl⟩
    · exact .inr (.inr ⟨rfl, rfl, rfl⟩)

end Expression
end LightningTemplate
