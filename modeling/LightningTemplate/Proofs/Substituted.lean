import LightningTemplate.Proofs.Opening

/-! Openings in converted text.  A tidy text opens nothing but expressions, and brings no
opening along in what passes as it stands; so what it is converted to is clear but for the
references of its negated paths, and stays so between the braces of a guard.  In a clear
text an expression is found only where an accepted binding stands. -/
namespace LightningTemplate.Expression
open Text

variable {accepted : Text → Prop} {a b t : Text}

def hasOpening : Text → Bool
  | [] => false
  | c :: cs => opens (c :: cs) || hasOpening cs

theorem Clear.of_hasOpening (h : hasOpening t = false) : Clear accepted t := by
  induction t with
  | nil => exact nil
  | cons c cs ih =>
    rw [hasOpening, Bool.or_eq_false_iff] at h
    exact ⟨fun hopen => by simp [h.1] at hopen, ih h.2⟩

def Piece.negation? : Piece → Option Text
  | .char _ => none
  | .expression _ inner => if (classify inner).negated then some (classify inner).reference else none

def negations (t : Text) : List Text := (pieces t).filterMap Piece.negation?

/-- What passes as it stands brings no opening along. -/
def Piece.isTidy : Piece → Bool
  | .char _ => true
  | .expression _ inner =>
    (classify inner).kind != .passthrough || (classify inner).negated
      || !hasOpening (inBraces (classify inner).reference)

def strays : List Piece → Bool
  | .char c :: .char s :: ps => (c == '{' && isSign s) || strays (.char s :: ps)
  | _ :: ps => strays ps
  | [] => false

/-- Every opening of the text is that of an expression, and none is left in a binding. -/
def isTidy (t : Text) : Bool := !strays (pieces t) && (pieces t).all Piece.isTidy

theorem isNegation_of_negation? {p : Piece} {r : Text} (h : p.negation? = some r) : IsNegation r := by
  cases p with
  | char c => simp [Piece.negation?] at h
  | expression sign inner =>
    simp only [Piece.negation?] at h
    split at h
    · rename_i hn
      obtain rfl := Option.some.inj h
      rcases classify_cases inner with ⟨-, hc⟩ | ⟨name, hname, hr⟩ | ⟨-, hc, -⟩
      · simp [hn] at hc
      · exact ⟨name, by simpa [hn] using hr, hname⟩
      · simp [hn] at hc
    · simp at h

theorem isNegation_of_mem {r : Text} (h : r ∈ negations t) : IsNegation r := by
  obtain ⟨p, -, hp⟩ := List.mem_filterMap.1 h
  exact isNegation_of_negation? hp

theorem strays_tail {p : Piece} {ps : List Piece} (h : strays (p :: ps) = false) :
    strays ps = false := by
  cases p with
  | expression sign inner => exact h
  | char c =>
    cases ps with
    | nil => rfl
    | cons q qs =>
      cases q with
      | expression sign inner => exact h
      | char d =>
        rw [strays, Bool.or_eq_false_iff] at h
        exact h.2

/-- Substituted text starts with a sign only if a sign stood there. -/
theorem head_substitutePieces {count : Nat} {ps : List Piece} {s : Char}
    (h : (substitutePieces count ps).text.head? = some s) (hs : isSign s = true) :
    ∃ qs, ps = .char s :: qs := by
  cases ps with
  | nil => simp [substitutePieces] at h
  | cons p qs =>
    cases p with
    | char c =>
      obtain rfl : c = s := by simpa [substitutePieces, Piece.substitute] using h
      exact ⟨qs, rfl⟩
    | expression sign inner =>
      have hbrace : '{' = s := by
        simp only [substitutePieces, Piece.substitute] at h
        split at h <;> simpa [inBraces] using h
      rw [← hbrace] at hs
      exact absurd hs (by decide)

theorem bare_notMem {t : Text} (h : ∀ c ∈ t, isBare c = true) : '{' ∉ t := fun hmem =>
  absurd (h _ hmem) (by decide)

theorem isWord_getterName (n : Nat) : ∀ c ∈ getterName n, isWord c = true := by
  have hword : "computedValue".toList.all isWord = true := by decide +kernel
  intro c hc
  unfold getterName at hc
  rcases List.mem_append.1 hc with hc | hc
  · exact List.all_eq_true.1 hword c hc
  · have hdigit : c.isDigit = true := Nat.isDigit_of_mem_toDigits (by decide) (by decide) hc
    exact isWord_of_isAlphanum (by simp [Char.isAlphanum, hdigit])

theorem bare_getterName (n : Nat) : ∀ c ∈ getterName n, isBare c = true := fun c hc =>
  isBare_of_isWord (isWord_getterName n c hc)

theorem bare_braces_append {r : Text} (hr : ∀ c ∈ r, isBare c = true) (hb : Clear accepted b) :
    Clear accepted (inBraces r ++ b) := by
  refine Clear.braces_append (Clear.literal (bare_notMem hr)) hb fun s hs hsign => ?_
  have hbare := hr s (List.mem_of_head? hs)
  simp [isBare, hsign] at hbare

/-- What a tidy piece becomes opens an expression only as a negation. -/
theorem clear_substitutePiece {p : Piece} (hp : p.isTidy = true) (hexp : p.isExpression = true)
    (hacc : ∀ r, p.negation? = some r → accepted r) (hb : Clear accepted b) (count : Nat) :
    Clear accepted ((p.substitute count).text ++ b) := by
  cases p with
  | char c => simp [Piece.isExpression] at hexp
  | expression sign inner =>
    simp only [Piece.substitute]
    split
    · exact bare_braces_append (bare_getterName _) hb
    · rename_i hgetter
      rcases classify_cases inner with ⟨hc, -⟩ | ⟨name, hname, hr⟩ | ⟨hc, hn, -⟩
      · simp [Classification.needsGetter, hc] at hgetter
      · by_cases hn : (classify inner).negated = true
        · have hacc' : accepted (classify inner).reference := hacc _ (by simp [Piece.negation?, hn])
          rw [hn, if_pos rfl] at hr
          rw [hr] at hacc' ⊢
          refine Clear.braces_append ?_ hb fun _ _ _ => hacc'
          exact (Clear.cons_of_ne (by decide)).2 (Clear.literal (bare_notMem hname))
        · rw [if_neg hn] at hr
          rw [hr]
          exact bare_braces_append hname hb
      · have hopen : hasOpening (inBraces (classify inner).reference) = false := by
          simpa [Piece.isTidy, hc, hn] using hp
        have hnone : Clear (fun _ => False) (inBraces (classify inner).reference) :=
          .of_hasOpening hopen
        have hinner : Clear (fun _ => False) (classify inner).reference :=
          hnone.tail.left fun _ _ hr => hr.elim
        refine Clear.braces_append (hinner.mono fun _ hr => hr.elim) hb fun s hs hsign => ?_
        obtain ⟨_, hr, -⟩ := hnone.1 ((opens_brace _).2 ⟨s, by rw [List.head?_append, hs]; rfl, hsign⟩)
        exact hr.elim

theorem clear_substitutePieces {ps : List Piece} (hs : strays ps = false)
    (ht : ∀ p ∈ ps, p.isTidy = true) (hacc : ∀ p ∈ ps, ∀ r, p.negation? = some r → accepted r)
    (count : Nat) : Clear accepted (substitutePieces count ps).text := by
  induction ps generalizing count with
  | nil => exact .nil
  | cons p ps ih =>
    have hrest := ih (strays_tail hs) (fun q hq => ht q (by simp [hq]))
      (fun q hq => hacc q (by simp [hq])) (count + (p.substitute count).hoisted.length)
    cases p with
    | expression sign inner =>
      exact clear_substitutePiece (ht _ (by simp)) rfl (hacc _ (by simp)) hrest count
    | char c =>
      refine ⟨fun hopen => ?_, hrest⟩
      by_cases hc : c = '{'
      · subst hc
        obtain ⟨s, hhead, hsign⟩ := (opens_brace _).1 hopen
        obtain ⟨qs, rfl⟩ := head_substitutePieces hhead hsign
        simp [strays, hsign] at hs
      · rw [opens_of_ne hc] at hopen
        simp at hopen

/-- In a tidy text the substitution leaves no opening but those of its negations. -/
theorem clear_substitute (h : isTidy t = true) (hacc : ∀ r ∈ negations t, accepted r) (count : Nat) :
    Clear accepted (substitute count t).text := by
  simp only [isTidy, Bool.and_eq_true, Bool.not_eq_true', List.all_eq_true] at h
  exact clear_substitutePieces h.1 h.2
    (fun p hp r hr => hacc r (List.mem_filterMap.2 ⟨p, hp, hr⟩)) count

def leadsWithSign (t : Text) : Bool := (t.dropWhile isBlank).head?.any isSign

theorem lead_substitutePieces {count : Nat} {ps : List Piece} {s : Char}
    (h : ((substitutePieces count ps).text.dropWhile isBlank).head? = some s)
    (hs : isSign s = true) : ((ps.flatMap Piece.source).dropWhile isBlank).head? = some s := by
  induction ps generalizing count with
  | nil => simp [substitutePieces] at h
  | cons p ps ih =>
    cases p with
    | char c =>
      simp only [substitutePieces, Piece.substitute, List.flatMap_cons, Piece.source,
        List.singleton_append, List.dropWhile_cons] at h ⊢
      split
      · rename_i hblank
        rw [if_pos hblank] at h
        exact ih h
      · rename_i hblank
        rwa [if_neg hblank] at h
    | expression sign inner =>
      have hbrace : '{' = s := by
        simp only [substitutePieces, Piece.substitute] at h
        split at h <;> simpa [inBraces, (by decide : isBlank '{' = false)] using h
      rw [← hbrace] at hs
      exact absurd hs (by decide)

theorem head_strip_substitute (h : leadsWithSign t = false) (count : Nat) {s : Char}
    (hs : (strip (substitute count t).text).head? = some s) : isSign s = false := by
  rw [← Bool.not_eq_true]
  intro hsign
  have hlead := lead_substitutePieces (head_strip hs) hsign
  rw [source_pieces] at hlead
  simp [leadsWithSign, hlead, hsign] at h

theorem unbrace_cases (t : Text) : inBraces (unbrace t) = strip t ∨ unbrace t = strip t := by
  unfold unbrace
  split
  · rename_i c cs heq
    split
    · rename_i hlast
      have hend : (c :: cs).getLast (by simp) = '}' := by
        rw [List.getLast?_eq_some_getLast (by simp)] at hlast
        exact Option.some.inj hlast
      left
      rw [heq, inBraces, ← hend, List.dropLast_concat_getLast]
    · exact .inr heq.symm
  · exact .inr rfl

/-- Braces around the text can be written in front of whatever does not start with a sign. -/
def CanGuard (accepted : Text → Prop) (t : Text) : Prop :=
  ∀ b, Clear accepted b → (∀ s, b.head? = some s → isSign s = false) →
    Clear accepted (inBraces t ++ b)

/-- Braces around what stood in braces, or around what does not start with a sign. -/
theorem Clear.guard (h : Clear accepted t)
    (hsign : ∀ s, (Text.strip t).head? = some s → isSign s = false) :
    CanGuard accepted (unbrace t) := by
  intro b hb hhead
  rcases unbrace_cases t with heq | heq
  · rw [heq]
    exact h.strip.append hb hhead
  · rw [heq]
    refine h.strip.braces_append hb fun s hs hs' => ?_
    rw [hsign s hs] at hs'
    simp at hs'

theorem Clear.negatedGuard (h : Clear accepted t) (hacc : accepted ('!' :: unbrace t)) :
    CanGuard accepted ('!' :: unbrace t) := by
  intro b hb hhead
  have hrest : Clear accepted (unbrace t ++ ['}'] ++ b) := by
    rcases unbrace_cases t with heq | heq
    · have := h.strip
      rw [← heq] at this
      exact this.tail.append hb hhead
    · rw [heq, List.append_assoc]
      exact h.strip.append_cons rfl ((cons_of_ne (by decide)).2 hb)
  have heq : inBraces ('!' :: unbrace t) ++ b = '{' :: '!' :: (unbrace t ++ ['}'] ++ b) := rfl
  rw [heq]
  exact ⟨fun _ => ⟨_, hacc, b, heq⟩, (cons_of_ne (by decide)).2 hrest⟩

theorem opens_of_expressionAt {m : Text} {r : Piece × Text} (h : expressionAt? m = some r) (b : Text) :
    opens (m ++ b) = true := by
  unfold expressionAt? at h
  split at h
  · split at h
    · rename_i hsign
      exact hsign
    · simp at h
  · simp at h

theorem Clear.startsBinding {m : Text} {p : Piece} (h : Clear accepted (a ++ m ++ b))
    (hm : expressionAt? m = some (p, [])) : StartsBinding accepted (m ++ b) := by
  rw [List.append_assoc] at h
  have hopen := opens_of_expressionAt hm b
  cases hmb : m ++ b with
  | nil => simp [hmb, opens] at hopen
  | cons c cs =>
    have hclear := h.right
    rw [hmb] at hclear hopen
    exact hclear.1 hopen

theorem body?_of_bare {name : Text} (h : ∀ c ∈ name, isBare c = true) (rest : Text) :
    body? none (name ++ '}' :: rest) = some (name, rest) := by
  induction name with
  | nil => simp [body?]
  | cons c cs ih =>
    have hbare := h c (by simp)
    have hc : c ≠ '}' := by
      rintro rfl
      exact absurd hbare (by decide)
    have hq : isQuote c = false := by
      rw [← Bool.not_eq_true]
      intro hq
      simp only [isQuote, Bool.or_eq_true, beq_iff_eq] at hq
      rcases hq with rfl | rfl
      · exact absurd hbare (by decide)
      · exact absurd hbare (by decide)
    rw [List.cons_append, body?, if_neg hc, hq, if_neg (by simp), ih fun d hd => h d (by simp [hd])]
    rfl

theorem brace_notMem_of_bare {name : Text} (h : ∀ c ∈ name, isBare c = true) : '}' ∉ name :=
  fun hmem => absurd (h _ hmem) (by decide)

theorem eq_of_startsNegation {r m : Text} {p : Piece} (hr : IsNegation r)
    (hp : inBraces r <+: m ++ b) (hm : expressionAt? m = some (p, [])) : m = inBraces r := by
  obtain ⟨name, rfl, hname⟩ := hr
  unfold expressionAt? at hm
  split at hm
  · rename_i s cs
    split at hm
    · simp only [Option.map_eq_some_iff, Prod.mk.injEq] at hm
      obtain ⟨⟨inner, rest⟩, hbody, -, rfl⟩ := hm
      simp only [inBraces, List.cons_append, List.cons_prefix_cons, true_and] at hp
      obtain ⟨rfl, hp⟩ := hp
      rcases List.prefix_or_prefix_of_prefix hp (List.prefix_append cs b) with ⟨more, hmore⟩ | hcs
      · have hname' := body?_of_bare hname more
        have heq : name ++ '}' :: more = cs := by simpa using hmore
        rw [heq, hbody] at hname'
        simp only [Option.some.injEq, Prod.mk.injEq] at hname'
        rw [← heq, ← hname'.2]
        simp [inBraces]
      · rcases List.prefix_concat_iff.1 hcs with rfl | hcs
        · simp [inBraces]
        · have hmem : '}' ∈ cs := by simp [← body?_source hbody]
          exact absurd (hcs.subset hmem) (brace_notMem_of_bare hname)
    · simp at hm
  · simp at hm

end LightningTemplate.Expression
