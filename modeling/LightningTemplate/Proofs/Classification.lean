import LightningTemplate.Proofs.TokenSpacing

/-! What expressions are taken for.  A path of a known form (`Known`), or `!` and such a path, is a
reference of its own kind.  Any other path passes as it is written.  What is no path, with or
without `!`, is computed when one of its tokens is an operator or opens a bracket, and passes as
it is written otherwise. -/
namespace LightningTemplate.Expression
open Text

variable {e t p ref : Text} {kind : Kind} {negated : Bool} {tok : Token}

/-- The paths that become references of a template, with their kinds and references. -/
inductive Known : Text → Kind → Text → Prop
  | value {w : Text} (name : IsPathName w) : Known (dotted ['v'] [w]) .simpleFlat w
  | handler {w : Text} (name : IsPathName w) : Known (dotted ['c'] [w]) .simpleFlat w
  | label {v w : Text} (space : IsPathName v) (name : IsPathName w) :
      Known (dotted "$Label".toList [v, w]) .simpleFlat ("label".toList ++ v ++ w)
  | globalId : Known "globalId".toList .simpleFlat "globalId".toList
  | field {inner : List Text} {f : Text} (nested : inner ≠ []) (names : ∀ w ∈ inner, IsPathName w)
      (name : IsPathName f) : Known (dotted ['v'] (inner ++ [f])) .simpleDotted (fieldGetter f)

theorem isRoot_label : IsRoot "$Label".toList :=
  ⟨'L', "abel".toList, by decide, List.all_eq_true.1 (by decide), .inr rfl⟩

theorem isRoot_globalId : IsRoot "globalId".toList :=
  ⟨'g', "lobalId".toList, by decide, List.all_eq_true.1 (by decide), .inl rfl⟩

theorem Known.isPath (h : Known p kind ref) : IsPath p := by
  have hv : IsRoot ['v'] := isRoot_letter (by decide)
  have hc : IsRoot ['c'] := isRoot_letter (by decide)
  cases h with
  | value name => exact ⟨_, _, hv, by simpa using name, rfl, not_operator (by decide)⟩
  | handler name => exact ⟨_, _, hc, by simpa using name, rfl, not_operator (by decide)⟩
  | label space name =>
    exact ⟨_, _, isRoot_label, by simpa using ⟨space, name⟩, rfl, not_operator (by decide)⟩
  | globalId => exact ⟨_, [], isRoot_globalId, by simp, rfl, by decide⟩
  | field nested names name =>
    refine ⟨_, _, hv, List.forall_mem_append.2 ⟨names, ?_⟩, rfl, not_operator (by decide)⟩
    exact List.forall_mem_singleton.2 name

section
variable {root last : Text} {inner : List Text}

theorem ofPath_single (h : splitOn '.' p = [root]) :
    ofPath p = (if root = "globalId".toList then .simpleFlat else .passthrough, p) := by
  unfold ofPath
  rw [h]

theorem ofPath_pair (h : splitOn '.' p = [root, last]) : ofPath p =
    if root = ['v'] ∨ root = ['c'] then (.simpleFlat, last) else (.passthrough, p) := by
  unfold ofPath
  rw [h]

theorem ofPath_nested (hne : inner ≠ []) (h : splitOn '.' p = root :: (inner ++ [last])) :
    ofPath p = if root = ['v'] then (.simpleDotted, fieldGetter last)
      else if root = "$Label".toList ∧ inner.length = 1 then
        (.simpleFlat, "label".toList ++ inner.flatten ++ last)
      else (.passthrough, p) := by
  obtain ⟨middle, ms, rfl⟩ := List.exists_cons_of_ne_nil hne
  unfold ofPath
  rw [h]
  cases ms with
  | nil =>
    have hflat : [middle].flatten = middle := by simp
    simp only [List.singleton_append, List.getLast_singleton, List.length_singleton, hflat,
      and_true]
  | cons m ms =>
    have hlong : (m :: ms).length + 1 ≠ 1 := by simp
    simp only [List.cons_append]
    split
    · simp
    · split <;> simp_all

theorem ofPath_ne_complex (p : Text) : (ofPath p).1 ≠ .complex := by
  unfold ofPath
  repeat' split
  all_goals simp

theorem ofPath_passthrough (h : (ofPath p).1 = .passthrough) : (ofPath p).2 = p := by
  unfold ofPath at h ⊢
  split
  · rfl
  · rename_i hsplit
    rw [hsplit] at h
    dsimp only at h
    split at h
    · cases h
    · rename_i hroot
      rw [if_neg hroot]
  · rename_i hsplit
    rw [hsplit] at h
    dsimp only at h
    split at h
    · cases h
    · split at h
      · cases h
      · rename_i hroot hlabel
        rw [if_neg hroot, if_neg hlabel]
  · rfl

end

theorem Known.ofPath_eq (h : Known p kind ref) : ofPath p = (kind, ref) := by
  have hv : IsRoot ['v'] := isRoot_letter (by decide)
  have hc : IsRoot ['c'] := isRoot_letter (by decide)
  cases h with
  | value name => rw [ofPath_pair (IsPath.splitOn hv (by simpa using name)), if_pos (.inl rfl)]
  | handler name => rw [ofPath_pair (IsPath.splitOn hc (by simpa using name)), if_pos (.inr rfl)]
  | @label v w space name =>
    have hnames : ∀ u ∈ [v, w], IsPathName u := by simpa using ⟨space, name⟩
    have hsplit : splitOn '.' (dotted "$Label".toList [v, w]) = "$Label".toList :: ([v] ++ [w]) :=
      IsPath.splitOn isRoot_label hnames
    rw [ofPath_nested (List.cons_ne_nil v []) hsplit, if_neg (by decide), if_pos ⟨rfl, rfl⟩,
      List.flatten_singleton]
  | globalId => decide
  | @field inner f nested names name =>
    have hnames : ∀ w ∈ inner ++ [f], IsPathName w :=
      List.forall_mem_append.2 ⟨names, List.forall_mem_singleton.2 name⟩
    rw [ofPath_nested nested (IsPath.splitOn hv hnames), if_pos rfl]

theorem known_of_ofPath (h : IsPath p) (hkind : (ofPath p).1 ≠ .passthrough) :
    Known p (ofPath p).1 (ofPath p).2 := by
  obtain ⟨root, others, hroot, hothers, rfl, -⟩ := h
  have hsplit := IsPath.splitOn hroot hothers
  rcases List.eq_nil_or_concat' others with rfl | ⟨inner, f, rfl⟩
  · rw [ofPath_single hsplit] at hkind ⊢
    split at hkind
    · rename_i hid
      rw [if_pos hid, hid]
      exact .globalId
    · exact absurd rfl hkind
  · obtain ⟨hinner, hf⟩ := List.forall_mem_append.1 hothers
    rw [List.forall_mem_singleton] at hf
    by_cases hnested : inner = []
    · subst hnested
      rw [ofPath_pair hsplit] at hkind ⊢
      split at hkind
      · rename_i hvc
        rw [if_pos hvc]
        rcases hvc with rfl | rfl
        · exact .value hf
        · exact .handler hf
      · exact absurd rfl hkind
    · rw [ofPath_nested hnested hsplit] at hkind ⊢
      split at hkind
      · rename_i hv
        subst hv
        rw [if_pos rfl]
        exact .field hnested hinner hf
      · rename_i hv
        split at hkind
        · rename_i hlabel
          obtain ⟨v, rfl⟩ := List.length_eq_one_iff.1 hlabel.2
          rw [if_neg hv, if_pos hlabel, hlabel.1, List.flatten_singleton]
          exact .label (List.forall_mem_singleton.1 hinner) hf
        · exact absurd rfl hkind

/-- The text is the path, or `!`, blanks and then the path. -/
inductive Signed (p : Text) : Bool → Text → Prop
  | plain : Signed p false p
  | negated {gap : Text} (blank : isAllBlank gap = true) : Signed p true ('!' :: (gap ++ p))

theorem signed_plain_iff : Signed p false t ↔ t = p := by
  constructor
  · rintro ⟨⟩
    rfl
  · rintro rfl
    exact .plain

theorem signed_negated_iff :
    Signed p true t ↔ ∃ gap, isAllBlank gap = true ∧ t = '!' :: (gap ++ p) := by
  constructor
  · rintro ⟨⟩
    exact ⟨_, ‹_›, rfl⟩
  · rintro ⟨gap, hgap, rfl⟩
    exact .negated hgap

def signed (negated : Bool) (ref : Text) : Text := if negated then '!' :: ref else ref

theorem classify_signed (hp : IsPath p) (h : Signed p negated (strip e)) :
    classify e = ⟨(ofPath p).1, strip e, signed negated (ofPath p).2, negated⟩ := by
  cases negated with
  | false =>
    have htokens := tokens_eq_path_iff.2 ⟨signed_plain_iff.1 h, hp⟩
    simp [classify, htokens, signed]
  | true =>
    obtain ⟨gap, hgap, hs⟩ := signed_negated_iff.1 h
    obtain ⟨sign, htokens⟩ := tokens_eq_not_path_iff.2 ⟨gap, hgap, hs, hp⟩
    simp [classify, htokens, signed]

/-- Anything else is taken for what its tokens are. -/
theorem classify_unsigned (h : ∀ p negated, IsPath p → ¬Signed p negated (strip e)) :
    classify e = if (tokens (strip e)).any (·.kind.computes) then ⟨.complex, strip e, [], false⟩
      else ⟨.passthrough, strip e, strip e, false⟩ := by
  unfold classify
  dsimp only
  split
  · rename_i p heq
    obtain ⟨hs, hp⟩ := tokens_eq_path_iff.1 heq
    exact absurd (signed_plain_iff.2 hs) (h p false hp)
  · rename_i sign p heq
    obtain ⟨gap, hgap, hs, hp⟩ := tokens_eq_not_path_iff.1 ⟨sign, heq⟩
    exact absurd (signed_negated_iff.2 ⟨gap, hgap, hs⟩) (h p true hp)
  · rfl

def operators : List Text :=
  ["!", "?", ":", "&&", "||", "==", "===", "!=", "!==", ">", ">=", "<", "<=", "+", "-", "*", "/",
    "%", "(", "["].map String.toList ++ operatorWords

/-- What computes is written as an operator, and outside of strings nothing else is. -/
theorem IsToken.computes_iff (h : IsToken tok) :
    tok.kind.computes = true ↔ tok.kind ≠ .string ∧ tok.value ∈ operators := by
  cases h with
  | quoted => exact iff_of_false Bool.false_ne_true fun h => h.1 rfl
  | number digits =>
    have hoperators : ∀ v ∈ operators, v.any fun d => !isDigit d && d != '.' := by decide
    refine iff_of_false Bool.false_ne_true fun h => ?_
    obtain ⟨d, hd, hnumber⟩ := List.any_eq_true.1 (hoperators _ h.2)
    have := digits d hd
    simp_all
  | word spelled =>
    exact iff_of_true rfl ⟨nofun, List.mem_append_right _ (List.contains_iff_mem.1 spelled)⟩
  | path chars plain =>
    have hoperators : ∀ v ∈ operators, v ∈ operatorWords ∨ v.any (!isPathChar ·) := by
      decide
    refine iff_of_false Bool.false_ne_true fun h => ?_
    rcases hoperators _ h.2 with hword | hany
    · exact absurd (plain.symm.trans (List.contains_iff_mem.2 hword)) (by decide)
    · obtain ⟨d, hd, hpath⟩ := List.any_eq_true.1 hany
      rw [chars d hd] at hpath
      exact absurd hpath (by decide)
  | mark listed =>
    have hmarks : ∀ m ∈ markTable,
        m.2.computes = true ↔ m.2 ≠ .string ∧ m.1 ∈ operators := by decide
    exact hmarks _ listed
  | @other c unlisted =>
    have hsingle : ∀ v ∈ operators, v.length = 1 → ∃ m ∈ markTable, m.1 = v := by decide
    refine iff_of_false Bool.false_ne_true fun h => ?_
    obtain ⟨m, hm, heq⟩ := hsingle _ h.2 rfl
    exact unlisted m hm heq

theorem any_computes (t : Text) : (tokens t).any (·.kind.computes) = true ↔
    ∃ tok ∈ tokens t, tok.kind ≠ .string ∧ tok.value ∈ operators := by
  rw [List.any_eq_true]
  constructor
  · rintro ⟨tok, hmem, hcomputes⟩
    obtain ⟨c, cs, htok⟩ := exists_tokenAt hmem
    exact ⟨tok, hmem, (isToken_of_tokenAt htok).computes_iff.1 hcomputes⟩
  · rintro ⟨tok, hmem, hvalue⟩
    obtain ⟨c, cs, htok⟩ := exists_tokenAt hmem
    exact ⟨tok, hmem, (isToken_of_tokenAt htok).computes_iff.2 hvalue⟩

theorem classify_known (hp : Known p kind ref) (h : Signed p negated (strip e)) :
    classify e = ⟨kind, strip e, signed negated ref, negated⟩ := by
  rw [classify_signed hp.isPath h, hp.ofPath_eq]

/-- Either some path is written, perhaps negated, or none is. -/
theorem signed_or_not (e : Text) : (∃ p negated, IsPath p ∧ Signed p negated (strip e)) ∨
    ∀ p negated, IsPath p → ¬Signed p negated (strip e) := by
  by_cases h : ∃ p negated, IsPath p ∧ Signed p negated (strip e)
  · exact .inl h
  · exact .inr fun p negated hp hsigned => h ⟨p, negated, hp, hsigned⟩

theorem classify_kind_iff (hkind : kind = .simpleFlat ∨ kind = .simpleDotted) :
    (classify e).kind = kind ↔ ∃ p ref negated, Known p kind ref ∧ Signed p negated (strip e) := by
  constructor
  · rintro rfl
    rcases signed_or_not e with ⟨p, negated, hp, hsigned⟩ | hnone
    · rw [classify_signed hp hsigned] at hkind ⊢
      have hpass : (ofPath p).1 ≠ .passthrough := by
        dsimp only at hkind
        rcases hkind with h | h <;> rw [h] <;> decide
      exact ⟨p, _, negated, known_of_ofPath hp hpass, hsigned⟩
    · rw [classify_unsigned hnone] at hkind
      split at hkind <;> simp at hkind
  · rintro ⟨p, ref, negated, hp, hsigned⟩
    rw [classify_known hp hsigned]

theorem classify_complex_iff : (classify e).kind = .complex ↔
    (∀ p negated, IsPath p → ¬Signed p negated (strip e)) ∧
      ∃ tok ∈ tokens (strip e), tok.kind ≠ .string ∧ tok.value ∈ operators := by
  rcases signed_or_not e with ⟨p, negated, hp, hsigned⟩ | hnone
  · rw [classify_signed hp hsigned]
    exact iff_of_false (ofPath_ne_complex p) fun h => h.1 p negated hp hsigned
  · rw [classify_unsigned hnone, ← any_computes]
    split
    · rename_i hany
      exact iff_of_true rfl ⟨hnone, hany⟩
    · rename_i hany
      exact iff_of_false nofun fun h => hany h.2

theorem classify_passthrough (h : (classify e).kind = .passthrough) :
    (∃ p, IsPath p ∧ Signed p true (strip e) ∧ (classify e).negated = true ∧
      (classify e).reference = '!' :: p) ∨
    (∀ p, IsPath p → ¬Signed p true (strip e)) ∧ (classify e).negated = false ∧
      (classify e).reference = strip e := by
  rcases signed_or_not e with ⟨p, negated, hp, hsigned⟩ | hnone
  · have hclassify := classify_signed hp hsigned
    rw [hclassify] at h ⊢
    have href := ofPath_passthrough h
    cases negated with
    | true => exact .inl ⟨p, hp, hsigned, rfl, congrArg ('!' :: ·) href⟩
    | false =>
      refine .inr ⟨fun p' hp' hsigned' => ?_, rfl, ?_⟩
      · rw [classify_signed hp' hsigned'] at hclassify
        cases congrArg Classification.negated hclassify
      · rw [signed_plain_iff.1 hsigned]
        exact href
  · rw [classify_unsigned hnone] at h ⊢
    split at h
    · cases h
    · rename_i hany
      rw [if_neg hany]
      exact .inr ⟨fun p hp => hnone p true hp, rfl, rfl⟩

theorem classify_source (e : Text) : (classify e).source = strip e := by
  rcases signed_or_not e with ⟨p, negated, hp, hsigned⟩ | hnone
  · rw [classify_signed hp hsigned]
  · rw [classify_unsigned hnone]
    split <;> rfl

/-- An expression is a reference of one of the two simple kinds just when it is a path of that form,
perhaps negated, and then its reference is that of the path.  It is computed just when it is no
path, perhaps negated, and has an operator or an opening bracket outside of its strings.
Otherwise it passes, with its path or all of its text for a reference. -/
theorem classify_grammar (e : Text) :
    (∀ kind, kind = .simpleFlat ∨ kind = .simpleDotted → ((classify e).kind = kind ↔
      ∃ p ref negated, Known p kind ref ∧ Signed p negated (strip e))) ∧
    (∀ p kind ref negated, Known p kind ref → Signed p negated (strip e) →
      (classify e).negated = negated ∧ (classify e).reference = signed negated ref) ∧
    ((classify e).kind = .complex ↔ (∀ p negated, IsPath p → ¬Signed p negated (strip e)) ∧
      ∃ tok ∈ tokens (strip e), tok.kind ≠ .string ∧ tok.value ∈ operators) ∧
    ((classify e).kind = .passthrough →
      (∃ p, IsPath p ∧ Signed p true (strip e) ∧ (classify e).negated = true ∧
        (classify e).reference = '!' :: p) ∨
      (∀ p, IsPath p → ¬Signed p true (strip e)) ∧ (classify e).negated = false ∧
        (classify e).reference = strip e) ∧
    (classify e).source = strip e := by
  refine ⟨fun kind hkind => classify_kind_iff hkind, fun p kind ref negated hp hsigned => ?_,
    classify_complex_iff, classify_passthrough, classify_source e⟩
  rw [classify_known hp hsigned]
  exact ⟨rfl, rfl⟩

end LightningTemplate.Expression
