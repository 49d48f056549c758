import LightningTemplate.Proofs.Lexeme

/-! How tokens are written.  What a token is read as says which characters it holds (`IsToken`):
marks stand in a list, numbers and paths have characters of their own, strings start with a
quote, and whatever is left is a single character that is no mark. -/
namespace LightningTemplate.Expression
open Text

variable {c : Char} {t cs : Text} {p : Char → Bool}

def markNames : List (String × TokenKind) :=
  [("&&", .and), ("||", .or), ("==", .comparison), ("===", .comparison), ("!=", .comparison),
    ("!==", .comparison), (">", .comparison), (">=", .comparison), ("<", .comparison),
    ("<=", .comparison), ("!", .not), ("?", .question), (":", .colon), ("+", .arithmetic),
    ("-", .arithmetic), ("*", .arithmetic), ("/", .arithmetic), ("%", .arithmetic),
    ("(", .openParen), (")", .closeParen), ("[", .openBracket), ("]", .closeBracket), (",", .comma)]

def markTable : List (Text × TokenKind) := markNames.map fun m => (m.1.toList, m.2)

inductive IsToken : Token → Prop
  | quoted {q : Char} {r : Text} (opening : isQuote q = true) : IsToken ⟨.string, q :: r⟩
  | number {value : Text} (digits : ∀ d ∈ value, isDigit d = true ∨ d = '.') :
      IsToken ⟨.number, value⟩
  | word {value : Text} (spelled : operatorWords.contains value = true) :
      IsToken ⟨.wordOperator, value⟩
  | path {value : Text} (chars : ∀ d ∈ value, isPathChar d = true)
      (plain : operatorWords.contains value = false) : IsToken ⟨.path, value⟩
  | mark {value : Text} {kind : TokenKind} (listed : (value, kind) ∈ markTable) :
      IsToken ⟨kind, value⟩
  | other {c : Char} (unlisted : ∀ m ∈ markTable, m.1 ≠ [c]) : IsToken ⟨.unknown, [c]⟩

def Reads (c : Char) (cs : Text) (l : Lexeme) : Prop :=
  ∃ kind, l.1 = some kind ∧ IsToken ⟨kind, c :: cs.take l.2⟩

theorem reads_of_mem {kind : TokenKind} {n : Nat} (h : (c :: cs.take n, kind) ∈ markTable) :
    Reads c cs (some kind, n) := ⟨kind, rfl, .mark h⟩

theorem reads_single {d : Char} {kind : TokenKind} (h : ([d], kind) ∈ markTable) (hc : c = d) :
    Reads c cs (some kind, 0) := reads_of_mem (by rwa [List.take_zero, hc])

theorem reads_markAt (c : Char) (cs : Text) : Reads c cs (markAt c cs) := by
  have hnext {d : Char} (h : cs.head? = some d) : cs.take 1 = [d] := by
    obtain ⟨ds, rfl⟩ := List.head?_eq_some_iff.1 h
    rfl
  unfold markAt
  refine iteInduction (motive := Reads c cs) (fun ⟨hc, hd⟩ => ?_) fun _ => ?_
  · exact reads_of_mem (by rw [hc, hnext hd]; decide)
  refine iteInduction (motive := Reads c cs) (fun ⟨hc, hd⟩ => ?_) fun _ => ?_
  · exact reads_of_mem (by rw [hc, hnext hd]; decide)
  refine iteInduction (motive := Reads c cs) (fun ⟨hc, hd⟩ => ?_) fun _ => ?_
  · obtain ⟨ds, rfl⟩ := List.head?_eq_some_iff.1 hd
    refine reads_of_mem ?_
    split
    · rename_i hthird
      obtain ⟨es, rfl⟩ := List.head?_eq_some_iff.1 hthird
      rw [List.take_succ_cons, List.take_succ_cons, List.take_zero]
      rcases hc with rfl | rfl <;> decide
    · rw [hnext hd]
      rcases hc with rfl | rfl <;> decide
  refine iteInduction (motive := Reads c cs) (fun hc => ?_) fun horder => ?_
  · refine reads_of_mem ?_
    split
    · rw [hnext ‹_›]
      rcases hc with rfl | rfl <;> decide
    · rw [List.take_zero]
      rcases hc with rfl | rfl <;> decide
  refine iteInduction (motive := Reads c cs) (reads_single (by decide)) fun hnot => ?_
  refine iteInduction (motive := Reads c cs) (reads_single (by decide)) fun hquestion => ?_
  refine iteInduction (motive := Reads c cs) (reads_single (by decide)) fun hcolon => ?_
  refine iteInduction (motive := Reads c cs) (fun hc => ?_) fun harithmetic => ?_
  · rcases hc with hc | hc | hc | hc | hc <;> exact reads_single (by decide) hc
  refine iteInduction (motive := Reads c cs) (reads_single (by decide)) fun hopen => ?_
  refine iteInduction (motive := Reads c cs) (reads_single (by decide)) fun hclose => ?_
  refine iteInduction (motive := Reads c cs) (reads_single (by decide)) fun hopenBracket => ?_
  refine iteInduction (motive := Reads c cs) (reads_single (by decide)) fun hcloseBracket => ?_
  refine iteInduction (motive := Reads c cs) (reads_single (by decide)) fun hcomma => ?_
  refine ⟨.unknown, rfl, ?_⟩
  rw [List.take_zero]
  refine .other fun m hm heq => ?_
  have hletters : ∀ m ∈ markTable, m.1.tail = [] → m.1.head? ∈ ['>', '<', '!', '?', ':', '+', '-',
      '*', '/', '%', '(', ')', '[', ']', ','].map some := by decide
  have hmem := hletters m hm (by rw [heq]; rfl)
  rw [heq] at hmem
  simp_all

theorem mem_take_runLength {d : Char} (h : d ∈ t.take (runLength p t)) : p d = true := by
  have htake : t.take (runLength p t) = t.takeWhile p :=
    (List.prefix_iff_eq_take.1 (List.takeWhile_prefix p)).symm
  rw [htake] at h
  exact List.mem_takeWhile_imp h

theorem digits_numberTail {d : Char} (h : d ∈ cs.take (numberTail cs)) :
    isDigit d = true ∨ d = '.' := by
  rw [numberTail_eq, List.take_add, List.mem_append] at h
  rcases h with h | h
  · exact .inl (mem_take_runLength h)
  · generalize cs.drop (runLength isDigit cs) = u at h
    unfold fractionLength at h
    split at h
    · split at h
      · simp at h
      · rw [Nat.add_comm, List.take_succ_cons, List.mem_cons] at h
        exact h.symm.imp_left mem_take_runLength
    · simp at h

theorem isToken_ofValue_path {value : Text} (h : ∀ d ∈ value, isPathChar d = true) :
    IsToken (.ofValue .path value) := by
  unfold Token.ofValue
  split
  · exact .word (‹_ ∧ _›).2
  · exact .path h (by simp_all)

theorem isToken_lexeme {kind : TokenKind} (h : (lexemeAt c cs).1 = some kind)
    (hkind : kind ≠ .path) : IsToken ⟨kind, c :: cs.take (lexemeAt c cs).2⟩ := by
  have hother (d : Char) (hd : ∀ m ∈ markTable, m.1 ≠ [d]) (hc : c = d) :
      IsToken ⟨.unknown, c :: cs.take 0⟩ := by
    rw [List.take_zero, hc]
    exact .other hd
  revert h
  unfold lexemeAt
  split
  · simp
  · split
    · rename_i hquote
      have hopens : isQuote c = true := by simpa [isQuote] using hquote
      split
      · rintro ⟨⟩
        exact .quoted hopens
      · rintro ⟨⟩
        rcases hquote with hc | hc <;> exact hother _ (by decide) hc
    · split
      · rename_i hdigit
        rintro ⟨⟩
        exact .number (List.forall_mem_cons.2 ⟨.inl hdigit, fun d hd => digits_numberTail hd⟩)
      · split
        · rintro ⟨⟩
          exact absurd rfl hkind
        · split
          · rename_i hdollar
            split
            · split
              · rintro ⟨⟩
                exact absurd rfl hkind
              · rintro ⟨⟩
                exact hother _ (by decide) hdollar
            · rintro ⟨⟩
              exact hother _ (by decide) hdollar
          · intro h
            obtain ⟨kind', hkind', hmark⟩ := reads_markAt c cs
            obtain rfl := Option.some.inj (hkind'.symm.trans h)
            exact hmark

theorem isToken_of_tokenAt {tok : Token} (h : tokenAt c cs = some tok) : IsToken tok := by
  obtain ⟨kind, hlex, rfl⟩ := Option.map_eq_some_iff.1 h
  by_cases hkind : kind = .path
  · subst hkind
    exact isToken_ofValue_path (isPathChar_lexemeAt hlex)
  · rw [Token.ofValue, if_neg fun h => hkind h.1]
    exact isToken_lexeme hlex hkind

end LightningTemplate.Expression
