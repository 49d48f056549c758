import LightningTemplate.SideChannel
import LightningTemplate.Proofs.Rewriting

/-! Lists of field names and the texts that spell them.  A text spells a list of names
(`SpellsList`) as items between commas, in brackets or not; an item is a name, bare or between
quote marks, or nothing, and blanks may stand around names and brackets.  Whatever spells a list
is read as that list, in its order and with its repetitions. -/
namespace LightningTemplate
open Text

namespace Text
variable {p : Char → Bool} {a b t : Text} {sep : Char}

theorem stripBoth_append_left (ha : a.all p = true) (t : Text) :
    stripBoth p (a ++ t) = stripBoth p t := by
  rw [stripBoth, stripLeft, List.dropWhile_append_of_pos (List.all_eq_true.1 ha)]
  rfl

theorem stripRight_append_right (hb : b.all p = true) (t : Text) :
    stripRight p (t ++ b) = stripRight p t := by
  rw [stripRight, List.reverse_append, List.dropWhile_append_of_pos]
  · rfl
  · exact fun c hc => List.all_eq_true.1 hb c (List.mem_reverse.1 hc)

theorem stripBoth_append_right (hb : b.all p = true) (t : Text) :
    stripBoth p (t ++ b) = stripBoth p t := by
  rw [stripBoth, stripBoth, stripLeft, List.dropWhile_append]
  split
  · rename_i hnone
    have hleft : stripLeft p t = [] := List.isEmpty_iff.1 hnone
    have hright : b.dropWhile p = [] := List.dropWhile_eq_nil_iff.2 (List.all_eq_true.1 hb)
    rw [hleft, hright]
  · exact stripRight_append_right hb _

/-- A text is stripped where its first and last characters are not to be dropped. -/
theorem stripBoth_of_ends (hfirst : ∀ c ∈ t.head?, p c = false)
    (hlast : ∀ c ∈ t.getLast?, p c = false) : stripBoth p t = t := by
  have hleft : stripLeft p t = t := by
    cases t with
    | nil => rfl
    | cons c cs => exact List.dropWhile_cons_of_neg (by simp [hfirst c rfl])
  have hright : stripRight p t = t := by
    rw [← List.head?_reverse] at hlast
    rw [stripRight]
    cases h : t.reverse with
    | nil => rw [List.reverse_eq_nil_iff.1 h, List.dropWhile_nil, List.reverse_nil]
    | cons c cs =>
      rw [h] at hlast
      rw [List.dropWhile_cons_of_neg (by simp [hlast c rfl]), ← h, List.reverse_reverse]
  rw [stripBoth, hleft, hright]

theorem stripBoth_of_none (h : ∀ c ∈ t, p c = false) : stripBoth p t = t :=
  stripBoth_of_ends (fun c hc => h c (List.mem_of_mem_head? hc))
    fun c hc => h c (List.mem_of_getLast? hc)

theorem strip_append (ha : isAllBlank a = true) (hb : isAllBlank b = true) (t : Text) :
    strip (a ++ (t ++ b)) = strip t :=
  (stripBoth_append_left ha _).trans (stripBoth_append_right hb t)

/-- What stands in front of a text goes to its first piece. -/
theorem splitOn_append_left (ha : sep ∉ a) (t : Text) : ∃ first rest,
    splitOn sep t = first :: rest ∧ splitOn sep (a ++ t) = (a ++ first) :: rest := by
  induction a with
  | nil =>
    obtain ⟨first, rest, h⟩ := List.exists_cons_of_ne_nil (splitOn_ne_nil sep t)
    exact ⟨first, rest, h, h⟩
  | cons c a ih =>
    rw [List.mem_cons, not_or] at ha
    obtain ⟨first, rest, h, hsplit⟩ := ih ha.2
    refine ⟨first, rest, h, ?_⟩
    rw [List.cons_append, splitOn, if_neg (Ne.symm ha.1), hsplit]
    rfl

/-- What stands behind a text goes to its last piece. -/
theorem splitOn_append_right (hb : sep ∉ b) (t : Text) : ∃ before last,
    splitOn sep t = before ++ [last] ∧ splitOn sep (t ++ b) = before ++ [last ++ b] := by
  induction t with
  | nil => exact ⟨[], [], rfl, splitOn_of_notMem hb⟩
  | cons c t ih =>
    obtain ⟨before, last, h, hsplit⟩ := ih
    rw [List.cons_append, splitOn, splitOn, h, hsplit]
    by_cases hc : c = sep
    · exact ⟨[] :: before, last, by rw [if_pos hc]; rfl, by rw [if_pos hc]; rfl⟩
    · rw [if_neg hc, if_neg hc]
      cases before with
      | nil => exact ⟨[], c :: last, rfl, rfl⟩
      | cons w before => exact ⟨(c :: w) :: before, last, rfl, rfl⟩

theorem map_strip_splitOn_strip (hsep : isBlank sep = false) (t : Text) :
    (splitOn sep (strip t)).map strip = (splitOn sep t).map strip := by
  have hout : ∀ {s : Text}, isAllBlank s = true → sep ∉ s := fun {s} hs hmem => by
    rw [List.all_eq_true.1 hs sep hmem] at hsep
    contradiction
  obtain ⟨a, b, ha, hb, ht⟩ := exists_strip t
  obtain ⟨before, last, hstrip, hright⟩ := splitOn_append_right (hout hb) (strip t)
  obtain ⟨first, rest, hwhole, hleft⟩ := splitOn_append_left (hout ha) (strip t ++ b)
  have hfirst : strip (a ++ first) = strip first := stripBoth_append_left ha first
  have hlast : strip (last ++ b) = strip last := stripBoth_append_right hb last
  calc
    (splitOn sep (strip t)).map strip = (before ++ [last ++ b]).map strip := by
      rw [hstrip, List.map_append, List.map_append, List.map_singleton, List.map_singleton, hlast]
    _ = (first :: rest).map strip := by rw [← hright, hwhole]
    _ = (splitOn sep t).map strip := by
      conv_rhs => rw [ht, hleft]
      rw [List.map_cons, List.map_cons, hfirst]

end Text

def isFieldChar (c : Char) : Bool := isWord c || c == '.'

/-- A word as it stands, or between two quote marks of one kind. -/
inductive SpellsWord (word : Text) : Text → Prop
  | bare : SpellsWord word word
  | quoted (mark : Char) (hmark : isQuoteMark mark = true) :
      SpellsWord word (mark :: (word ++ [mark]))

/-- A word, maybe an empty one, with blanks around it. -/
inductive SpellsItem (word : Text) : Text → Prop
  | mk (before after : Text) {t : Text} (hbefore : isAllBlank before = true)
      (hafter : isAllBlank after = true) (hword : ∀ c ∈ word, isFieldChar c = true)
      (h : SpellsWord word t) : SpellsItem word (before ++ (t ++ after))

inductive SpellsItems : List Text → Text → Prop
  | single {word t : Text} (h : SpellsItem word t) : SpellsItems [word] t
  | cons {word : Text} {words : List Text} {t u : Text} (h : SpellsItem word t)
      (hrest : SpellsItems words u) : SpellsItems (word :: words) (t ++ ',' :: u)

/-- Items in a pair of brackets or without one, with blanks around the whole.  Items with an
empty word stand for no name. -/
inductive SpellsList : List Text → Text → Prop
  | bare (before after : Text) {words : List Text} {t : Text} (hbefore : isAllBlank before = true)
      (hafter : isAllBlank after = true) (h : SpellsItems words t) :
      SpellsList (words.filter (!·.isEmpty)) (before ++ (t ++ after))
  | bracketed (before after : Text) {words : List Text} {t : Text}
      (hbefore : isAllBlank before = true) (hafter : isAllBlank after = true)
      (h : SpellsItems words t) :
      SpellsList (words.filter (!·.isEmpty)) (before ++ (('[' :: (t ++ [']'])) ++ after))

variable {word t : Text} {words names : List Text} {c : Char}

theorem isBlank_of_isFieldChar (h : isFieldChar c = true) : isBlank c = false := by
  rw [isFieldChar, Bool.or_eq_true, beq_iff_eq] at h
  rcases h with hword | rfl
  · refine Bool.eq_false_iff.2 fun hblank => ?_
    have hbare := isBare_of_isWord hword
    simp [isBare, isMark, hblank] at hbare
  · decide

theorem quoteMark_cases (h : isQuoteMark c = true) : c = '\'' ∨ c = '"' := by
  simpa [isQuoteMark] using h

theorem isQuoteMark_of_isFieldChar (h : isFieldChar c = true) : isQuoteMark c = false := by
  refine Bool.eq_false_iff.2 fun hquote => ?_
  rcases quoteMark_cases hquote with rfl | rfl
  · exact absurd h (by decide +kernel)
  · exact absurd h (by decide +kernel)

theorem isBlank_of_isQuoteMark (h : isQuoteMark c = true) : isBlank c = false := by
  rcases quoteMark_cases h with rfl | rfl
  · decide
  · decide

theorem SpellsWord.mem (h : SpellsWord word t) (hc : c ∈ t) : c ∈ word ∨ isQuoteMark c = true := by
  cases h with
  | bare => exact .inl hc
  | quoted mark hmark =>
    simp only [List.mem_cons, List.mem_append, List.not_mem_nil, or_false] at hc
    rcases hc with rfl | hc | rfl
    · exact .inr hmark
    · exact .inl hc
    · exact .inr hmark

def isItemChar (c : Char) : Bool := isFieldChar c || isBlank c || isQuoteMark c

theorem SpellsItem.chars (h : SpellsItem word t) : ∀ c ∈ t, isItemChar c = true := by
  obtain ⟨before, after, hbefore, hafter, hword, h⟩ := h
  have hblank : ∀ {b : Text}, isAllBlank b = true → ∀ c ∈ b, isItemChar c = true :=
    fun hb c hc => by simp [isItemChar, List.all_eq_true.1 hb c hc]
  rw [List.forall_mem_append, List.forall_mem_append]
  refine ⟨hblank hbefore, fun c hc => ?_, hblank hafter⟩
  rcases h.mem hc with hc | hquote
  · simp [isItemChar, hword c hc]
  · simp [isItemChar, hquote]

theorem SpellsItem.notMem (h : SpellsItem word t) (hc : isItemChar c = false) : c ∉ t := by
  intro hmem
  rw [h.chars c hmem] at hc
  contradiction

theorem SpellsItems.notMem (h : SpellsItems words t) (hc : isItemChar c = false)
    (hcomma : c ≠ ',') : c ∉ t := by
  induction h with
  | single h => exact h.notMem hc
  | cons h _ ih =>
    rw [List.mem_append, List.mem_cons, not_or, not_or]
    exact ⟨h.notMem hc, hcomma, ih⟩

def fieldWord (item : Text) : Text := strip (stripBoth isQuoteMark (strip item))

theorem fieldWord_strip (item : Text) : fieldWord (strip item) = fieldWord item := by
  rw [fieldWord, strip_strip, fieldWord]

theorem fieldWord_of_spellsItem (h : SpellsItem word t) : fieldWord t = word := by
  obtain ⟨before, after, hbefore, hafter, hword, h⟩ := h
  rename_i s
  have hsolid : ∀ c ∈ s, isBlank c = false := fun c hc =>
    (h.mem hc).elim (fun hc => isBlank_of_isFieldChar (hword c hc)) isBlank_of_isQuoteMark
  have hplain : stripBoth isQuoteMark word = word :=
    stripBoth_of_none fun c hc => isQuoteMark_of_isFieldChar (hword c hc)
  have hunquoted : stripBoth isQuoteMark s = word := by
    cases h with
    | bare => exact hplain
    | quoted mark hmark =>
      have hleft := stripBoth_append_left (p := isQuoteMark) (a := [mark]) (by simp [hmark])
        (word ++ [mark])
      have hright := stripBoth_append_right (p := isQuoteMark) (b := [mark]) (by simp [hmark]) word
      exact hleft.trans (hright.trans hplain)
  have hstrip : ∀ {s : Text}, (∀ c ∈ s, isBlank c = false) → strip s = s := stripBoth_of_none
  rw [fieldWord, strip_append hbefore hafter, hstrip hsolid, hunquoted]
  exact hstrip fun c hc => isBlank_of_isFieldChar (hword c hc)

theorem map_fieldWord_splitOn (h : SpellsItems words t) :
    (splitOn ',' t).map fieldWord = words := by
  have hcomma : isItemChar ',' = false := by decide +kernel
  induction h with
  | single h =>
    rw [splitOn_of_notMem (h.notMem hcomma), List.map_singleton, fieldWord_of_spellsItem h]
  | cons h _ ih =>
    rw [splitOn_append_cons (h.notMem hcomma), List.map_cons, fieldWord_of_spellsItem h, ih]

theorem map_fieldWord_strip (t : Text) :
    (splitOn ',' (strip t)).map fieldWord = (splitOn ',' t).map fieldWord := by
  have hmap : ∀ items : List Text, (items.map strip).map fieldWord = items.map fieldWord := by
    intro items
    simp only [List.map_map, Function.comp_def, fieldWord_strip]
  rw [← hmap, map_strip_splitOn_strip (by decide), hmap]

theorem bracketed_brackets (h : ']' ∉ t) : bracketed ('[' :: (t ++ [']'])) = t := by
  have hopen : cut '[' ('[' :: (t ++ [']'])) = ([], some (t ++ [']'])) :=
    cut_append_cons (a := []) List.not_mem_nil _
  rw [bracketed, hopen]
  dsimp only
  rw [cut_append_cons h]

theorem bracketed_of_notMem (h : '[' ∉ t) : bracketed t = t := by
  rw [bracketed, cut_of_notMem h]

theorem not_occurs_of_notMem (h : '{' ∉ t) : Expression.occurs t = false := by
  have hpieces := Expression.pieces_append h []
  rw [List.append_nil, Expression.pieces_nil, List.append_nil] at hpieces
  rw [Expression.occurs, hpieces, List.any_map, List.any_eq_false]
  exact fun _ _ => Bool.false_ne_true

/-- Without braces, the names are those in the brackets, or in the whole text. -/
theorem fieldList_eq (h : '{' ∉ t) : fieldList t =
    ((splitOn ',' (bracketed (strip t))).map fieldWord).filter (!·.isEmpty) := by
  have hnone : Expression.occurs (strip t) = false :=
    not_occurs_of_notMem fun hmem => h (mem_strip hmem)
  rw [fieldList, hnone, if_neg Bool.false_ne_true]
  rfl

theorem not_isItemChar : ∀ c ∈ ['{', '[', ']', ','], isItemChar c = false := by
  intro c hc
  simp only [List.mem_cons, List.not_mem_nil, or_false] at hc
  rcases hc with rfl | rfl | rfl | rfl <;> decide +kernel

theorem fieldList_of_spellsItems (h : SpellsItems words t) {value : Text} (hbrace : '{' ∉ value)
    (hvalue : strip value = strip t ∨ strip value = '[' :: (t ++ [']'])) :
    fieldList value = words.filter (!·.isEmpty) := by
  have hopen : '[' ∉ t := h.notMem (not_isItemChar _ (by simp)) (by decide)
  have hclose : ']' ∉ t := h.notMem (not_isItemChar _ (by simp)) (by decide)
  rw [fieldList_eq hbrace]
  rcases hvalue with hvalue | hvalue
  · rw [hvalue, bracketed_of_notMem fun hmem => hopen (mem_strip hmem), map_fieldWord_strip,
      map_fieldWord_splitOn h]
  · rw [hvalue, bracketed_brackets hclose, map_fieldWord_splitOn h]

theorem strip_brackets (t : Text) : strip ('[' :: (t ++ [']'])) = '[' :: (t ++ [']']) := by
  refine stripBoth_of_ends (fun c hc => ?_) fun c hc => ?_
  · rw [← Option.some.inj hc]
    decide
  · rw [← List.cons_append, List.getLast?_concat] at hc
    rw [← Option.some.inj hc]
    decide

theorem spellsItem_self (h : ∀ c ∈ word, isFieldChar c = true) : SpellsItem word word := by
  have hself := SpellsItem.mk [] [] rfl rfl h .bare
  rwa [List.nil_append, List.append_nil] at hself

theorem exists_spellsItems (h : ∀ name ∈ names, name ≠ [] ∧ ∀ c ∈ name, isFieldChar c = true) :
    ∃ words t, SpellsItems words t ∧ words.filter (!·.isEmpty) = names := by
  induction names with
  | nil =>
    have hnone : SpellsItem [] [] := spellsItem_self (by simp)
    exact ⟨_, _, .single hnone, rfl⟩
  | cons name names ih =>
    rw [List.forall_mem_cons] at h
    obtain ⟨words, t, hrest, hnames⟩ := ih h.2
    exact ⟨_, _, .cons (spellsItem_self h.1.2) hrest, by simp [h.1.1, hnames]⟩

/-- Whatever spells a list of names is read as that list, and every list of names can be spelled. -/
theorem fieldList_spelled : (∀ names t, SpellsList names t → fieldList t = names) ∧
    ∀ names : List Text, (∀ name ∈ names, name ≠ [] ∧ ∀ c ∈ name, isFieldChar c = true) →
      ∃ t, SpellsList names t := by
  constructor
  · intro names t h
    have hblank : ∀ {b : Text}, isAllBlank b = true → '{' ∉ b := fun hb =>
      (Expression.braces_notMem_of_blank hb).1
    cases h with
    | @bare before after words t hbefore hafter h =>
      have hbrace := h.notMem (not_isItemChar '{' (by simp)) (by decide)
      exact fieldList_of_spellsItems h (by simp [hblank hbefore, hblank hafter, hbrace])
        (.inl (strip_append hbefore hafter t))
    | @bracketed before after words t hbefore hafter h =>
      have hbrace := h.notMem (not_isItemChar '{' (by simp)) (by decide)
      exact fieldList_of_spellsItems h (by simp [hblank hbefore, hblank hafter, hbrace])
        (.inr ((strip_append hbefore hafter _).trans (strip_brackets t)))
  · intro names h
    obtain ⟨words, t, hitems, rfl⟩ := exists_spellsItems h
    exact ⟨_, SpellsList.bare [] [] rfl rfl hitems⟩

/-- A name twice, quoted and bare, with an item of no name between them. -/
theorem fieldList_spelled_owner :
    SpellsList ["Name".toList, "Owner.Id".toList, "Name".toList]
        " [ 'Name' , \"Owner.Id\",, Name ]\n".toList ∧
      fieldList " [ 'Name' , \"Owner.Id\",, Name ]\n".toList =
        ["Name".toList, "Owner.Id".toList, "Name".toList] := by
  have hname : ∀ c ∈ "Name".toList, isFieldChar c = true := List.all_eq_true.1 (by decide +kernel)
  have howner : ∀ c ∈ "Owner.Id".toList, isFieldChar c = true :=
    List.all_eq_true.1 (by decide +kernel)
  have hfirst : SpellsItem "Name".toList " 'Name' ".toList :=
    .mk [' '] [' '] rfl rfl hname (.quoted '\'' rfl)
  have hsecond : SpellsItem "Owner.Id".toList " \"Owner.Id\"".toList :=
    .mk [' '] [] rfl rfl howner (.quoted '"' rfl)
  have hthird : SpellsItem [] [] := spellsItem_self (by simp)
  have hlast : SpellsItem "Name".toList " Name ".toList := .mk [' '] [' '] rfl rfl hname .bare
  have hspells : SpellsList ["Name".toList, "Owner.Id".toList, "Name".toList]
      " [ 'Name' , \"Owner.Id\",, Name ]\n".toList :=
    .bracketed [' '] ['\n'] rfl rfl (.cons hfirst (.cons hsecond (.cons hthird (.single hlast))))
  exact ⟨hspells, fieldList_spelled.1 _ _ hspells⟩

end LightningTemplate
